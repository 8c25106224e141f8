import ModelGuard.Signing.TrustFile

/-!
# What loading a trust configuration raises

The loader translates the errors it knows of. What else PyYAML raises while it constructs a scalar or
descends passes through.
-/

namespace ModelGuard.Signing

open Lib Lib.Fallible Lib.Validation

variable {F : Type} {env : TrustFileEnv F} {path : Str}

/-- A `TrustConfigurationError`. -/
def IsTrustConfigurationError (raised : Raised) : Prop := ∃ message, raised = trustConfigurationError message

theorem trustConfigurationError_is (message : Str) : IsTrustConfigurationError (trustConfigurationError message) :=
  ⟨message, rfl⟩

/-- Loading gives a configuration or raises a `TrustConfigurationError`. -/
def LoadReports (env : TrustFileEnv F) (path : Str) (read : Except Str Bytes) : Prop :=
  (∃ config, loadTrustConfigFile env path read = .ok config) ∨
    ∃ message, loadTrustConfigFile env path read = .error (trustConfigurationError message)

/-- The text that is given to `yaml.safe_load`. -/
def ParsedText (read : Except Str Bytes) (text : Str) : Prop :=
  ∃ rawBytes, read = .ok rawBytes ∧ rawBytes.length ≤ maxTrustConfigBytes ∧ decodeUtf8 rawBytes = some text

theorem loadReports_raisesOnly {read : Except Str Bytes} :
    LoadReports env path read ↔ RaisesOnly IsTrustConfigurationError (loadTrustConfigFile env path read) := by
  unfold LoadReports IsTrustConfigurationError
  rw [raisesOnly_iff]
  apply or_congr_right
  constructor
  · intro ⟨message, raised⟩
    exact ⟨_, trustConfigurationError_is message, raised⟩
  · intro ⟨_, ⟨message, same⟩, raised⟩
    exact ⟨message, same ▸ raised⟩

/-- Once the text is there, only PyYAML raises anything else. -/
theorem parse_raisesOnly {rawBytes : Bytes} :
    RaisesOnly IsTrustConfigurationError (parseTrustConfig env path rawBytes) ↔
      ∀ text, rawBytes.length ≤ maxTrustConfigBytes → decodeUtf8 rawBytes = some text →
        ∀ className message, env.safeLoad text ≠ .error (.external className message) := by
  unfold parseTrustConfig
  dsimp only
  simp only [raisesOnly_bind, raisesOnly_ensure, raisesOnly_orRaise, trustConfigurationError_is, implies_true, true_and,
    ensure_ok, orRaise_ok]
  constructor
  · intro reported text small decoded className message external
    have raised := reported () small text decoded
    rw [external] at raised
    obtain ⟨_, same⟩ := raisesOnly_error.mp raised
    cases same
  · intro quiet _ small text decoded
    split
    · exact raisesOnly_error.mpr (trustConfigurationError_is _)
    · rename_i className message external
      exact (quiet text small decoded className message external).elim
    · split
      · exact raisesOnly_ok
      · exact raisesOnly_error.mpr (trustConfigurationError_is _)
    · split
      · exact raisesOnly_error.mpr (trustConfigurationError_is _)
      · exact raisesOnly_error.mpr (trustConfigurationError_is _)

/-- Every failure is reported as such, unless PyYAML raises an exception of another package on the text. -/
theorem load_reports_iff (env : TrustFileEnv F) (path : Str) (read : Except Str Bytes) :
    LoadReports env path read ↔
      ∀ text, ParsedText read text → ∀ className message, env.safeLoad text ≠ .error (.external className message) := by
  rw [loadReports_raisesOnly]
  cases read with
  | error strerror =>
    constructor
    · intro _ text ⟨_, unread, _⟩
      cases unread
    · intro _
      exact raisesOnly_error.mpr (trustConfigurationError_is _)
  | ok rawBytes =>
    show RaisesOnly IsTrustConfigurationError (parseTrustConfig env path rawBytes) ↔ _
    rw [parse_raisesOnly]
    constructor
    · intro quiet text ⟨_, same, small, decoded⟩
      cases same
      exact quiet text small decoded
    · intro quiet text small decoded
      exact quiet text ⟨rawBytes, rfl, small, decoded⟩

/-! ### A day that February does not have -/

def februaryText : Str :=
  str "keys:\n- key_id: " ++ List.replicate 64 (cp 'a') ++ str "\n  not_after: 2027-02-30\n"

/-- PyYAML makes a `date` of such a scalar, and `date` raises. -/
def februaryEnv : TrustFileEnv AwareDatetime where
  toTrustEnv := sampleTrustEnv
  safeLoad text :=
    if text = februaryText then .error (.external (str "ValueError") (str "day is out of range for month"))
    else .error (.yamlError (str "could not determine a constructor"))
  safeDump := fun _ => []
  decodeError := fun _ => str "invalid start byte"
  otherMapping := fun _ => none

theorem february_not_reported :
    (∀ text className message, februaryEnv.safeLoad text = .error (.external className message) →
      className = str "ValueError" ∨ className = str "RecursionError") ∧
    ¬ LoadReports februaryEnv (str "trust.yaml") (.ok (asciiBytes februaryText)) := by
  constructor
  · intro text className message external
    unfold februaryEnv at external
    dsimp only at external
    split at external
    · cases external
      exact Or.inl rfl
    · cases external
  · intro reported
    have ascii : Ascii februaryText := by decide
    have small : (asciiBytes februaryText).length ≤ maxTrustConfigBytes := by decide
    have parsed : ParsedText (.ok (asciiBytes februaryText)) februaryText := ⟨_, rfl, small, decodeUtf8_ascii ascii⟩
    apply (load_reports_iff _ _ _).mp reported februaryText parsed (str "ValueError") (str "day is out of range for month")
    unfold februaryEnv
    dsimp only
    rw [if_pos rfl]

end ModelGuard.Signing
