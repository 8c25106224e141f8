import ModelGuard.Exceptions
import ModelGuard.Lib.Normalize

/-!
# Registry identifiers

The names that every backend accepts.
-/

namespace ModelGuard.Registry

open Lib Lib.Fallible

def maxIdentifierLength : Nat := 200

variable (nfc : Str → Str)

/-- `_problem`; `nfc` is `unicodedata.normalize("NFC", ·)`. -/
def problem (value : Str) : Option String :=
  if value.isEmpty then some "must not be empty"
  else if value.length > maxIdentifierLength then some "longer than 200 characters"
  else if value ∈ [str ".", str ".."] then some "must not be '.' or '..'"
  else if cp '/' ∈ value ∨ cp '\\' ∈ value then some "must not contain path separators"
  else if value.any isControl then some "must not contain control characters"
  else if value ≠ strip value then some "must not have leading or trailing whitespace"
  else if nfc value ≠ value then some "must be Unicode NFC-normalized"
  else none

/-- `validate_identifier`. -/
def validateIdentifier (host : Host) (field : String) (value : Str) : Except Raised Str :=
  match problem nfc value with
  | some reason =>
    .error (.modelGuard .invalidIdentifierError
      (str "Unsafe registry " ++ str field ++ str " " ++ host.repr (value.take 60) ++ str ": " ++ str reason ++ str "."))
  | none => .ok value

/-- `validate_identifier` of both names of a version. -/
def validateNames (host : Host) (modelId version : Str) : Except Raised Unit := do
  let _ ← validateIdentifier nfc host "model_id" modelId
  let _ ← validateIdentifier nfc host "version" version
  return ()

/-- A name that passes. -/
def Valid (value : Str) : Prop := problem nfc value = none

instance (value : Str) : Decidable (Valid nfc value) := inferInstanceAs (Decidable (_ = _))

variable {nfc} {host : Host} {field : String} {value : Str}

theorem validateIdentifier_valid (h : Valid nfc value) : validateIdentifier nfc host field value = .ok value := by
  unfold validateIdentifier
  rw [h]

theorem validateIdentifier_invalid (host : Host) (field : String) (h : ¬Valid nfc value) :
    ∃ message, validateIdentifier nfc host field value = .error (.modelGuard .invalidIdentifierError message) := by
  unfold validateIdentifier
  split
  · exact ⟨_, rfl⟩
  · rename_i passes
    exact (h passes).elim

theorem validateIdentifier_ok {out : Str} :
    validateIdentifier nfc host field value = .ok out ↔ Valid nfc value ∧ out = value := by
  by_cases h : Valid nfc value
  · rw [validateIdentifier_valid h]
    exact ⟨fun same => ⟨h, (Except.ok.inj same).symm⟩, fun same => by rw [same.2]⟩
  · obtain ⟨message, raised⟩ := validateIdentifier_invalid host field h
    rw [raised]
    exact ⟨nofun, fun ⟨valid, _⟩ => (h valid).elim⟩

theorem validateNames_ok {modelId version : Str} {u : Unit} :
    validateNames nfc host modelId version = .ok u ↔ Valid nfc modelId ∧ Valid nfc version := by
  unfold validateNames
  simp only [bind_ok, validateIdentifier_ok, pure_ok]
  constructor
  · intro ⟨_, ⟨first, _⟩, _, ⟨second, _⟩, _⟩
    exact ⟨first, second⟩
  · intro ⟨first, second⟩
    exact ⟨_, ⟨first, rfl⟩, _, ⟨second, rfl⟩, trivial⟩

theorem validateNames_invalid (host : Host) {modelId version : Str} (h : ¬(Valid nfc modelId ∧ Valid nfc version)) :
    ∃ message, validateNames nfc host modelId version = .error (.modelGuard .invalidIdentifierError message) := by
  unfold validateNames
  by_cases first : Valid nfc modelId
  · obtain ⟨message, raised⟩ := validateIdentifier_invalid host "version" fun second => h ⟨first, second⟩
    exact ⟨message, by rw [validateIdentifier_valid first, raised]; rfl⟩
  · obtain ⟨message, raised⟩ := validateIdentifier_invalid host "model_id" first
    exact ⟨message, by rw [raised]; rfl⟩

/-- A valid name fits the length check of the tables. -/
theorem Valid.length (h : Valid nfc value) : 1 ≤ value.length ∧ value.length ≤ 200 := by
  unfold Valid problem at h
  split at h
  · cases h
  · rename_i shown
    split at h
    · cases h
    · rename_i short
      have nonempty : value ≠ [] := fun empty => shown (by rw [empty]; rfl)
      exact ⟨List.length_pos_iff.mpr nonempty, not_lt.mp short⟩

end ModelGuard.Registry
