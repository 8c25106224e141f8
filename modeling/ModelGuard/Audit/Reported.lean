import ModelGuard.Audit.Intact

/-!
# What verification raises

Every line is decoded before the first link is checked. Only the checks raise a `ChainIntegrityError`; what the
decoding raises passes through.
-/

namespace ModelGuard.Audit

open Lib Lib.Fallible

variable {F : Type} [FloatText F]

/-- What `json.loads` raises at a limit of the interpreter: `RecursionError` on text that nests too deeply, and
`ValueError` on an integer of too many digits. -/
inductive LimitError where
  | recursionError
  | valueError

/-- The limit that stops `json.loads` on a text, if one does. Encoding a record takes no more depth than decoding
the line it stands on. -/
structure Interpreter where
  limit : Str → Option LimitError

inductive LogError (F : Type) where
  | chain (e : ChainError F)
  | limit (e : LimitError)

variable (python : Interpreter)

def readLineIn (line : Str) : Except (LogError F) (ChainEntry F) :=
  match python.limit line with
  | some e => .error (.limit e)
  | none => (readLine line).mapError .chain

def readAllEntriesIn : Option Bytes → Except (LogError F) (List (ChainEntry F))
  | none => .ok []
  | some content => do
    let text ← orRaise (.chain .valueError) (decodeUtf8 content)
    (entryLines text).mapM (readLineIn python)

/-- `verify_chain`, with the limits of the interpreter. -/
def verifyChainIn (sha : Sha256) (log : Option Bytes) : Except (LogError F) Unit := do
  (verifyFrom sha genesisHash (← readAllEntriesIn python log)).mapError .chain

/-- The keys that an entry is read from. -/
def entryFields : List Str := [str "index", str "record", str "record_hash", str "prev_hash"]

/-- UTF-8, and on each line that is not blank a JSON object with the fields of an entry, within the limits. -/
def Legible (F : Type) [FloatText F] (content : Bytes) : Prop :=
  ∃ text, decodeUtf8 content = some text ∧ ∀ line ∈ entryLines text, python.limit line = none ∧
    ∃ fields : List (Str × Json F), Json.loads line = some (.obj fields) ∧
      ∀ key ∈ entryFields, ∃ v, fields.lookup key = some v

def ChainError.IsIntegrity : ChainError F → Prop
  | .integrity .. => True
  | _ => False

/-- A `ChainIntegrityError`. -/
def LogError.IsIntegrity : LogError F → Prop
  | .chain e => e.IsIntegrity
  | .limit _ => False

/-- Verification returns or raises a `ChainIntegrityError`. -/
def VerifyReports (F : Type) [FloatText F] (sha : Sha256) (log : Option Bytes) : Prop :=
  verifyChainIn (F := F) python sha log = .ok () ∨
    ∃ index reason, verifyChainIn (F := F) python sha log = .error (.chain (.integrity index reason))

variable {python}

/-! ### Reading raises no integrity error -/

omit [FloatText F] in
theorem getItem_raises (key : Str) (v : Json F) : RaisesOnly (fun e => ¬ChainError.IsIntegrity e) (getItem key v) := by
  unfold getItem
  split
  · exact raisesOnly_orRaise.mpr fun _ => id
  · exact raisesOnly_error.mpr id

theorem readLine_raises (line : Str) : RaisesOnly (fun e => ¬ChainError.IsIntegrity e) (readLine (F := F) line) := by
  unfold readLine
  rw [raisesOnly_bind]
  refine ⟨raisesOnly_orRaise.mpr fun _ => id, fun data _ => ?_⟩
  rw [raisesOnly_bind]
  refine ⟨getItem_raises _ data, fun _ _ => ?_⟩
  rw [raisesOnly_bind]
  refine ⟨getItem_raises _ data, fun _ _ => ?_⟩
  rw [raisesOnly_bind]
  refine ⟨getItem_raises _ data, fun _ _ => ?_⟩
  rw [raisesOnly_bind]
  exact ⟨getItem_raises _ data, fun _ _ => raisesOnly_ok⟩

theorem readLineIn_raises (line : Str) :
    RaisesOnly (fun e => ¬LogError.IsIntegrity e) (readLineIn (F := F) python line) := by
  unfold readLineIn
  split
  · exact raisesOnly_error.mpr id
  · exact raisesOnly_mapError.mpr (readLine_raises line)

theorem readAllEntriesIn_raises (log : Option Bytes) :
    RaisesOnly (fun e => ¬LogError.IsIntegrity e) (readAllEntriesIn (F := F) python log) := by
  cases log with
  | none => exact raisesOnly_ok
  | some content =>
    unfold readAllEntriesIn
    rw [raisesOnly_bind]
    exact ⟨raisesOnly_orRaise.mpr fun _ => id, fun text _ => raisesOnly_mapM fun line _ => readLineIn_raises line⟩

/-! ### When reading returns -/

theorem readLine_returns_iff {line : Str} :
    (∃ e, readLine (F := F) line = .ok e) ↔
      ∃ fields : List (Str × Json F), Json.loads line = some (.obj fields) ∧
        ∀ key ∈ entryFields, ∃ v, fields.lookup key = some v := by
  unfold entryFields
  simp only [readLine_ok, List.forall_mem_cons, List.not_mem_nil, false_implies, implies_true, and_true]
  constructor
  · rintro ⟨e, fields, decoded, index, record, hash, prev⟩
    exact ⟨fields, decoded, ⟨_, index⟩, ⟨_, record⟩, ⟨_, hash⟩, ⟨_, prev⟩⟩
  · rintro ⟨fields, decoded, ⟨index, h₁⟩, ⟨record, h₂⟩, ⟨recordHash, h₃⟩, ⟨prevHash, h₄⟩⟩
    exact ⟨⟨index, record, recordHash, prevHash⟩, fields, decoded, h₁, h₂, h₃, h₄⟩

theorem readLineIn_returns_iff {line : Str} :
    (∃ e, readLineIn (F := F) python line = .ok e) ↔ python.limit line = none ∧ ∃ e, readLine (F := F) line = .ok e := by
  unfold readLineIn
  cases python.limit line with
  | some e => simp
  | none => cases readLine (F := F) line <;> simp [Except.mapError]

theorem readAllEntriesIn_returns_iff {content : Bytes} :
    (∃ entries, readAllEntriesIn (F := F) python (some content) = .ok entries) ↔ Legible python F content := by
  have lines (text : Str) : (∃ entries, (entryLines text).mapM (readLineIn (F := F) python) = .ok entries) ↔
      ∀ line ∈ entryLines text, python.limit line = none ∧ ∃ fields : List (Str × Json F),
        Json.loads line = some (.obj fields) ∧ ∀ key ∈ entryFields, ∃ v, fields.lookup key = some v := by
    simp only [mapM_returns_iff, readLineIn_returns_iff, readLine_returns_iff]
  unfold readAllEntriesIn Legible
  simp only [bind_ok, orRaise_ok, ← lines]
  constructor
  · intro ⟨entries, text, decoded, read⟩
    exact ⟨text, decoded, entries, read⟩
  · intro ⟨text, decoded, entries, read⟩
    exact ⟨entries, text, decoded, read⟩

/-! ### Checking raises nothing else -/

/-- The hash that the next entry must name is ASCII, so `.encode` does not fail after the comparison. -/
theorem verifyFrom_raises {sha : Sha256} {p : Str} {entries : List (ChainEntry F)} (ascii : Ascii p) :
    RaisesOnly ChainError.IsIntegrity (verifyFrom sha p entries) := by
  induction entries generalizing p with
  | nil => exact raisesOnly_ok
  | cons e rest ih =>
    unfold verifyFrom
    rw [raisesOnly_bind]
    refine ⟨raisesOnly_ensure.mpr fun _ => trivial, fun _ linked => ?_⟩
    have prev := isText_iff.mp (ensure_ok.mp linked)
    have encoded : encodeText e.prevHash = .ok (asciiBytes p) := by
      rw [prev, encodeText, orRaise_ok, encodeUtf8_ascii ascii]
    rw [encoded]
    rw [raisesOnly_bind]
    refine ⟨raisesOnly_ok, fun bytes _ => ?_⟩
    rw [raisesOnly_bind]
    exact ⟨raisesOnly_ensure.mpr fun _ => trivial, fun _ _ => ih (recordHash_ascii sha _ _)⟩

theorem verifyReports_raisesOnly {sha : Sha256} {log : Option Bytes} :
    VerifyReports python F sha log ↔ RaisesOnly LogError.IsIntegrity (verifyChainIn (F := F) python sha log) := by
  unfold VerifyReports
  rw [raisesOnly_iff]
  constructor
  · rintro (accepted | ⟨index, reason, raised⟩)
    · exact Or.inl ⟨(), accepted⟩
    · exact Or.inr ⟨.chain (.integrity index reason), trivial, raised⟩
  · rintro (⟨_, accepted⟩ | ⟨e, integrity, raised⟩)
    · exact Or.inl accepted
    · cases e with
      | limit e => exact integrity.elim
      | chain e =>
        cases e with
        | integrity index reason => exact Or.inr ⟨index, reason, raised⟩
        | _ => exact integrity.elim

/-- Every failure is a `ChainIntegrityError` exactly when the file is legible. -/
theorem verify_reports_iff (python : Interpreter) (sha : Sha256) (log : Option Bytes) :
    VerifyReports python F sha log ↔ ∀ content, log = some content → Legible python F content := by
  rw [verifyReports_raisesOnly]
  unfold verifyChainIn
  rw [raisesOnly_bind, raisesOnly_of_not (readAllEntriesIn_raises log)]
  have checked (entries : List (ChainEntry F)) :
      RaisesOnly LogError.IsIntegrity ((verifyFrom sha genesisHash entries).mapError .chain) :=
    raisesOnly_mapError.mpr (verifyFrom_raises ascii_genesisHash)
  constructor
  · intro ⟨returns, _⟩ content same
    subst same
    exact readAllEntriesIn_returns_iff.mp returns
  · intro legible
    refine ⟨?_, fun entries _ => checked entries⟩
    cases log with
    | none => exact ⟨[], rfl⟩
    | some content => exact readAllEntriesIn_returns_iff.mpr (legible content rfl)

/-- Within the limits of the interpreter this is `verify_chain` without them. -/
theorem verifyChainIn_within {sha : Sha256} {log : Option Bytes} (within : ∀ text, python.limit text = none) :
    verifyChainIn (F := F) python sha log = (verifyChain sha log).mapError .chain := by
  have line : readLineIn (F := F) python = fun line => (readLine line).mapError .chain := by
    funext text
    unfold readLineIn
    rw [within text]
  have lines (l : List Str) : l.mapM (readLineIn (F := F) python) = (l.mapM readLine).mapError .chain := by
    rw [line]
    induction l with
    | nil => rfl
    | cons a l ih =>
      rw [List.mapM_cons, List.mapM_cons, ih]
      cases readLine (F := F) a with
      | error _ => rfl
      | ok e => cases l.mapM (readLine (F := F)) <;> rfl
  have read : readAllEntriesIn (F := F) python log = (readAllEntries log).mapError .chain := by
    cases log with
    | none => rfl
    | some content =>
      unfold readAllEntriesIn readAllEntries
      dsimp only
      cases decodeUtf8 content with
      | none => rfl
      | some text => exact lines _
  unfold verifyChainIn verifyChain
  rw [read]
  cases readAllEntries (F := F) log <;> rfl

/-- The first octet of a log that was written is damaged: no UTF-8 text starts with 0xff. -/
theorem damaged_log_not_reported :
    ∃ first rest, appendAll firstLinkSha none [emptyRecord SpecialFloat] = .ok (some (first :: rest)) ∧
      ¬ VerifyReports { limit := fun _ => none } SpecialFloat firstLinkSha (some (0xff :: rest)) := by
  obtain ⟨entry, content, appended, -, -⟩ := append_step (appendable_none firstLinkSha) (emptyRecord SpecialFloat)
  obtain ⟨-, -, -, -, -, -, written⟩ := appendEntry_ok.mp appended
  obtain ⟨text, brace⟩ := lineText_cons entry
  refine ⟨0x7b, asciiBytes (text ++ [newline]), ?_, ?_⟩
  · unfold appendAll
    rw [appended, written, brace]
    rfl
  · intro reported
    obtain ⟨_, decoded, -⟩ := (verify_reports_iff _ _ _).mp reported _ rfl
    cases decoded

end ModelGuard.Audit
