import ModelGuard.Registry.LocalLog
import ModelGuard.Registry.LocalRows

/-!
# Any history of a file-backed registry

Whatever was called on it, and whichever writes failed, its record files are named after valid versions and
its revocation log can be read.
-/

namespace ModelGuard.Registry.LocalStore

open Lib Lib.Fallible

/-- A call that may change the files, with its writes that fail. -/
inductive Change where
  | register (faults : WriteFaults) (record : RegistryRecord)
  | append (call : RevocationCall)

variable (env : RegistryEnv)

def Change.run (store : LocalStore) : Change → LocalStore
  | .register faults record => (LocalStore.register env store faults record).2
  | .append call => (appendCall env store call).2

/-- The files after some calls, from an empty root. -/
def history (changes : List Change) : LocalStore := changes.foldl (Change.run env) .empty

structure Regular (store : LocalStore) : Prop where
  named : ∀ e ∈ store.records, ∃ modelId version, (Valid env.nfc modelId ∧ Valid env.nfc version) ∧
    e.1 = (modelId, version ++ recordSuffix)
  dirs : ∀ e ∈ store.records, e.1.1 ∈ store.modelDirs
  log : ∃ events, LogHolds env store events

/-- The version has a record file. -/
def HasRecord (store : LocalStore) (modelId version : Str) : Prop :=
  (modelId, version ++ recordSuffix) ∈ store.records.map (·.1)

variable {env} {store : LocalStore}

theorem regular_empty : Regular env .empty where
  named _ mem := absurd mem List.not_mem_nil
  dirs _ mem := absurd mem List.not_mem_nil
  log := ⟨[], logHolds_empty env⟩

/-! ### One call -/

theorem Regular.makeDir (h : Regular env store) (dir : Str) : Regular env (store.makeDir dir) where
  named := h.named
  dirs e mem := (makeDir_keeps store dir).2 _ (h.dirs e mem)
  log := h.log.imp fun _ holds => holds.of_log rfl

theorem Regular.written (h : Regular env store) {record : RegistryRecord}
    (valid : Valid env.nfc record.modelId ∧ Valid env.nfc record.version) : Regular env (written env store record) where
  named e mem := by
    rcases List.mem_append.mp mem with old | new
    · exact h.named e (List.mem_of_mem_filter old)
    · rw [List.mem_singleton.mp new]
      exact ⟨_, _, valid, rfl⟩
  dirs e mem := by
    obtain ⟨own, kept⟩ := makeDir_keeps store record.modelId
    rcases List.mem_append.mp mem with old | new
    · exact kept _ (h.dirs e (List.mem_of_mem_filter old))
    · rw [List.mem_singleton.mp new]
      exact own
  log := h.log.imp fun _ holds => holds.of_log rfl

theorem Regular.writeDigestIndex (h : Regular env store) (index : List (Str × Json SpecialFloat)) :
    Regular env (store.writeDigestIndex index) where
  named := h.named
  dirs := h.dirs
  log := h.log.imp fun _ holds => holds.of_log rfl

theorem Regular.register (h : Regular env store) (faults : WriteFaults) (record : RegistryRecord) :
    Regular env (LocalStore.register env store faults record).2 := by
  unfold LocalStore.register
  split
  · exact h
  · rename_i path named
    obtain ⟨valid, same⟩ := versionPath_ok.mp named
    subst same
    have made := h.makeDir record.modelId
    have wrote := h.written valid
    split
    · exact h
    · dsimp only
      split
      · exact made
      · split
        · exact wrote
        · split
          · exact wrote
          · split
            · exact wrote
            · exact wrote.writeDigestIndex _

theorem Regular.record (h : Regular env store) (call : RevocationCall) : Regular env (appendCall env store call).2 := by
  obtain ⟨events, holds⟩ := h.log
  by_cases valid : Valid env.nfc call.modelId ∧ Valid env.nfc call.version
  · obtain ⟨content, appended, next⟩ := holds.append valid
    rw [appended]
    exact ⟨h.named, h.dirs, _, next⟩
  · obtain ⟨message, raised⟩ := appendCall_invalid env store valid
    rw [raised]
    exact h

theorem Regular.change (h : Regular env store) (change : Change) : Regular env (change.run env store) := by
  cases change with
  | register faults record => exact h.register faults record
  | append call => exact h.record call

theorem regular_history (env : RegistryEnv) (changes : List Change) : Regular env (history env changes) := by
  unfold history
  have kept : ∀ store, Regular env store → Regular env (changes.foldl (Change.run env) store) := by
    induction changes with
    | nil => exact fun store h => h
    | cons change changes ih => exact fun store h => ih _ (h.change change)
  exact kept .empty regular_empty

/-! ### What the queries answer -/

theorem mem_recordFiles (h : Regular env store) {modelId version : Str} :
    version ∈ (store.recordFiles modelId).map stem ↔ HasRecord store modelId version := by
  unfold recordFiles HasRecord
  simp only [List.map_map, List.mem_map, List.mem_filter, decide_eq_true_eq, Function.comp]
  constructor
  · rintro ⟨e, ⟨mem, dir, -⟩, same⟩
    obtain ⟨modelId', version', valid, path⟩ := h.named e mem
    have shown : version' ≠ [] := List.length_pos_iff.mp valid.2.length.1
    rw [path, stem_recordFile shown] at same
    rw [path] at dir
    exact ⟨e, mem, by rw [path, ← same, ← dir]⟩
  · rintro ⟨e, mem, path⟩
    obtain ⟨modelId', version', valid, path'⟩ := h.named e mem
    have shown : version' ≠ [] := List.length_pos_iff.mp valid.2.length.1
    rw [path', Prod.mk.injEq, List.append_cancel_right_eq] at path
    obtain ⟨sameModel, sameVersion⟩ := path
    subst sameModel sameVersion
    refine ⟨e, ⟨mem, by rw [path'], ?_⟩, ?_⟩
    · rw [path']
      exact List.isSuffixOf_iff_suffix.mpr (List.suffix_append _ _)
    · rw [path', stem_recordFile shown]

theorem HasRecord.valid (h : Regular env store) {modelId version : Str} (registered : HasRecord store modelId version) :
    Valid env.nfc modelId ∧ Valid env.nfc version := by
  obtain ⟨e, mem, path⟩ := List.mem_map.mp registered
  obtain ⟨modelId', version', valid, path'⟩ := h.named e mem
  rw [path', Prod.mk.injEq, List.append_cancel_right_eq] at path
  obtain ⟨sameModel, sameVersion⟩ := path
  subst sameModel sameVersion
  exact valid

theorem Regular.listVersions (h : Regular env store) {modelId : Str} (valid : Valid env.nfc modelId) :
    ∃ versions, LocalStore.listVersions env store modelId = .ok versions ∧
      ∀ version, version ∈ versions ↔ HasRecord store modelId version := by
  unfold LocalStore.listVersions
  rw [validateIdentifier_valid valid]
  show ∃ versions, (if modelId ∈ store.modelDirs then _ else _) = Except.ok versions ∧ _
  split
  · refine ⟨_, rfl, fun version => ?_⟩
    rw [List.mem_insertionSort]
    exact mem_recordFiles h
  · rename_i missing
    refine ⟨[], rfl, fun version => ?_⟩
    constructor
    · intro mem
      exact absurd mem List.not_mem_nil
    · intro registered
      obtain ⟨e, mem, path⟩ := List.mem_map.mp registered
      have dir := h.dirs e mem
      rw [path] at dir
      exact absurd dir missing

/-- The call as it is read back: the log does not tell a character from its two surrogates. -/
def readBack : RevocationCall → RevocationCall
  | .revoke r =>
    .revoke { modelId := Json.joinText r.modelId, version := Json.joinText r.version,
              revokedBy := Json.joinText r.revokedBy, reason := Json.joinText r.reason,
              revokedAt := Json.joinText r.revokedAt }
  | .unrevoke modelId version actor reason now =>
    .unrevoke (Json.joinText modelId) (Json.joinText version) (Json.joinText actor) (Json.joinText reason)
      (Json.joinText now)

theorem readBack_joined (call : RevocationCall) : ∀ s ∈ (readBack call).texts, Json.Joined s := by
  cases call <;> simp [readBack, RevocationCall.texts, Json.joinText_joined]

theorem readBack_logRecord (call : RevocationCall) : (readBack call).logRecord.json = call.logRecord.json := by
  have twice (s : Str) : Json.joinText (Json.joinText s) = Json.joinText s :=
    Json.joinText_of_joined (Json.joinText_joined s)
  have fixed (s : String) : Json.joinText (str s) = str s := Json.joinText_of_joined (Json.joined_str s)
  cases call <;>
    simp [readBack, RevocationCall.logRecord, RevocationCall.members, Registry.logRecord, Audit.Record.json, twice, fixed]

theorem LogHolds.readBack {events : List RevocationCall} (h : LogHolds env store events) :
    LogHolds env store (events.map readBack) := by
  obtain ⟨entries, appendable, records⟩ := h
  refine ⟨entries, appendable, ?_⟩
  rw [records, List.map_map]
  apply List.map_congr_left
  intro call _
  exact (readBack_logRecord call).symm

/-- A valid version is answered about, whatever texts the log holds. -/
theorem Regular.isRevoked (h : Regular env store) {modelId version : Str}
    (valid : Valid env.nfc modelId ∧ Valid env.nfc version) :
    ∃ answer, LocalStore.isRevoked env store modelId version = .ok answer := by
  obtain ⟨events, holds⟩ := h.log
  refine ⟨_, holds.readBack.isRevoked ?_ valid⟩
  intro call mem s text
  obtain ⟨original, -, same⟩ := List.mem_map.mp mem
  subst same
  exact readBack_joined original s text

end ModelGuard.Registry.LocalStore
