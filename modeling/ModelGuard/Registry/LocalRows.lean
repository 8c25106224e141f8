import ModelGuard.Lib.JsonJoin
import ModelGuard.Registry.Ledger
import ModelGuard.Registry.Local

/-!
# The files of the registry and the registrations they hold
-/

namespace ModelGuard.Registry

open Lib Lib.Fallible

namespace LocalStore

/-- The digest index after some registrations. -/
def indexOf (rows : List RegistryRecord) : List (Str × Json SpecialFloat) :=
  Dict.firstOf RegistryRecord.artifactDigest indexEntry rows

def recordPath (r : RegistryRecord) : Str × Str := (r.modelId, r.version ++ recordSuffix)

/-- The files hold the registrations `rows`, in this order. -/
structure Holds (env : RegistryEnv) (rows : List RegistryRecord) (store : LocalStore) : Prop where
  records : store.records = rows.map fun r => (recordPath r, env.codec.modelDumpJson r)
  dirs : ∀ r ∈ rows, r.modelId ∈ store.modelDirs
  index : store.readDigestIndex = .ok (indexOf rows)
  valid : ∀ r ∈ rows, Valid env.nfc r.modelId ∧ Valid env.nfc r.version
  distinct : (rows.map RegistryRecord.key).Nodup
  readsBack : ∀ r ∈ rows, env.codec.ReadsBack r

variable {env : RegistryEnv} {rows : List RegistryRecord} {store : LocalStore}

theorem holds_empty : Holds env [] LocalStore.empty where
  records := rfl
  dirs _ mem := absurd mem List.not_mem_nil
  index := rfl
  valid _ mem := absurd mem List.not_mem_nil
  distinct := List.nodup_nil
  readsBack _ mem := absurd mem List.not_mem_nil

/-! ### Paths -/

theorem versionPath_ok {modelId version : Str} {path : Str × Str} :
    versionPath env modelId version = .ok path ↔
      (Valid env.nfc modelId ∧ Valid env.nfc version) ∧ path = (modelId, version ++ recordSuffix) := by
  unfold versionPath
  simp only [bind_ok, validateIdentifier_ok, pure_ok]
  constructor
  · intro ⟨_, ⟨valid, same⟩, _, ⟨valid', same'⟩, made⟩
    subst same same'
    exact ⟨⟨valid, valid'⟩, made.symm⟩
  · intro ⟨⟨valid, valid'⟩, made⟩
    exact ⟨_, ⟨valid, rfl⟩, _, ⟨valid', rfl⟩, made.symm⟩

theorem versionPath_invalid {modelId version : Str} (h : ¬(Valid env.nfc modelId ∧ Valid env.nfc version)) :
    ∃ message, versionPath env modelId version = .error (.modelGuard .invalidIdentifierError message) := by
  unfold versionPath
  by_cases first : Valid env.nfc modelId
  · obtain ⟨message, raised⟩ := validateIdentifier_invalid env.host "identifier" (fun second => h ⟨first, second⟩)
    exact ⟨message, by rw [validateIdentifier_valid first, raised]; rfl⟩
  · obtain ⟨message, raised⟩ := validateIdentifier_invalid env.host "identifier" first
    exact ⟨message, by rw [raised]; rfl⟩

theorem recordPath_injective {r : RegistryRecord} {modelId version : Str} :
    recordPath r = (modelId, version ++ recordSuffix) ↔ r.key = (modelId, version) := by
  unfold recordPath RegistryRecord.key
  rw [Prod.mk.injEq, Prod.mk.injEq, List.append_cancel_right_eq]

/-- A file is there when the name is registered, and it holds the record. -/
theorem Holds.lookup (h : Holds env rows store) (modelId version : Str) :
    store.records.lookup (modelId, version ++ recordSuffix) =
      (Ledger.find rows modelId version).map env.codec.modelDumpJson := by
  rw [h.records]
  clear h
  unfold Ledger.find
  induction rows with
  | nil => rfl
  | cons r rows ih =>
    rw [List.map_cons, List.lookup_cons, List.find?_cons]
    by_cases same : r.key = (modelId, version)
    · rw [recordPath_injective.mpr same, beq_self_eq_true, decide_eq_true same, Option.map_some]
    · have other : (modelId, version ++ recordSuffix) ≠ recordPath r := fun path => same (recordPath_injective.mp path.symm)
      rw [beq_false_of_ne other, decide_eq_false same, ih]

/-! ### Queries -/

theorem readRecord_dump {r : RegistryRecord} (h : env.codec.ReadsBack r) :
    readRecord env (env.codec.modelDumpJson r) = .ok r := by
  unfold readRecord
  rw [h.text, orRaise_some_bind, h.value]
  rfl

theorem Holds.get_valid (h : Holds env rows store) {modelId version : Str} (valid : Valid env.nfc modelId)
    (valid' : Valid env.nfc version) : get env store modelId version = .ok (Ledger.find rows modelId version) := by
  unfold get
  rw [versionPath_ok.mpr ⟨⟨valid, valid'⟩, rfl⟩]
  dsimp only [bind, Except.bind]
  rw [h.lookup]
  cases found : Ledger.find rows modelId version with
  | none => rfl
  | some r =>
    have read := readRecord_dump (h.readsBack r (Ledger.find_some found).1)
    rw [Option.map_some]
    dsimp only
    rw [read]
    rfl

theorem get_invalid (store : LocalStore) {modelId version : Str} (invalid : ¬(Valid env.nfc modelId ∧ Valid env.nfc version)) :
    ∃ message, get env store modelId version = .error (.modelGuard .invalidIdentifierError message) := by
  obtain ⟨message, raised⟩ := versionPath_invalid invalid
  exact ⟨message, by unfold get; rw [raised]; rfl⟩

theorem indexEntry_not_null (r : RegistryRecord) : indexEntry r ≠ .null := nofun

theorem entryText_indexEntry (r : RegistryRecord) :
    entryText "model_id" (indexEntry r) = .ok r.modelId ∧ entryText "version" (indexEntry r) = .ok r.version := by
  unfold entryText indexEntry
  simp [Dict.lookup_cons, str_injective.eq_iff]

theorem Holds.getByDigest (h : Holds env rows store) (digest : Str) :
    store.getByDigest env digest = .ok (Ledger.firstWithDigest rows digest) := by
  unfold LocalStore.getByDigest
  rw [h.index]
  dsimp only [bind, Except.bind]
  have found : (indexOf rows).lookup digest = (Ledger.firstWithDigest rows digest).map indexEntry :=
    Dict.lookup_firstOf rows digest
  rw [found]
  cases first : Ledger.firstWithDigest rows digest with
  | none => rfl
  | some r =>
    obtain ⟨mem, -⟩ := Ledger.firstWithDigest_some first
    obtain ⟨valid, valid'⟩ := h.valid r mem
    obtain ⟨modelId, version⟩ := entryText_indexEntry r
    have answer := h.get_valid valid valid'
    rw [Ledger.find_of_mem h.distinct mem] at answer
    show (do get env store (← entryText "model_id" (indexEntry r)) (← entryText "version" (indexEntry r))) = _
    rw [modelId, version]
    exact answer

/-- The record files of a model are named after its versions. -/
theorem Holds.recordFiles (h : Holds env rows store) (modelId : Str) :
    (store.recordFiles modelId).map stem = (rows.filter fun r => r.modelId = modelId).map (·.version) := by
  have shown : ∀ r ∈ rows, r.version ≠ [] := fun r mem =>
    List.length_pos_iff.mp (h.valid r mem).2.length.1
  unfold LocalStore.recordFiles
  rw [h.records]
  clear h
  induction rows with
  | nil => rfl
  | cons r rows ih =>
    have rest := ih fun s mem => shown s (List.mem_cons_of_mem _ mem)
    have suffix : recordSuffix.isSuffixOf (r.version ++ recordSuffix) = true :=
      List.isSuffixOf_iff_suffix.mpr (List.suffix_append _ _)
    rw [List.map_cons, List.filter_cons, List.filter_cons]
    by_cases same : r.modelId = modelId
    · have kept : decide ((recordPath r).1 = modelId ∧ recordSuffix.isSuffixOf (recordPath r).2) = true :=
        decide_eq_true ⟨same, suffix⟩
      rw [if_pos kept, if_pos (decide_eq_true same), List.map_cons, List.map_cons, List.map_cons, rest]
      congr 1
      exact stem_recordFile (shown r List.mem_cons_self)
    · have dropped : ¬decide ((recordPath r).1 = modelId ∧ recordSuffix.isSuffixOf (recordPath r).2) = true :=
        fun kept => same (of_decide_eq_true kept).1
      rw [if_neg dropped, if_neg (fun kept => same (of_decide_eq_true kept)), rest]

theorem Holds.listVersions_valid (h : Holds env rows store) {modelId : Str} (valid : Valid env.nfc modelId) :
    listVersions env store modelId = .ok (Ledger.versionsOf rows modelId) := by
  unfold listVersions
  rw [validateIdentifier_valid valid]
  show (if modelId ∈ store.modelDirs then _ else _) = _
  split
  · rw [h.recordFiles]
    rfl
  · rename_i missing
    have none : rows.filter (fun r => r.modelId = modelId) = [] := by
      rw [List.filter_eq_nil_iff]
      intro r mem same
      exact missing (of_decide_eq_true same ▸ h.dirs r mem)
    unfold Ledger.versionsOf
    rw [none]
    rfl

theorem listVersions_invalid {modelId : Str} (invalid : ¬Valid env.nfc modelId) :
    ∃ message, listVersions env store modelId = .error (.modelGuard .invalidIdentifierError message) := by
  obtain ⟨message, raised⟩ := validateIdentifier_invalid env.host "identifier" invalid
  exact ⟨message, by unfold listVersions; rw [raised]; rfl⟩

/-! ### Registering -/

theorem indexEntry_wf (r : RegistryRecord) : (indexEntry r).WF := by
  have name : ∀ s ∈ [r.modelId, r.version], Json.WF (.str s : Json SpecialFloat) := by
    intro s mem
    refine .str (Json.joined_of_scalars (r.scalars s ?_))
    rcases List.mem_cons.mp mem with same | mem
    · exact same ▸ List.mem_cons_self
    · exact List.mem_singleton.mp mem ▸ List.mem_cons_of_mem _ List.mem_cons_self
  refine .obj ?_ ?_ ?_
  · simp only [Dict.Sorted, List.pairwise_cons, List.mem_singleton, List.not_mem_nil, false_implies, implies_true,
      List.Pairwise.nil, and_true, forall_eq]
    decide
  · simp only [List.mem_cons, List.not_mem_nil, or_false, forall_eq_or_imp, forall_eq]
    exact ⟨Json.joined_str _, Json.joined_str _⟩
  · simp only [List.mem_cons, List.not_mem_nil, or_false, forall_eq_or_imp, forall_eq]
    exact ⟨name _ List.mem_cons_self, name _ (List.mem_cons_of_mem _ List.mem_cons_self)⟩

theorem index_wf (rows : List RegistryRecord) : Json.WF (.obj (indexOf rows)) := by
  refine .obj (Dict.firstOf_sorted rows) ?_ ?_
  · intro e mem
    obtain ⟨r, -, same⟩ := Dict.mem_firstOf mem
    rw [same]
    exact Json.joined_of_scalars r.digestShape.scalars
  · intro e mem
    obtain ⟨r, -, same⟩ := Dict.mem_firstOf mem
    rw [same]
    exact indexEntry_wf r

theorem readDigestIndex_written (store : LocalStore) (rows : List RegistryRecord) :
    (store.writeDigestIndex (indexOf rows)).readDigestIndex = .ok (indexOf rows) := by
  unfold readDigestIndex writeDigestIndex
  dsimp only
  rw [Json.loads_dumpsIndent (index_wf rows)]

theorem makeDir_keeps (store : LocalStore) (dir : Str) :
    dir ∈ (store.makeDir dir).modelDirs ∧ ∀ other ∈ store.modelDirs, other ∈ (store.makeDir dir).modelDirs := by
  unfold makeDir
  dsimp only
  split
  · rename_i there
    exact ⟨there, fun _ mem => mem⟩
  · exact ⟨by simp, fun _ mem => List.mem_append_left _ mem⟩

/-- The store when the record of a call is written and the index is not. -/
def written (env : RegistryEnv) (store : LocalStore) (record : RegistryRecord) : LocalStore :=
  (store.makeDir record.modelId).writeRecord (recordPath record) (env.codec.modelDumpJson record)

section Register

variable {record : RegistryRecord} {faults : WriteFaults}

theorem register_invalid (env : RegistryEnv) (store : LocalStore) (faults : WriteFaults)
    (invalid : ¬(Valid env.nfc record.modelId ∧ Valid env.nfc record.version)) :
    ∃ message, register env store faults record = (.error (.modelGuard .invalidIdentifierError message), store) := by
  obtain ⟨message, raised⟩ := versionPath_invalid invalid
  exact ⟨message, by unfold register; rw [raised]⟩

theorem Holds.register_duplicate (h : Holds env rows store) (faults : WriteFaults)
    (valid : Valid env.nfc record.modelId ∧ Valid env.nfc record.version)
    (taken : record.key ∈ rows.map RegistryRecord.key) :
    register env store faults record = (.error (duplicateRegistrationError record.modelId record.version), store) := by
  unfold register
  rw [versionPath_ok.mpr ⟨valid, rfl⟩]
  have there : (store.records.lookup (record.modelId, record.version ++ recordSuffix)).isSome = true := by
    rw [h.lookup]
    cases found : Ledger.find rows record.modelId record.version with
    | none => exact (Ledger.find_none.mp found taken).elim
    | some _ => rfl
  dsimp only
  rw [if_pos there]

theorem Holds.lookup_fresh (h : Holds env rows store) (fresh : record.key ∉ rows.map RegistryRecord.key) :
    store.records.lookup (recordPath record) = none := by
  show store.records.lookup (record.modelId, record.version ++ recordSuffix) = none
  rw [h.lookup, Ledger.find_none.mpr fresh]
  rfl

/-- What a call does when its name is free. -/
theorem Holds.register_fresh (h : Holds env rows store)
    (valid : Valid env.nfc record.modelId ∧ Valid env.nfc record.version)
    (fresh : record.key ∉ rows.map RegistryRecord.key) :
    register env store faults record =
      match faults.record with
      | some e => (.error e, store.makeDir record.modelId)
      | none =>
        if ((indexOf rows).lookup record.artifactDigest).isSome then (.ok record, written env store record)
        else
          match faults.index with
          | some e => (.error e, written env store record)
          | none => (.ok record, (written env store record).writeDigestIndex
              (Dict.insert record.artifactDigest (indexEntry record) (indexOf rows))) := by
  have absent : ¬(store.records.lookup (record.modelId, record.version ++ recordSuffix)).isSome = true := by
    have none := h.lookup_fresh fresh
    unfold recordPath at none
    rw [none]
    exact nofun
  have index : (written env store record).readDigestIndex = .ok (indexOf rows) := h.index
  unfold written recordPath at index
  unfold register written recordPath
  rw [versionPath_ok.mpr ⟨valid, rfl⟩]
  dsimp only
  rw [if_neg absent, index]
  all_goals cases faults.record <;> rfl

theorem Holds.makeDir (h : Holds env rows store) (dir : Str) : Holds env rows (store.makeDir dir) where
  records := h.records
  dirs r mem := (makeDir_keeps store dir).2 _ (h.dirs r mem)
  index := h.index
  valid := h.valid
  distinct := h.distinct
  readsBack := h.readsBack

/-- A new record file comes behind the others. -/
theorem Holds.written_records (h : Holds env rows store) (fresh : record.key ∉ rows.map RegistryRecord.key) :
    (written env store record).records = (rows ++ [record]).map fun r => (recordPath r, env.codec.modelDumpJson r) := by
  have absent := h.lookup_fresh fresh
  have others : store.records.filter (fun e => e.1 ≠ recordPath record) = store.records := by
    rw [List.filter_eq_self]
    intro e mem
    rw [List.lookup_eq_none_iff] at absent
    have other := absent e mem
    exact decide_eq_true (fun same => by simp [same] at other)
  show store.records.filter (fun e => e.1 ≠ recordPath record) ++ [_] = _
  rw [others, h.records, List.map_append]
  rfl

/-- A store that holds the new record file too, and the index of all of the registrations. -/
theorem Holds.extend (h : Holds env rows store) (valid : Valid env.nfc record.modelId ∧ Valid env.nfc record.version)
    (fresh : record.key ∉ rows.map RegistryRecord.key) (readsBack : env.codec.ReadsBack record) {store' : LocalStore}
    (records : store'.records = (written env store record).records)
    (dirs : store'.modelDirs = (written env store record).modelDirs)
    (index : store'.readDigestIndex = .ok (indexOf (rows ++ [record]))) : Holds env (rows ++ [record]) store' where
  records := records.trans (h.written_records fresh)
  dirs r mem := by
    rw [dirs]
    have kept := makeDir_keeps store record.modelId
    rcases List.mem_append.mp mem with old | new
    · exact kept.2 _ (h.dirs r old)
    · exact List.mem_singleton.mp new ▸ kept.1
  index := index
  valid r mem := by
    rcases List.mem_append.mp mem with old | new
    · exact h.valid r old
    · exact List.mem_singleton.mp new ▸ valid
  distinct := by
    rw [List.map_append, List.nodup_append]
    refine ⟨h.distinct, List.nodup_singleton _, ?_⟩
    intro key old other new same
    rw [List.map_singleton, List.mem_singleton] at new
    exact fresh (new ▸ same ▸ old)
  readsBack r mem := by
    rcases List.mem_append.mp mem with old | new
    · exact h.readsBack r old
    · exact List.mem_singleton.mp new ▸ readsBack

/-- A call whose writes succeed adds its record. -/
theorem Holds.register_ok (h : Holds env rows store)
    (valid : Valid env.nfc record.modelId ∧ Valid env.nfc record.version)
    (fresh : record.key ∉ rows.map RegistryRecord.key) (readsBack : env.codec.ReadsBack record)
    (recordWrite : faults.record = none)
    (indexWrite : faults.index = none ∨ ((indexOf rows).lookup record.artifactDigest).isSome = true) :
    ∃ store', register env store faults record = (.ok record, store') ∧ Holds env (rows ++ [record]) store' := by
  have grown : indexOf (rows ++ [record]) =
      Dict.setDefault record.artifactDigest (indexEntry record) (indexOf rows) := Dict.firstOf_append rows record
  rw [h.register_fresh valid fresh, recordWrite]
  dsimp only
  split
  · rename_i known
    refine ⟨_, rfl, h.extend valid fresh readsBack rfl rfl ?_⟩
    have same : indexOf (rows ++ [record]) = indexOf rows := by
      rw [grown, Dict.setDefault, if_neg (fun none => by rw [none] at known; cases known)]
    rw [same]
    exact h.index
  · rename_i unknown
    rw [indexWrite.resolve_right unknown]
    refine ⟨_, rfl, h.extend valid fresh readsBack rfl rfl ?_⟩
    have same : Dict.insert record.artifactDigest (indexEntry record) (indexOf rows) = indexOf (rows ++ [record]) := by
      rw [grown, Dict.setDefault, if_pos (Option.not_isSome_iff_eq_none.mp unknown)]
    rw [same]
    exact readDigestIndex_written _ _

end Register

end LocalStore

end ModelGuard.Registry
