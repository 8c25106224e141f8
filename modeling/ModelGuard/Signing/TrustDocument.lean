import ModelGuard.Signing.TrustSchema

/-!
# The document of a trust configuration

`model_dump(mode="json")`, and what validation makes of the document it gives.
-/

namespace ModelGuard.Signing

open Lib Lib.Validation

variable {F : Type} (env : TrustEnv F)

/-! ### Dumping -/

def orNull {α : Type} (write : α → Json F) : Option α → Json F
  | none => .null
  | some a => write a

def isPresent : Json F → Bool
  | .null => false
  | _ => true

def dumpMoment (moment : AwareDatetime) : Json F := .str (env.dumpDatetime moment)

namespace TrustedKeyEntry

variable (entry : TrustedKeyEntry)

def members : List (Str × Json F) :=
  [(str "key_id", .str entry.keyId), (str "algorithm", orNull .str entry.algorithm),
    (str "status", .str (str entry.status.value)), (str "not_before", orNull (dumpMoment env) entry.notBefore),
    (str "not_after", orNull (dumpMoment env) entry.notAfter), (str "signer_identity", orNull .str entry.signerIdentity),
    (str "scope_model_id_patterns", .arr (entry.scopeModelIdPatterns.map .str)), (str "label", orNull .str entry.label)]

/-- The members that `exclude_none=True` leaves. -/
def presentMembers : List (Str × Json F) := (entry.members env).filter fun e => isPresent e.2

def modelDump : Json F := .obj (entry.members env)

def modelDumpExcludeNone : Json F := .obj (entry.presentMembers env)

end TrustedKeyEntry

/-- A configuration as a document, of its dumped entries. -/
def configDocument (version : Str) (keys : List (Json F)) : Json F :=
  .obj [(str "version", .str version), (str "keys", .arr keys)]

/-- `config.model_dump(mode="json", exclude_none=True)`. -/
def TrustConfig.modelDump (config : TrustConfig) : Json F :=
  configDocument config.version (config.keys.map fun key => key.modelDumpExcludeNone env)

/-! ### Reading a configuration -/

/-- The first text that occurs again. -/
def firstDuplicate : List Str → List Str → Option Str
  | _, [] => none
  | seen, key :: keys => if key ∈ seen then some key else firstDuplicate (key :: seen) keys

def duplicateMessage (key : Str) : Str :=
  str "Value error, Duplicate trust configuration entry for fingerprint " ++ key ++ str (". Each " ++
    "key may appear at most once; express a rotation overlap with two " ++
    "different keys, not two entries for the same key.")

theorem firstDuplicate_none {seen keys : List Str} :
    firstDuplicate seen keys = none ↔ keys.Nodup ∧ ∀ key ∈ keys, key ∉ seen := by
  induction keys generalizing seen with
  | nil => simp [firstDuplicate]
  | cons key keys ih =>
    unfold firstDuplicate
    split
    · rename_i again
      simp [again]
    · rename_i fresh
      rw [ih, List.nodup_cons, List.forall_mem_cons]
      constructor
      · intro ⟨distinct, unseen⟩
        refine ⟨⟨fun again => unseen key again List.mem_cons_self, distinct⟩, fresh, ?_⟩
        exact fun other mem inSeen => unseen other mem (List.mem_cons_of_mem _ inSeen)
      · intro ⟨⟨absent, distinct⟩, _, unseen⟩
        refine ⟨distinct, fun other mem inSeen => ?_⟩
        rcases List.mem_cons.mp inSeen with same | old
        · exact absent (same ▸ mem)
        · exact unseen other mem old

def configOf (fields : Str × List TrustedKeyEntry × Unit) : Validated TrustConfig :=
  match found : firstDuplicate [] (fields.2.1.map (·.keyId)) with
  | some key => reject (duplicateMessage key)
  | none => .ok { version := fields.1, keys := fields.2.1, unique := (firstDuplicate_none.mp found).1 }

theorem configOf_ok {fields : Str × List TrustedKeyEntry × Unit} {config : TrustConfig} :
    configOf fields = .ok config ↔ fields = (config.version, config.keys, ()) := by
  obtain ⟨version, keys, _⟩ := fields
  unfold configOf
  constructor
  · intro h
    split at h
    · cases h
    · have same := Except.ok.inj h
      subst same
      rfl
  · intro h
    cases h
    split
    · rename_i again
      have distinct := firstDuplicate_none.mpr ⟨config.unique, fun _ _ => List.not_mem_nil⟩
      rw [again] at distinct
      cases distinct
    · rfl

/-- `TrustConfig.model_validate`. -/
def TrustConfig.modelValidate : Json F → Validated TrustConfig
  | .obj members => do
    configOf (← both (field "version" (.ok (str "1")) (readText env) members) <|
      both (field "keys" (.ok []) (readTuple env (TrustedKeyEntry.modelValidate env)) members) <|
      noExtra [str "version", str "keys"] members)
  | _ => reject (str "Input should be a valid dictionary or instance of TrustConfig")

theorem TrustConfig.modelValidate_ok {members : List (Str × Json F)} {config : TrustConfig} :
    modelValidate env (.obj members) = .ok config ↔
      field "version" (.ok (str "1")) (readText env) members = .ok config.version ∧
      field "keys" (.ok []) (readTuple env (TrustedKeyEntry.modelValidate env)) members = .ok config.keys ∧
      ∀ e ∈ members, e.1 ∈ [str "version", str "keys"] := by
  unfold modelValidate
  dsimp only
  simp only [Fallible.bind_ok, configOf_ok, exists_eq_right, both_ok, noExtra_ok]

/-- A document of entries is read entry by entry. -/
theorem modelValidate_document {version : Str} {keys : List (Json F)} {config : TrustConfig} :
    TrustConfig.modelValidate env (configDocument version keys) = .ok config ↔
      config.version = version ∧
        List.Forall₂ (fun key entry => TrustedKeyEntry.modelValidate env key = .ok entry) keys config.keys := by
  have versionAt : [(str "version", Json.str version), (str "keys", Json.arr keys)].lookup (str "version") =
      some (.str (F := F) version) := rfl
  have keysAt : [(str "version", Json.str version), (str "keys", Json.arr keys)].lookup (str "keys") =
      some (.arr (F := F) keys) := by
    have other : str "keys" ≠ str "version" := by decide
    rw [Dict.lookup_cons, if_neg other, Dict.lookup_cons, if_pos rfl]
  unfold configDocument
  rw [TrustConfig.modelValidate_ok, field_present versionAt, field_present keysAt]
  unfold readText readTuple
  rw [each_ok]
  simp [eq_comm]

/-! ### What validation makes of a dumped entry -/

/-- `members` holds what `entry` dumps, with or without its null members. -/
structure DumpOf (entry : TrustedKeyEntry) (members : List (Str × Json F)) : Prop where
  known : ∀ e ∈ members, e.1 ∈ entryKeys
  lookup : ∀ e ∈ entry.members env, members.lookup e.1 = some e.2 ∨ e.2 = .null ∧ members.lookup e.1 = none

theorem members_keys (entry : TrustedKeyEntry) : (entry.members env).map Prod.fst = entryKeys := rfl

theorem entryKeys_nodup : entryKeys.Nodup := by decide

namespace TrustedKeyEntry

variable (entry : TrustedKeyEntry)

theorem members_dumpOf : DumpOf env entry (entry.members env) := by
  have distinct : ((entry.members env).map Prod.fst).Nodup := entryKeys_nodup
  refine ⟨fun e mem => members_keys env entry ▸ List.mem_map_of_mem mem, ?_⟩
  exact fun e mem => Or.inl (Dict.lookup_of_mem distinct mem)

theorem presentMembers_dumpOf : DumpOf env entry (entry.presentMembers env) := by
  have distinct : ((entry.members env).map Prod.fst).Nodup := entryKeys_nodup
  have sub : ((entry.presentMembers env).map Prod.fst).Nodup := distinct.sublist (List.filter_sublist.map _)
  refine ⟨fun e mem => members_keys env entry ▸ List.mem_map_of_mem (List.mem_of_mem_filter mem), ?_⟩
  intro e mem
  by_cases present : isPresent e.2 = true
  · exact Or.inl (Dict.lookup_of_mem sub (List.mem_filter.mpr ⟨mem, present⟩))
  · have null : e.2 = .null := by
      unfold isPresent at present
      split at present
      · assumption
      · exact (present rfl).elim
    refine Or.inr ⟨null, Dict.lookup_absent ?_⟩
    intro there
    obtain ⟨other, kept, same⟩ := List.mem_map.mp there
    obtain ⟨otherMem, otherPresent⟩ := List.mem_filter.mp kept
    have same : other = e := List.inj_on_of_nodup_map distinct otherMem mem same
    exact present (same ▸ otherPresent)

end TrustedKeyEntry

/-! ### The fingerprint and the status survive -/

theorem normalize_fingerprint {s : Str} (h : IsFingerprint s) : normalize env s = s := by
  have dense : ∀ c ∈ s, isSpace c = false := by
    intro c mem
    have digit := isHexDigit_iff.mp (h.2 c mem)
    simp only [isSpace, Bool.or_eq_false_iff, Bool.and_eq_false_iff, decide_eq_false_iff_not, beq_eq_false_iff_ne]
    omega
  have lower : s.map asciiLower = s := by
    rw [List.map_congr_left (g := id), List.map_id]
    intro c mem
    have digit := isHexDigit_iff.mp (h.2 c mem)
    exact dif_neg (by omega)
  have foreign : cp 's' ∉ s := fun mem => absurd (h.2 _ mem) (by decide)
  unfold normalize
  rw [strip_of_dense dense, env.caseTable.lower_ascii s h.2.ascii, lower, removePrefix_of_head rfl foreign]

/-- A text given as the fingerprint is the entry's fingerprint, normalized. -/
theorem EntryRead.keyId_of_text {members : List (Str × Json F)} {entry : TrustedKeyEntry} {s : Str}
    (r : EntryRead env members entry) (found : members.lookup (str "key_id") = some (.str s)) :
    entry.keyId = normalize env s := by
  have read := (field_present found).mp r.keyId
  unfold readKeyId normalizeKeyId readText at read
  obtain ⟨text, value, checked⟩ := Fallible.bind_ok.mp read
  have same := Except.ok.inj value
  exact (passing_ok.mp checked).symm.trans same.symm

theorem readStatus_value (status : TrustedKeyStatus) :
    readStatus (F := F) (.str (str status.value)) = .ok status := by
  cases status <;> rfl

theorem EntryRead.status_of_text {members : List (Str × Json F)} {entry : TrustedKeyEntry} {status : TrustedKeyStatus}
    (r : EntryRead env members entry) (found : members.lookup (str "status") = some (.str (str status.value))) :
    entry.status = status := by
  have read := (field_present found).mp r.status
  rw [readStatus_value] at read
  exact (Except.ok.inj read).symm

/-- What rotation depends on. -/
def TrustedKeyEntry.standing (entry : TrustedKeyEntry) : Str × TrustedKeyStatus := (entry.keyId, entry.status)

theorem DumpOf.standing {entry found : TrustedKeyEntry} {members : List (Str × Json F)} (d : DumpOf env entry members)
    (r : EntryRead env members found) : found.standing = entry.standing := by
  have keyId : members.lookup (str "key_id") = some (.str entry.keyId) := by
    refine (d.lookup (str "key_id", .str entry.keyId) ?_).resolve_right fun null => nomatch null.1
    simp [TrustedKeyEntry.members]
  have status : members.lookup (str "status") = some (.str (str entry.status.value)) := by
    refine (d.lookup (str "status", .str (str entry.status.value)) ?_).resolve_right fun null => nomatch null.1
    simp [TrustedKeyEntry.members]
  exact Prod.ext ((r.keyId_of_text env keyId).trans (normalize_fingerprint env entry.keyIdValid)) (r.status_of_text env status)

/-- Validation keeps every entry's fingerprint and status, whatever becomes of the rest. -/
theorem modelValidate_standings {dump : TrustedKeyEntry → Json F} {version : Str} {keys : List TrustedKeyEntry}
    {config : TrustConfig}
    (dumps : ∀ entry, ∃ members, dump entry = .obj members ∧ DumpOf env entry members)
    (read : TrustConfig.modelValidate env (configDocument version (keys.map dump)) = .ok config) :
    config.keys.map (·.standing) = keys.map (·.standing) := by
  obtain ⟨-, entries⟩ := (modelValidate_document env).mp read
  rw [List.forall₂_map_left_iff] at entries
  clear read
  generalize config.keys = found at entries ⊢
  induction entries with
  | nil => rfl
  | cons first _ ih =>
    obtain ⟨members, dumped, d⟩ := dumps _
    rw [dumped, TrustedKeyEntry.modelValidate_ok] at first
    rw [List.map_cons, List.map_cons, d.standing env first, ih]

/-! ### A dumped entry is read back -/

theorem field_dumped {α : Type} {name : String} {absent : Validated α} {read : Json F → Validated α}
    {members : List (Str × Json F)} {v : Json F} {a : α}
    (looked : members.lookup (str name) = some v ∨ v = .null ∧ members.lookup (str name) = none)
    (reads : read v = .ok a) (empty : v = .null → absent = .ok a) : field name absent read members = .ok a := by
  rcases looked with found | ⟨null, missing⟩
  · exact (field_present found).mpr reads
  · exact (field_absent missing).mpr (empty null)

/-- Texts are dumped as themselves, so what an absent field stands for does not matter. -/
theorem field_text {α : Type} {name : String} {absent : Validated α} {read : Json F → Validated α}
    {members : List (Str × Json F)} {s : Str} {a : α}
    (looked : members.lookup (str name) = some (.str s) ∨ (.str s : Json F) = .null ∧ members.lookup (str name) = none)
    (reads : read (.str s) = .ok a) : field name absent read members = .ok a :=
  field_dumped looked reads nofun

theorem field_list {α : Type} {name : String} {absent : Validated α} {read : Json F → Validated α}
    {members : List (Str × Json F)} {items : List (Json F)} {a : α}
    (looked : members.lookup (str name) = some (.arr items) ∨ (.arr items : Json F) = .null ∧ members.lookup (str name) = none)
    (reads : read (.arr items) = .ok a) : field name absent read members = .ok a :=
  field_dumped looked reads nofun

theorem readText_orNull (value : Option Str) : optional (readText env) (orNull .str value) = .ok value := by
  cases value with
  | none => rfl
  | some s => rfl

theorem orNull_null {value : Option Str} (null : orNull (F := F) .str value = .null) : value = none := by
  cases value with
  | none => rfl
  | some s => cases null

/-- pydantic reads the moment back from the text it dumps. -/
def ReadsBack (moment : AwareDatetime) : Prop := env.datetime (dumpMoment env moment) = .ok (some moment)

theorem readDatetime_dumped {moment found : AwareDatetime} :
    readDatetime env (dumpMoment env moment) = .ok found ↔ env.datetime (dumpMoment env moment) = .ok (some found) := by
  unfold readDatetime
  split
  · rename_i failed
    simp [failed, reject]
  · rename_i naive
    simp [naive, reject]
  · rename_i moment aware
    simp [aware]

theorem field_moment {name : String} {members : List (Str × Json F)} {value : Option AwareDatetime}
    (looked : members.lookup (str name) = some (orNull (dumpMoment env) value) ∨
      orNull (dumpMoment env) value = .null ∧ members.lookup (str name) = none) :
    field name (.ok none) (optional (readDatetime env)) members = .ok value ↔ ∀ moment ∈ value, ReadsBack env moment := by
  cases value with
  | none =>
    refine ⟨fun _ => nofun, fun _ => ?_⟩
    exact field_dumped looked rfl fun _ => rfl
  | some moment =>
    rcases looked with found | ⟨null, -⟩
    · rw [field_present found]
      show (readDatetime env (dumpMoment env moment)).map some = .ok (some moment) ↔ _
      rw [map_ok]
      simp only [Option.some.injEq, exists_eq_right, readDatetime_dumped, Option.mem_def, forall_eq']
      exact Iff.rfl
    · cases null

/-- The moments of an entry read back. -/
def TrustedKeyEntry.MomentsReadBack (entry : TrustedKeyEntry) : Prop :=
  (∀ moment ∈ entry.notBefore, ReadsBack env moment) ∧ ∀ moment ∈ entry.notAfter, ReadsBack env moment

theorem DumpOf.read_iff {entry : TrustedKeyEntry} {members : List (Str × Json F)} (d : DumpOf env entry members) :
    EntryRead env members entry ↔ entry.MomentsReadBack env := by
  have looked := d.lookup
  simp only [TrustedKeyEntry.members, List.forall_mem_cons] at looked
  obtain ⟨keyId, algorithm, status, notBefore, notAfter, identity, scope, label, -⟩ := looked
  constructor
  · intro r
    exact ⟨(field_moment env notBefore).mp r.notBefore, (field_moment env notAfter).mp r.notAfter⟩
  · rintro ⟨readsBefore, readsAfter⟩
    refine ⟨?_, ?_, field_text status (readStatus_value _), (field_moment env notBefore).mpr readsBefore,
      (field_moment env notAfter).mpr readsAfter, ?_, ?_, ?_, d.known⟩
    · refine field_text keyId ?_
      show (readText env (.str (normalize env entry.keyId))).bind (passing keyIdProblem) = _
      rw [normalize_fingerprint env entry.keyIdValid]
      exact passing_ok.mpr rfl
    · refine field_dumped algorithm ?_ fun null => congrArg Except.ok (Subtype.ext (orNull_null null).symm)
      unfold readAlgorithm
      rw [readText_orNull]
      exact passing_ok.mpr rfl
    · refine field_dumped identity ?_ fun null => congrArg Except.ok (Subtype.ext (orNull_null null).symm)
      unfold readLine
      rw [readText_orNull]
      exact passing_ok.mpr rfl
    · refine field_list scope ?_
      have texts : readTuple env (readText env) (.arr (entry.scopeModelIdPatterns.map .str)) =
          .ok entry.scopeModelIdPatterns := by
        show each (readText env) 0 (entry.scopeModelIdPatterns.map .str) = _
        rw [each_ok, List.forall₂_map_left_iff, List.forall₂_same]
        exact fun _ _ => rfl
      unfold readScope
      rw [texts]
      exact passing_ok.mpr rfl
    · refine field_dumped label ?_ fun null => congrArg Except.ok (Subtype.ext (orNull_null null).symm)
      unfold readLine
      rw [readText_orNull]
      exact passing_ok.mpr rfl

theorem modelValidate_dump {entry : TrustedKeyEntry} :
    TrustedKeyEntry.modelValidate env (entry.modelDump env) = .ok entry ↔ entry.MomentsReadBack env := by
  unfold TrustedKeyEntry.modelDump
  rw [TrustedKeyEntry.modelValidate_ok, DumpOf.read_iff env (entry.members_dumpOf env)]

theorem modelValidate_dumpExcludeNone {entry : TrustedKeyEntry} :
    TrustedKeyEntry.modelValidate env (entry.modelDumpExcludeNone env) = .ok entry ↔ entry.MomentsReadBack env := by
  unfold TrustedKeyEntry.modelDumpExcludeNone
  rw [TrustedKeyEntry.modelValidate_ok, DumpOf.read_iff env (entry.presentMembers_dumpOf env)]

/-- A configuration is read back from its dump exactly when its moments are. -/
theorem TrustConfig.modelValidate_modelDump {config : TrustConfig} :
    modelValidate env (config.modelDump env) = .ok config ↔ ∀ key ∈ config.keys, key.MomentsReadBack env := by
  unfold modelDump
  rw [modelValidate_document, List.forall₂_map_left_iff, List.forall₂_same]
  simp only [true_and, modelValidate_dumpExcludeNone]

end ModelGuard.Signing
