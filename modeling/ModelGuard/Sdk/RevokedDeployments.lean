import ModelGuard.Provenance.Graph
import ModelGuard.Registry.History
import ModelGuard.Registry.WriteFaults

/-!
# `ModelGuard.find_deployments_using_revoked_model`

The query asks the registry about the subject and the object of every recorded event. For each, it looks at
the versions that have a record file, and asks whether one of them is revoked.
-/

namespace ModelGuard.Sdk

open Lib Lib.Fallible ModelGuard.Provenance ModelGuard.Registry

variable (env : RegistryEnv) (store : LocalStore)

/-- The loop over the versions. -/
def anyRevoked (modelId : Str) : List Str → Except Raised Bool
  | [] => .ok false
  | version :: rest => do
    let revocation ← LocalStore.isRevoked env store modelId version
    let others ← anyRevoked modelId rest
    return revocation.isSome || others

/-- The loop over the candidates. The second `list_versions` of a round answers as the first did. -/
def revokedIds : List Str → Except Raised (List Str)
  | [] => .ok []
  | candidateId :: rest => do
    let versions ← LocalStore.listVersions env store candidateId
    let revoked ← anyRevoked env store candidateId versions
    let others ← revokedIds rest
    return if revoked then candidateId :: others else others

def candidateIds (events : List ProvenanceEvent) : List Str := events.flatMap fun e => [e.subjectId, e.objectId]

def findDeploymentsUsingRevokedModel (log : Option Bytes) : Except Raised (List ProvenanceEvent) := do
  let events ← allEvents log
  let revoked ← revokedIds env store (candidateIds events)
  Provenance.findDeploymentsUsingRevokedModel log revoked

/-! ### Which models are revoked -/

/-- The registry reports a revocation of the version. -/
def ReportsRevoked (modelId version : Str) : Prop := ∃ r, LocalStore.isRevoked env store modelId version = .ok (some r)

/-- Some version of the model is revoked. -/
def Revoked (modelId : Str) : Prop := ∃ version, ReportsRevoked env store modelId version

/-- Some version of the model is registered, and revoked. -/
def RegisteredRevoked (modelId : Str) : Prop :=
  ∃ version, LocalStore.HasRecord store modelId version ∧ ReportsRevoked env store modelId version

variable {env store} {log : Option Bytes} {events : List ProvenanceEvent}

theorem RegisteredRevoked.revoked {modelId : Str} (h : RegisteredRevoked env store modelId) : Revoked env store modelId := by
  obtain ⟨version, -, reported⟩ := h
  exact ⟨version, reported⟩

theorem anyRevoked_ok (regular : LocalStore.Regular env store) {modelId : Str} (valid : Valid env.nfc modelId)
    {versions : List Str} (names : ∀ version ∈ versions, Valid env.nfc version) :
    ∃ found, anyRevoked env store modelId versions = .ok found ∧
      (found = true ↔ ∃ version ∈ versions, ReportsRevoked env store modelId version) := by
  induction versions with
  | nil => exact ⟨false, rfl, by simp⟩
  | cons version versions ih =>
    obtain ⟨others, rest, exact⟩ := ih fun v mem => names v (List.mem_cons_of_mem _ mem)
    obtain ⟨answer, asked⟩ := regular.isRevoked ⟨valid, names version List.mem_cons_self⟩
    refine ⟨answer.isSome || others, ?_, ?_⟩
    · unfold anyRevoked
      rw [asked, rest]
      rfl
    · have own : answer.isSome = true ↔ ReportsRevoked env store modelId version := by
        unfold ReportsRevoked
        rw [asked, Option.isSome_iff_exists]
        simp
      rw [Bool.or_eq_true, own, exact]
      simp

theorem candidate_ok (regular : LocalStore.Regular env store) {modelId : Str} (valid : Valid env.nfc modelId) :
    ∃ versions found, LocalStore.listVersions env store modelId = .ok versions ∧
      anyRevoked env store modelId versions = .ok found ∧ (found = true ↔ RegisteredRevoked env store modelId) := by
  obtain ⟨versions, listed, registered⟩ := regular.listVersions valid
  have names : ∀ version ∈ versions, Valid env.nfc version := by
    intro version mem
    exact (LocalStore.HasRecord.valid regular ((registered version).mp mem)).2
  obtain ⟨found, asked, exact⟩ := anyRevoked_ok regular valid names
  refine ⟨versions, found, listed, asked, exact.trans ?_⟩
  unfold RegisteredRevoked
  simp only [registered]

theorem revokedIds_ok (regular : LocalStore.Regular env store) {ids : List Str} (valid : ∀ id ∈ ids, Valid env.nfc id) :
    ∃ out, revokedIds env store ids = .ok out ∧ ∀ id, id ∈ out ↔ id ∈ ids ∧ RegisteredRevoked env store id := by
  induction ids with
  | nil => exact ⟨[], rfl, fun id => by simp⟩
  | cons id ids ih =>
    obtain ⟨out, rest, exact⟩ := ih fun other mem => valid other (List.mem_cons_of_mem _ mem)
    obtain ⟨versions, found, listed, asked, own⟩ := candidate_ok regular (valid id List.mem_cons_self)
    refine ⟨if found then id :: out else out, ?_, fun other => ?_⟩
    · unfold revokedIds
      rw [listed]
      show (anyRevoked env store id versions >>= _) = _
      rw [asked, rest]
      rfl
    · cases found with
      | true =>
        have revoked := own.mp rfl
        rw [if_pos rfl, List.mem_cons, List.mem_cons, exact]
        constructor
        · rintro (same | ⟨mem, others⟩)
          · exact ⟨.inl same, same ▸ revoked⟩
          · exact ⟨.inr mem, others⟩
        · rintro ⟨same | mem, others⟩
          · exact .inl same
          · exact .inr ⟨mem, others⟩
      | false =>
        have clear : ¬RegisteredRevoked env store id := fun revoked => nomatch own.mpr revoked
        rw [if_neg Bool.false_ne_true, List.mem_cons, exact]
        constructor
        · rintro ⟨mem, others⟩
          exact ⟨.inr mem, others⟩
        · rintro ⟨same | mem, others⟩
          · exact absurd (same ▸ others) clear
          · exact ⟨mem, others⟩

theorem revokedIds_invalid (regular : LocalStore.Regular env store) {ids : List Str} (invalid : ¬ ∀ id ∈ ids, Valid env.nfc id) :
    ∃ message, revokedIds env store ids = .error (.modelGuard .invalidIdentifierError message) := by
  induction ids with
  | nil => exact absurd (fun id mem => absurd mem List.not_mem_nil) invalid
  | cons id ids ih =>
    unfold revokedIds
    by_cases first : Valid env.nfc id
    · obtain ⟨message, raised⟩ := ih fun rest => invalid (List.forall_mem_cons.mpr ⟨first, rest⟩)
      obtain ⟨versions, found, listed, asked, -⟩ := candidate_ok regular first
      refine ⟨message, ?_⟩
      rw [listed]
      show (anyRevoked env store id versions >>= _) = _
      rw [asked, raised]
      rfl
    · obtain ⟨message, raised⟩ := @LocalStore.listVersions_invalid env store id first
      refine ⟨message, ?_⟩
      rw [raised]
      rfl

theorem mem_candidateIds {id : Str} : id ∈ candidateIds events ↔ ∃ e ∈ events, id = e.subjectId ∨ id = e.objectId := by
  unfold candidateIds
  simp

/-- Every name in the log passes `validate_identifier`. -/
def NamesValid (nfc : Str → Str) (events : List ProvenanceEvent) : Prop :=
  ∀ e ∈ events, Valid nfc e.subjectId ∧ Valid nfc e.objectId

theorem namesValid_iff {nfc : Str → Str} : NamesValid nfc events ↔ ∀ id ∈ candidateIds events, Valid nfc id := by
  constructor
  · intro names id mem
    obtain ⟨e, listed, same⟩ := mem_candidateIds.mp mem
    rcases same with subject | object
    · exact subject ▸ (names e listed).1
    · exact object ▸ (names e listed).2
  · intro names e listed
    exact ⟨names _ (mem_candidateIds.mpr ⟨e, listed, .inl rfl⟩), names _ (mem_candidateIds.mpr ⟨e, listed, .inr rfl⟩)⟩

/-- What a deployed model derives from is named in the log. -/
theorem derivesFrom_candidate {modelId base : Str} (path : DerivesFrom events modelId base) : base ∈ candidateIds events := by
  unfold DerivesFrom at path
  obtain ⟨_, -, e, mem, -, -, object⟩ := Relation.TransGen.tail'_iff.mp path
  exact mem_candidateIds.mpr ⟨e, mem, .inr object.symm⟩

/-- With valid names only, the query returns what is affected by a registered version that is revoked. -/
theorem find_valid (regular : LocalStore.Regular env store) (read : allEvents log = .ok events)
    (names : NamesValid env.nfc events) :
    findDeploymentsUsingRevokedModel env store log = .ok (affectedDeployments events (RegisteredRevoked env store)) := by
  obtain ⟨out, asked, exact⟩ := revokedIds_ok regular (namesValid_iff.mp names)
  unfold findDeploymentsUsingRevokedModel
  rw [read]
  show (revokedIds env store (candidateIds events) >>= _) = _
  rw [asked]
  show Provenance.findDeploymentsUsingRevokedModel log out = _
  rw [findDeployments_ok read]
  congr 1
  apply (affectedDeployments_eq_iff fun id mem => ((exact id).mp mem).2).mpr
  rintro e mem - ⟨base, revoked, path⟩
  refine ⟨base, (exact base).mpr ⟨?_, revoked⟩, path⟩
  rcases path with same | derives
  · exact mem_candidateIds.mpr ⟨e, mem, .inl same.symm⟩
  · exact derivesFrom_candidate derives

theorem find_invalid (regular : LocalStore.Regular env store) (read : allEvents log = .ok events)
    (names : ¬NamesValid env.nfc events) :
    ∃ message, findDeploymentsUsingRevokedModel env store log = .error (.modelGuard .invalidIdentifierError message) := by
  obtain ⟨message, raised⟩ := revokedIds_invalid regular (mt namesValid_iff.mpr names)
  refine ⟨message, ?_⟩
  unfold findDeploymentsUsingRevokedModel
  rw [read]
  show (revokedIds env store (candidateIds events) >>= _) = _
  rw [raised]
  rfl

/-! ### Names that the registry refuses -/

def deployedTo (subjectId objectId : String) : ProvenanceEvent where
  subjectId := str subjectId
  relationship := str RelationshipType.deployedTo.value
  objectId := str objectId
  actor := str "a"
  evidence := str "DECLARED"
  eventId := str "e"
  timestamp := str "t"

def incidentEnv : RegistryEnv := sampleEnv LocalStore.noSha

def unregistered : RevocationRecord where
  modelId := str "m"
  version := str "1"
  revokedBy := str "a"
  reason := str "r"
  revokedAt := str "t"

def productionLog : Option Bytes := recorded incidentEnv.sha [deployedTo "m" "prod"]

theorem productionLog_read : allEvents productionLog = .ok [(deployedTo "m" "prod").readBack] :=
  (logHolds_recorded incidentEnv.sha [deployedTo "m" "prod"]).allEvents

theorem productionLog_names : NamesValid incidentEnv.nfc [(deployedTo "m" "prod").readBack] := by
  unfold NamesValid
  decide

def incidentStore : LocalStore := LocalStore.history incidentEnv [.append (.revoke unregistered)]

/-- The model is revoked, and none of its versions is registered. -/
theorem unregistered_store : Revoked incidentEnv incidentStore (str "m") ∧ incidentStore.records = [] := by
  have valid : Valid incidentEnv.nfc (str "m") ∧ Valid incidentEnv.nfc (str "1") := by decide
  have call : ∃ content, LocalStore.appendCall incidentEnv .empty (.revoke unregistered) =
        (.ok (), { LocalStore.empty with revocationLog := some content }) ∧
      LocalStore.LogHolds incidentEnv { LocalStore.empty with revocationLog := some content } [.revoke unregistered] :=
    (LocalStore.logHolds_empty incidentEnv).append valid
  obtain ⟨content, appended, holds⟩ := call
  have same : incidentStore = { LocalStore.empty with revocationLog := some content } := by
    show (LocalStore.appendCall incidentEnv .empty (.revoke unregistered)).2 = _
    rw [appended]
  have joined : ∀ e ∈ [RevocationCall.revoke unregistered], ∀ s ∈ e.texts, Json.Joined s := by
    intro e mem s text
    rw [List.mem_singleton.mp mem] at text
    simp only [RevocationCall.texts, unregistered, List.mem_cons, List.not_mem_nil, or_false] at text
    rcases text with same | same | same | same | same <;> exact same ▸ Json.joined_str _
  rw [same]
  exact ⟨⟨str "1", unregistered, holds.isRevoked joined valid⟩, rfl⟩

end ModelGuard.Sdk
