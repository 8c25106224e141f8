import ModelGuard.Lib.Worklist
import ModelGuard.Provenance.Store
import Mathlib.Data.List.Sort

/-!
# Lineage queries

Each query reads the whole log and walks over the list of its events.
-/

namespace ModelGuard.Provenance

open Lib Lib.Fallible Lib.Worklist

/-! ### Edges -/

/-- `direct_parents`: the lineage edges that start at the model. -/
def directParents (events : List ProvenanceEvent) (modelId : Str) : List ProvenanceEvent :=
  events.filter fun e => e.subjectId = modelId ∧ e.IsLineage

/-- `direct_children`: the lineage edges that end at the model. -/
def directChildren (events : List ProvenanceEvent) (modelId : Str) : List ProvenanceEvent :=
  events.filter fun e => e.objectId = modelId ∧ e.IsLineage

def parents (log : Option Bytes) (modelId : Str) : Except Raised (List ProvenanceEvent) := do
  return directParents (← allEvents log) modelId

def children (log : Option Bytes) (modelId : Str) : Except Raised (List ProvenanceEvent) := do
  return directChildren (← allEvents log) modelId

/-- The loop of `find_models_derived_from`: as many rounds as it can take, and what it has visited. -/
def derivedFrom (events : List ProvenanceEvent) (baseModelId : Str) : List Str :=
  (explore (fun id => (directChildren events id).map (·.subjectId)) (events.length + 1) ⟨[], [baseModelId]⟩).getD []

def findModelsDerivedFrom (log : Option Bytes) (baseModelId : Str) : Except Raised (List Str) := do
  return (derivedFrom (← allEvents log) baseModelId).insertionSort (· ≤ ·)

/-- The loop over the revoked models, each of which reads the log again. -/
def affectedBy (log : Option Bytes) : List Str → Except Raised (List Str)
  | [] => .ok []
  | revokedId :: rest => do
    let derived ← findModelsDerivedFrom log revokedId
    return derived ++ (← affectedBy log rest)

def findDeploymentsUsingRevokedModel (log : Option Bytes) (revokedModelIds : List Str) :
    Except Raised (List ProvenanceEvent) := do
  let events ← allEvents log
  let affected := revokedModelIds ++ (← affectedBy log revokedModelIds)
  return events.filter fun e => e.IsDeployment ∧ e.subjectId ∈ affected

/-! ### What the queries are for -/

/-- A path of one or more lineage edges leads from the first model to the second. -/
def DerivesFrom (events : List ProvenanceEvent) : Str → Str → Prop :=
  Relation.TransGen fun a b => ∃ e ∈ events, e.IsLineage ∧ e.subjectId = a ∧ e.objectId = b

/-- The model is one of those, or derives from one of them. -/
def Affected (events : List ProvenanceEvent) (revoked : Str → Prop) (modelId : Str) : Prop :=
  ∃ base, revoked base ∧ (modelId = base ∨ DerivesFrom events modelId base)

open Classical in
/-- The deployments that an incident response has to look at. -/
noncomputable def affectedDeployments (events : List ProvenanceEvent) (revoked : Str → Prop) : List ProvenanceEvent :=
  events.filter fun e => decide (e.IsDeployment ∧ Affected events revoked e.subjectId)

theorem affectedDeployments_eq_iff {events : List ProvenanceEvent} {revoked known : Str → Prop}
    (sub : ∀ id, known id → revoked id) :
    affectedDeployments events known = affectedDeployments events revoked ↔
      ∀ e ∈ events, e.IsDeployment → Affected events revoked e.subjectId → Affected events known e.subjectId := by
  classical
  unfold affectedDeployments
  constructor
  · intro same e mem deployed affected
    have kept : e ∈ events.filter fun e => decide (e.IsDeployment ∧ Affected events revoked e.subjectId) :=
      List.mem_filter.mpr ⟨mem, decide_eq_true ⟨deployed, affected⟩⟩
    rw [← same] at kept
    exact (of_decide_eq_true (List.mem_filter.mp kept).2).2
  · intro covered
    apply List.filter_congr
    intro e mem
    rw [decide_eq_decide]
    refine and_congr_right fun deployed => ⟨?_, covered e mem deployed⟩
    rintro ⟨base, found, path⟩
    exact ⟨base, sub base found, path⟩

/-! ### The queries find it -/

variable {events : List ProvenanceEvent} {log : Option Bytes}

theorem leads_iff {base modelId : Str} :
    Leads (fun id => (directChildren events id).map (·.subjectId)) base modelId ↔ DerivesFrom events modelId base := by
  unfold Leads DerivesFrom
  rw [← Relation.transGen_swap]
  have edges : ∀ a b, b ∈ (directChildren events a).map (·.subjectId) ↔
      ∃ e ∈ events, e.IsLineage ∧ e.subjectId = b ∧ e.objectId = a := by
    intro a b
    unfold directChildren
    simp only [List.mem_map, List.mem_filter, decide_eq_true_eq]
    constructor
    · rintro ⟨e, ⟨mem, object, lineage⟩, subject⟩
      exact ⟨e, mem, lineage, subject, object⟩
    · rintro ⟨e, mem, lineage, subject, object⟩
      exact ⟨e, ⟨mem, object, lineage⟩, subject⟩
  simp only [edges]

/-- The loop comes to its end and finds the transitive closure. -/
theorem derivedFrom_exact (events : List ProvenanceEvent) (base : Str) :
    (derivedFrom events base).Nodup ∧ ∀ modelId, modelId ∈ derivedFrom events base ↔ DerivesFrom events modelId base := by
  have bounded : ∀ a, ∀ b ∈ (directChildren events a).map (·.subjectId), b ∈ events.map (·.subjectId) := by
    intro a b mem
    obtain ⟨e, child, same⟩ := List.mem_map.mp mem
    exact List.mem_map.mpr ⟨e, List.mem_of_mem_filter child, same⟩
  obtain ⟨out, ended, distinct, exact⟩ := explore_exact bounded base
  rw [List.length_map] at ended
  unfold derivedFrom
  rw [ended]
  exact ⟨distinct, fun modelId => (exact modelId).trans leads_iff⟩

theorem affectedBy_ok (read : allEvents log = .ok events) (ids : List Str) :
    ∃ out, affectedBy log ids = .ok out ∧ ∀ modelId, modelId ∈ out ↔ ∃ base ∈ ids, DerivesFrom events modelId base := by
  induction ids with
  | nil => exact ⟨[], rfl, fun modelId => by simp⟩
  | cons id ids ih =>
    obtain ⟨out, others, exact⟩ := ih
    refine ⟨(derivedFrom events id).insertionSort (· ≤ ·) ++ out, ?_, fun modelId => ?_⟩
    · unfold affectedBy findModelsDerivedFrom
      rw [read, others]
      rfl
    · rw [List.mem_append, List.mem_insertionSort, (derivedFrom_exact events id).2, exact]
      simp

theorem findDeployments_ok (read : allEvents log = .ok events) (ids : List Str) :
    findDeploymentsUsingRevokedModel log ids = .ok (affectedDeployments events (· ∈ ids)) := by
  obtain ⟨affected, found, exact⟩ := affectedBy_ok read ids
  unfold findDeploymentsUsingRevokedModel
  rw [read, found]
  show Except.ok (events.filter _) = _
  unfold affectedDeployments
  congr 1
  apply List.filter_congr
  intro e _
  rw [decide_eq_decide]
  refine and_congr_right fun _ => ?_
  unfold Affected
  rw [List.mem_append, exact]
  constructor
  · rintro (own | ⟨base, mem, path⟩)
    · exact ⟨_, own, .inl rfl⟩
    · exact ⟨base, mem, .inr path⟩
  · rintro ⟨base, mem, same | path⟩
    · exact .inl (same ▸ mem)
    · exact .inr ⟨base, mem, path⟩

end ModelGuard.Provenance
