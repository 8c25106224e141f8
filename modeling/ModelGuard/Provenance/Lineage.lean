import ModelGuard.Lib.StackWalk
import ModelGuard.Provenance.Graph
import ModelGuard.Registry.WriteFaults

/-!
# `lineage` and the models derived from a model

`lineage` collects the edges of a model when the model is taken from the stack, and marks a model when it
is pushed. What is taken is what was pushed last.
-/

namespace ModelGuard.Provenance

open Lib Lib.Fallible Lib.Worklist ModelGuard.Registry

/-- One round of the inner loop of `lineage`. -/
def followEdge (state : Search Str × List ProvenanceEvent) (edge : ProvenanceEvent) : Search Str × List ProvenanceEvent :=
  (state.1.push edge.objectId, state.2 ++ [edge])

/-- The loop of `lineage`, `none` where it has not come to its end. -/
def lineageLoop (events : List ProvenanceEvent) : Nat → Search Str × List ProvenanceEvent → Option (List ProvenanceEvent)
  | _, (⟨_, []⟩, result) => some result
  | 0, (⟨_, _ :: _⟩, _) => none
  | fuel + 1, (⟨visited, current :: rest⟩, result) =>
    lineageLoop events fuel ((directParents events current).foldl followEdge (⟨visited, rest⟩, result))

/-- `lineage`: as many rounds as it can take. -/
def lineage (log : Option Bytes) (modelId : Str) : Except Raised (List ProvenanceEvent) := do
  let events ← allEvents log
  return (lineageLoop events (events.length + 1) (⟨[modelId], [modelId]⟩, [])).getD []

/-- The models that the lineage edges of a model lead to, in the order of the log. -/
def parentIds (events : List ProvenanceEvent) (modelId : Str) : List Str :=
  (directParents events modelId).map (·.objectId)

/-! ### The loop walks over the models -/

variable {events : List ProvenanceEvent} {log : Option Bytes}

theorem foldl_followEdge (edges : List ProvenanceEvent) (s : Search Str) (result : List ProvenanceEvent) :
    edges.foldl followEdge (s, result) = ((edges.map (·.objectId)).foldl Search.push s, result ++ edges) := by
  induction edges generalizing s result with
  | nil => simp
  | cons edge edges ih =>
    rw [List.foldl_cons, followEdge, ih, List.map_cons, List.foldl_cons, List.append_assoc, List.singleton_append]

theorem lineageLoop_eq (fuel : Nat) (s : Search Str) (done : List Str) :
    lineageLoop events fuel (s, done.flatMap (directParents events)) =
      (walk (parentIds events) fuel s done).map (·.flatMap (directParents events)) := by
  induction fuel generalizing s done with
  | zero =>
    obtain ⟨visited, frontier⟩ := s
    cases frontier with
    | nil => rfl
    | cons current rest => rfl
  | succ fuel ih =>
    obtain ⟨visited, frontier⟩ := s
    cases frontier with
    | nil => rfl
    | cons current rest =>
      have longer : done.flatMap (directParents events) ++ directParents events current =
          (done ++ [current]).flatMap (directParents events) := by
        rw [List.flatMap_append, List.flatMap_singleton]
      rw [lineageLoop, foldl_followEdge, longer, walk]
      exact ih _ _

/-- The loop comes to its end, with the edges of the models it has walked over. -/
theorem lineage_walk (read : allEvents log = .ok events) (modelId : Str) :
    ∃ ids, walk (parentIds events) (events.length + 1) ⟨[modelId], [modelId]⟩ [] = some ids ∧
      lineageLoop events (events.length + 1) (⟨[modelId], [modelId]⟩, []) =
        some (ids.flatMap (directParents events)) ∧
      lineage log modelId = .ok (ids.flatMap (directParents events)) := by
  have bounded : ∀ a, ∀ b ∈ parentIds events a, b ∈ modelId :: events.map (·.objectId) := by
    intro a b mem
    obtain ⟨e, parent, same⟩ := List.mem_map.mp mem
    exact List.mem_cons_of_mem _ (List.mem_map.mpr ⟨e, List.mem_of_mem_filter parent, same⟩)
  have ends : ∃ ids, walk (parentIds events) (events.length + 1) ⟨[modelId], [modelId]⟩ [] = some ids := by
    apply walk_ends bounded (List.nodup_singleton modelId)
    · intro y mem
      rw [List.mem_singleton.mp mem]
      exact List.mem_cons_self
    · simp only [List.length_cons, List.length_map, List.length_nil]
      omega
  obtain ⟨ids, ended⟩ := ends
  have loop : lineageLoop events (events.length + 1) (⟨[modelId], [modelId]⟩, []) =
      some (ids.flatMap (directParents events)) := by
    have steps : lineageLoop events _ (⟨[modelId], [modelId]⟩, ([] : List Str).flatMap (directParents events)) = _ :=
      lineageLoop_eq (events.length + 1) ⟨[modelId], [modelId]⟩ []
    rw [ended] at steps
    exact steps
  refine ⟨ids, ended, loop, ?_⟩
  unfold lineage
  rw [read]
  show Except.ok ((lineageLoop events (events.length + 1) (⟨[modelId], [modelId]⟩, [])).getD []) = _
  rw [loop]
  rfl

theorem reaches_iff {modelId id : Str} :
    Reaches (parentIds events) modelId id ↔ id = modelId ∨ DerivesFrom events modelId id := by
  have edges : (fun a b => b ∈ parentIds events a) =
      fun a b => ∃ e ∈ events, e.IsLineage ∧ e.subjectId = a ∧ e.objectId = b := by
    funext a b
    unfold parentIds directParents
    simp only [List.mem_map, List.mem_filter, decide_eq_true_eq, eq_iff_iff]
    constructor
    · rintro ⟨e, ⟨mem, subject, lineage⟩, object⟩
      exact ⟨e, mem, lineage, subject, object⟩
    · rintro ⟨e, mem, lineage, subject, object⟩
      exact ⟨e, ⟨mem, subject, lineage⟩, object⟩
  unfold Reaches DerivesFrom
  rw [Relation.reflTransGen_iff_eq_or_transGen, edges]

/-! ### Every edge as often as it was recorded -/

theorem count_directParents (e : ProvenanceEvent) (modelId : Str) :
    (directParents events modelId).count e = if e.subjectId = modelId ∧ e.IsLineage then events.count e else 0 := by
  unfold directParents
  split
  · rename_i edge
    exact List.count_filter (decide_eq_true edge)
  · rename_i other
    rw [List.count_eq_zero]
    intro mem
    exact other (of_decide_eq_true (List.mem_filter.mp mem).2)

theorem count_edges {e : ProvenanceEvent} {ids : List Str} (distinct : ids.Nodup) :
    (ids.flatMap (directParents events)).count e =
      if e.subjectId ∈ ids ∧ e.IsLineage then events.count e else 0 := by
  induction ids with
  | nil => simp
  | cons id ids ih =>
    obtain ⟨new, distinct⟩ := List.nodup_cons.mp distinct
    rw [List.flatMap_cons, List.count_append, ih distinct, count_directParents]
    by_cases here : e.subjectId = id
    · rw [here]
      simp [new]
    · simp [here]

/-- The loop ends; each lineage edge of the model and of its ancestors is in the result as often as in the log,
and no other event is. -/
theorem lineage_exact (read : allEvents log = .ok events) (modelId : Str) :
    ∃ out, lineageLoop events (events.length + 1) (⟨[modelId], [modelId]⟩, []) = some out ∧
      lineage log modelId = .ok out ∧
      (∀ e : ProvenanceEvent, e.IsLineage → (e.subjectId = modelId ∨ DerivesFrom events modelId e.subjectId) →
        out.count e = events.count e) ∧
      ∀ e ∈ out, e ∈ events ∧ e.IsLineage ∧ (e.subjectId = modelId ∨ DerivesFrom events modelId e.subjectId) := by
  obtain ⟨ids, ended, loop, found⟩ := lineage_walk read modelId
  obtain ⟨distinct, reached⟩ := walk_exact (walking_start (parentIds events) modelId) ended
  refine ⟨_, loop, found, ?_, ?_⟩
  · intro e edge subject
    rw [count_edges distinct, if_pos ⟨(reached _).mpr (reaches_iff.mpr subject), edge⟩]
  · intro e mem
    obtain ⟨id, visited, edge⟩ := List.mem_flatMap.mp mem
    obtain ⟨recorded, kept⟩ := List.mem_filter.mp edge
    obtain ⟨subject, edge⟩ := of_decide_eq_true kept
    exact ⟨recorded, edge, subject ▸ reaches_iff.mp ((reached id).mp visited)⟩

/-! ### The order of the edges -/

/-- The length of a shortest path of lineage edges. -/
def LineageDistance (events : List ProvenanceEvent) (modelId : Str) (n : Nat) (id : Str) : Prop :=
  Distance (parentIds events) modelId n id

/-- Nearer ancestors are listed before farther ones. -/
def BreadthFirst (events : List ProvenanceEvent) (modelId : Str) (out : List ProvenanceEvent) : Prop :=
  out.Pairwise fun e f => ∀ i j, LineageDistance events modelId i e.subjectId →
    LineageDistance events modelId j f.subjectId → i ≤ j

theorem breadthFirst_iff {modelId : Str} {ids : List Str} :
    BreadthFirst events modelId (ids.flatMap (directParents events)) ↔ NearestFirst (parentIds events) modelId ids := by
  have subject (id : Str) (e : ProvenanceEvent) (mem : e ∈ directParents events id) : e.subjectId = id :=
    (of_decide_eq_true (List.mem_filter.mp mem).2).1
  have inner (id : Str) : Inner (parentIds events) id ↔ ∃ e, e ∈ directParents events id := by
    unfold Worklist.Inner parentIds
    rw [ne_eq, List.map_eq_nil_iff]
    constructor
    · intro some
      exact List.exists_mem_of_ne_nil _ some
    · intro ⟨e, mem⟩
      exact List.ne_nil_of_mem mem
  unfold BreadthFirst NearestFirst
  rw [List.pairwise_flatMap]
  constructor
  · intro ⟨_, across⟩
    apply across.imp
    intro a b ordered innerA innerB i j farA farB
    obtain ⟨e, edgeA⟩ := (inner a).mp innerA
    obtain ⟨f, edgeB⟩ := (inner b).mp innerB
    apply ordered e edgeA f edgeB
    · exact (subject a e edgeA).symm ▸ farA
    · exact (subject b f edgeB).symm ▸ farB
  · intro nearest
    constructor
    · intro a _
      apply List.pairwise_of_forall_mem_list
      intro e edgeE f edgeF i j farE farF
      rw [subject a e edgeE] at farE
      rw [subject a f edgeF] at farF
      exact (farE.unique farF).le
    · apply nearest.imp
      intro a b ordered e edgeE f edgeF i j farE farF
      rw [subject a e edgeE] at farE
      rw [subject b f edgeF] at farF
      exact ordered ((inner a).mpr ⟨e, edgeE⟩) ((inner b).mpr ⟨f, edgeF⟩) i j farE farF

/-- The edges come breadth first exactly where, at each distance, only the model that is listed first has a parent
that is farther and has parents itself. -/
theorem lineage_breadth_first_iff {modelId : Str} {out : List ProvenanceEvent} (read : allEvents log = .ok events)
    (found : lineage log modelId = .ok out) :
    BreadthFirst events modelId out ↔ ∀ d, OneLeadsOn (parentIds events) modelId d := by
  obtain ⟨ids, ended, -, result⟩ := lineage_walk read modelId
  have same := Except.ok.inj (found.symm.trans result)
  subst same
  rw [breadthFirst_iff]
  exact walk_nearest_iff ended

/-! ### The models derived from a model -/

/-- The loop ends, and the answer is the transitive closure, sorted and without repetition; the deployments are
those of the given models and of all that derive from them, as they stand in the log. -/
theorem derived_models_exact (read : allEvents log = .ok events) :
    (∀ base, ∃ visited out, explore (fun id => (directChildren events id).map (·.subjectId)) (events.length + 1)
        ⟨[], [base]⟩ = some visited ∧ findModelsDerivedFrom log base = .ok out ∧ out.Perm visited ∧
      out.Pairwise (· < ·) ∧ ∀ id, id ∈ out ↔ DerivesFrom events id base) ∧
    ∀ revoked, findDeploymentsUsingRevokedModel log revoked = .ok (affectedDeployments events (· ∈ revoked)) := by
  constructor
  · intro base
    have bounded : ∀ a, ∀ b ∈ (directChildren events a).map (·.subjectId), b ∈ events.map (·.subjectId) := by
      intro a b mem
      obtain ⟨e, child, same⟩ := List.mem_map.mp mem
      exact List.mem_map.mpr ⟨e, List.mem_of_mem_filter child, same⟩
    obtain ⟨visited, ended, distinct, exact⟩ := explore_exact bounded base
    rw [List.length_map] at ended
    have answer : derivedFrom events base = visited := by
      unfold derivedFrom
      rw [ended]
      rfl
    have order := List.pairwise_insertionSort (α := Str) (· ≤ ·) visited
    have once : (visited.insertionSort (· ≤ ·)).Nodup := (List.perm_insertionSort (· ≤ ·) visited).nodup_iff.mpr distinct
    refine ⟨visited, visited.insertionSort (· ≤ ·), ended, ?_, List.perm_insertionSort _ visited, ?_, fun id => ?_⟩
    · unfold findModelsDerivedFrom
      rw [read, ← answer]
      rfl
    · apply (order.and once).imp
      intro a b ⟨le, other⟩
      exact lt_of_le_of_ne le other
    · rw [List.mem_insertionSort, exact, leads_iff]
  · intro revoked
    exact findDeployments_ok read revoked

/-! ### Two branches of different length -/

def derivedEdge (subject object : String) : ProvenanceEvent where
  subjectId := str subject
  relationship := str RelationshipType.derivedFrom.value
  objectId := str object
  actor := str "ci"
  evidence := str "DECLARED"
  eventId := str "1"
  timestamp := str "2026-01-01"

/-- `m` has the parents `a` and `b`, and `b` has a grandparent. -/
def twoBranches : List ProvenanceEvent :=
  [derivedEdge "m" "a", derivedEdge "m" "b", derivedEdge "b" "c", derivedEdge "c" "d", derivedEdge "a" "e"]

def branchLog : Option Bytes := recorded LocalStore.noSha twoBranches

theorem branchLog_events : allEvents branchLog = .ok twoBranches := by
  have same : twoBranches.map ProvenanceEvent.readBack = twoBranches := by decide
  unfold branchLog
  rw [(logHolds_recorded LocalStore.noSha twoBranches).allEvents, same]

theorem branch_lineage : lineage branchLog (str "m") = .ok
    [derivedEdge "m" "a", derivedEdge "m" "b", derivedEdge "b" "c", derivedEdge "c" "d", derivedEdge "a" "e"] := by
  unfold lineage
  rw [branchLog_events]
  decide

theorem distance_a : LineageDistance twoBranches (str "m") 1 (str "a") := by
  refine ⟨(Worklist.Path.refl _).tail (by decide), ?_⟩
  intro k path
  cases path with
  | tail path _ => exact Nat.le_add_left 1 _

theorem distance_c : LineageDistance twoBranches (str "m") 2 (str "c") := by
  have first : str "b" ∈ parentIds twoBranches (str "m") := by decide
  refine ⟨((Worklist.Path.refl _).tail first).tail (by decide), ?_⟩
  intro k path
  cases path with
  | tail path child =>
    cases path with
    | refl =>
      have direct : str "c" ∉ parentIds twoBranches (str "m") := by decide
      exact absurd child direct
    | tail path _ => exact Nat.le_add_left 2 _

/-- The edge of `c`, which is two steps away, is listed before the edge of `a`. -/
theorem branch_not_breadth_first :
    ∃ log events modelId out, allEvents log = .ok events ∧ lineage log modelId = .ok out ∧
      ¬BreadthFirst events modelId out := by
  refine ⟨branchLog, twoBranches, str "m", _, branchLog_events, branch_lineage, ?_⟩
  intro ordered
  have later := (List.pairwise_cons.mp (ordered.tail.tail.tail)).1
  have le := later (derivedEdge "a" "e") (List.mem_singleton.mpr rfl) 2 1 distance_c distance_a
  exact absurd le (by decide)

theorem lineage_breadth_first_iff_branch :
    BreadthFirst twoBranches (str "m")
        [derivedEdge "m" "a", derivedEdge "m" "b", derivedEdge "b" "c", derivedEdge "c" "d", derivedEdge "a" "e"] ↔
      ∀ d, OneLeadsOn (parentIds twoBranches) (str "m") d :=
  lineage_breadth_first_iff branchLog_events branch_lineage

theorem lineage_exact_branch :
    ∃ out, lineageLoop twoBranches 6 (⟨[str "m"], [str "m"]⟩, []) = some out ∧ lineage branchLog (str "m") = .ok out ∧
      (∀ e : ProvenanceEvent, e.IsLineage → (e.subjectId = str "m" ∨ DerivesFrom twoBranches (str "m") e.subjectId) →
        out.count e = twoBranches.count e) ∧
      ∀ e ∈ out, e ∈ twoBranches ∧ e.IsLineage ∧ (e.subjectId = str "m" ∨ DerivesFrom twoBranches (str "m") e.subjectId) :=
  lineage_exact branchLog_events (str "m")

theorem derived_models_exact_branch :
    (∀ base, ∃ visited out, explore (fun id => (directChildren twoBranches id).map (·.subjectId)) 6
        ⟨[], [base]⟩ = some visited ∧ findModelsDerivedFrom branchLog base = .ok out ∧ out.Perm visited ∧
      out.Pairwise (· < ·) ∧ ∀ id, id ∈ out ↔ DerivesFrom twoBranches id base) ∧
    ∀ revoked, findDeploymentsUsingRevokedModel branchLog revoked = .ok (affectedDeployments twoBranches (· ∈ revoked)) :=
  derived_models_exact branchLog_events

end ModelGuard.Provenance
