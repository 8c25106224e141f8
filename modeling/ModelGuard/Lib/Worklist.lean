import Mathlib.Data.List.Dedup
import Mathlib.Data.List.Perm.Subperm
import Mathlib.Logic.Relation

/-!
# Exploring a graph with a stack

A node is marked when it is pushed. The start is pushed without a mark, so it is marked only where a path
leads back to it.
-/

namespace Lib.Worklist

open Relation

variable {α : Type} [DecidableEq α]

/-- The marked nodes, and the stack with its top first. -/
structure Search (α : Type) where
  visited : List α
  frontier : List α

def Search.push (s : Search α) (node : α) : Search α :=
  if node ∈ s.visited then s else { visited := s.visited ++ [node], frontier := node :: s.frontier }

/-- The loop, `none` where it has not come to its end. -/
def explore (next : α → List α) : Nat → Search α → Option (List α)
  | _, ⟨visited, []⟩ => some visited
  | 0, ⟨_, _ :: _⟩ => none
  | fuel + 1, ⟨visited, current :: rest⟩ => explore next fuel ((next current).foldl Search.push ⟨visited, rest⟩)

/-! ### One round -/

variable {s : Search α} {node x : α} {nodes : List α}

theorem mem_visited_push : x ∈ (s.push node).visited ↔ x ∈ s.visited ∨ x = node := by
  unfold Search.push
  split
  · rename_i marked
    constructor
    · exact .inl
    · rintro (old | same)
      · exact old
      · exact same ▸ marked
  · simp

theorem mem_visited_foldl : x ∈ (nodes.foldl Search.push s).visited ↔ x ∈ s.visited ∨ x ∈ nodes := by
  induction nodes generalizing s with
  | nil => simp
  | cons node nodes ih =>
    rw [List.foldl_cons, ih, mem_visited_push, List.mem_cons, or_assoc]

theorem frontier_push (s : Search α) (node : α) :
    s.frontier ⊆ (s.push node).frontier ∧ ∀ y ∈ (s.push node).frontier, y ∈ s.frontier ∨ y = node := by
  unfold Search.push
  split
  · exact ⟨List.Subset.refl _, fun y mem => .inl mem⟩
  · refine ⟨List.subset_cons_self _ _, fun y mem => ?_⟩
    rcases List.mem_cons.mp mem with same | old
    · exact .inr same
    · exact .inl old

theorem frontier_foldl : s.frontier ⊆ (nodes.foldl Search.push s).frontier ∧
    ∀ y ∈ (nodes.foldl Search.push s).frontier, y ∈ s.frontier ∨ y ∈ nodes := by
  induction nodes generalizing s with
  | nil => exact ⟨List.Subset.refl _, fun y mem => .inl mem⟩
  | cons node nodes ih =>
    obtain ⟨kept, known⟩ := ih (s := s.push node)
    obtain ⟨keptFirst, knownFirst⟩ := frontier_push s node
    refine ⟨fun y mem => kept (keptFirst mem), fun y mem => ?_⟩
    rcases known y mem with old | later
    · rcases knownFirst y old with old | same
      · exact .inl old
      · exact .inr (List.mem_cons.mpr (.inl same))
    · exact .inr (List.mem_cons_of_mem _ later)

/-- A node is marked only together with its push. -/
theorem marked_pushed (mem : x ∈ (nodes.foldl Search.push s).visited) :
    x ∈ s.visited ∨ x ∈ (nodes.foldl Search.push s).frontier := by
  induction nodes generalizing s with
  | nil => exact .inl mem
  | cons node nodes ih =>
    rcases ih mem with marked | pushed
    · unfold Search.push at marked
      split at marked
      · exact .inl marked
      · rename_i fresh
        rcases List.mem_append.mp marked with old | new
        · exact .inl old
        · have same := List.mem_singleton.mp new
          subst same
          have first : x ∈ (s.push x).frontier := by
            unfold Search.push
            rw [if_neg fresh]
            exact List.mem_cons_self
          rw [List.foldl_cons]
          exact .inr (frontier_foldl.1 first)
    · exact .inr pushed

theorem push_nodup (distinct : s.visited.Nodup) : (s.push node).visited.Nodup := by
  unfold Search.push
  split
  · exact distinct
  · rename_i fresh
    exact distinct.append (List.nodup_singleton _) (List.disjoint_singleton.mpr fresh)

theorem foldl_nodup (distinct : s.visited.Nodup) : (nodes.foldl Search.push s).visited.Nodup := by
  induction nodes generalizing s with
  | nil => exact distinct
  | cons node nodes ih => exact ih (push_nodup distinct)

/-- As many nodes are pushed as are marked. -/
theorem foldl_length (nodes : List α) (s : Search α) : (nodes.foldl Search.push s).frontier.length + s.visited.length =
    s.frontier.length + (nodes.foldl Search.push s).visited.length := by
  induction nodes generalizing s with
  | nil => rfl
  | cons node nodes ih =>
    have first : (s.push node).frontier.length + s.visited.length = s.frontier.length + (s.push node).visited.length := by
      unfold Search.push
      split
      · rfl
      · simp only [List.length_cons, List.length_append, List.length_nil]
        omega
    have rest := ih (s.push node)
    rw [List.foldl_cons]
    omega

/-! ### The loop -/

variable {next : α → List α} {start : α}

/-- There is a path of one or more edges. -/
def Leads (next : α → List α) : α → α → Prop := TransGen fun a b => b ∈ next a

/-- What holds whenever the loop looks at its stack. -/
structure Searching (next : α → List α) (start : α) (s : Search α) : Prop where
  distinct : s.visited.Nodup
  sound : ∀ y ∈ s.visited, Leads next start y
  known : ∀ y ∈ s.frontier, y = start ∨ y ∈ s.visited
  /-- Whatever is no longer on the stack has been expanded. -/
  closed : ∀ y, y = start ∨ y ∈ s.visited → y ∈ s.frontier ∨ ∀ z ∈ next y, z ∈ s.visited

omit [DecidableEq α] in
theorem searching_start (next : α → List α) (start : α) : Searching next start ⟨[], [start]⟩ where
  distinct := List.nodup_nil
  sound y mem := absurd mem List.not_mem_nil
  known y mem := .inl (List.mem_singleton.mp mem)
  closed y reached := by
    rcases reached with same | marked
    · exact .inl (List.mem_singleton.mpr same)
    · exact absurd marked List.not_mem_nil

theorem Searching.step {visited rest : List α} {current : α} (h : Searching next start ⟨visited, current :: rest⟩) :
    Searching next start ((next current).foldl Search.push ⟨visited, rest⟩) where
  distinct := foldl_nodup h.distinct
  sound y mem := by
    rcases mem_visited_foldl.mp mem with old | child
    · exact h.sound y old
    · rcases h.known current List.mem_cons_self with same | marked
      · exact .single (same ▸ child)
      · exact (h.sound current marked).tail child
  known y mem := by
    rcases frontier_foldl.2 y mem with old | child
    · rcases h.known y (List.mem_cons_of_mem _ old) with same | marked
      · exact .inl same
      · exact .inr (mem_visited_foldl.mpr (.inl marked))
    · exact .inr (mem_visited_foldl.mpr (.inr child))
  closed y reached := by
    have before : (y = start ∨ y ∈ visited) ∨ y ∈ ((next current).foldl Search.push ⟨visited, rest⟩).frontier := by
      rcases reached with same | marked
      · exact .inl (.inl same)
      · rcases marked_pushed marked with old | pushed
        · exact .inl (.inr old)
        · exact .inr pushed
    rcases before with reached | pushed
    · rcases h.closed y reached with waiting | expanded
      · rcases List.mem_cons.mp waiting with same | old
        · subst same
          exact .inr fun z child => mem_visited_foldl.mpr (.inr child)
        · exact .inl (frontier_foldl.1 old)
      · exact .inr fun z child => mem_visited_foldl.mpr (.inl (expanded z child))
    · exact .inl pushed

omit [DecidableEq α] in
/-- With an empty stack, exactly the nodes that the start leads to are marked. -/
theorem Searching.done {visited : List α} (h : Searching next start ⟨visited, []⟩) (y : α) :
    y ∈ visited ↔ Leads next start y := by
  constructor
  · exact h.sound y
  · intro path
    have expanded : ∀ x, x = start ∨ x ∈ visited → ∀ z ∈ next x, z ∈ visited := by
      intro x reached
      exact (h.closed x reached).resolve_left List.not_mem_nil
    induction path with
    | single child => exact expanded start (.inl rfl) _ child
    | tail _ child ih => exact expanded _ (.inr ih) _ child

theorem explore_found {bound : List α} (bounded : ∀ a, ∀ b ∈ next a, b ∈ bound) {fuel : Nat} {s : Search α}
    (h : Searching next start s) (within : ∀ y ∈ s.visited, y ∈ bound)
    (enough : s.frontier.length + bound.length ≤ fuel + s.visited.length) :
    ∃ out, explore next fuel s = some out ∧ out.Nodup ∧ ∀ y, y ∈ out ↔ Leads next start y := by
  induction fuel generalizing s with
  | zero =>
    have room := (List.Nodup.subperm h.distinct within).length_le
    obtain ⟨visited, frontier⟩ := s
    have empty : frontier = [] := List.eq_nil_of_length_eq_zero (by simp only at enough room; omega)
    subst empty
    exact ⟨visited, rfl, h.distinct, h.done⟩
  | succ fuel ih =>
    obtain ⟨visited, frontier⟩ := s
    cases frontier with
    | nil => exact ⟨visited, rfl, h.distinct, h.done⟩
    | cons current rest =>
      have pushed := foldl_length (next current) ⟨visited, rest⟩
      apply ih h.step
      · intro y mem
        rcases mem_visited_foldl.mp mem with old | child
        · exact within y old
        · exact bounded current y child
      · simp only [List.length_cons] at enough pushed
        omega

/-- The loop ends within as many rounds as there are nodes to push, and finds what the start leads to. -/
theorem explore_exact {bound : List α} (bounded : ∀ a, ∀ b ∈ next a, b ∈ bound) (start : α) :
    ∃ out, explore next (bound.length + 1) ⟨[], [start]⟩ = some out ∧ out.Nodup ∧
      ∀ y, y ∈ out ↔ Leads next start y := by
  apply explore_found bounded (searching_start next start)
  · exact fun y mem => absurd mem List.not_mem_nil
  · simp only [List.length_cons, List.length_nil]
    omega

end Lib.Worklist
