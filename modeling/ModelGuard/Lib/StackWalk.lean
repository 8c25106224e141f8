import Mathlib.Data.Nat.Find
import ModelGuard.Lib.Worklist

/-!
# The order in which a stack is emptied

The start is marked too, so every node that can be reached is expanded once. With a stack the nodes
come nearest first only where at most one node of each distance leads on, and that one is expanded last.
-/

namespace Lib.Worklist

open Relation

variable {α : Type} [DecidableEq α]

/-- The loop with the nodes that were expanded, in order; `none` where it has not come to its end. -/
def walk (next : α → List α) : Nat → Search α → List α → Option (List α)
  | _, ⟨_, []⟩, done => some done
  | 0, ⟨_, _ :: _⟩, _ => none
  | fuel + 1, ⟨visited, current :: rest⟩, done =>
    walk next fuel ((next current).foldl Search.push ⟨visited, rest⟩) (done ++ [current])

/-! ### What a round pushes -/

/-- The nodes that are not marked yet, each once. -/
def fresh (visited : List α) : List α → List α
  | [] => []
  | node :: nodes => if node ∈ visited then fresh visited nodes else node :: fresh (visited ++ [node]) nodes

theorem foldl_push (nodes : List α) (s : Search α) :
    nodes.foldl Search.push s = ⟨s.visited ++ fresh s.visited nodes, (fresh s.visited nodes).reverse ++ s.frontier⟩ := by
  induction nodes generalizing s with
  | nil => simp [fresh]
  | cons node nodes ih =>
    rw [List.foldl_cons, ih]
    unfold Search.push
    rw [fresh]
    split
    · rfl
    · simp only [List.append_assoc, List.singleton_append, List.reverse_cons]

theorem mem_fresh {visited nodes : List α} {x : α} : x ∈ fresh visited nodes ↔ x ∈ nodes ∧ x ∉ visited := by
  induction nodes generalizing visited with
  | nil => simp [fresh]
  | cons node nodes ih =>
    rw [fresh]
    split
    · rename_i marked
      rw [ih, List.mem_cons]
      constructor
      · intro ⟨later, unmarked⟩
        exact ⟨.inr later, unmarked⟩
      · intro ⟨mem, unmarked⟩
        rcases mem with same | later
        · exact absurd (same ▸ marked) unmarked
        · exact ⟨later, unmarked⟩
    · rename_i unmarked
      rw [List.mem_cons, ih, List.mem_append, List.mem_singleton, List.mem_cons]
      by_cases same : x = node
      · subst same
        simp [unmarked]
      · simp [same]

theorem fresh_nodup (visited nodes : List α) : (fresh visited nodes).Nodup := by
  induction nodes generalizing visited with
  | nil => exact List.nodup_nil
  | cons node nodes ih =>
    rw [fresh]
    split
    · exact ih visited
    · apply List.nodup_cons.mpr ⟨?_, ih _⟩
      intro again
      exact (mem_fresh.mp again).2 (by simp)

/-- The first place of one node is before any place of the other. -/
def ListedBefore (nodes : List α) (x y : α) : Prop := ∃ before after, nodes = before ++ x :: after ∧ y ∉ before

omit [DecidableEq α] in
theorem ListedBefore.mem {nodes : List α} {x y : α} (h : ListedBefore nodes x y) : x ∈ nodes := by
  obtain ⟨before, after, split, -⟩ := h
  rw [split]
  simp

omit [DecidableEq α] in
theorem ListedBefore.cons {nodes : List α} {x y node : α} (h : ListedBefore nodes x y) (other : y ≠ node) :
    ListedBefore (node :: nodes) x y := by
  obtain ⟨before, after, split, first⟩ := h
  refine ⟨node :: before, after, by rw [split, List.cons_append], ?_⟩
  intro mem
  rcases List.mem_cons.mp mem with same | old
  · exact other same
  · exact first old

omit [DecidableEq α] in
theorem ListedBefore.asymm {nodes : List α} {x y : α} (h : ListedBefore nodes x y) (other : x ≠ y) :
    ¬ListedBefore nodes y x := by
  rintro ⟨before', after', split', first'⟩
  obtain ⟨before, after, split, first⟩ := h
  rcases List.append_eq_append_iff.mp (split.symm.trans split') with ⟨more, longer, rest⟩ | ⟨more, longer, rest⟩
  · cases more with
    | nil => exact other (List.cons.inj rest).1
    | cons c more =>
      have same : x = c := (List.cons.inj rest).1
      exact first' (by rw [longer, same]; simp)
  · cases more with
    | nil => exact other (List.cons.inj rest).1.symm
    | cons c more =>
      have same : y = c := (List.cons.inj rest).1
      exact first (by rw [longer, same]; simp)

/-- Nodes are pushed in the order in which they are listed. -/
theorem fresh_listed (visited nodes : List α) : (fresh visited nodes).Pairwise (ListedBefore nodes) := by
  induction nodes generalizing visited with
  | nil => exact List.Pairwise.nil
  | cons node nodes ih =>
    rw [fresh]
    split
    · rename_i marked
      apply (ih visited).imp_of_mem
      intro x y _ my listed
      apply listed.cons
      intro same
      exact (mem_fresh.mp my).2 (same ▸ marked)
    · apply List.pairwise_cons.mpr
      constructor
      · intro y _
        exact ⟨[], nodes, rfl, List.not_mem_nil⟩
      · apply (ih _).imp_of_mem
        intro x y _ my listed
        apply listed.cons
        intro same
        exact (mem_fresh.mp my).2 (by simp [same])

/-! ### Every node once -/

variable {next : α → List α} {start : α}

def Reaches (next : α → List α) : α → α → Prop := ReflTransGen fun a b => b ∈ next a

/-- What holds whenever the loop looks at its stack. -/
structure Walking (next : α → List α) (start : α) (s : Search α) (done : List α) : Prop where
  distinct : (done ++ s.frontier).Nodup
  marked : ∀ y, y ∈ s.visited ↔ y ∈ done ∨ y ∈ s.frontier
  sound : ∀ y ∈ s.visited, Reaches next start y
  closed : ∀ y ∈ done, ∀ z ∈ next y, z ∈ s.visited
  begun : start ∈ s.visited

omit [DecidableEq α] in
theorem walking_start (next : α → List α) (start : α) : Walking next start ⟨[start], [start]⟩ [] where
  distinct := List.nodup_singleton start
  marked y := by simp
  sound y mem := by
    rw [List.mem_singleton.mp mem]
    exact .refl
  closed y mem := absurd mem List.not_mem_nil
  begun := List.mem_singleton.mpr rfl

theorem Walking.step {visited rest done : List α} {current : α}
    (h : Walking next start ⟨visited, current :: rest⟩ done) :
    Walking next start ((next current).foldl Search.push ⟨visited, rest⟩) (done ++ [current]) := by
  rw [foldl_push]
  have expanded : current ∈ visited := (h.marked current).mpr (.inr List.mem_cons_self)
  have known (y : α) (mem : y ∈ done ++ current :: rest) : y ∈ visited :=
    (h.marked y).mpr (List.mem_append.mp mem)
  constructor
  · have split : (done ++ [current]) ++ ((fresh visited (next current)).reverse ++ rest) =
        (done ++ [current]) ++ (fresh visited (next current)).reverse ++ rest := (List.append_assoc ..).symm
    have old : ((done ++ [current]) ++ rest).Nodup := by
      rw [List.append_assoc, List.singleton_append]
      exact h.distinct
    have moved : ((done ++ [current]) ++ ((fresh visited (next current)).reverse ++ rest)).Perm
        ((fresh visited (next current)).reverse ++ ((done ++ [current]) ++ rest)) := by
      rw [← List.append_assoc, ← List.append_assoc]
      exact List.perm_append_comm.append_right rest
    apply moved.symm.nodup
    apply List.Nodup.append
    · exact List.nodup_reverse.mpr (fresh_nodup _ _)
    · exact old
    · intro x new mem
      apply (mem_fresh.mp (List.mem_reverse.mp new)).2
      apply known
      rwa [List.append_assoc, List.singleton_append] at mem
  · intro y
    have before := h.marked y
    simp only [List.mem_append, List.mem_cons, List.mem_reverse, List.not_mem_nil, or_false] at before ⊢
    rw [before]
    tauto
  · intro y mem
    rcases List.mem_append.mp mem with old | new
    · exact h.sound y old
    · exact (h.sound current expanded).tail (mem_fresh.mp new).1
  · intro y mem z child
    rcases List.mem_append.mp mem with old | new
    · exact List.mem_append_left _ (h.closed y old z child)
    · rw [List.mem_singleton.mp new] at child
      by_cases seen : z ∈ visited
      · exact List.mem_append_left _ seen
      · exact List.mem_append_right _ (mem_fresh.mpr ⟨child, seen⟩)
  · exact List.mem_append_left _ h.begun

omit [DecidableEq α] in
/-- With an empty stack, exactly the nodes that can be reached were expanded. -/
theorem Walking.done {visited out : List α} (h : Walking next start ⟨visited, []⟩ out) :
    out.Nodup ∧ ∀ y, y ∈ out ↔ Reaches next start y := by
  have same (y : α) : y ∈ visited ↔ y ∈ out := by simpa using h.marked y
  constructor
  · simpa using h.distinct
  · intro y
    constructor
    · intro mem
      exact h.sound y ((same y).mpr mem)
    · intro path
      induction path with
      | refl => exact (same start).mp h.begun
      | tail _ child ih => exact (same _).mp (h.closed _ ih _ child)

theorem walk_exact {fuel : Nat} {s : Search α} {done out : List α} (h : Walking next start s done)
    (ended : walk next fuel s done = some out) : out.Nodup ∧ ∀ y, y ∈ out ↔ Reaches next start y := by
  induction fuel generalizing s done with
  | zero =>
    obtain ⟨visited, frontier⟩ := s
    cases frontier with
    | nil =>
      cases ended
      exact h.done
    | cons current rest => cases ended
  | succ fuel ih =>
    obtain ⟨visited, frontier⟩ := s
    cases frontier with
    | nil =>
      cases ended
      exact h.done
    | cons current rest => exact ih h.step ended

/-- The loop ends within as many rounds as there are nodes to push. -/
theorem walk_ends {bound : List α} (bounded : ∀ a, ∀ b ∈ next a, b ∈ bound) {fuel : Nat} {s : Search α} {done : List α}
    (distinct : s.visited.Nodup) (within : ∀ y ∈ s.visited, y ∈ bound)
    (enough : s.frontier.length + bound.length ≤ fuel + s.visited.length) : ∃ out, walk next fuel s done = some out := by
  induction fuel generalizing s done with
  | zero =>
    have room := (List.Nodup.subperm distinct within).length_le
    obtain ⟨visited, frontier⟩ := s
    have empty : frontier = [] := List.eq_nil_of_length_eq_zero (by simp only at enough room; omega)
    subst empty
    exact ⟨done, rfl⟩
  | succ fuel ih =>
    obtain ⟨visited, frontier⟩ := s
    cases frontier with
    | nil => exact ⟨done, rfl⟩
    | cons current rest =>
      have pushed := foldl_length (next current) ⟨visited, rest⟩
      have once : ((next current).foldl Search.push ⟨visited, rest⟩).visited.Nodup :=
        foldl_nodup (s := ⟨visited, rest⟩) distinct
      rw [walk]
      apply ih once
      · intro y mem
        rcases mem_visited_foldl.mp mem with old | child
        · exact within y old
        · exact bounded current y child
      · simp only [List.length_cons] at enough pushed
        omega

/-- What is on the stack is expanded from its top down, whatever is pushed in between. -/
theorem walk_order {fuel : Nat} {s : Search α} {done out : List α} (ended : walk next fuel s done = some out) :
    ∃ tail, out = done ++ tail ∧ s.frontier.Sublist tail := by
  induction fuel generalizing s done with
  | zero =>
    obtain ⟨visited, frontier⟩ := s
    cases frontier with
    | nil =>
      cases ended
      exact ⟨[], (List.append_nil _).symm, List.Sublist.refl []⟩
    | cons current rest => cases ended
  | succ fuel ih =>
    obtain ⟨visited, frontier⟩ := s
    cases frontier with
    | nil =>
      cases ended
      exact ⟨[], (List.append_nil _).symm, List.Sublist.refl []⟩
    | cons current rest =>
      rw [walk, foldl_push] at ended
      obtain ⟨tail, split, later⟩ := ih ended
      refine ⟨current :: tail, by rw [split, List.append_assoc, List.singleton_append], ?_⟩
      exact ((List.sublist_append_right _ rest).trans later).cons_cons current

/-! ### Distances -/

/-- There is a path of this many edges. -/
inductive Path (next : α → List α) : Nat → α → α → Prop
  | refl (a : α) : Path next 0 a a
  | tail {n : Nat} {a b c : α} : Path next n a b → c ∈ next b → Path next (n + 1) a c

/-- The number of edges of a shortest path. -/
structure Distance (next : α → List α) (start : α) (n : Nat) (y : α) : Prop where
  path : Path next n start y
  shortest : ∀ k, Path next k start y → n ≤ k

section Distances

omit [DecidableEq α]

theorem Distance.unique {m n : Nat} {y : α} (h : Distance next start m y) (h' : Distance next start n y) : m = n :=
  Nat.le_antisymm (h.shortest n h'.path) (h'.shortest m h.path)

theorem exists_distance_le {n : Nat} {y : α} (path : Path next n start y) : ∃ k ≤ n, Distance next start k y := by
  classical
  have some : ∃ k, Path next k start y := ⟨n, path⟩
  refine ⟨Nat.find some, Nat.find_min' some path, Nat.find_spec some, ?_⟩
  intro k shorter
  exact Nat.find_min' some shorter

theorem path_of_reaches {y : α} (h : Reaches next start y) : ∃ n, Path next n start y := by
  induction h with
  | refl => exact ⟨0, .refl start⟩
  | tail _ child ih =>
    obtain ⟨n, path⟩ := ih
    exact ⟨n + 1, path.tail child⟩

theorem Path.reaches {n : Nat} {a y : α} (h : Path next n a y) : Reaches next a y := by
  induction h with
  | refl a => exact .refl
  | tail _ child ih => exact ih.tail child

theorem distance_zero {y : α} : Distance next start 0 y ↔ y = start := by
  constructor
  · intro h
    cases h.path
    rfl
  · intro same
    subst same
    exact ⟨.refl y, fun k _ => Nat.zero_le k⟩

theorem Distance.child {n : Nat} {y z : α} (h : Distance next start n y) (child : z ∈ next y) :
    ∃ k ≤ n + 1, Distance next start k z := exists_distance_le (h.path.tail child)

/-- The node before it on a shortest path. -/
theorem Distance.parent {n : Nat} {z : α} (h : Distance next start (n + 1) z) :
    ∃ y, Distance next start n y ∧ z ∈ next y := by
  obtain ⟨path, shortest⟩ := h
  cases path with
  | tail path child =>
    refine ⟨_, ⟨path, ?_⟩, child⟩
    intro k shorter
    exact Nat.le_of_succ_le_succ (shortest (k + 1) (shorter.tail child))

/-- A node that leads on. -/
def Inner (next : α → List α) (y : α) : Prop := next y ≠ []

theorem inner_of_mem {y z : α} (child : z ∈ next y) : Inner next y := List.ne_nil_of_mem child

theorem Distance.inner_above {n k : Nat} {z : α} (h : Distance next start n z) (inner : Inner next z) (le : k ≤ n) :
    ∃ y, Distance next start k y ∧ Inner next y := by
  induction n generalizing z with
  | zero =>
    have same : k = 0 := by omega
    exact ⟨z, same ▸ h, inner⟩
  | succ n ih =>
    by_cases here : k = n + 1
    · exact ⟨z, here ▸ h, inner⟩
    · obtain ⟨y, above, child⟩ := h.parent
      exact ih above (inner_of_mem child) (by omega)

/-- No inner node is farther than one that comes later. -/
def NearestFirst (next : α → List α) (start : α) (nodes : List α) : Prop :=
  nodes.Pairwise fun a b => Inner next a → Inner next b →
    ∀ i j, Distance next start i a → Distance next start j b → i ≤ j

/-- In the list of some nearer node, the one is before the other. -/
def Precedes (next : α → List α) (start : α) (d : Nat) (x y : α) : Prop :=
  ∃ u k, k < d ∧ Distance next start k u ∧ ListedBefore (next u) x y

/-- Of the inner nodes at this distance, only the one that is listed first leads to an inner node that is farther. -/
def OneLeadsOn (next : α → List α) (start : α) (d : Nat) : Prop :=
  ∀ x y z, Distance next start d x → Distance next start d y → x ≠ y → Inner next y →
    z ∈ next x → Distance next start (d + 1) z → Inner next z → Precedes next start d x y

theorem Precedes.above {d : Nat} {x y : α} (h : Precedes next start d x y) (at_d : Distance next start d x) :
    ∃ u k, d = k + 1 ∧ Distance next start k u ∧ ListedBefore (next u) x y := by
  obtain ⟨u, k, nearer, above, listed⟩ := h
  refine ⟨u, k, ?_, above, listed⟩
  have far := at_d.shortest (k + 1) (above.path.tail listed.mem)
  omega

/-- Then the inner nodes of one distance are all listed by one node. -/
theorem leader_unique (one : ∀ d, OneLeadsOn next start d) {d : Nat} {p u x y : α} (hp : Distance next start d p)
    (hu : Distance next start d u) (py : y ∈ next p) (hy : Distance next start (d + 1) y) (innerY : Inner next y)
    (ux : x ∈ next u) (hx : Distance next start (d + 1) x) (innerX : Inner next x) : p = u := by
  induction d generalizing p u x y with
  | zero => rw [distance_zero.mp hp, distance_zero.mp hu]
  | succ d ih =>
    by_contra other
    have innerP := inner_of_mem py
    have innerU := inner_of_mem ux
    obtain ⟨q, k, same, hq, before⟩ := (one (d + 1) p u y hp hu other innerU py hy innerY).above hp
    obtain ⟨r, k', same', hr, after⟩ := (one (d + 1) u p x hu hp (Ne.symm other) innerP ux hx innerX).above hu
    have kd : k = d := by omega
    have kd' : k' = d := by omega
    subst kd kd'
    have leader := ih hq hr before.mem hp innerP after.mem hu innerU
    subst leader
    exact before.asymm other after

end Distances

/-! ### Distance by distance -/

/-- What holds as long as the nodes come nearest first: of the inner nodes at distance `d`, those that were not
expanded are on the stack, the one listed first at the bottom. -/
structure Level (next : α → List α) (start : α) (d : Nat) (s : Search α) (done : List α) : Prop where
  behind : ∀ a ∈ done, Inner next a → ∃ k ≤ d, Distance next start k a
  here : ∀ a ∈ s.frontier, Inner next a → Distance next start d a
  full : ∀ k ≤ d, ∀ a, Distance next start k a → a ∈ s.visited
  order : (done ++ s.frontier).Pairwise fun a b => Inner next a → Inner next b →
    Distance next start d a → Distance next start d b → Precedes next start d b a
  quiet : ∀ x ∈ done, Distance next start d x → (∃ y ∈ s.frontier, Inner next y) →
    ∀ z ∈ next x, Inner next z → ¬Distance next start (d + 1) z
  alive : (∃ y ∈ s.frontier, Inner next y) ∨ ∀ y, Distance next start d y → ¬Inner next y

omit [DecidableEq α] in
theorem level_start (next : α → List α) (start : α) : Level next start 0 ⟨[start], [start]⟩ [] where
  behind a mem := absurd mem List.not_mem_nil
  here a mem _ := distance_zero.mpr (List.mem_singleton.mp mem)
  full k le a far := by
    have zero : k = 0 := Nat.le_zero.mp le
    subst zero
    exact List.mem_singleton.mpr (distance_zero.mp far)
  order := List.pairwise_singleton _ _
  quiet x mem := absurd mem List.not_mem_nil
  alive := by
    by_cases inner : Inner next start
    · exact .inl ⟨start, List.mem_singleton.mpr rfl, inner⟩
    · refine .inr fun y far => ?_
      rwa [distance_zero.mp far]

section Round

variable {d : Nat} {visited rest done : List α} {current : α}

/-- What is pushed while a level is worked off is one step farther. -/
theorem Level.fresh_distance (l : Level next start d ⟨visited, current :: rest⟩ done) (inner : Inner next current)
    {z : α} (pushed : z ∈ fresh visited (next current)) : Distance next start (d + 1) z := by
  obtain ⟨child, unmarked⟩ := mem_fresh.mp pushed
  obtain ⟨k, le, far⟩ := (l.here current List.mem_cons_self inner).child child
  have new : ¬k ≤ d := fun near => unmarked (l.full k near z far)
  have same : k = d + 1 := by omega
  exact same ▸ far

omit [DecidableEq α] in
theorem pairwise_insert {R : α → α → Prop} {l m r : List α} (h : (l ++ r).Pairwise R)
    (free : ∀ x ∈ m, ∀ y, R x y ∧ R y x) : (l ++ (m ++ r)).Pairwise R := by
  obtain ⟨left, right, cross⟩ := List.pairwise_append.mp h
  refine List.pairwise_append.mpr ⟨left, List.pairwise_append.mpr ⟨?_, right, ?_⟩, ?_⟩
  · apply List.pairwise_of_forall_mem_list
    intro x mem y _
    exact (free x mem y).1
  · intro x mem y _
    exact (free x mem y).1
  · intro x mem y later
    rcases List.mem_append.mp later with new | old
    · exact (free y new x).2
    · exact cross x mem y old

/-- Expanding a node that leads nowhere. -/
theorem Level.leaf (l : Level next start d ⟨visited, current :: rest⟩ done) (leaf : ¬Inner next current) :
    Level next start d ((next current).foldl Search.push ⟨visited, rest⟩) (done ++ [current]) := by
  have none : next current = [] := not_not.mp leaf
  rw [none, List.foldl_nil]
  have kept : (∃ y ∈ current :: rest, Inner next y) → ∃ y ∈ rest, Inner next y := by
    intro ⟨y, mem, inner⟩
    rcases List.mem_cons.mp mem with same | later
    · exact absurd (same ▸ inner) leaf
    · exact ⟨y, later, inner⟩
  constructor
  · intro a mem inner
    rcases List.mem_append.mp mem with old | new
    · exact l.behind a old inner
    · exact absurd (List.mem_singleton.mp new ▸ inner) leaf
  · intro a mem inner
    exact l.here a (List.mem_cons_of_mem _ mem) inner
  · exact l.full
  · rw [List.append_assoc, List.singleton_append]
    exact l.order
  · intro x mem far ⟨y, later, inner⟩ z child
    rcases List.mem_append.mp mem with old | new
    · exact l.quiet x old far ⟨y, List.mem_cons_of_mem _ later, inner⟩ z child
    · exact absurd (inner_of_mem (List.mem_singleton.mp new ▸ child)) leaf
  · rcases l.alive with inner | none
    · exact .inl (kept inner)
    · exact .inr none

/-- Expanding an inner node while others of its distance wait, where it pushes no inner node. -/
theorem Level.wait (w : Walking next start ⟨visited, current :: rest⟩ done)
    (l : Level next start d ⟨visited, current :: rest⟩ done) (inner : Inner next current)
    (others : ∃ y ∈ rest, Inner next y) (calm : ∀ z ∈ fresh visited (next current), ¬Inner next z) :
    Level next start d ((next current).foldl Search.push ⟨visited, rest⟩) (done ++ [current]) := by
  rw [foldl_push]
  have far := l.here current List.mem_cons_self inner
  have stillOthers : ∃ y ∈ (fresh visited (next current)).reverse ++ rest, Inner next y := by
    obtain ⟨y, mem, innerY⟩ := others
    exact ⟨y, List.mem_append_right _ mem, innerY⟩
  constructor
  · intro a mem innerA
    rcases List.mem_append.mp mem with old | new
    · exact l.behind a old innerA
    · rw [List.mem_singleton.mp new]
      exact ⟨d, Nat.le_refl d, far⟩
  · intro a mem innerA
    rcases List.mem_append.mp mem with new | old
    · exact absurd innerA (calm a (List.mem_reverse.mp new))
    · exact l.here a (List.mem_cons_of_mem _ old) innerA
  · intro k le a near
    exact List.mem_append_left _ (l.full k le a near)
  · apply pairwise_insert
    · rw [List.append_assoc, List.singleton_append]
      exact l.order
    · intro x new y
      have outer := calm x (List.mem_reverse.mp new)
      exact ⟨fun innerX => absurd innerX outer, fun _ innerX => absurd innerX outer⟩
  · intro x mem farX _ z child innerZ
    rcases List.mem_append.mp mem with old | new
    · exact l.quiet x old farX ⟨current, List.mem_cons_self, inner⟩ z child innerZ
    · rw [List.mem_singleton.mp new] at child
      intro farZ
      by_cases seen : z ∈ visited
      · rcases (w.marked z).mp seen with old | waiting
        · obtain ⟨k, le, near⟩ := l.behind z old innerZ
          have same := near.unique farZ
          omega
        · have same := (l.here z waiting innerZ).unique farZ
          omega
      · exact calm z (mem_fresh.mpr ⟨child, seen⟩) innerZ
  · exact .inl stillOthers

/-- Expanding the last inner node of a distance brings the next distance onto the stack. -/
theorem Level.advance (w : Walking next start ⟨visited, current :: rest⟩ done)
    (l : Level next start d ⟨visited, current :: rest⟩ done) (inner : Inner next current)
    (last : ∀ y ∈ rest, ¬Inner next y) :
    Level next start (d + 1) ((next current).foldl Search.push ⟨visited, rest⟩) (done ++ [current]) := by
  rw [foldl_push]
  have far := l.here current List.mem_cons_self inner
  have behind (a : α) (mem : a ∈ done ++ [current]) (innerA : Inner next a) : ∃ k ≤ d, Distance next start k a := by
    rcases List.mem_append.mp mem with old | new
    · exact l.behind a old innerA
    · rw [List.mem_singleton.mp new]
      exact ⟨d, Nat.le_refl d, far⟩
  have nearer (a : α) (mem : a ∈ done ++ [current]) (innerA : Inner next a) : ¬Distance next start (d + 1) a := by
    intro farther
    obtain ⟨k, le, near⟩ := behind a mem innerA
    have same := near.unique farther
    omega
  have full (k : Nat) (le : k ≤ d + 1) (a : α) (h : Distance next start k a) :
      a ∈ visited ++ fresh visited (next current) := by
    by_cases near : k ≤ d
    · exact List.mem_append_left _ (l.full k near a h)
    · have same : k = d + 1 := by omega
      subst same
      obtain ⟨p, above, child⟩ := h.parent
      by_cases seen : a ∈ visited
      · exact List.mem_append_left _ seen
      · rcases (w.marked p).mp (l.full d (Nat.le_refl d) p above) with old | waiting
        · exact absurd (w.closed p old a child) seen
        · rcases List.mem_cons.mp waiting with top | later
          · exact List.mem_append_right _ (mem_fresh.mpr ⟨top ▸ child, seen⟩)
          · exact absurd (inner_of_mem child) (last p later)
  constructor
  · intro a mem innerA
    obtain ⟨k, le, near⟩ := behind a mem innerA
    exact ⟨k, by omega, near⟩
  · intro a mem innerA
    rcases List.mem_append.mp mem with new | old
    · exact l.fresh_distance inner (List.mem_reverse.mp new)
    · exact absurd innerA (last a old)
  · exact full
  · refine List.pairwise_append.mpr ⟨?_, List.pairwise_append.mpr ⟨?_, ?_, ?_⟩, ?_⟩
    · apply List.pairwise_of_forall_mem_list
      intro a mem b _ innerA _ farA
      exact absurd farA (nearer a mem innerA)
    · apply List.pairwise_reverse.mpr
      apply (fresh_listed visited (next current)).imp
      intro a b listed _ _ _ _
      exact ⟨current, d, Nat.lt_succ_self d, far, listed⟩
    · apply List.pairwise_of_forall_mem_list
      intro a mem b _ innerA
      exact absurd innerA (last a mem)
    · intro a _ b mem _ innerB
      exact absurd innerB (last b mem)
    · intro a mem b _ innerA _ farA
      exact absurd farA (nearer a mem innerA)
  · intro x mem farX _ z child
    exact absurd farX (nearer x mem (inner_of_mem child))
  · by_cases some : ∃ y ∈ fresh visited (next current), Inner next y
    · obtain ⟨y, new, innerY⟩ := some
      exact .inl ⟨y, List.mem_append_left _ (List.mem_reverse.mpr new), innerY⟩
    · refine .inr fun y farY innerY => ?_
      rcases List.mem_append.mp (full (d + 1) (Nat.le_refl _) y farY) with seen | new
      · rcases (w.marked y).mp seen with old | waiting
        · exact nearer y (List.mem_append_left _ old) innerY farY
        · rcases List.mem_cons.mp waiting with top | later
          · exact nearer y (List.mem_append_right _ (List.mem_singleton.mpr top)) innerY farY
          · exact last y later innerY
      · exact some ⟨y, new, innerY⟩

omit [DecidableEq α] in
/-- When the last inner node of a distance is expanded, it is the only one that may lead on. -/
theorem Level.leads_on (w : Walking next start ⟨visited, current :: rest⟩ done)
    (l : Level next start d ⟨visited, current :: rest⟩ done) (inner : Inner next current)
    (last : ∀ y ∈ rest, ¬Inner next y) : OneLeadsOn next start d := by
  intro x y z farX farY other innerY child farZ innerZ
  have place (a : α) (farA : Distance next start d a) (innerA : Inner next a) : a ∈ done ∨ a = current := by
    rcases (w.marked a).mp (l.full d (Nat.le_refl d) a farA) with old | waiting
    · exact .inl old
    · rcases List.mem_cons.mp waiting with top | later
      · exact .inr top
      · exact absurd innerA (last a later)
  have innerX := inner_of_mem child
  rcases place x farX innerX with old | top
  · exact absurd farZ (l.quiet x old farX ⟨current, List.mem_cons_self, inner⟩ z child innerZ)
  · subst top
    rcases place y farY innerY with old | same
    · obtain ⟨-, -, cross⟩ := List.pairwise_append.mp l.order
      exact cross y old x List.mem_cons_self innerY innerX farY farX
    · exact absurd same.symm other

omit [DecidableEq α] in
/-- Beyond a distance without inner nodes there are none. -/
theorem Level.finished (l : Level next start d ⟨visited, []⟩ done) (below : ∀ e < d, OneLeadsOn next start e) :
    ∀ e, OneLeadsOn next start e := by
  intro e
  by_cases lt : e < d
  · exact below e lt
  · intro x y z farX _ _ _ child
    obtain ⟨a, farA, innerA⟩ := farX.inner_above (inner_of_mem child) (Nat.le_of_not_lt lt)
    rcases l.alive with ⟨y, mem, -⟩ | none
    · exact absurd mem List.not_mem_nil
    · exact absurd innerA (none a farA)

end Round

/-! ### Nearest first -/

variable {fuel d : Nat} {s : Search α} {done out : List α}

/-- A walk that goes on nearest first finds one node at each distance that leads on. -/
theorem walk_leads_on (w : Walking next start s done) (l : Level next start d s done)
    (below : ∀ e < d, OneLeadsOn next start e) (ended : walk next fuel s done = some out)
    (nearest : NearestFirst next start out) : ∀ e, OneLeadsOn next start e := by
  induction fuel generalizing d s done with
  | zero =>
    obtain ⟨visited, frontier⟩ := s
    cases frontier with
    | nil => exact l.finished below
    | cons current rest => cases ended
  | succ fuel ih =>
    obtain ⟨visited, frontier⟩ := s
    cases frontier with
    | nil => exact l.finished below
    | cons current rest =>
      rw [walk] at ended
      by_cases inner : Inner next current
      · by_cases others : ∃ y ∈ rest, Inner next y
        · have calm : ∀ z ∈ fresh visited (next current), ¬Inner next z := by
            intro z pushed innerZ
            obtain ⟨y, waiting, innerY⟩ := others
            obtain ⟨tail, split, sub⟩ := walk_order ended
            rw [foldl_push] at sub
            have later := (List.pairwise_append.mp (split ▸ nearest)).2.1.sublist sub
            have le := (List.pairwise_append.mp later).2.2 z (List.mem_reverse.mpr pushed) y waiting innerZ innerY
              (d + 1) d (l.fresh_distance inner pushed) (l.here y (List.mem_cons_of_mem _ waiting) innerY)
            omega
          exact ih w.step (l.wait w inner others calm) below ended
        · have last : ∀ y ∈ rest, ¬Inner next y := fun y mem innerY => others ⟨y, mem, innerY⟩
          apply ih w.step (l.advance w inner last) _ ended
          intro e lt
          by_cases here : e = d
          · rw [here]
            exact l.leads_on w inner last
          · exact below e (by omega)
      · exact ih w.step (l.leaf inner) below ended

theorem walk_nearest (one : ∀ e, OneLeadsOn next start e) (w : Walking next start s done)
    (l : Level next start d s done) (sofar : NearestFirst next start done) (ended : walk next fuel s done = some out) :
    NearestFirst next start out := by
  induction fuel generalizing d s done with
  | zero =>
    obtain ⟨visited, frontier⟩ := s
    cases frontier with
    | nil =>
      cases ended
      exact sofar
    | cons current rest => cases ended
  | succ fuel ih =>
    obtain ⟨visited, frontier⟩ := s
    cases frontier with
    | nil =>
      cases ended
      exact sofar
    | cons current rest =>
      rw [walk] at ended
      have longer : NearestFirst next start (done ++ [current]) := by
        refine List.pairwise_append.mpr ⟨sofar, List.pairwise_singleton _ _, ?_⟩
        intro a mem b single innerA innerB i j farA farB
        rw [List.mem_singleton.mp single] at innerB farB
        obtain ⟨k, le, near⟩ := l.behind a mem innerA
        have sameA := near.unique farA
        have sameB := (l.here current List.mem_cons_self innerB).unique farB
        omega
      by_cases inner : Inner next current
      · by_cases others : ∃ y ∈ rest, Inner next y
        · have calm : ∀ z ∈ fresh visited (next current), ¬Inner next z := by
            intro z pushed innerZ
            obtain ⟨y, waiting, innerY⟩ := others
            have far := l.here current List.mem_cons_self inner
            have farY := l.here y (List.mem_cons_of_mem _ waiting) innerY
            obtain ⟨-, distinct, -⟩ := List.nodup_append.mp w.distinct
            have other : current ≠ y := by
              intro same
              exact (List.nodup_cons.mp distinct).1 (same ▸ waiting)
            have first := one d current y z far farY other innerY (mem_fresh.mp pushed).1
              (l.fresh_distance inner pushed) innerZ
            have second : Precedes next start d y current :=
              (List.pairwise_cons.mp (List.pairwise_append.mp l.order).2.1).1 y waiting inner innerY far farY
            obtain ⟨u, k, same, hu, before⟩ := first.above far
            obtain ⟨r, k', same', hr, after⟩ := second.above farY
            have kk : k' = k := by omega
            subst kk same
            have leader := leader_unique one hu hr before.mem far inner after.mem farY innerY
            subst leader
            exact before.asymm other after
          exact ih w.step (l.wait w inner others calm) longer ended
        · have last : ∀ y ∈ rest, ¬Inner next y := fun y mem innerY => others ⟨y, mem, innerY⟩
          exact ih w.step (l.advance w inner last) longer ended
      · exact ih w.step (l.leaf inner) longer ended

/-- The nodes are expanded nearest first exactly where one node at each distance leads on. -/
theorem walk_nearest_iff (ended : walk next fuel ⟨[start], [start]⟩ [] = some out) :
    NearestFirst next start out ↔ ∀ d, OneLeadsOn next start d := by
  have w := walking_start next start
  have l := level_start next start
  constructor
  · intro nearest
    exact walk_leads_on w l (fun e lt => absurd lt (Nat.not_lt_zero e)) ended nearest
  · intro one
    exact walk_nearest one w l List.Pairwise.nil ended

end Lib.Worklist
