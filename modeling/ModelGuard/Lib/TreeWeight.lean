import Mathlib.Algebra.Order.BigOperators.Group.List
import ModelGuard.Lib.TreeEdit

/-!
# What the files of a tree come to

A number for each regular file, and their sum over a tree. Putting something into a tree adds no more than that
has itself.
-/

namespace Lib.Node

variable {α : Type}

/-- The sum of `f` over the regular files. -/
def weigh (f : α → Nat) : Tree α → Nat
  | none => 0
  | some n => ((regularFiles [] n).map fun e => f e.2).sum

variable {f : α → Nat}

theorem weigh_path (n : Node α) (path : RelPath) : ((regularFiles path n).map fun e => f e.2).sum = weigh f (some n) := by
  unfold weigh
  suffices same : ∀ q, ((regularFiles path n).map fun e => f e.2) = (regularFiles q n).map fun e => f e.2 by rw [same []]
  intro q
  induction n using entryInduction generalizing path q with
  | file a => rfl
  | symlink t => rfl
  | dir l entries ih =>
    simp only [regularFiles, regularFilesIn_eq, List.map_flatMap]
    exact List.flatMap_congr fun e mem => ih e mem _ _

theorem weigh_file (a : α) : weigh f (some (.file a)) = f a := List.sum_singleton

theorem weigh_dir (l : Bool) (entries : List (FileName × Node α)) :
    weigh f (some (.dir l entries)) = (entries.map fun e => weigh f (some e.2)).sum := by
  show ((regularFilesIn [] entries).map fun e => f e.2).sum = _
  induction entries with
  | nil => rfl
  | cons e rest ih =>
    rw [regularFilesIn, List.map_append, List.sum_append, ih, weigh_path, List.map_cons, List.sum_cons]

theorem weigh_lookup_le {entries : List (FileName × Node α)} (name : FileName) (l : Bool) :
    weigh f (entries.lookup name) ≤ weigh f (some (.dir l entries)) := by
  rw [weigh_dir]
  induction entries with
  | nil => exact le_refl 0
  | cons e rest ih =>
    rw [Entries.lookup_cons, List.map_cons, List.sum_cons]
    split
    · exact Nat.le_add_right _ _
    · exact ih.trans (Nat.le_add_left _ _)

/-- One entry of a directory grows by no more than `k`. -/
theorem weigh_alter_le {name : FileName} {g : Tree α → Tree α} {entries : List (FileName × Node α)} {k : Nat} (l : Bool)
    (grows : weigh f (g (entries.lookup name)) ≤ weigh f (entries.lookup name) + k) :
    weigh f (some (.dir l (Entries.alter name g entries))) ≤ weigh f (some (.dir l entries)) + k := by
  rw [weigh_dir, weigh_dir]
  unfold Entries.alter
  cases made : g (entries.lookup name) with
  | none =>
    have fewer : (Entries.erase name entries).Sublist entries := List.filter_sublist
    exact ((fewer.map _).sum_le_sum fun _ _ => Nat.zero_le _).trans (Nat.le_add_right _ k)
  | some v =>
    rw [made] at grows
    dsimp only
    cases found : entries.lookup name with
    | none =>
      rw [found] at grows
      rw [Entries.set_absent found, List.map_append, List.sum_append, List.map_singleton, List.sum_singleton]
      exact Nat.add_le_add_left (grows.trans (Nat.le_of_eq (Nat.zero_add k))) _
    | some old =>
      rw [found] at grows
      obtain ⟨before, after, split, changed⟩ := Entries.set_present found v
      rw [changed, split]
      simp only [List.map_append, List.map_cons, List.sum_append, List.sum_cons]
      omega

theorem weigh_graft_le (path : RelPath) (n t : Tree α) : weigh f (graft path n t) ≤ weigh f t + weigh f n := by
  induction path generalizing t with
  | nil => exact Nat.le_add_left _ _
  | cons name path ih =>
    match t with
    | some (.dir l entries) => exact weigh_alter_le l (ih (entries.lookup name))
    | none => exact Nat.le_add_right _ _
    | some (.file a) => exact Nat.le_add_right _ _
    | some (.symlink target) => exact Nat.le_add_right _ _

theorem weigh_find_le (path : RelPath) (t : Tree α) : weigh f (find path t) ≤ weigh f t := by
  induction path generalizing t with
  | nil => exact le_refl _
  | cons name path ih =>
    match t with
    | some (.dir l entries) => exact (ih (entries.lookup name)).trans (weigh_lookup_le name l)
    | none => exact le_refl 0
    | some (.file a) => exact Nat.zero_le _
    | some (.symlink target) => exact Nat.zero_le _

/-- At any path there is no more afterwards than before, and what was put. -/
theorem weigh_find_graft_le (q path : RelPath) (n t : Tree α) :
    weigh f (find q (graft path n t)) ≤ weigh f (find q t) + weigh f n := by
  induction q generalizing path t with
  | nil => exact weigh_graft_le path n t
  | cons other q ih =>
    cases path with
    | nil => exact (weigh_find_le (other :: q) n).trans (Nat.le_add_left _ _)
    | cons name path =>
      match t with
      | some (.dir l entries) =>
        simp only [graft, find]
        by_cases same : other = name
        · rw [same, Entries.lookup_alter_same]
          exact ih path (entries.lookup name)
        · rw [Entries.lookup_alter_other same]
          exact Nat.le_add_right _ _
      | none => exact Nat.le_add_right _ _
      | some (.file a) => exact Nat.le_add_right _ _
      | some (.symlink target) => exact Nat.le_add_right _ _

/-- Where something was put there is no more than that. -/
theorem weigh_find_graft_same_le (path : RelPath) (n t : Tree α) : weigh f (find path (graft path n t)) ≤ weigh f n := by
  induction path generalizing t with
  | nil => exact le_refl _
  | cons name path ih =>
    match t with
    | some (.dir l entries) =>
      simp only [graft, find]
      rw [Entries.lookup_alter_same]
      exact ih (entries.lookup name)
    | none => exact Nat.zero_le _
    | some (.file a) => exact Nat.zero_le _
    | some (.symlink target) => exact Nat.zero_le _

end Lib.Node
