import Mathlib.Data.List.Sort
import Mathlib.Tactic.Common

/-!
# Tables with a serial key

Rows that were given rising numbers: `ORDER BY id` is the order they were inserted in.
-/

namespace Lib.SerialTable

variable {R : Type} (id : R → Nat)

/-- `ORDER BY id`. -/
def ascending (rows : List R) : List R := rows.insertionSort fun a b => id a ≤ id b

/-- `ORDER BY id LIMIT 1`. -/
def oldest (rows : List R) : Option R := (ascending id rows).head?

/-- `ORDER BY id DESC LIMIT 1`. -/
def newest (rows : List R) : Option R := (rows.insertionSort fun a b => id b ≤ id a).head?

/-- The rows have rising numbers, all below the next one that the sequence gives. -/
structure Serial (next : Nat) (rows : List R) : Prop where
  rising : rows.Pairwise fun a b => id a < id b
  below : ∀ r ∈ rows, id r < next

variable {id} {next : Nat} {rows : List R}

/-- The oldest row is the one with the least number. -/
theorem oldest_eq_some (distinct : (rows.map id).Nodup) {r : R} :
    oldest id rows = some r ↔ r ∈ rows ∧ ∀ other ∈ rows, id r ≤ id other := by
  have mem (a : R) : a ∈ ascending id rows ↔ a ∈ rows := List.mem_insertionSort _
  have sorted : (ascending id rows).Pairwise fun a b => id a ≤ id b := by
    have total : Std.Total fun a b : R => id a ≤ id b := ⟨fun a b => Nat.le_total (id a) (id b)⟩
    have trans : IsTrans R fun a b => id a ≤ id b := ⟨fun _ _ _ first second => Nat.le_trans first second⟩
    exact List.pairwise_insertionSort _ _
  unfold oldest
  cases listed : ascending id rows with
  | nil =>
    refine iff_of_false nofun fun found => ?_
    have inside := (mem r).mpr found.1
    rw [listed] at inside
    exact List.not_mem_nil inside
  | cons first rest =>
    rw [listed, List.pairwise_cons] at sorted
    have least (other : R) (inside : other ∈ rows) : id first ≤ id other := by
      have sortedIn := (mem other).mpr inside
      rw [listed] at sortedIn
      rcases List.mem_cons.mp sortedIn with same | later
      · rw [same]
      · exact sorted.1 other later
    have own : first ∈ rows := (mem first).mp (listed ▸ List.mem_cons_self)
    rw [List.head?_cons, Option.some_inj]
    constructor
    · rintro rfl
      exact ⟨own, least⟩
    · rintro ⟨inside, lowest⟩
      exact List.inj_on_of_nodup_map distinct own inside (Nat.le_antisymm (least r inside) (lowest first own))

theorem oldest_eq_none : oldest id rows = none ↔ rows = [] := by
  unfold oldest ascending
  rw [List.head?_eq_none_iff, ← List.length_eq_zero_iff, List.length_insertionSort, List.length_eq_zero_iff]

theorem oldest_map {Q : Type} (id : R → Nat) (f : Q → R) (rows : List Q) :
    oldest id (rows.map f) = (oldest (fun q => id (f q)) rows).map f := by
  have sorted := List.map_insertionSort (fun a b => id (f a) ≤ id (f b)) (fun a b => id a ≤ id b) f rows
    fun _ _ _ _ => Iff.rfl
  unfold oldest ascending
  rw [← sorted, List.head?_map]

theorem serial_nil : Serial id next ([] : List R) := ⟨List.Pairwise.nil, fun _ mem => (List.not_mem_nil mem).elim⟩

theorem Serial.sublist {some : List R} (h : Serial id next rows) (sub : some.Sublist rows) : Serial id next some :=
  ⟨h.rising.sublist sub, fun r mem => h.below r (sub.subset mem)⟩

theorem Serial.mono {next' : Nat} (h : Serial id next rows) (le : next ≤ next') : Serial id next' rows :=
  ⟨h.rising, fun r mem => Nat.lt_of_lt_of_le (h.below r mem) le⟩

theorem Serial.append {row : R} (h : Serial id next rows) (above : ∀ r ∈ rows, id r < id row) (inSequence : id row < next) :
    Serial id next (rows ++ [row]) := by
  refine ⟨List.pairwise_append.mpr ⟨h.rising, List.pairwise_singleton _ _, ?_⟩, ?_⟩
  · intro r mem other single
    rw [List.mem_singleton.mp single]
    exact above r mem
  · intro r mem
    rcases List.mem_append.mp mem with old | new
    · exact h.below r old
    · rw [List.mem_singleton.mp new]
      exact inSequence

theorem Serial.ascending (h : Serial id next rows) : ascending id rows = rows :=
  List.Pairwise.insertionSort_eq (h.rising.imp fun lt => Nat.le_of_lt lt)

theorem Serial.oldest (h : Serial id next rows) : oldest id rows = rows.head? := by
  unfold SerialTable.oldest
  rw [h.ascending]

theorem Serial.id_inj (h : Serial id next rows) {a b : R} (memA : a ∈ rows) (memB : b ∈ rows) (same : id a = id b) :
    a = b := by
  have distinct : (rows.map id).Nodup := List.pairwise_map.mpr (h.rising.imp fun lt => Nat.ne_of_lt lt)
  exact List.inj_on_of_nodup_map distinct memA memB same

/-- Sorted downwards, the rows stand in reverse. -/
theorem Serial.newest (h : Serial id next rows) : newest id rows = rows.getLast? := by
  have falling : rows.reverse.Pairwise fun a b => id b ≤ id a :=
    List.pairwise_reverse.mpr (h.rising.imp fun lt => Nat.le_of_lt lt)
  have total : Std.Total fun a b : R => id b ≤ id a := ⟨fun a b => Nat.le_total (id b) (id a)⟩
  have trans : IsTrans R fun a b => id b ≤ id a := ⟨fun _ _ _ first second => Nat.le_trans second first⟩
  have same : (rows.insertionSort fun a b => id b ≤ id a) = rows.reverse := by
    refine List.Perm.eq_of_pairwise ?_ (List.pairwise_insertionSort _ _) falling
      ((List.perm_insertionSort _ _).trans (List.reverse_perm rows).symm)
    intro a b memA memB le ge
    exact h.id_inj ((List.mem_insertionSort _).mp memA) (List.mem_reverse.mp memB) (Nat.le_antisymm ge le)
  unfold SerialTable.newest
  rw [same, List.head?_reverse]

end Lib.SerialTable
