import Mathlib.Data.List.Nodup
import Mathlib.Data.List.Sort

/-!
# Association lists that keep their order

A key that is there keeps its place, a new one comes last.
-/

namespace Lib.Entries

variable {K V : Type} [DecidableEq K] [BEq K]

/-- The value of `key` is `v`. -/
def set (key : K) (v : V) : List (K × V) → List (K × V)
  | [] => [(key, v)]
  | e :: rest => if e.1 = key then (key, v) :: rest else e :: set key v rest

def erase (key : K) (entries : List (K × V)) : List (K × V) := entries.filter fun e => e.1 ≠ key

/-- The value of `key` is what `f` makes of it. -/
def alter (key : K) (f : Option V → Option V) (entries : List (K × V)) : List (K × V) :=
  match f (entries.lookup key) with
  | some v => set key v entries
  | none => erase key entries

variable [LawfulBEq K]

theorem lookup_cons (key : K) (e : K × V) (entries : List (K × V)) :
    (e :: entries).lookup key = if e.1 = key then some e.2 else entries.lookup key := by
  obtain ⟨other, v⟩ := e
  rw [List.lookup_cons]
  by_cases same : key = other
  · simp [same]
  · rw [beq_false_of_ne same, if_neg (Ne.symm same)]

omit [DecidableEq K] in
theorem lookup_none_iff {key : K} {entries : List (K × V)} : entries.lookup key = none ↔ ∀ e ∈ entries, e.1 ≠ key := by
  rw [List.lookup_eq_none_iff]
  refine forall₂_congr fun e _ => ?_
  rw [bne_iff_ne]
  exact ne_comm

omit [DecidableEq K] in
theorem lookup_of_mem {entries : List (K × V)} (distinct : (entries.map (·.1)).Nodup) {e : K × V} (mem : e ∈ entries) :
    entries.lookup e.1 = some e.2 := by
  induction entries with
  | nil => cases mem
  | cons first rest ih =>
    rw [List.map_cons, List.nodup_cons] at distinct
    rcases List.mem_cons.mp mem with same | mem
    · rw [same]
      exact List.lookup_cons_self
    · have other : e.1 ≠ first.1 := fun same => distinct.1 (same ▸ List.mem_map_of_mem mem)
      rw [List.lookup_cons, beq_false_of_ne other]
      exact ih distinct.2 mem

/-! ### One change -/

theorem lookup_set_same (key : K) (v : V) (entries : List (K × V)) : (set key v entries).lookup key = some v := by
  induction entries with
  | nil => rw [set, lookup_cons, if_pos rfl]
  | cons e rest ih =>
    rw [set]
    split
    · rw [lookup_cons, if_pos rfl]
    · rename_i other
      rw [lookup_cons, if_neg other, ih]

theorem lookup_set_other {key other : K} (ne : other ≠ key) (v : V) (entries : List (K × V)) :
    (set key v entries).lookup other = entries.lookup other := by
  induction entries with
  | nil => rw [set, lookup_cons, if_neg (Ne.symm ne)]
  | cons e rest ih =>
    rw [set]
    split
    · rename_i same
      rw [lookup_cons, if_neg (Ne.symm ne), lookup_cons, same, if_neg (Ne.symm ne)]
    · rw [lookup_cons, lookup_cons, ih]

theorem lookup_erase_same (key : K) (entries : List (K × V)) : (erase key entries).lookup key = none := by
  rw [lookup_none_iff]
  intro e mem
  exact of_decide_eq_true (List.mem_filter.mp mem).2

theorem lookup_erase_other {key other : K} (ne : other ≠ key) (entries : List (K × V)) :
    (erase key entries).lookup other = entries.lookup other := by
  induction entries with
  | nil => rfl
  | cons e rest ih =>
    unfold erase at ih ⊢
    rw [List.filter_cons]
    split
    · rw [lookup_cons, lookup_cons, ih]
    · rename_i same
      have own : e.1 = key := by simpa using same
      rw [ih, lookup_cons, own, if_neg (Ne.symm ne)]

theorem lookup_alter_same (key : K) (f : Option V → Option V) (entries : List (K × V)) :
    (alter key f entries).lookup key = f (entries.lookup key) := by
  unfold alter
  split
  · rename_i v found
    rw [lookup_set_same, found]
  · rename_i found
    rw [lookup_erase_same, found]

theorem lookup_alter_other {key other : K} (ne : other ≠ key) (f : Option V → Option V) (entries : List (K × V)) :
    (alter key f entries).lookup other = entries.lookup other := by
  unfold alter
  split
  · exact lookup_set_other ne _ _
  · exact lookup_erase_other ne _

omit [BEq K] [LawfulBEq K] in
/-- An entry after a change is the changed one or an old one. -/
theorem mem_set {key : K} {v : V} {entries : List (K × V)} {e : K × V} (mem : e ∈ set key v entries) :
    e = (key, v) ∨ e ∈ entries := by
  induction entries with
  | nil => exact Or.inl (List.mem_singleton.mp mem)
  | cons first rest ih =>
    rw [set] at mem
    split at mem
    · exact (List.mem_cons.mp mem).imp_right (List.mem_cons_of_mem _)
    · rcases List.mem_cons.mp mem with same | mem
      · exact Or.inr (same ▸ List.mem_cons_self)
      · exact (ih mem).imp_right (List.mem_cons_of_mem _)

/-- A new key comes last. -/
theorem set_absent {key : K} {entries : List (K × V)} (absent : entries.lookup key = none) (v : V) :
    set key v entries = entries ++ [(key, v)] := by
  induction entries with
  | nil => rfl
  | cons e rest ih =>
    rw [lookup_cons] at absent
    split at absent
    · cases absent
    · rename_i other
      rw [set, if_neg other, ih absent, List.cons_append]

/-- A key that is there keeps its place. -/
theorem set_present {key : K} {old : V} {entries : List (K × V)} (found : entries.lookup key = some old) (v : V) :
    ∃ before after, entries = before ++ (key, old) :: after ∧ set key v entries = before ++ (key, v) :: after := by
  induction entries with
  | nil => cases found
  | cons e rest ih =>
    rw [lookup_cons] at found
    split at found
    · rename_i same
      refine ⟨[], rest, ?_, ?_⟩
      · rw [List.nil_append, ← same, ← Option.some.inj found]
      · rw [set, if_pos same, List.nil_append]
    · rename_i other
      obtain ⟨before, after, split, changed⟩ := ih found
      refine ⟨e :: before, after, ?_, ?_⟩
      · rw [split, List.cons_append]
      · rw [set, if_neg other, changed, List.cons_append]

theorem nodup_set {key : K} {v : V} {entries : List (K × V)} (distinct : (entries.map (·.1)).Nodup) :
    ((set key v entries).map (·.1)).Nodup := by
  cases found : entries.lookup key with
  | none =>
    rw [set_absent found, List.map_append, List.map_cons, List.map_nil]
    refine List.nodup_append.mpr ⟨distinct, List.nodup_singleton _, ?_⟩
    intro a mem b own
    obtain ⟨e, within, rfl⟩ := List.mem_map.mp mem
    rw [List.mem_singleton.mp own]
    exact lookup_none_iff.mp found e within
  | some old =>
    obtain ⟨before, after, split, changed⟩ := set_present found v
    rw [changed]
    rw [split] at distinct
    simpa only [List.map_append, List.map_cons] using distinct

/-! ### Two changes of one key -/

omit [BEq K] [LawfulBEq K] in
theorem set_set (key : K) (v w : V) (entries : List (K × V)) : set key v (set key w entries) = set key v entries := by
  induction entries with
  | nil => exact if_pos rfl
  | cons e rest ih =>
    rw [set]
    split
    · rename_i same
      rw [set, if_pos rfl, set, if_pos same]
    · rename_i other
      rw [set, if_neg other, ih, set, if_neg other]

theorem set_lookup {key : K} {v : V} {entries : List (K × V)} (found : entries.lookup key = some v) :
    set key v entries = entries := by
  obtain ⟨before, after, split, changed⟩ := set_present found v
  rw [changed, ← split]

theorem erase_absent {key : K} {entries : List (K × V)} (absent : entries.lookup key = none) :
    erase key entries = entries := by
  refine List.filter_eq_self.mpr fun e mem => ?_
  exact decide_eq_true (lookup_none_iff.mp absent e mem)

omit [BEq K] [LawfulBEq K] in
theorem erase_set (key : K) (v : V) (entries : List (K × V)) : erase key (set key v entries) = erase key entries := by
  induction entries with
  | nil => simp [erase, set]
  | cons e rest ih =>
    rw [set]
    split
    · rename_i same
      simp [erase, same]
    · rename_i other
      unfold erase at ih ⊢
      rw [List.filter_cons, List.filter_cons, ih]

/-! ### The oldest entries are let go -/

/-- Of more than `limit` entries, those with the smallest stamps are gone. -/
def evict (stamp : V → Int) (limit : Nat) (entries : List (K × V)) : List (K × V) :=
  let oldestFirst := entries.insertionSort fun a b => stamp a.2 ≤ stamp b.2
  let old := (oldestFirst.take (entries.length - limit)).map (·.1)
  entries.filter fun e => e.1 ∉ old

variable {W : Type}

omit [DecidableEq K] in
/-- Keys stay or go together. -/
theorem mem_evict_iff {stamp : V → Int} {limit : Nat} {entries : List (K × V)} {e : K × V} (mem : e ∈ entries) :
    e ∈ evict stamp limit entries ↔ e.1 ∈ (evict stamp limit entries).map (·.1) := by
  constructor
  · exact fun kept => List.mem_map_of_mem kept
  · intro kept
    obtain ⟨other, stays, same⟩ := List.mem_map.mp kept
    have young := (List.mem_filter.mp stays).2
    rw [same] at young
    exact List.mem_filter.mpr ⟨mem, young⟩

omit [DecidableEq K] in
theorem mem_of_mem_evict {stamp : V → Int} {limit : Nat} {entries : List (K × V)} {e : K × V}
    (kept : e ∈ evict stamp limit entries) : e ∈ entries := (List.mem_filter.mp kept).1

omit [DecidableEq K] in
/-- What goes depends on the stamps only. -/
theorem map_evict {stamp : V → Int} {stamp' : W → Int} {f : V → W} (same : ∀ v, stamp' (f v) = stamp v) (limit : Nat)
    (entries : List (K × V)) :
    (evict stamp limit entries).map (fun e => (e.1, f e.2)) =
      evict stamp' limit (entries.map fun e => (e.1, f e.2)) := by
  have sorted : (entries.insertionSort fun a b => stamp a.2 ≤ stamp b.2).map (fun e => (e.1, f e.2)) =
      (entries.map fun e => (e.1, f e.2)).insertionSort fun a b => stamp' a.2 ≤ stamp' b.2 := by
    apply List.map_insertionSort
    intro a _ b _
    rw [same, same]
  unfold evict
  dsimp only
  rw [← sorted, List.length_map, ← List.map_take, List.map_map, List.filter_map]
  rfl

omit [BEq K] [LawfulBEq K] in
theorem mem_set_self (key : K) (v : V) (entries : List (K × V)) : (key, v) ∈ set key v entries := by
  induction entries with
  | nil => exact List.mem_singleton_self _
  | cons e rest ih =>
    rw [set]
    split
    · exact List.mem_cons_self
    · exact List.mem_cons_of_mem _ ih

omit [BEq K] [LawfulBEq K] in
theorem map_set (f : V → W) (key : K) (v : V) (entries : List (K × V)) :
    (set key v entries).map (fun e => (e.1, f e.2)) = set key (f v) (entries.map fun e => (e.1, f e.2)) := by
  induction entries with
  | nil => rfl
  | cons e rest ih =>
    rw [set, List.map_cons, set]
    split
    · rfl
    · rw [List.map_cons, ih]

end Lib.Entries
