import Mathlib.Order.Lattice
import Mathlib.Data.List.Basic
import Mathlib.Data.List.Induction

/-!
# Finite maps as key-sorted association lists

Two sorted lists with the same lookups are equal, so equality of maps is equality of lists.
-/

namespace Lib.Dict

variable {K V : Type} [LinearOrder K]

def Sorted (d : List (K × V)) : Prop := d.Pairwise (fun a b => a.1 < b.1)

/-- `d[k] = v`. -/
def insert (k : K) (v : V) : List (K × V) → List (K × V)
  | [] => [(k, v)]
  | e :: rest =>
    if k < e.1 then (k, v) :: e :: rest
    else if k = e.1 then (k, v) :: rest
    else e :: insert k v rest

/-- `dict(pairs)`: a later pair replaces an earlier one. -/
def ofPairs (pairs : List (K × V)) : List (K × V) := pairs.foldl (fun d p => insert p.1 p.2 d) []

theorem insert_keys {k : K} {v : V} {d : List (K × V)} {e : K × V} (h : e ∈ insert k v d) :
    e = (k, v) ∨ e ∈ d := by
  induction d with
  | nil => simpa [insert] using h
  | cons a rest ih =>
    rw [insert] at h
    split at h
    · simpa using h
    · split at h
      · rcases List.mem_cons.mp h with h | h
        · exact Or.inl h
        · exact Or.inr (List.mem_cons_of_mem _ h)
      · rcases List.mem_cons.mp h with h | h
        · exact Or.inr (h ▸ List.mem_cons_self)
        · exact (ih h).imp id (List.mem_cons_of_mem _)

theorem insert_sorted {k : K} {v : V} {d : List (K × V)} (h : Sorted d) : Sorted (insert k v d) := by
  induction d with
  | nil => exact List.pairwise_singleton _ _
  | cons a rest ih =>
    obtain ⟨above, tail⟩ := List.pairwise_cons.mp h
    rw [insert]
    split
    case isTrue below =>
      refine List.pairwise_cons.mpr ⟨?_, h⟩
      intro e he
      rcases List.mem_cons.mp he with rfl | he
      · exact below
      · exact lt_trans below (above e he)
    case isFalse notBelow =>
      split
      case isTrue same => exact List.pairwise_cons.mpr ⟨fun e he => same ▸ above e he, tail⟩
      case isFalse different =>
        refine List.pairwise_cons.mpr ⟨?_, ih tail⟩
        intro e he
        rcases insert_keys he with rfl | he
        · exact lt_of_le_of_ne (not_lt.mp notBelow) (Ne.symm different)
        · exact above e he

theorem foldl_insert_sorted (pairs : List (K × V)) {d : List (K × V)} (h : Sorted d) :
    Sorted (pairs.foldl (fun d p => insert p.1 p.2 d) d) := by
  induction pairs generalizing d with
  | nil => exact h
  | cons p rest ih => exact ih (insert_sorted h)

theorem ofPairs_sorted (pairs : List (K × V)) : Sorted (ofPairs pairs) :=
  foldl_insert_sorted pairs List.Pairwise.nil

theorem mem_foldl_insert {pairs d : List (K × V)} {e : K × V}
    (h : e ∈ pairs.foldl (fun d p => insert p.1 p.2 d) d) : e ∈ pairs ∨ e ∈ d := by
  induction pairs generalizing d with
  | nil => exact Or.inr h
  | cons p rest ih =>
    rcases ih h with h | h
    · exact Or.inl (List.mem_cons_of_mem _ h)
    · rcases insert_keys h with rfl | h
      · exact Or.inl List.mem_cons_self
      · exact Or.inr h

theorem mem_ofPairs {pairs : List (K × V)} {e : K × V} (h : e ∈ ofPairs pairs) : e ∈ pairs :=
  (mem_foldl_insert h).resolve_right (List.not_mem_nil)

theorem insert_above {k : K} {v : V} {d : List (K × V)} (h : ∀ e ∈ d, e.1 < k) :
    insert k v d = d ++ [(k, v)] := by
  induction d with
  | nil => rfl
  | cons a rest ih =>
    have below := h a List.mem_cons_self
    rw [insert, if_neg (lt_asymm below), if_neg (ne_of_gt below),
      ih (fun e he => h e (List.mem_cons_of_mem _ he)), List.cons_append]

/-- Building a map from its own sorted entries changes nothing. -/
theorem ofPairs_of_sorted {d : List (K × V)} (h : Sorted d) : ofPairs d = d := by
  have step : ∀ (rest before : List (K × V)), Sorted (before ++ rest) →
      rest.foldl (fun d p => insert p.1 p.2 d) before = before ++ rest := by
    intro rest
    induction rest with
    | nil => intro before _; simp
    | cons p rest ih =>
      intro before sorted
      have below : ∀ e ∈ before, e.1 < p.1 := fun e he =>
        (List.pairwise_append.mp sorted).2.2 e he p List.mem_cons_self
      rw [List.foldl_cons, insert_above below, ih _ (by simpa using sorted)]
      simp
  exact step d [] h

variable [BEq K] [LawfulBEq K]

theorem lookup_cons (k : K) (e : K × V) (d : List (K × V)) :
    (e :: d).lookup k = if k = e.1 then some e.2 else d.lookup k := by
  obtain ⟨key, value⟩ := e
  rw [List.lookup_cons]
  by_cases same : k = key
  · simp [same]
  · rw [beq_false_of_ne same, if_neg same]

omit [LinearOrder K] in
theorem mem_of_lookup {d : List (K × V)} {k : K} {v : V} (h : d.lookup k = some v) : (k, v) ∈ d := by
  obtain ⟨before, after, split, -⟩ := List.lookup_eq_some_iff.mp h
  exact split ▸ by simp

/-- Where no key repeats, every entry is found. -/
theorem lookup_of_mem {d : List (K × V)} (distinct : (d.map Prod.fst).Nodup) {e : K × V} (mem : e ∈ d) :
    d.lookup e.1 = some e.2 := by
  induction d with
  | nil => cases mem
  | cons a d ih =>
    obtain ⟨fresh, distinct⟩ := List.nodup_cons.mp distinct
    rw [lookup_cons]
    rcases List.mem_cons.mp mem with same | mem
    · rw [same, if_pos rfl]
    · have other : e.1 ≠ a.1 := fun same => fresh (same ▸ List.mem_map_of_mem mem)
      rw [if_neg other, ih distinct mem]

omit [LinearOrder K] in
theorem lookup_absent {d : List (K × V)} {k : K} (absent : k ∉ d.map Prod.fst) : d.lookup k = none := by
  rw [List.lookup_eq_none_iff]
  intro e mem
  have other : k ≠ e.1 := fun same => absent (same ▸ List.mem_map_of_mem mem)
  simpa using other

theorem lookup_insert_same (k : K) (v : V) (d : List (K × V)) : (insert k v d).lookup k = some v := by
  induction d with
  | nil => simp [insert]
  | cons a rest ih =>
    rw [insert]
    split
    · simp
    · split
      · simp
      · rename_i different
        rw [lookup_cons, if_neg different, ih]

theorem lookup_insert_other {k k' : K} (h : k' ≠ k) (v : V) (d : List (K × V)) :
    (insert k v d).lookup k' = d.lookup k' := by
  induction d with
  | nil => simp [insert, lookup_cons, h]
  | cons a rest ih =>
    rw [insert]
    split
    · rw [lookup_cons, if_neg h]
    · split
      · rename_i same
        rw [lookup_cons, if_neg h, lookup_cons, if_neg (same ▸ h)]
      · rw [lookup_cons, lookup_cons, ih]

/-- In a map built from pairs, the last pair of a key counts. -/
theorem lookup_ofPairs (pairs : List (K × V)) (k : K) : (ofPairs pairs).lookup k = pairs.reverse.lookup k := by
  unfold ofPairs
  induction pairs using List.reverseRecOn with
  | nil => rfl
  | append_singleton pairs p ih =>
    rw [List.foldl_append, List.foldl_cons, List.foldl_nil, List.reverse_append, List.reverse_singleton,
      List.singleton_append, lookup_cons]
    split
    · rename_i same
      rw [same, lookup_insert_same]
    · rename_i other
      rw [lookup_insert_other other, ih]

/-- `d.setdefault(k, v)`: an entry that is there stays. -/
def setDefault (k : K) (v : V) (d : List (K × V)) : List (K × V) := if d.lookup k = none then insert k v d else d

theorem lookup_setDefault (k k' : K) (v : V) (d : List (K × V)) :
    (setDefault k v d).lookup k' = (d.lookup k').or (if k' = k then some v else none) := by
  unfold setDefault
  by_cases same : k' = k
  · subst same
    rw [if_pos rfl]
    cases found : d.lookup k' with
    | none => rw [if_pos rfl, lookup_insert_same, Option.none_or]
    | some w => rw [if_neg nofun, found, Option.some_or]
  · rw [if_neg same, Option.or_none]
    split
    · rw [lookup_insert_other same]
    · rfl

omit [LawfulBEq K] in
theorem setDefault_sorted {k : K} {v : V} {d : List (K × V)} (h : Sorted d) : Sorted (setDefault k v d) := by
  unfold setDefault
  split
  · exact insert_sorted h
  · exact h

omit [LawfulBEq K] in
theorem setDefault_keys {k : K} {v : V} {d : List (K × V)} {e : K × V} (h : e ∈ setDefault k v d) :
    e = (k, v) ∨ e ∈ d := by
  unfold setDefault at h
  split at h
  · exact insert_keys h
  · exact Or.inr h

/-- A map that records for each key the first item that has it. -/
def firstOf {A : Type} (key : A → K) (value : A → V) (items : List A) : List (K × V) :=
  items.foldl (fun d a => setDefault (key a) (value a) d) []

section FirstOf

variable {A : Type} {key : A → K} {value : A → V}

omit [LawfulBEq K] in
theorem firstOf_append (items : List A) (a : A) :
    firstOf key value (items ++ [a]) = setDefault (key a) (value a) (firstOf key value items) := by
  unfold firstOf
  rw [List.foldl_append, List.foldl_cons, List.foldl_nil]

theorem lookup_firstOf (items : List A) (k : K) :
    (firstOf key value items).lookup k = (items.find? fun a => key a == k).map value := by
  induction items using List.reverseRecOn with
  | nil => rfl
  | append_singleton items a ih =>
    rw [firstOf_append, lookup_setDefault, ih, List.find?_append, Option.map_or]
    congr 1
    by_cases same : k = key a
    · subst same
      rw [if_pos rfl, List.find?_singleton, if_pos (beq_self_eq_true _), Option.map_some]
    · rw [if_neg same, List.find?_singleton, if_neg (by simpa using Ne.symm same), Option.map_none]

omit [LawfulBEq K] in
theorem firstOf_sorted (items : List A) : Sorted (firstOf key value items) := by
  induction items using List.reverseRecOn with
  | nil => exact List.Pairwise.nil
  | append_singleton items a ih =>
    rw [firstOf_append]
    exact setDefault_sorted ih

omit [LawfulBEq K] in
theorem mem_firstOf {items : List A} {e : K × V} (h : e ∈ firstOf key value items) :
    ∃ a ∈ items, e = (key a, value a) := by
  induction items using List.reverseRecOn with
  | nil => exact absurd h List.not_mem_nil
  | append_singleton items a ih =>
    rw [firstOf_append] at h
    rcases setDefault_keys h with same | old
    · exact ⟨a, by simp, same⟩
    · obtain ⟨b, mem, same⟩ := ih old
      exact ⟨b, List.mem_append_left _ mem, same⟩

end FirstOf

end Lib.Dict
