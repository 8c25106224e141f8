import ModelGuard.Lib.JsonRoundTrip

/-!
# JSON text over several lines

Members keep their order, each on a line of its own. How strings are quoted is a parameter. The decoder reads
back the value with the members of every object sorted, the last of equal keys kept.
-/

namespace Lib.Json

variable {F : Type}

/-- A way to write strings, and the strings that are read back from it. -/
structure Quoting where
  quote : Str → Str
  fits : Str → Prop
  head : ∀ s, ∃ body, quote s = cp '"' :: body
  reads : ∀ {s t body : Str}, fits s → quote s ++ t = cp '"' :: body → scanString body = some (s, t)

/-- Every string of the value can be read back, the keys too. -/
inductive Texts (fits : Str → Prop) : Json F → Prop
  | null : Texts fits .null
  | bool (b : Bool) : Texts fits (.bool b)
  | int (n : Int) : Texts fits (.int n)
  | float (x : F) : Texts fits (.float x)
  | str {s : Str} : fits s → Texts fits (.str s)
  | arr {items : List (Json F)} : (∀ v ∈ items, Texts fits v) → Texts fits (.arr items)
  | obj {fields : List (Str × Json F)} :
      (∀ e ∈ fields, fits e.1) → (∀ e ∈ fields, Texts fits e.2) → Texts fits (.obj fields)

mutual
/-- The value with the members of each object in order. -/
def sortMembers : Json F → Json F
  | .null => .null
  | .bool b => .bool b
  | .int n => .int n
  | .float x => .float x
  | .str s => .str s
  | .arr items => .arr (sortItems items)
  | .obj fields => .obj (Dict.ofPairs (sortFields fields))

def sortItems : List (Json F) → List (Json F)
  | [] => []
  | v :: items => sortMembers v :: sortItems items

def sortFields : List (Str × Json F) → List (Str × Json F)
  | [] => []
  | (k, v) :: fields => (k, sortMembers v) :: sortFields fields
end

theorem texts_of_wf {v : Json F} (wf : WF v) : Texts Joined v := by
  induction wf with
  | null => exact .null
  | bool b => exact .bool b
  | int n => exact .int n
  | float x => exact .float x
  | str joined => exact .str joined
  | arr _ ih => exact .arr ih
  | obj _ joined _ ih => exact .obj joined ih

theorem sortItems_eq (items : List (Json F)) : sortItems items = items.map sortMembers := by
  induction items with
  | nil => rw [sortItems, List.map_nil]
  | cons v items ih => rw [sortItems, List.map_cons, ih]

theorem sortFields_eq (fields : List (Str × Json F)) :
    sortFields fields = fields.map fun e => (e.1, sortMembers e.2) := by
  induction fields with
  | nil => rw [sortFields, List.map_nil]
  | cons e fields ih => rw [sortFields, List.map_cons, ih]

/-- Nothing is left to sort. -/
theorem sortMembers_of_wf {v : Json F} (wf : WF v) : sortMembers v = v := by
  induction wf with
  | null => rw [sortMembers]
  | bool b => rw [sortMembers]
  | int n => rw [sortMembers]
  | float x => rw [sortMembers]
  | str joined => rw [sortMembers]
  | arr _ ih => rw [sortMembers, sortItems_eq, List.map_congr_left ih, List.map_id']
  | obj sorted _ _ ih =>
    have same (e : Str × Json F) (mem : e ∈ _) : (e.1, sortMembers e.2) = e := Prod.ext rfl (ih e mem)
    rw [sortMembers, sortFields_eq, List.map_congr_left same, List.map_id', Dict.ofPairs_of_sorted sorted]

variable [FloatText F]

/-- A new line at a nesting level. -/
def lineBreak (level : Nat) : Str := cp '\n' :: List.replicate (2 * level) (cp ' ')

mutual
def pretty (q : Quoting) : Nat → Json F → Str
  | _, .null => dumps (.null : Json F)
  | _, .bool b => dumps (.bool b : Json F)
  | _, .int n => dumps (.int n : Json F)
  | _, .float x => dumps (.float x)
  | _, .str s => q.quote s
  | _, .arr [] => dumps (.arr [] : Json F)
  | level, .arr (v :: items) =>
    cp '[' :: (lineBreak (level + 1) ++ pretty q (level + 1) v ++ prettyItems q level items)
  | _, .obj [] => dumps (.obj [] : Json F)
  | level, .obj ((k, v) :: fields) =>
    cp '\x7b' :: (lineBreak (level + 1) ++ q.quote k ++ cp ':' :: cp ' ' :: pretty q (level + 1) v ++
      prettyFields q level fields)

def prettyItems (q : Quoting) : Nat → List (Json F) → Str
  | level, [] => lineBreak level ++ [cp ']']
  | level, v :: items => cp ',' :: (lineBreak (level + 1) ++ pretty q (level + 1) v ++ prettyItems q level items)

def prettyFields (q : Quoting) : Nat → List (Str × Json F) → Str
  | level, [] => lineBreak level ++ [cp '\x7d']
  | level, (k, v) :: fields =>
    cp ',' :: (lineBreak (level + 1) ++ q.quote k ++ cp ':' :: cp ' ' :: pretty q (level + 1) v ++
      prettyFields q level fields)
end

/-! ### White space -/

theorem skipWs_lineBreak (level : Nat) (s : Str) : skipWs (lineBreak level ++ s) = skipWs s := by
  have blank : ∀ n, skipWs (List.replicate n (cp ' ') ++ s) = skipWs s := by
    intro n
    induction n with
    | zero => rfl
    | succ n ih =>
      rw [List.replicate_succ, List.cons_append, skipWs, List.dropWhile_cons_of_pos (by decide)]
      exact ih
  unfold lineBreak
  rw [List.cons_append, skipWs, List.dropWhile_cons_of_pos (by decide)]
  exact blank _

theorem skipWs_space (s : Str) : skipWs (cp ' ' :: s) = skipWs s := by
  rw [skipWs, List.dropWhile_cons_of_pos (by decide), skipWs]

variable {q : Quoting}

theorem pretty_head (q : Quoting) (level : Nat) (v : Json F) :
    ∃ c rest, pretty q level v = c :: rest ∧ startsValue c = true := by
  cases v with
  | null => rw [pretty]; exact dumps_head _
  | bool _ => rw [pretty]; exact dumps_head _
  | int _ => rw [pretty]; exact dumps_head _
  | float _ => rw [pretty]; exact dumps_head _
  | str s =>
    obtain ⟨body, starts⟩ := q.head s
    exact ⟨_, body, by rw [pretty, starts], by decide⟩
  | arr items =>
    cases items with
    | nil => rw [pretty]; exact dumps_head _
    | cons _ _ => exact ⟨_, _, by rw [pretty], by decide⟩
  | obj fields =>
    cases fields with
    | nil => rw [pretty]; exact dumps_head _
    | cons e _ =>
      obtain ⟨_, _⟩ := e
      exact ⟨_, _, by rw [pretty], by decide⟩

theorem skipWs_pretty (level : Nat) (v : Json F) (t : Str) : skipWs (pretty q level v ++ t) = pretty q level v ++ t := by
  obtain ⟨c, rest, head, start⟩ := pretty_head q level v
  rw [head, List.cons_append, skipWs_cons (startsValue_notWs start)]

theorem expect_pretty (ch : Char) (other : startsValue (cp ch) = false) (level : Nat) (v : Json F) (t : Str) :
    expect (cp ch) (pretty q level v ++ t) = none := by
  obtain ⟨c, rest, head, start⟩ := pretty_head q level v
  rw [head, List.cons_append, expect_other (startsValue_not start other)]

theorem skipWs_quoting (k t : Str) : skipWs (q.quote k ++ t) = q.quote k ++ t := by
  obtain ⟨body, starts⟩ := q.head k
  rw [starts, List.cons_append, skipWs_cons (by decide)]

theorem stopsAt_lineBreak (level : Nat) (t : Str) : StopsAt inNumber (lineBreak level ++ t) :=
  stopsAt_cons (by decide)

/-! ### Decoding -/

def ReadsAt (q : Quoting) (level : Nat) (v : Json F) : Prop :=
  ∀ n t, (pretty q level v).length ≤ n → ¬IsNumber v ∨ StopsAt inNumber t →
    scanOnce n (pretty q level v ++ t) = some (sortMembers v, t)

theorem readsAt_items {level : Nat} {v : Json F} {items : List (Json F)}
    (reads : ∀ w ∈ v :: items, ReadsAt q (level + 1) w) (n : Nat) (t : Str)
    (fuel : (pretty q (level + 1) v ++ prettyItems q level items).length ≤ n) :
    scanItems n (pretty q (level + 1) v ++ (prettyItems q level items ++ t)) = some (sortItems (v :: items), t) := by
  induction items generalizing v n with
  | nil =>
    simp only [prettyItems, List.length_append, List.length_singleton] at fuel ⊢
    obtain ⟨m, made⟩ : ∃ m, n = m + 1 := ⟨n - 1, by omega⟩
    subst made
    have value := reads v List.mem_cons_self m (lineBreak level ++ cp ']' :: t) (by omega)
      (Or.inr (stopsAt_lineBreak _ _))
    rw [scanItems, List.append_assoc, List.singleton_append, value]
    simp only [Option.bind_eq_bind, Option.bind_some, skipWs_lineBreak,
      skipWs_cons (by decide : isWs (cp ']') = false), expect_cons, Option.pure_def, sortItems]
  | cons w items ih =>
    simp only [prettyItems, List.length_append, List.length_cons] at fuel ⊢
    obtain ⟨m, made⟩ : ∃ m, n = m + 1 := ⟨n - 1, by omega⟩
    subst made
    have value := reads v List.mem_cons_self m
      (cp ',' :: (lineBreak (level + 1) ++ (pretty q (level + 1) w ++ (prettyItems q level items ++ t)))) (by omega)
      (Or.inr (stopsAt_cons (by decide)))
    have tail := ih (fun u hu => reads u (List.mem_cons_of_mem _ hu)) m (by rw [List.length_append]; omega)
    rw [scanItems, List.cons_append, List.append_assoc, List.append_assoc, value]
    simp only [Option.bind_eq_bind, Option.bind_some, skipWs_cons (by decide : isWs (cp ',') = false),
      expect_other (by decide : cp ',' ≠ cp ']'), expect_cons, skipWs_lineBreak, skipWs_pretty, tail, Option.pure_def,
      sortItems]

theorem scanString_quoting {s body : Str} (fits : q.fits s) (starts : q.quote s = cp '"' :: body) (t : Str) :
    scanString (body ++ t) = some (s, t) :=
  q.reads fits (by rw [starts, List.cons_append])

theorem scanFields_quoting {k : Str} (fits : q.fits k) (n : Nat) (t : Str) :
    (scanFields (n + 1) (q.quote k ++ t) : Option (List (Str × Json F) × Str)) =
      (expect (cp ':') (skipWs t)).bind fun s => (scanOnce n (skipWs s)).bind fun r =>
        match expect (cp '\x7d') (skipWs r.2) with
        | some rest => some ([(k, r.1)], rest)
        | none => (expect (cp ',') (skipWs r.2)).bind fun s =>
            (scanFields n (skipWs s)).map fun p => ((k, r.1) :: p.1, p.2) := by
  obtain ⟨body, starts⟩ := q.head k
  rw [starts, List.cons_append]
  exact scanFields_string (scanString_quoting fits starts t) n

theorem readsAt_fields {level : Nat} {k : Str} {v : Json F} {fields : List (Str × Json F)}
    (keys : ∀ e ∈ (k, v) :: fields, q.fits e.1) (reads : ∀ e ∈ (k, v) :: fields, ReadsAt q (level + 1) e.2)
    (n : Nat) (t : Str)
    (fuel : (q.quote k ++ cp ':' :: cp ' ' :: pretty q (level + 1) v ++ prettyFields q level fields).length ≤ n) :
    scanFields n (q.quote k ++ cp ':' :: cp ' ' :: (pretty q (level + 1) v ++ (prettyFields q level fields ++ t))) =
      some (sortFields ((k, v) :: fields), t) := by
  have colon : isWs (cp ':') = false := by decide
  induction fields generalizing k v n with
  | nil =>
    simp only [prettyFields, List.length_append, List.length_cons, List.length_nil] at fuel
    obtain ⟨m, made⟩ : ∃ m, n = m + 1 := ⟨n - 1, by omega⟩
    subst made
    have value := reads (k, v) List.mem_cons_self m (lineBreak level ++ cp '\x7d' :: t) (by dsimp only; omega)
      (Or.inr (stopsAt_lineBreak _ _))
    simp only [prettyFields, List.append_assoc, List.cons_append, List.nil_append]
    rw [scanFields_quoting (keys (k, v) List.mem_cons_self)]
    simp only [skipWs_cons colon, expect_cons, Option.bind_some, skipWs_space, skipWs_pretty, value,
      skipWs_lineBreak, skipWs_cons (by decide : isWs (cp '\x7d') = false), sortFields]
  | cons e fields ih =>
    obtain ⟨k', v'⟩ := e
    simp only [prettyFields, List.length_append, List.length_cons] at fuel
    obtain ⟨m, made⟩ : ∃ m, n = m + 1 := ⟨n - 1, by omega⟩
    subst made
    have value := reads (k, v) List.mem_cons_self m
      (cp ',' :: (lineBreak (level + 1) ++ (q.quote k' ++ cp ':' :: cp ' ' :: (pretty q (level + 1) v' ++
        (prettyFields q level fields ++ t))))) (by dsimp only; omega) (Or.inr (stopsAt_cons (by decide)))
    have tail := ih (fun u hu => keys u (List.mem_cons_of_mem _ hu)) (fun u hu => reads u (List.mem_cons_of_mem _ hu)) m
      (by simp only [List.length_append, List.length_cons]; omega)
    simp only [prettyFields, List.append_assoc, List.cons_append] at value tail ⊢
    rw [scanFields_quoting (keys (k, v) List.mem_cons_self)]
    simp only [skipWs_cons colon, expect_cons, Option.bind_some, skipWs_space, skipWs_pretty, value,
      skipWs_cons (by decide : isWs (cp ',') = false), expect_other (by decide : cp ',' ≠ cp '\x7d'), skipWs_lineBreak,
      skipWs_quoting, tail, Option.map_some, sortFields]

/-- A value of one line, which has no members. -/
theorem readsAt_plain {level : Nat} {v : Json F} (wf : WF v) (plain : pretty q level v = dumps v)
    (sorted : sortMembers v = v) : ReadsAt q level v := by
  intro n t fuel stop
  rw [plain] at fuel ⊢
  rw [sorted]
  exact scanOnce_dumps wf fuel stop

theorem readsAt_of_texts {v : Json F} (texts : Texts q.fits v) (level : Nat) : ReadsAt q level v := by
  induction texts generalizing level with
  | null => exact readsAt_plain .null (by rw [pretty]) (by rw [sortMembers])
  | bool b => exact readsAt_plain (.bool b) (by rw [pretty]) (by rw [sortMembers])
  | int k => exact readsAt_plain (.int k) (by rw [pretty]) (by rw [sortMembers])
  | float x => exact readsAt_plain (.float x) (by rw [pretty]) (by rw [sortMembers])
  | str fits =>
    rename_i s
    intro n t fuel _
    obtain ⟨body, starts⟩ := q.head s
    rw [pretty, starts] at fuel
    rw [List.length_cons] at fuel
    obtain ⟨m, made⟩ : ∃ m, n = m + 1 := ⟨n - 1, by omega⟩
    subst made
    rw [pretty, starts, List.cons_append, scanOnce, if_pos rfl, scanString_quoting fits starts, sortMembers]
    rfl
  | arr texts ih =>
    rename_i items
    cases items with
    | nil => exact readsAt_plain wf_empty_arr (by rw [pretty]) (by rw [sortMembers, sortItems])
    | cons v items =>
      intro n t fuel _
      rw [pretty] at fuel ⊢
      simp only [List.cons_append, List.length_cons, List.append_assoc, List.length_append] at fuel ⊢
      obtain ⟨m, made⟩ : ∃ m, n = m + 1 := ⟨n - 1, by omega⟩
      subst made
      have inside := readsAt_items (fun w mem => ih w mem (level + 1)) m t (by rw [List.length_append]; omega)
      have nonempty := expect_pretty (q := q) ']' (by decide) (level + 1) v (prettyItems q level items ++ t)
      rw [scanOnce, if_neg (by decide), if_pos rfl, skipWs_lineBreak, skipWs_pretty, nonempty]
      simp only [inside, Option.bind_eq_bind, Option.bind_some, Option.pure_def, sortMembers]
  | obj keys texts ih =>
    rename_i fields
    cases fields with
    | nil =>
      exact readsAt_plain wf_empty_obj (by rw [pretty]) (by rw [sortMembers, sortFields]; rfl)
    | cons e fields =>
      obtain ⟨k, v⟩ := e
      intro n t fuel _
      rw [pretty] at fuel ⊢
      simp only [List.cons_append, List.length_cons, List.append_assoc, List.length_append] at fuel ⊢
      obtain ⟨m, made⟩ : ∃ m, n = m + 1 := ⟨n - 1, by omega⟩
      subst made
      have inside := readsAt_fields keys (fun e mem => ih e mem (level + 1)) m t
        (by simp only [List.length_append, List.length_cons]; omega)
      rw [scanOnce, if_neg (by decide), if_neg (by decide), if_pos rfl, skipWs_lineBreak, skipWs_quoting]
      obtain ⟨body, starts⟩ := q.head k
      rw [starts, List.cons_append] at inside ⊢
      rw [expect_other (by decide)]
      simp only [inside, Option.bind_eq_bind, Option.bind_some, Option.pure_def, sortMembers]

theorem loads_pretty {v : Json F} (texts : Texts q.fits v) : loads (pretty q 0 v) = some (sortMembers v) := by
  obtain ⟨c, rest, head, start⟩ := pretty_head q 0 v
  have noMark : c ≠ byteOrderMark := by
    intro same
    subst same
    revert start
    decide
  have read := readsAt_of_texts texts 0 (2 * (pretty q 0 v).length + 2) [] (by omega) (Or.inr (stopsAt_nil _))
  have skip := skipWs_pretty (q := q) 0 v []
  rw [List.append_nil] at read skip
  rw [loads, if_neg (by simp [head, noMark]), skip, read]
  rfl

end Lib.Json
