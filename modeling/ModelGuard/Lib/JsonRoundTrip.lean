import ModelGuard.Lib.JsonLex

/-!
# Decoding what was encoded

`loads` reads `dumps v` back as `v`, and reads a prefix of a longer text the same way, so the
encoding of an object can be found again in front of anything.
-/

namespace Lib.Json

variable {F : Type}

/-! ### Well-formed values -/

/-- A value that decoding yields: keys sorted, no surrogate pair left apart in a string. -/
inductive WF : Json F → Prop
  | null : WF .null
  | bool (b : Bool) : WF (.bool b)
  | int (n : Int) : WF (.int n)
  | float (x : F) : WF (.float x)
  | str {s : Str} : Joined s → WF (.str s)
  | arr {items : List (Json F)} : (∀ v ∈ items, WF v) → WF (.arr items)
  | obj {fields : List (Str × Json F)} :
      Dict.Sorted fields → (∀ e ∈ fields, Joined e.1) → (∀ e ∈ fields, WF e.2) → WF (.obj fields)

theorem wf_empty_arr : WF (.arr [] : Json F) :=
  .arr nofun

theorem wf_empty_obj : WF (.obj [] : Json F) :=
  .obj List.Pairwise.nil nofun nofun

def IsNumber : Json F → Prop
  | .int _ => True
  | .float _ => True
  | _ => False

variable [FloatText F]

/-! ### First characters -/

def startsNumber (c : CodePoint) : Bool := isDigit c || c == cp '-'

def startsValue (c : CodePoint) : Bool :=
  startsNumber c || (Lib.str "\"[\x7bntfNI").contains c

theorem lexNumber_head {s r : Str} {l : NumberLexeme} (h : lexNumber s = some (l, r)) :
    ∃ c rest, s = c :: rest ∧ startsNumber c = true ∧
      (c = cp '-' → ∃ d rest', rest = d :: rest' ∧ isDigit d = true) := by
  have digit {t a b : Str} (h : lexInt t = some (a, b)) : ∃ d rest, t = d :: rest ∧ isDigit d = true := by
    cases t with
    | nil => cases h
    | cons d rest =>
      refine ⟨d, rest, rfl, ?_⟩
      rw [lexInt] at h
      split at h
      · rename_i zero
        rw [zero]
        decide
      · split at h
        · assumption
        · cases h
  simp only [lexNumber, Option.bind_eq_bind, Option.bind_eq_some_iff] at h
  obtain ⟨⟨a, b⟩, int, -⟩ := h
  cases s with
  | nil => cases int
  | cons c rest =>
    refine ⟨c, rest, rfl, ?_⟩
    by_cases minus : c = cp '-'
    · rw [lexSign, if_pos minus] at int
      obtain ⟨d, rest', same, isDig⟩ := digit int
      exact ⟨by simp [startsNumber, minus], fun _ => ⟨d, rest', same, isDig⟩⟩
    · rw [lexSign, if_neg minus] at int
      obtain ⟨d, rest', same, isDig⟩ := digit int
      cases same
      exact ⟨by simp [startsNumber, isDig], fun h => (minus h).elim⟩

theorem startsNumber_cases {c : CodePoint} (h : startsNumber c = true) :
    c = cp '-' ∨ 0x30 ≤ c.val ∧ c.val ≤ 0x39 := by
  simp only [startsNumber, isDigit, Bool.or_eq_true, Bool.and_eq_true, decide_eq_true_eq, beq_iff_eq] at h
  exact h.symm

/-- A number is not a literal, whatever follows it. -/
theorem scanLiteral_number {s r t : Str} {l : NumberLexeme} (h : lexNumber s = some (l, r)) :
    (scanLiteral (s ++ t) : Option (Json F × Str)) = none := by
  obtain ⟨c, rest, rfl, start, sign⟩ := lexNumber_head h
  have digitNot {d : CodePoint} {ch : Char} (digit : isDigit d = true) (other : isDigit (cp ch) = false) :
      d ≠ cp ch := by
    rintro rfl
    rw [digit] at other
    cases other
  rcases startsNumber_cases start with rfl | ⟨low, high⟩
  · obtain ⟨d, rest', rfl, digit⟩ := sign rfl
    have notInfinity : d ≠ cp 'I' := digitNot digit (by decide)
    simp [scanLiteral, literals, Lib.str, afterWord, expect, cp_inj, notInfinity]
  · have digit : isDigit c = true := by simp [isDigit, low, high]
    have not (ch : Char) (other : isDigit (cp ch) = false) : c ≠ cp ch := digitNot digit other
    simp [scanLiteral, literals, Lib.str, afterWord, expect, not 'n' (by decide), not 't' (by decide),
      not 'f' (by decide), not 'N' (by decide), not 'I' (by decide), not '-' (by decide)]

/-- Numbers and the special floats: what `scanNumber` and `scanLiteral` read from the text of a float. -/
theorem repr_cases (x : F) :
    (x = FloatText.nan ∧ FloatText.repr x = Lib.str "NaN") ∨
      (x = FloatText.inf ∧ FloatText.repr x = Lib.str "Infinity") ∨
      (x = FloatText.negInf ∧ FloatText.repr x = Lib.str "-Infinity") ∨
      lexNumber (FloatText.repr x) = some (⟨FloatText.repr x, true⟩, []) ∧ FloatText.read (FloatText.repr x) = x := by
  rcases FloatText.lex_repr x with rfl | rfl | rfl | lexed
  · exact Or.inl ⟨rfl, FloatText.repr_nan⟩
  · exact Or.inr (Or.inl ⟨rfl, FloatText.repr_inf⟩)
  · exact Or.inr (Or.inr (Or.inl ⟨rfl, FloatText.repr_negInf⟩))
  · exact Or.inr (Or.inr (Or.inr lexed))

theorem dumps_head (v : Json F) : ∃ c rest, dumps v = c :: rest ∧ startsValue c = true := by
  have number {s r : Str} {l : NumberLexeme} (h : lexNumber s = some (l, r)) :
      ∃ c rest, s = c :: rest ∧ startsValue c = true := by
    obtain ⟨c, rest, same, start, -⟩ := lexNumber_head h
    exact ⟨c, rest, same, by rw [startsValue, start, Bool.true_or]⟩
  match v with
  | .null => exact ⟨_, _, by rw [dumps]; rfl, by decide⟩
  | .bool true => exact ⟨_, _, by rw [dumps]; rfl, by decide⟩
  | .bool false => exact ⟨_, _, by rw [dumps]; rfl, by decide⟩
  | .int n => rw [dumps]; exact number (r := []) (by simpa using lexNumber_intText n (stopsAt_nil _))
  | .float x =>
    rw [dumps]
    rcases repr_cases x with ⟨-, text⟩ | ⟨-, text⟩ | ⟨-, text⟩ | ⟨lexed, -⟩
    · exact text ▸ ⟨_, _, rfl, by decide⟩
    · exact text ▸ ⟨_, _, rfl, by decide⟩
    · exact text ▸ ⟨_, _, rfl, by decide⟩
    · exact number lexed
  | .str s => exact ⟨_, _, by rw [dumps, quote]; rfl, by decide⟩
  | .arr [] => exact ⟨_, _, by rw [dumps]; rfl, by decide⟩
  | .arr (_ :: _) => exact ⟨_, _, by rw [dumps]; rfl, by decide⟩
  | .obj [] => exact ⟨_, _, by rw [dumps]; rfl, by decide⟩
  | .obj ((_, _) :: _) => exact ⟨_, _, by rw [dumps]; rfl, by decide⟩

theorem startsValue_not {c : CodePoint} {ch : Char} (h : startsValue c = true)
    (other : startsValue (cp ch) = false) : c ≠ cp ch := by
  rintro rfl
  rw [h] at other
  cases other

theorem startsValue_notWs {c : CodePoint} (h : startsValue c = true) : isWs c = false := by
  simp only [isWs, Bool.or_eq_false_iff, beq_eq_false_iff_ne]
  exact ⟨⟨⟨startsValue_not h (by decide), startsValue_not h (by decide)⟩, startsValue_not h (by decide)⟩,
    startsValue_not h (by decide)⟩

theorem skipWs_cons {c : CodePoint} {s : Str} (h : isWs c = false) : skipWs (c :: s) = c :: s := by
  rw [skipWs, List.dropWhile_cons, h]
  rfl

theorem skipWs_dumps (v : Json F) (t : Str) : skipWs (dumps v ++ t) = dumps v ++ t := by
  obtain ⟨c, rest, head, start⟩ := dumps_head v
  rw [head, List.cons_append, skipWs_cons (startsValue_notWs start)]

theorem expect_cons (c : CodePoint) (s : Str) : expect c (c :: s) = some s := by simp [expect]

theorem expect_other {c d : CodePoint} (h : d ≠ c) (s : Str) : expect c (d :: s) = none := by simp [expect, h]

theorem expect_dumps (ch : Char) (other : startsValue (cp ch) = false) (v : Json F) (t : Str) :
    expect (cp ch) (dumps v ++ t) = none := by
  obtain ⟨c, rest, head, start⟩ := dumps_head v
  rw [head, List.cons_append, expect_other (startsValue_not start other)]

/-! ### Decoding an encoded value -/

/-- With fuel for its length, the decoder reads `v` in front of anything that cannot continue it. -/
def Reads (v : Json F) : Prop :=
  ∀ n t, (dumps v).length ≤ n → ¬IsNumber v ∨ StopsAt inNumber t → scanOnce n (dumps v ++ t) = some (v, t)

theorem scanOnce_number {s t : Str} {l : NumberLexeme} {n : Nat} (h : lexNumber s = some (l, []))
    (fuel : s.length ≤ n) (stop : StopsAt inNumber t) :
    (scanOnce n (s ++ t) : Option (Json F × Str)) =
      some (if l.isFloat then .float (FloatText.read l.text) else .int (intValue l.text), t) := by
  obtain ⟨c, rest, same, start, -⟩ := lexNumber_head h
  have literal := scanLiteral_number (F := F) (t := t) h
  have lexed := lexNumber_append (t := t) h (by simpa using stop)
  have not (ch : Char) (other : startsNumber (cp ch) = false) : c ≠ cp ch := by
    rintro rfl
    rw [start] at other
    cases other
  rw [same, List.length_cons] at fuel
  obtain ⟨m, rfl⟩ : ∃ m, n = m + 1 := ⟨n - 1, by omega⟩
  rw [same, List.cons_append] at literal lexed ⊢
  rw [scanOnce, if_neg (not '"' (by decide)), if_neg (not '[' (by decide)), if_neg (not '\x7b' (by decide)), literal,
    Option.none_or, scanNumber, lexed]
  rfl

/-- The members of an object from a key on, when the rest of its literal scans. -/
theorem scanFields_string {k body t : Str} (string : scanString body = some (k, t)) (n : Nat) :
    (scanFields (n + 1) (cp '"' :: body) : Option (List (Str × Json F) × Str)) =
      (expect (cp ':') (skipWs t)).bind fun s => (scanOnce n (skipWs s)).bind fun r =>
        match expect (cp '\x7d') (skipWs r.2) with
        | some rest => some ([(k, r.1)], rest)
        | none => (expect (cp ',') (skipWs r.2)).bind fun s =>
            (scanFields n (skipWs s)).map fun p => ((k, r.1) :: p.1, p.2) := by
  rw [scanFields, expect_cons]
  simp only [Option.bind_eq_bind, Option.bind_some, string, Option.pure_def]
  congr 1
  funext s
  congr 1
  funext r
  obtain ⟨v, r⟩ := r
  cases expect (cp '\x7d') (skipWs r) with
  | some rest => rfl
  | none =>
    dsimp only
    congr 1
    funext s
    cases (scanFields n (skipWs s) : Option (List (Str × Json F) × Str)) <;> rfl

theorem scanFields_key {k : Str} (joined : Joined k) (n : Nat) (t : Str) :
    (scanFields (n + 1) (quote k ++ t) : Option (List (Str × Json F) × Str)) =
      (expect (cp ':') (skipWs t)).bind fun s => (scanOnce n (skipWs s)).bind fun r =>
        match expect (cp '\x7d') (skipWs r.2) with
        | some rest => some ([(k, r.1)], rest)
        | none => (expect (cp ',') (skipWs r.2)).bind fun s =>
            (scanFields n (skipWs s)).map fun p => ((k, r.1) :: p.1, p.2) := by
  obtain ⟨body, starts, string⟩ := scanString_quote joined t
  rw [starts]
  exact scanFields_string string n

theorem reads_items {v : Json F} {items : List (Json F)} (reads : ∀ w ∈ v :: items, Reads w) (n : Nat) (t : Str)
    (fuel : (dumps v ++ dumpsItems items).length ≤ n) :
    scanItems n (dumps v ++ dumpsItems items ++ t) = some (v :: items, t) := by
  induction items generalizing v n with
  | nil =>
    simp only [dumpsItems, List.length_append, List.length_singleton] at fuel ⊢
    obtain ⟨m, rfl⟩ : ∃ m, n = m + 1 := ⟨n - 1, by omega⟩
    have value := reads v List.mem_cons_self m (cp ']' :: t) (by omega) (Or.inr (stopsAt_cons (by decide)))
    rw [scanItems, List.append_assoc, List.singleton_append, value]
    simp only [Option.bind_eq_bind, Option.bind_some, skipWs_cons (by decide : isWs (cp ']') = false), expect_cons,
      Option.pure_def]
  | cons w items ih =>
    simp only [dumpsItems, List.length_append, List.length_cons] at fuel ⊢
    obtain ⟨m, rfl⟩ : ∃ m, n = m + 1 := ⟨n - 1, by omega⟩
    have value := reads v List.mem_cons_self m (cp ',' :: (dumps w ++ dumpsItems items ++ t)) (by omega)
      (Or.inr (stopsAt_cons (by decide)))
    have tail := ih (fun u hu => reads u (List.mem_cons_of_mem _ hu)) m (by rw [List.length_append]; omega)
    rw [scanItems, List.append_assoc, List.cons_append, List.cons_append, value]
    simp only [Option.bind_eq_bind, Option.bind_some, skipWs_cons (by decide : isWs (cp ',') = false),
      expect_other (by decide : cp ',' ≠ cp ']'), expect_cons, List.append_assoc, skipWs_dumps, Option.pure_def]
    rw [← List.append_assoc, tail, Option.bind_some]

theorem reads_fields {k : Str} {v : Json F} {fields : List (Str × Json F)} (joined : ∀ e ∈ (k, v) :: fields, Joined e.1)
    (reads : ∀ e ∈ (k, v) :: fields, Reads e.2) (n : Nat) (t : Str)
    (fuel : (quote k ++ cp ':' :: dumps v ++ dumpsFields fields).length ≤ n) :
    scanFields n (quote k ++ cp ':' :: dumps v ++ dumpsFields fields ++ t) = some ((k, v) :: fields, t) := by
  have colon : isWs (cp ':') = false := by decide
  induction fields generalizing k v n with
  | nil =>
    simp only [dumpsFields, List.length_append, List.length_cons, List.length_nil] at fuel
    obtain ⟨m, rfl⟩ : ∃ m, n = m + 1 := ⟨n - 1, by omega⟩
    have value := reads (k, v) List.mem_cons_self m (cp '\x7d' :: t) (by dsimp only; omega)
      (Or.inr (stopsAt_cons (by decide)))
    simp only [dumpsFields, List.append_assoc, List.cons_append, List.nil_append]
    rw [scanFields_key (joined (k, v) List.mem_cons_self)]
    simp only [skipWs_cons colon, expect_cons, Option.bind_some, skipWs_dumps, value,
      skipWs_cons (by decide : isWs (cp '\x7d') = false)]
  | cons e fields ih =>
    obtain ⟨k', v'⟩ := e
    simp only [dumpsFields, List.length_append, List.length_cons] at fuel
    obtain ⟨m, rfl⟩ : ∃ m, n = m + 1 := ⟨n - 1, by omega⟩
    have value := reads (k, v) List.mem_cons_self m
      (cp ',' :: (quote k' ++ cp ':' :: dumps v' ++ dumpsFields fields ++ t)) (by dsimp only; omega)
      (Or.inr (stopsAt_cons (by decide)))
    have tail := ih (fun u hu => joined u (List.mem_cons_of_mem _ hu)) (fun u hu => reads u (List.mem_cons_of_mem _ hu)) m
      (by simp only [List.length_append, List.length_cons]; omega)
    simp only [dumpsFields, List.append_assoc, List.cons_append] at value tail ⊢
    rw [scanFields_key (joined (k, v) List.mem_cons_self)]
    have next : skipWs (quote k' ++ (cp ':' :: (dumps v' ++ (dumpsFields fields ++ t)))) =
        quote k' ++ (cp ':' :: (dumps v' ++ (dumpsFields fields ++ t))) := by
      rw [quote, List.cons_append, List.cons_append, skipWs_cons (by decide)]
    simp only [skipWs_cons colon, expect_cons, Option.bind_some, skipWs_dumps, value,
      skipWs_cons (by decide : isWs (cp ',') = false), expect_other (by decide : cp ',' ≠ cp '\x7d'), next, tail,
      Option.map_some]

theorem reads_word {v : Json F} (word : Str) (ne : word ≠ []) (text : dumps v = word)
    (h : ∀ m t, scanOnce (m + 1) (word ++ t) = some (v, t)) : Reads v := by
  intro n t fuel _
  rw [text] at fuel ⊢
  have := List.length_pos_of_ne_nil ne
  obtain ⟨m, rfl⟩ : ∃ m, n = m + 1 := ⟨n - 1, by omega⟩
  exact h m t

theorem reads_of_wf {v : Json F} (wf : WF v) : Reads v := by
  induction wf with
  | null => exact reads_word (Lib.str "null") (by decide) (by rw [dumps]) fun m t => by rw [Lib.str]; rfl
  | bool b =>
    cases b with
    | true => exact reads_word (Lib.str "true") (by decide) (by rw [dumps]) fun m t => rfl
    | false => exact reads_word (Lib.str "false") (by decide) (by rw [dumps]) fun m t => rfl
  | int k =>
    intro n t fuel stop
    have lexed := lexNumber_intText k (stopsAt_nil inNumber)
    rw [List.append_nil] at lexed
    rw [dumps] at fuel ⊢
    rw [scanOnce_number lexed fuel (stop.resolve_left fun no => no trivial)]
    simp only [Bool.false_eq_true, if_false, intValue_intText]
  | float x =>
    rcases repr_cases x with ⟨rfl, text⟩ | ⟨rfl, text⟩ | ⟨rfl, text⟩ | ⟨lexed, reads⟩
    · exact reads_word (Lib.str "NaN") (by decide) (by rw [dumps, text]) fun m t => rfl
    · exact reads_word (Lib.str "Infinity") (by decide) (by rw [dumps, text]) fun m t => rfl
    · exact reads_word (Lib.str "-Infinity") (by decide) (by rw [dumps, text]) fun m t => rfl
    · intro n t fuel stop
      rw [dumps] at fuel ⊢
      rw [scanOnce_number lexed fuel (stop.resolve_left fun no => no trivial)]
      simp only [if_true, reads]
  | str joined =>
    rename_i s
    intro n t fuel _
    obtain ⟨body, starts, string⟩ := scanString_quote joined t
    rw [dumps] at fuel ⊢
    obtain ⟨m, rfl⟩ : ∃ m, n = m + 1 := ⟨n - 1, by simp only [quote, List.length_append, List.length_cons] at fuel; omega⟩
    rw [starts, scanOnce, if_pos rfl, string]
    rfl
  | arr wf ih =>
    rename_i items
    cases items with
    | nil => exact reads_word (Lib.str "[]") (by decide) (by rw [dumps]) fun m t => rfl
    | cons v items =>
      intro n t fuel _
      rw [dumps] at fuel ⊢
      simp only [List.cons_append, List.length_cons] at fuel ⊢
      obtain ⟨m, rfl⟩ : ∃ m, n = m + 1 := ⟨n - 1, by omega⟩
      have inside := reads_items ih m t (by omega)
      have nonempty := expect_dumps ']' (by decide) v (dumpsItems items ++ t)
      rw [List.append_assoc] at inside ⊢
      rw [scanOnce, if_neg (by decide), if_pos rfl, skipWs_dumps, nonempty]
      simp only [inside, Option.bind_eq_bind, Option.bind_some, Option.pure_def]
  | obj sorted joined wf ih =>
    rename_i fields
    cases fields with
    | nil => exact reads_word (Lib.str "\x7b\x7d") (by decide) (by rw [dumps]) fun m t => rfl
    | cons e fields =>
      obtain ⟨k, v⟩ := e
      intro n t fuel _
      rw [dumps] at fuel ⊢
      simp only [List.cons_append, List.length_cons] at fuel ⊢
      obtain ⟨m, rfl⟩ : ∃ m, n = m + 1 := ⟨n - 1, by omega⟩
      have inside := reads_fields joined ih m t (by simp only [List.length_append, List.length_cons] at fuel ⊢; omega)
      have start : ∃ body, quote k ++ cp ':' :: dumps v ++ dumpsFields fields ++ t = cp '"' :: body := ⟨_, rfl⟩
      obtain ⟨body, starts⟩ := start
      rw [starts] at inside
      rw [scanOnce, if_neg (by decide), if_neg (by decide), if_pos rfl, starts, skipWs_cons (by decide),
        expect_other (by decide)]
      simp only [inside, Option.bind_eq_bind, Option.bind_some, Option.pure_def, Dict.ofPairs_of_sorted sorted]

theorem scanOnce_dumps {v : Json F} (wf : WF v) {n : Nat} {t : Str} (fuel : (dumps v).length ≤ n)
    (stop : ¬IsNumber v ∨ StopsAt inNumber t) : scanOnce n (dumps v ++ t) = some (v, t) :=
  reads_of_wf wf n t fuel stop

theorem loads_dumps {v : Json F} (wf : WF v) : loads (dumps v) = some v := by
  obtain ⟨c, rest, head, start⟩ := dumps_head v
  have noMark : c ≠ byteOrderMark := by
    rintro rfl
    revert start
    decide
  have read := scanOnce_dumps wf (n := 2 * (dumps v).length + 2) (t := []) (by omega) (Or.inr (stopsAt_nil _))
  have skip := skipWs_dumps v []
  rw [List.append_nil] at read skip
  rw [loads, if_neg (by simp [head, noMark]), skip, read]
  rfl

/-- The encoding of a value other than a number can be told from whatever follows it. -/
theorem dumps_append_inj {v w : Json F} {s t : Str} (hv : WF v) (hw : WF w) (nv : ¬IsNumber v) (nw : ¬IsNumber w)
    (h : dumps v ++ s = dumps w ++ t) : v = w ∧ s = t := by
  have left := scanOnce_dumps hv (n := (dumps v).length + (dumps w).length) (t := s) (by omega) (Or.inl nv)
  have right := scanOnce_dumps hw (n := (dumps v).length + (dumps w).length) (t := t) (by omega) (Or.inl nw)
  rw [h, right] at left
  cases left
  exact ⟨rfl, rfl⟩

theorem dumps_injective {v w : Json F} (hv : WF v) (hw : WF w) (h : dumps v = dumps w) : v = w := by
  have left := loads_dumps hv
  rw [h, loads_dumps hw] at left
  exact (Option.some.inj left).symm

/-! ### The characters of an encoding -/

def isPrintable (c : CodePoint) : Bool := 0x20 ≤ c.val && c.val ≤ 0x7e

/-- Printable ASCII: one line, and the same characters under every encoding. -/
def Printable (s : Str) : Prop := ∀ c ∈ s, isPrintable c = true

instance (s : Str) : Decidable (Printable s) := decidable_of_iff (s.all isPrintable = true) List.all_eq_true

theorem isPrintable_iff {c : CodePoint} : isPrintable c = true ↔ 0x20 ≤ c.val ∧ c.val ≤ 0x7e := by
  simp [isPrintable]

theorem printable_nil : Printable [] := by simp [Printable]

theorem printable_append {s t : Str} : Printable (s ++ t) ↔ Printable s ∧ Printable t := by
  simp only [Printable, List.mem_append, or_imp, forall_and]

theorem printable_cons {c : CodePoint} {s : Str} : Printable (c :: s) ↔ isPrintable c = true ∧ Printable s := by
  simp [Printable]

theorem Printable.ascii {s : Str} (h : Printable s) : Ascii s := fun c hc => by
  have := isPrintable_iff.mp (h c hc)
  omega

theorem Printable.scalars {s : Str} (h : Printable s) : Scalars s := fun c hc => by
  have := isPrintable_iff.mp (h c hc)
  simp only [isSurrogate, Bool.and_eq_false_iff, decide_eq_false_iff_not]
  omega

theorem isDigit_printable {s : Str} (h : ∀ c ∈ s, isDigit c = true) : Printable s := fun c hc => by
  have := h c hc
  simp only [isDigit, Bool.and_eq_true, decide_eq_true_eq] at this
  exact isPrintable_iff.mpr (by omega)

theorem takeWhile_isDigit_printable (s : Str) : Printable (s.takeWhile isDigit) :=
  isDigit_printable fun _ hc => List.mem_takeWhile_imp hc

theorem isDigit_printable_cons {c : CodePoint} {s : Str} (h : isDigit c = true) (hs : Printable s) :
    Printable (c :: s) :=
  printable_cons.mpr ⟨isDigit_printable (s := [c]) (by simpa using h) c List.mem_cons_self, hs⟩

theorem lexInt_printable {s d r : Str} (h : lexInt s = some (d, r)) : Printable d := by
  cases s with
  | nil => cases h
  | cons c s =>
    rw [lexInt] at h
    split at h
    · rename_i zero
      cases h
      rw [zero]
      decide
    · split at h
      · rename_i digit
        cases h
        exact isDigit_printable_cons digit (takeWhile_isDigit_printable s)
      · cases h

theorem lexFraction_printable (s : Str) : Printable (lexFraction s).1 := by
  match s with
  | [] => exact printable_nil
  | [c] => exact printable_nil
  | c :: d :: s =>
    simp only [lexFraction]
    split
    · rename_i fraction
      obtain ⟨rfl, digit⟩ := fraction
      exact printable_cons.mpr ⟨by decide, isDigit_printable_cons digit (takeWhile_isDigit_printable s)⟩
    · exact printable_nil

theorem lexExponent_printable (s : Str) : Printable (lexExponent s).1 := by
  match s with
  | [] => exact printable_nil
  | [c] => exact printable_nil
  | e :: d :: s =>
    have mark {t : Str} (h : e = cp 'e' ∨ e = cp 'E') (ht : Printable t) : Printable (e :: t) :=
      printable_cons.mpr ⟨by rcases h with rfl | rfl <;> decide, ht⟩
    simp only [lexExponent]
    split
    case isFalse => exact printable_nil
    case isTrue exponent =>
      split
      · rename_i digit
        exact mark exponent (isDigit_printable_cons digit (takeWhile_isDigit_printable s))
      · cases s with
        | nil => exact printable_nil
        | cons d' s =>
          dsimp only
          split
          · rename_i signed
            obtain ⟨sign, digit⟩ := signed
            refine mark exponent (printable_cons.mpr ⟨?_, isDigit_printable_cons digit (takeWhile_isDigit_printable s)⟩)
            rcases sign with rfl | rfl <;> decide
          · exact printable_nil

theorem lexNumber_printable {s r : Str} {l : NumberLexeme} (h : lexNumber s = some (l, r)) : Printable l.text := by
  simp only [lexNumber, Option.bind_eq_bind, Option.bind_eq_some_iff, Option.pure_def, Option.some.injEq,
    Prod.mk.injEq] at h
  obtain ⟨⟨d, b⟩, int, rfl, -⟩ := h
  have sign : Printable (lexSign s).1 := by
    cases s with
    | nil => exact printable_nil
    | cons c s =>
      simp only [lexSign]
      split
      · rename_i minus
        exact printable_cons.mpr ⟨minus ▸ by decide, printable_nil⟩
      · exact printable_nil
  simp only [printable_append]
  exact ⟨⟨⟨sign, lexInt_printable int⟩, lexFraction_printable b⟩, lexExponent_printable _⟩

theorem intText_printable (n : Int) : Printable (intText n) := by
  have digits := isDigit_printable (natText_digits n.natAbs)
  rw [intText]
  split
  · exact printable_cons.mpr ⟨by decide, digits⟩
  · exact digits

theorem repr_printable (x : F) : Printable (FloatText.repr x) := by
  rcases repr_cases x with ⟨-, text⟩ | ⟨-, text⟩ | ⟨-, text⟩ | ⟨lexed, -⟩
  · exact text ▸ by decide
  · exact text ▸ by decide
  · exact text ▸ by decide
  · exact lexNumber_printable lexed

theorem escapeUnit_printable (n : Nat) : Printable (escapeUnit n) := by
  have digit (d : Nat) : isPrintable (hexDigit (d % 16)) = true := by
    have : d % 16 < 16 := Nat.mod_lt _ (by decide)
    interval_cases d % 16 <;> decide
  simp only [escapeUnit, printable_cons]
  exact ⟨by decide, by decide, digit _, digit _, digit _, digit _, printable_nil⟩

theorem escapeChar_printable (c : CodePoint) : Printable (escapeChar c) := by
  rw [escapeChar]
  split
  · rename_i e short
    have letters : (shortEscapes.all fun p => isPrintable p.2) = true := by decide
    obtain ⟨before, after, split, -⟩ := List.lookup_eq_some_iff.mp short
    have letter := List.all_eq_true.mp letters (c, e) (split ▸ by simp)
    exact printable_cons.mpr ⟨by decide, printable_cons.mpr ⟨letter, printable_nil⟩⟩
  · split
    · rename_i printable
      exact printable_cons.mpr ⟨isPrintable_iff.mpr printable, printable_nil⟩
    · split
      · exact escapeUnit_printable _
      · exact printable_append.mpr ⟨escapeUnit_printable _, escapeUnit_printable _⟩

theorem quote_printable (s : Str) : Printable (quote s) := by
  have body : Printable (s.flatMap escapeChar) := fun c hc => by
    obtain ⟨d, -, hd⟩ := List.mem_flatMap.mp hc
    exact escapeChar_printable d c hd
  exact printable_append.mpr ⟨printable_cons.mpr ⟨by decide, body⟩, by decide⟩

mutual
theorem dumps_printable : ∀ v : Json F, Printable (dumps v)
  | .null => by rw [dumps]; decide
  | .bool true => by rw [dumps]; decide
  | .bool false => by rw [dumps]; decide
  | .int n => by rw [dumps]; exact intText_printable n
  | .float x => by rw [dumps]; exact repr_printable x
  | .str s => by rw [dumps]; exact quote_printable s
  | .arr [] => by rw [dumps]; decide
  | .arr (v :: items) => by
    simp only [dumps, printable_append, printable_cons]
    exact ⟨⟨by decide, dumps_printable v⟩, dumpsItems_printable items⟩
  | .obj [] => by rw [dumps]; decide
  | .obj ((k, v) :: fields) => by
    simp only [dumps, printable_append, printable_cons]
    exact ⟨⟨⟨by decide, quote_printable k⟩, by decide, dumps_printable v⟩, dumpsFields_printable fields⟩

theorem dumpsItems_printable : ∀ items : List (Json F), Printable (dumpsItems items)
  | [] => by rw [dumpsItems]; decide
  | v :: items => by
    simp only [dumpsItems, printable_append, printable_cons]
    exact ⟨⟨by decide, dumps_printable v⟩, dumpsItems_printable items⟩

theorem dumpsFields_printable : ∀ fields : List (Str × Json F), Printable (dumpsFields fields)
  | [] => by rw [dumpsFields]; decide
  | (k, v) :: fields => by
    simp only [dumpsFields, printable_append, printable_cons]
    exact ⟨⟨⟨by decide, quote_printable k⟩, by decide, dumps_printable v⟩, dumpsFields_printable fields⟩
end

end Lib.Json
