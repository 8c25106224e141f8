import ModelGuard.Lib.JsonRoundTrip

/-!
# What scanning a text says

Scanning consumes text, yields well-formed values from text without surrogates, and goes the same
way when more text or more fuel is given.
-/

namespace Lib.Json

variable {F : Type} [FloatText F]

/-! ### The routes through the scanner -/

/-- The routes by which `scanOnce` yields a value from text that starts with `c`. -/
inductive ScansTo (fuel : Nat) (c : CodePoint) (rest : Str) (v : Json F) (r : Str) : Prop
  | str {s : Str} : c = cp '"' → scanString rest = some (s, r) → v = .str s → ScansTo fuel c rest v r
  | emptyArr : c = cp '[' → expect (cp ']') (skipWs rest) = some r → v = .arr [] → ScansTo fuel c rest v r
  | arr {items : List (Json F)} : c = cp '[' → expect (cp ']') (skipWs rest) = none →
      scanItems fuel (skipWs rest) = some (items, r) → v = .arr items → ScansTo fuel c rest v r
  | emptyObj : c = cp '\x7b' → expect (cp '\x7d') (skipWs rest) = some r → v = .obj [] → ScansTo fuel c rest v r
  | obj {fields : List (Str × Json F)} : c = cp '\x7b' → expect (cp '\x7d') (skipWs rest) = none →
      scanFields fuel (skipWs rest) = some (fields, r) → v = .obj (Dict.ofPairs fields) → ScansTo fuel c rest v r
  | word : c ≠ cp '"' → c ≠ cp '[' → c ≠ cp '\x7b' → (scanLiteral (c :: rest)).or (scanNumber (c :: rest)) = some (v, r) →
      ScansTo fuel c rest v r

theorem scanOnce_iff {n : Nat} {s r : Str} {v : Json F} :
    scanOnce n s = some (v, r) ↔ ∃ m c rest, n = m + 1 ∧ s = c :: rest ∧ ScansTo m c rest v r := by
  constructor
  · intro h
    match n, s, h with
    | m + 1, c :: rest, h =>
      refine ⟨m, c, rest, rfl, rfl, ?_⟩
      rw [scanOnce] at h
      simp only [Option.bind_eq_bind, Option.pure_def] at h
      split at h
      case isTrue string =>
        obtain ⟨⟨x, r'⟩, scanned, same⟩ := Option.bind_eq_some_iff.mp h
        cases same
        exact .str string scanned rfl
      case isFalse notString =>
        split at h
        case isTrue array =>
          split at h
          · rename_i close
            cases h
            exact .emptyArr array close rfl
          · rename_i open'
            obtain ⟨⟨items, r'⟩, scanned, same⟩ := Option.bind_eq_some_iff.mp h
            cases same
            exact .arr array open' scanned rfl
        case isFalse notArray =>
          split at h
          case isTrue object =>
            split at h
            · rename_i close
              cases h
              exact .emptyObj object close rfl
            · rename_i open'
              obtain ⟨⟨fields, r'⟩, scanned, same⟩ := Option.bind_eq_some_iff.mp h
              cases same
              exact .obj object open' scanned rfl
          case isFalse notObject => exact .word notString notArray notObject h
  · rintro ⟨m, c, rest, rfl, rfl, route⟩
    rw [scanOnce]
    cases route with
    | str string scanned same => rw [if_pos string, scanned, same]; rfl
    | emptyArr array close same =>
      rw [if_neg (array ▸ by decide), if_pos array, close, same]
    | arr array open' scanned same =>
      rw [if_neg (array ▸ by decide), if_pos array, open', same]
      simp only [scanned, Option.bind_eq_bind, Option.bind_some, Option.pure_def]
    | emptyObj object close same =>
      rw [if_neg (object ▸ by decide), if_neg (object ▸ by decide), if_pos object, close, same]
    | obj object open' scanned same =>
      rw [if_neg (object ▸ by decide), if_neg (object ▸ by decide), if_pos object, open', same]
      simp only [scanned, Option.bind_eq_bind, Option.bind_some, Option.pure_def]
    | word notString notArray notObject word =>
      rw [if_neg notString, if_neg notArray, if_neg notObject, word]

/-- What follows a member of an array or object: the closing mark, or a comma and more members. -/
inductive ContinuesTo {α : Type} (close : CodePoint) (more : Str → Option (List α × Str)) (a : α) (s : Str)
    (all : List α) (r : Str) : Prop
  | last : expect close (skipWs s) = some r → all = [a] → ContinuesTo close more a s all r
  | next {s' : Str} {rest : List α} : expect close (skipWs s) = none → expect (cp ',') (skipWs s) = some s' →
      more (skipWs s') = some (rest, r) → all = a :: rest → ContinuesTo close more a s all r

theorem continuesTo_iff {α : Type} {close : CodePoint} {more : Str → Option (List α × Str)} {a : α} {s r : Str}
    {all : List α} :
    (match expect close (skipWs s) with
      | some rest => some ([a], rest)
      | none => (expect (cp ',') (skipWs s)).bind fun s' => (more (skipWs s')).bind fun p => some (a :: p.1, p.2)) =
        some (all, r) ↔ ContinuesTo close more a s all r := by
  constructor
  · intro h
    split at h
    · rename_i closed
      cases h
      exact .last closed rfl
    · rename_i open'
      obtain ⟨s', comma, tail⟩ := Option.bind_eq_some_iff.mp h
      obtain ⟨⟨rest, r'⟩, scanned, same⟩ := Option.bind_eq_some_iff.mp tail
      cases same
      exact .next open' comma scanned rfl
  · rintro (⟨closed, rfl⟩ | ⟨open', comma, scanned, rfl⟩)
    · rw [closed]
    · rw [open', comma]
      simp only [Option.bind_some, scanned]

theorem scanItems_iff {n : Nat} {s r : Str} {items : List (Json F)} :
    scanItems n s = some (items, r) ↔
      ∃ m v s', n = m + 1 ∧ scanOnce m s = some (v, s') ∧ ContinuesTo (cp ']') (scanItems m) v s' items r := by
  cases n with
  | zero => simp [scanItems]
  | succ m =>
    rw [scanItems]
    simp only [Option.bind_eq_bind, Option.bind_eq_some_iff, Option.pure_def, Nat.add_right_cancel_iff, Prod.exists]
    constructor
    · rintro ⟨v, s', scanned, h⟩
      exact ⟨m, v, s', rfl, scanned, continuesTo_iff.mp h⟩
    · rintro ⟨m', v, s', rfl, scanned, h⟩
      exact ⟨v, s', scanned, continuesTo_iff.mpr h⟩

theorem scanFields_iff {n : Nat} {s r : Str} {fields : List (Str × Json F)} :
    scanFields n s = some (fields, r) ↔
      ∃ m k v s₁ s₂ s₃ s₄, n = m + 1 ∧ expect (cp '"') s = some s₁ ∧ scanString s₁ = some (k, s₂) ∧
        expect (cp ':') (skipWs s₂) = some s₃ ∧ scanOnce m (skipWs s₃) = some (v, s₄) ∧
        ContinuesTo (cp '\x7d') (scanFields m) (k, v) s₄ fields r := by
  cases n with
  | zero => simp [scanFields]
  | succ m =>
    rw [scanFields]
    simp only [Option.bind_eq_bind, Option.bind_eq_some_iff, Option.pure_def, Nat.add_right_cancel_iff, Prod.exists]
    constructor
    · rintro ⟨s₁, quote, k, s₂, string, s₃, colon, v, s₄, scanned, h⟩
      exact ⟨m, k, v, s₁, s₂, s₃, s₄, rfl, quote, string, colon, scanned, continuesTo_iff.mp h⟩
    · rintro ⟨m', k, v, s₁, s₂, s₃, s₄, rfl, quote, string, colon, scanned, h⟩
      exact ⟨s₁, quote, k, s₂, string, s₃, colon, v, s₄, scanned, continuesTo_iff.mpr h⟩

/-! ### Well-formed values -/

theorem skipWs_scalars {s : Str} (h : Scalars s) : Scalars (skipWs s) :=
  h.of_sublist (List.dropWhile_sublist _)

theorem expect_eq_some {c : CodePoint} {s r : Str} : expect c s = some r ↔ s = c :: r := by
  cases s with
  | nil => simp [expect]
  | cons d s =>
    simp only [expect, List.cons.injEq]
    split <;> simp_all

theorem expect_scalars {c : CodePoint} {s r : Str} (h : Scalars s) (e : expect c s = some r) : Scalars r :=
  (scalars_cons.mp (expect_eq_some.mp e ▸ h)).2

theorem afterWord_eq_some {word s r : Str} : afterWord word s = some r ↔ s = word ++ r := by
  induction word generalizing s with
  | nil => simp [afterWord]
  | cons c word ih =>
    simp only [afterWord, Option.bind_eq_some_iff, expect_eq_some, ih, List.cons_append]
    constructor
    · rintro ⟨_, rfl, rfl⟩
      rfl
    · rintro rfl
      exact ⟨_, rfl, rfl⟩

theorem scanLiteral_cases {s r : Str} {v : Json F} (h : scanLiteral s = some (v, r)) :
    ∃ word, s = word ++ r ∧ word ≠ [] ∧ (word, v) ∈ literals := by
  obtain ⟨⟨word, w⟩, mem, found⟩ := List.exists_of_findSome?_eq_some h
  obtain ⟨rest, tail, same⟩ := Option.map_eq_some_iff.mp found
  cases same
  have nonempty : ∀ l ∈ (literals : List (Str × Json F)), l.1 ≠ [] := by simp [literals, Lib.str]
  exact ⟨word, afterWord_eq_some.mp tail, nonempty _ mem, mem⟩

theorem literals_wf {word : Str} {v : Json F} (h : (word, v) ∈ literals) : WF v := by
  simp only [literals, List.mem_cons, Prod.mk.injEq, List.not_mem_nil, or_false] at h
  rcases h with ⟨-, rfl⟩ | ⟨-, rfl⟩ | ⟨-, rfl⟩ | ⟨-, rfl⟩ | ⟨-, rfl⟩ | ⟨-, rfl⟩ <;> constructor

theorem lexInt_split {s d r : Str} (h : lexInt s = some (d, r)) : s = d ++ r ∧ d ≠ [] := by
  cases s with
  | nil => cases h
  | cons c s =>
    rw [lexInt] at h
    split at h
    · cases h
      exact ⟨rfl, by simp⟩
    · split at h
      · cases h
        simp
      · cases h

theorem lexFraction_split (s : Str) : s = (lexFraction s).1 ++ (lexFraction s).2 := by
  match s with
  | [] => rfl
  | [c] => rfl
  | c :: d :: s =>
    rw [lexFraction]
    split <;> simp

theorem lexExponent_split (s : Str) : s = (lexExponent s).1 ++ (lexExponent s).2 := by
  match s with
  | [] => rfl
  | [c] => rfl
  | e :: d :: s =>
    simp only [lexExponent]
    split
    · split
      · simp
      · cases s with
        | nil => rfl
        | cons d' s =>
          dsimp only
          split <;> simp
    · rfl

/-- A number is the text of its lexeme. -/
theorem lexNumber_split {s r : Str} {l : NumberLexeme} (h : lexNumber s = some (l, r)) :
    s = l.text ++ r ∧ l.text ≠ [] := by
  simp only [lexNumber, Option.bind_eq_bind, Option.bind_eq_some_iff, Option.pure_def, Option.some.injEq,
    Prod.mk.injEq] at h
  obtain ⟨⟨d, b⟩, int, rfl, rfl⟩ := h
  obtain ⟨split, nonempty⟩ := lexInt_split int
  have sign : s = (lexSign s).1 ++ (lexSign s).2 := by
    cases s with
    | nil => rfl
    | cons c s =>
      rw [lexSign]
      split <;> rfl
  refine ⟨?_, by simp [nonempty]⟩
  calc s = (lexSign s).1 ++ (d ++ ((lexFraction b).1 ++ (lexFraction b).2)) := by
        rw [← lexFraction_split, ← split, ← sign]
    _ = _ := by
        rw [← List.append_assoc, ← List.append_assoc, List.append_assoc _ _ (lexExponent _).2]
        rw [← lexExponent_split]

theorem scanNumber_cases {s r : Str} {v : Json F} (h : scanNumber s = some (v, r)) :
    ∃ l, lexNumber s = some (l, r) ∧ WF v ∧ IsNumber v := by
  simp only [scanNumber, Option.bind_eq_bind, Option.bind_eq_some_iff, Option.pure_def, Option.some.injEq,
    Prod.mk.injEq] at h
  obtain ⟨⟨l, rest⟩, lexed, rfl, rfl⟩ := h
  refine ⟨l, lexed, ?_⟩
  split
  · exact ⟨.float _, trivial⟩
  · exact ⟨.int _, trivial⟩

theorem scanWord_split {s r : Str} {v : Json F} (h : (scanLiteral s).or (scanNumber s) = some (v, r)) :
    WF v ∧ ∃ word, s = word ++ r ∧ word ≠ [] := by
  rcases Option.or_eq_some_iff.mp h with literal | ⟨-, number⟩
  · obtain ⟨word, split, nonempty, mem⟩ := scanLiteral_cases literal
    exact ⟨literals_wf mem, word, split, nonempty⟩
  · obtain ⟨l, lexed, wf, -⟩ := scanNumber_cases number
    exact ⟨wf, l.text, lexNumber_split lexed⟩

/-- Scanning text without surrogates leaves such text and yields well-formed values. -/
theorem scan_wf (n : Nat) :
    (∀ {s r : Str} {v : Json F}, Scalars s → scanOnce n s = some (v, r) → WF v ∧ Scalars r) ∧
    (∀ {s r : Str} {items : List (Json F)}, Scalars s → scanItems n s = some (items, r) →
      (∀ v ∈ items, WF v) ∧ Scalars r) ∧
    (∀ {s r : Str} {fields : List (Str × Json F)}, Scalars s → scanFields n s = some (fields, r) →
      (∀ e ∈ fields, Joined e.1 ∧ WF e.2) ∧ Scalars r) := by
  induction n with
  | zero => exact ⟨fun _ h => by simp [scanOnce] at h, fun _ h => by simp [scanItems] at h, fun _ h => by
      simp [scanFields] at h⟩
  | succ n ih =>
    obtain ⟨onceIh, itemsIh, fieldsIh⟩ := ih
    -- Both kinds of member lists close or continue the same way.
    have members {α : Type} {close : CodePoint} {more : Str → Option (List α × Str)} {P : α → Prop} {a : α}
        {s r : Str} {all : List α} (moreIh : ∀ {s r : Str} {l : List α}, Scalars s → more s = some (l, r) →
          (∀ a ∈ l, P a) ∧ Scalars r) (text : Scalars s) (ha : P a) (h : ContinuesTo close more a s all r) :
        (∀ a ∈ all, P a) ∧ Scalars r := by
      cases h with
      | last closed same =>
        subst same
        exact ⟨by simpa using ha, expect_scalars (skipWs_scalars text) closed⟩
      | next open' comma scanned same =>
        subst same
        obtain ⟨rest, left⟩ := moreIh (skipWs_scalars (expect_scalars (skipWs_scalars text) comma)) scanned
        exact ⟨List.forall_mem_cons.mpr ⟨ha, rest⟩, left⟩
    refine ⟨fun {s r v} text h => ?_, fun {s r items} text h => ?_, fun {s r fields} text h => ?_⟩
    · obtain ⟨m, c, rest, fuel, rfl, route⟩ := scanOnce_iff.mp h
      cases fuel
      have inside := skipWs_scalars (scalars_cons.mp text).2
      cases route with
      | str _ scanned same =>
        subst same
        obtain ⟨joined, left⟩ := scanString_joined (scalars_cons.mp text).2 scanned
        exact ⟨.str joined, left⟩
      | emptyArr _ closed same =>
        subst same
        exact ⟨.arr (by simp), expect_scalars inside closed⟩
      | arr _ _ scanned same =>
        subst same
        exact (itemsIh inside scanned).imp .arr id
      | emptyObj _ closed same =>
        subst same
        exact ⟨.obj List.Pairwise.nil (by simp) (by simp), expect_scalars inside closed⟩
      | obj _ _ scanned same =>
        subst same
        obtain ⟨wf, left⟩ := fieldsIh inside scanned
        exact ⟨.obj (Dict.ofPairs_sorted _) (fun e he => (wf e (Dict.mem_ofPairs he)).1)
          (fun e he => (wf e (Dict.mem_ofPairs he)).2), left⟩
      | word _ _ _ scanned =>
        obtain ⟨wf, word, split, -⟩ := scanWord_split scanned
        exact ⟨wf, (scalars_append.mp (split ▸ text)).2⟩
    · obtain ⟨m, v, s', fuel, scanned, tail⟩ := scanItems_iff.mp h
      cases fuel
      obtain ⟨wf, left⟩ := onceIh text scanned
      exact members itemsIh left wf tail
    · obtain ⟨m, k, v, s₁, s₂, s₃, s₄, fuel, quote, string, colon, scanned, tail⟩ := scanFields_iff.mp h
      cases fuel
      obtain ⟨joined, afterKey⟩ := scanString_joined (expect_scalars text quote) string
      obtain ⟨wf, left⟩ := onceIh (skipWs_scalars (expect_scalars (skipWs_scalars afterKey) colon)) scanned
      exact members (P := fun e : Str × Json F => Joined e.1 ∧ WF e.2) fieldsIh left ⟨joined, wf⟩ tail

/-- What `loads` yields from the text of a file is well formed. -/
theorem loads_wf {s : Str} {v : Json F} (text : Scalars s) (h : loads s = some v) : WF v := by
  rw [loads] at h
  split at h
  · cases h
  · split at h
    · rename_i scanned
      split at h
      · cases h
        exact ((scan_wf _).1 (skipWs_scalars text) scanned).1
      · cases h
    · cases h

/-! ### Longer texts -/

theorem expect_append {c : CodePoint} {s r : Str} (t : Str) (h : expect c s = some r) :
    expect c (s ++ t) = some (r ++ t) := by
  rw [expect_eq_some.mp h, List.cons_append, expect_cons]

theorem expect_none_append {c : CodePoint} {s : Str} (t : Str) (nonempty : s ≠ []) (h : expect c s = none) :
    expect c (s ++ t) = none := by
  cases s with
  | nil => exact (nonempty rfl).elim
  | cons d s =>
    simp only [expect, List.cons_append] at h ⊢
    split at h
    · cases h
    · rename_i other
      rw [if_neg other]

theorem skipWs_append {s : Str} (t : Str) (h : skipWs s ≠ []) : skipWs (s ++ t) = skipWs s ++ t := by
  rw [skipWs, skipWs, List.dropWhile_append]
  simp only [skipWs] at h
  rw [if_neg (by simpa using h)]

theorem isWs_notInNumber {c : CodePoint} (h : isWs c = true) : inNumber c = false := by
  simp only [isWs, Bool.or_eq_true, beq_iff_eq] at h
  rcases h with ((rfl | rfl) | rfl) | rfl <;> decide

/-- White space and a mark that is in no number end a number. -/
theorem stopsAt_of_skipWs {s rest : Str} {c : CodePoint} (t : Str) (h : skipWs s = c :: rest)
    (mark : inNumber c = false) : StopsAt inNumber (s ++ t) := by
  cases s with
  | nil => cases h
  | cons d s =>
    refine stopsAt_cons ?_
    cases hd : isWs d with
    | true => exact isWs_notInNumber hd
    | false =>
      rw [skipWs_cons hd] at h
      cases h
      exact mark

theorem scanLiteral_word {word : Str} {v : Json F} (h : (word, v) ∈ literals) (t : Str) :
    scanLiteral (word ++ t) = some (v, t) := by
  simp only [literals, List.mem_cons, Prod.mk.injEq, List.not_mem_nil, or_false] at h
  rcases h with ⟨rfl, rfl⟩ | ⟨rfl, rfl⟩ | ⟨rfl, rfl⟩ | ⟨rfl, rfl⟩ | ⟨rfl, rfl⟩ | ⟨rfl, rfl⟩ <;> rfl

theorem scanWord_append {s r : Str} {v : Json F} {t : Str}
    (h : (scanLiteral s).or (scanNumber s) = some (v, r)) (stop : ¬IsNumber v ∨ StopsAt inNumber (r ++ t)) :
    (scanLiteral (s ++ t)).or (scanNumber (s ++ t)) = some (v, r ++ t) := by
  rcases Option.or_eq_some_iff.mp h with literal | ⟨-, number⟩
  · obtain ⟨word, rfl, -, mem⟩ := scanLiteral_cases literal
    rw [List.append_assoc, scanLiteral_word mem]
    rfl
  · obtain ⟨l, lexed, -, isNumber⟩ := scanNumber_cases number
    rw [scanLiteral_number lexed, Option.none_or]
    rw [scanNumber, lexed] at number
    rw [scanNumber, lexNumber_append lexed (stop.resolve_left fun no => no isNumber)]
    cases number
    rfl

theorem ContinuesTo.stops {α : Type} {close : CodePoint} {more : Str → Option (List α × Str)} {a : α} {s r : Str}
    {all : List α} (h : ContinuesTo close more a s all r) (t : Str) (mark : inNumber close = false) :
    StopsAt inNumber (s ++ t) := by
  cases h with
  | last closed => exact stopsAt_of_skipWs t (expect_eq_some.mp closed) mark
  | next _ comma => exact stopsAt_of_skipWs t (expect_eq_some.mp comma) (by decide)

theorem ContinuesTo.append {α : Type} {close : CodePoint} {more more' : Str → Option (List α × Str)} {a : α} {s r : Str}
    {all : List α} (h : ContinuesTo close more a s all r) (t : Str) (moreNil : more [] = none)
    (lift : ∀ {s r : Str} {l : List α}, more s = some (l, r) → more' (s ++ t) = some (l, r ++ t)) :
    ContinuesTo close more' a (s ++ t) all (r ++ t) := by
  cases h with
  | last closed same =>
    refine .last ?_ same
    rw [skipWs_append t (by rw [expect_eq_some.mp closed]; simp)]
    exact expect_append t closed
  | @next s' rest open' comma scanned same =>
    have nonempty : skipWs s ≠ [] := by rw [expect_eq_some.mp comma]; simp
    have inside : skipWs s' ≠ [] := fun empty => by rw [empty, moreNil] at scanned; cases scanned
    have comma' : expect (cp ',') (skipWs (s ++ t)) = some (s' ++ t) := by
      rw [skipWs_append t nonempty]
      exact expect_append t comma
    refine .next ?_ comma' ?_ same
    · rw [skipWs_append t nonempty]
      exact expect_none_append t nonempty open'
    · rw [skipWs_append t inside]
      exact lift scanned

theorem scanItems_nil (n : Nat) : (scanItems n [] : Option (List (Json F) × Str)) = none := by
  cases n with
  | zero => rw [scanItems]
  | succ n => cases n <;> simp [scanItems, scanOnce]

theorem scanFields_nil (n : Nat) : (scanFields n [] : Option (List (Str × Json F) × Str)) = none := by
  cases n <;> simp [scanFields, expect]

/-- More text, and more fuel, change nothing for a value that is complete. -/
theorem scan_append (n : Nat) (t : Str) :
    (∀ {m : Nat} {s r : Str} {v : Json F}, n ≤ m → scanOnce n s = some (v, r) →
      ¬IsNumber v ∨ StopsAt inNumber (r ++ t) → scanOnce m (s ++ t) = some (v, r ++ t)) ∧
    (∀ {m : Nat} {s r : Str} {items : List (Json F)}, n ≤ m → scanItems n s = some (items, r) →
      scanItems m (s ++ t) = some (items, r ++ t)) ∧
    (∀ {m : Nat} {s r : Str} {fields : List (Str × Json F)}, n ≤ m → scanFields n s = some (fields, r) →
      scanFields m (s ++ t) = some (fields, r ++ t)) := by
  induction n with
  | zero => exact ⟨fun _ h => by simp [scanOnce] at h, fun _ h => by simp [scanItems] at h, fun _ h => by
      simp [scanFields] at h⟩
  | succ n ih =>
    obtain ⟨onceIh, itemsIh, fieldsIh⟩ := ih
    refine ⟨fun {m s r v} le h stop => ?_, fun {m s r items} le h => ?_, fun {m s r fields} le h => ?_⟩
    all_goals obtain ⟨m, rfl⟩ : ∃ k, m = k + 1 := ⟨m - 1, by omega⟩
    all_goals have le : n ≤ m := by omega
    · obtain ⟨_, c, rest, fuel, rfl, route⟩ := scanOnce_iff.mp h
      cases fuel
      refine scanOnce_iff.mpr ⟨m, c, rest ++ t, rfl, rfl, ?_⟩
      cases route with
      | str string scanned same => exact .str string (scanString_append scanned) same
      | emptyArr array closed same =>
        refine .emptyArr array ?_ same
        rw [skipWs_append t (by rw [expect_eq_some.mp closed]; simp)]
        exact expect_append t closed
      | arr array open' scanned same =>
        have nonempty : skipWs rest ≠ [] := fun empty => by rw [empty, scanItems_nil] at scanned; cases scanned
        refine .arr array ?_ ?_ same
        · rw [skipWs_append t nonempty]
          exact expect_none_append t nonempty open'
        · rw [skipWs_append t nonempty]
          exact itemsIh le scanned
      | emptyObj object closed same =>
        refine .emptyObj object ?_ same
        rw [skipWs_append t (by rw [expect_eq_some.mp closed]; simp)]
        exact expect_append t closed
      | obj object open' scanned same =>
        have nonempty : skipWs rest ≠ [] := fun empty => by rw [empty, scanFields_nil] at scanned; cases scanned
        refine .obj object ?_ ?_ same
        · rw [skipWs_append t nonempty]
          exact expect_none_append t nonempty open'
        · rw [skipWs_append t nonempty]
          exact fieldsIh le scanned
      | word notString notArray notObject scanned =>
        exact .word notString notArray notObject (scanWord_append scanned stop)
    · obtain ⟨_, v, s', fuel, scanned, tail⟩ := scanItems_iff.mp h
      cases fuel
      exact scanItems_iff.mpr ⟨m, v, s' ++ t, rfl, onceIh le scanned (Or.inr (tail.stops t (by decide))),
        tail.append t (scanItems_nil n) (itemsIh le)⟩
    · obtain ⟨_, k, v, s₁, s₂, s₃, s₄, fuel, quote, string, colon, scanned, tail⟩ := scanFields_iff.mp h
      cases fuel
      have beforeColon : skipWs s₂ ≠ [] := by rw [expect_eq_some.mp colon]; simp
      have beforeValue : skipWs s₃ ≠ [] := fun empty => by
        rw [empty] at scanned
        cases n <;> simp [scanOnce] at scanned
      refine scanFields_iff.mpr ⟨m, k, v, s₁ ++ t, s₂ ++ t, s₃ ++ t, s₄ ++ t, rfl, expect_append t quote,
        scanString_append string, ?_, ?_, tail.append t (scanFields_nil n) (fieldsIh le)⟩
      · rw [skipWs_append t beforeColon]
        exact expect_append t colon
      · rw [skipWs_append t beforeValue]
        exact onceIh le scanned (Or.inr (tail.stops t (by decide)))

/-- Nothing but white space may follow a value other than a number. -/
theorem loads_append {s t : Str} {v : Json F} (h : loads s = some v) (object : ¬IsNumber v) :
    loads (s ++ t) = if (skipWs t).isEmpty then some v else none := by
  rw [loads] at h
  split at h
  · cases h
  rename_i noMark
  split at h
  case h_2 => cases h
  rename_i w rest scanned
  split at h
  case isFalse => cases h
  rename_i blank
  cases h
  have nonempty : skipWs s ≠ [] := fun empty => by rw [empty] at scanned; simp [scanOnce] at scanned
  have head : (s ++ t).head? ≠ some byteOrderMark := by
    cases s with
    | nil => exact (nonempty rfl).elim
    | cons c s => exact noMark
  have longer := (scan_append (2 * s.length + 2) t).1 (m := 2 * (s ++ t).length + 2)
    (by rw [List.length_append]; omega) scanned (Or.inl object)
  rw [loads, if_neg head, skipWs_append t nonempty, longer]
  have skip : skipWs (rest ++ t) = skipWs t := by
    rw [skipWs, List.dropWhile_append]
    simp only [skipWs] at blank
    rw [if_pos blank]
    rfl
  dsimp only
  rw [skip]

theorem skipWs_pad {pad : Str} (blank : skipWs pad = []) (s : Str) : skipWs (pad ++ s) = skipWs s := by
  rw [skipWs, List.dropWhile_append]
  simp only [skipWs] at blank
  rw [if_pos (by rw [blank]; rfl)]
  rfl

/-- White space around an encoding is ignored. -/
theorem loads_padded {v : Json F} (wf : WF v) {pad t : Str} (before : skipWs pad = []) (after : skipWs t = []) :
    loads (pad ++ (dumps v ++ t)) = some v := by
  obtain ⟨c, rest, head, start⟩ := dumps_head v
  have noMark : (pad ++ (dumps v ++ t)).head? ≠ some byteOrderMark := by
    cases pad with
    | nil =>
      rw [head]
      rintro same
      cases same
      revert start
      decide
    | cons d pad =>
      have ws : isWs d = true := by
        cases hd : isWs d with
        | true => rfl
        | false => rw [skipWs_cons hd] at before; cases before
      rintro same
      cases same
      revert ws
      decide
  have stop : StopsAt inNumber t := by
    cases t with
    | nil => exact stopsAt_nil _
    | cons d t =>
      cases hd : isWs d with
      | true => exact stopsAt_cons (isWs_notInNumber hd)
      | false => rw [skipWs_cons hd] at after; cases after
  have read := scanOnce_dumps wf (n := 2 * (pad ++ (dumps v ++ t)).length + 2)
    (by simp only [List.length_append]; omega) (Or.inr stop)
  rw [loads, if_neg noMark, skipWs_pad before, skipWs_dumps, read]
  simp only [after, List.isEmpty_nil, if_true]

theorem scanOnce_head {n : Nat} {s r : Str} {v : Json F} (h : scanOnce n s = some (v, r)) :
    ∃ c rest, s = c :: rest ∧ startsValue c = true := by
  obtain ⟨m, c, rest, -, rfl, route⟩ := scanOnce_iff.mp h
  refine ⟨c, rest, rfl, ?_⟩
  cases route with
  | str head => rw [head]; decide
  | emptyArr head => rw [head]; decide
  | arr head => rw [head]; decide
  | emptyObj head => rw [head]; decide
  | obj head => rw [head]; decide
  | word _ _ _ scanned =>
    rcases Option.or_eq_some_iff.mp scanned with literal | ⟨-, number⟩
    · obtain ⟨word, split, nonempty, mem⟩ := scanLiteral_cases literal
      have starts : ∀ l ∈ (literals : List (Str × Json F)), ∀ d rest, l.1 = d :: rest → startsValue d = true := by
        simp only [literals, Lib.str, List.mem_cons, List.not_mem_nil, or_false]
        rintro _ (rfl | rfl | rfl | rfl | rfl | rfl) _ _ same <;> cases same <;> decide
      cases word with
      | nil => exact (nonempty rfl).elim
      | cons d word =>
        cases split
        exact starts _ mem _ _ rfl
    · obtain ⟨l, lexed, -⟩ := scanNumber_cases number
      obtain ⟨_, _, same, start, -⟩ := lexNumber_head lexed
      cases same
      rw [startsValue, start, Bool.true_or]

/-- A text that decodes starts, after white space, as a value does. -/
theorem loads_head {s : Str} {v : Json F} (h : loads s = some v) :
    ∃ c rest, skipWs s = c :: rest ∧ startsValue c = true := by
  rw [loads] at h
  split at h
  · cases h
  · split at h
    · rename_i scanned
      exact scanOnce_head scanned
    · cases h

/-! ### Fuel -/

theorem scanUnits_shorter {s r : Str} {units : List CharUnit} (h : scanUnits s = some (units, r)) :
    r.length < s.length := by
  induction units generalizing s with
  | nil =>
    rcases scanUnits_cases h with ⟨rfl, -⟩ | ⟨_, _, _, -, -, -, -, no, -⟩ | ⟨_, _, _, _, -, -, -, no, -⟩ |
      ⟨_, _, _, _, _, _, _, -, -, no, -⟩
    · exact Nat.lt_succ_self _
    all_goals cases no
  | cons u units ih =>
    rcases scanUnits_cases h with ⟨-, no⟩ | ⟨c, rest, _, rfl, -, -, -, same, tail⟩ |
      ⟨e, u, rest, _, rfl, -, -, same, tail⟩ | ⟨a, b, c, d, u, rest, _, rfl, -, same, tail⟩
    · cases no
    all_goals cases same; have := ih tail; simp only [List.length_cons]; omega

theorem scanString_shorter {s v r : Str} (h : scanString s = some (v, r)) : r.length < s.length := by
  simp only [scanString, Option.bind_eq_bind, Option.bind_eq_some_iff, Option.pure_def, Option.some.injEq,
    Prod.mk.injEq] at h
  obtain ⟨⟨units, rest⟩, scanned, rfl, rfl⟩ := h
  exact scanUnits_shorter scanned

theorem skipWs_length (s : Str) : (skipWs s).length ≤ s.length := (List.dropWhile_sublist _).length_le

theorem expect_length {c : CodePoint} {s r : Str} (h : expect c s = some r) : s.length = r.length + 1 := by
  rw [expect_eq_some.mp h, List.length_cons]

theorem ContinuesTo.enough {α : Type} {close : CodePoint} {more : Str → Option (List α × Str)} {a : α} {s r : Str}
    {all : List α} (h : ContinuesTo close more a s all r) (more' : Str → Option (List α × Str))
    (shorter : ∀ {s r : Str} {l : List α}, more s = some (l, r) → r.length < s.length)
    (lift : ∀ {s' r : Str} {l : List α}, s'.length < s.length → more s' = some (l, r) → more' s' = some (l, r)) :
    r.length < s.length ∧ ContinuesTo close more' a s all r := by
  have skip := skipWs_length s
  cases h with
  | last closed same =>
    have := expect_length closed
    exact ⟨by omega, .last closed same⟩
  | @next s' rest open' comma scanned same =>
    have comma' := expect_length comma
    have inner := skipWs_length s'
    have := shorter scanned
    exact ⟨by omega, .next open' comma (lift (by omega) scanned) same⟩

/-- Fuel for two steps a character is enough: what any fuel yields, that much yields. -/
theorem scan_enough (n : Nat) :
    (∀ {s r : Str} {v : Json F}, scanOnce n s = some (v, r) →
      r.length < s.length ∧ ∀ m, 2 * s.length + 1 ≤ m → scanOnce m s = some (v, r)) ∧
    (∀ {s r : Str} {items : List (Json F)}, scanItems n s = some (items, r) →
      r.length < s.length ∧ ∀ m, 2 * s.length + 2 ≤ m → scanItems m s = some (items, r)) ∧
    (∀ {s r : Str} {fields : List (Str × Json F)}, scanFields n s = some (fields, r) →
      r.length < s.length ∧ ∀ m, 2 * s.length + 2 ≤ m → scanFields m s = some (fields, r)) := by
  induction n with
  | zero => exact ⟨fun h => by simp [scanOnce] at h, fun h => by simp [scanItems] at h, fun h => by
      simp [scanFields] at h⟩
  | succ n ih =>
    obtain ⟨onceIh, itemsIh, fieldsIh⟩ := ih
    refine ⟨fun {s r v} h => ?_, fun {s r items} h => ?_, fun {s r fields} h => ?_⟩
    · obtain ⟨_, c, rest, fuel, rfl, route⟩ := scanOnce_iff.mp h
      cases fuel
      have skip := skipWs_length rest
      have build (shorter : r.length < (c :: rest).length)
          (route : ∀ m, 2 * rest.length + 2 ≤ m → ScansTo m c rest v r) :
          r.length < (c :: rest).length ∧
            ∀ m, 2 * (c :: rest).length + 1 ≤ m → scanOnce m (c :: rest) = some (v, r) := by
        refine ⟨shorter, fun m enough => ?_⟩
        rw [List.length_cons] at enough
        obtain ⟨m, rfl⟩ : ∃ k, m = k + 1 := ⟨m - 1, by omega⟩
        exact scanOnce_iff.mpr ⟨m, c, rest, rfl, rfl, route m (by omega)⟩
      rw [List.length_cons] at build
      cases route with
      | str string scanned same =>
        have := scanString_shorter scanned
        exact build (by omega) fun m _ => .str string scanned same
      | emptyArr array closed same =>
        have := expect_length closed
        exact build (by omega) fun m _ => .emptyArr array closed same
      | arr array open' scanned same =>
        obtain ⟨shorter, enough⟩ := itemsIh scanned
        exact build (by omega) fun m fuel => .arr array open' (enough m (by omega)) same
      | emptyObj object closed same =>
        have := expect_length closed
        exact build (by omega) fun m _ => .emptyObj object closed same
      | obj object open' scanned same =>
        obtain ⟨shorter, enough⟩ := fieldsIh scanned
        exact build (by omega) fun m fuel => .obj object open' (enough m (by omega)) same
      | word notString notArray notObject scanned =>
        obtain ⟨-, word, split, nonempty⟩ := scanWord_split scanned
        have total := congrArg List.length split
        have positive := List.length_pos_of_ne_nil nonempty
        rw [List.length_cons, List.length_append] at total
        exact build (by omega) fun m _ => .word notString notArray notObject scanned
    · obtain ⟨_, v, s', fuel, scanned, tail⟩ := scanItems_iff.mp h
      cases fuel
      obtain ⟨shorter, enough⟩ := onceIh scanned
      have lifted (m : Nat) (fuel : 2 * s.length + 1 ≤ m) := tail.enough (scanItems m)
        (fun h => (itemsIh h).1) (fun less h => (itemsIh h).2 m (by omega))
      refine ⟨by have := (lifted _ (le_refl _)).1; omega, fun m fuel => ?_⟩
      obtain ⟨m, rfl⟩ : ∃ k, m = k + 1 := ⟨m - 1, by omega⟩
      exact scanItems_iff.mpr ⟨m, v, s', rfl, enough m (by omega), (lifted m (by omega)).2⟩
    · obtain ⟨_, k, v, s₁, s₂, s₃, s₄, fuel, quote, string, colon, scanned, tail⟩ := scanFields_iff.mp h
      cases fuel
      obtain ⟨shorter, enough⟩ := onceIh scanned
      have key := expect_length quote
      have afterKey := scanString_shorter string
      have atColon := expect_length colon
      have skips := And.intro (skipWs_length s₂) (skipWs_length s₃)
      have lifted (m : Nat) (fuel : 2 * s.length + 1 ≤ m) := tail.enough (scanFields m)
        (fun h => (fieldsIh h).1) (fun less h => (fieldsIh h).2 m (by omega))
      refine ⟨by have := (lifted _ (le_refl _)).1; omega, fun m fuel => ?_⟩
      obtain ⟨m, rfl⟩ : ∃ k, m = k + 1 := ⟨m - 1, by omega⟩
      exact scanFields_iff.mpr ⟨m, k, v, s₁, s₂, s₃, s₄, rfl, quote, string, colon, enough m (by omega),
        (lifted m (by omega)).2⟩

/-- The fuel of `loads` is never its limit. -/
theorem loads_fuel {n : Nat} {s : Str} {p : Json F × Str} (h : scanOnce n (skipWs s) = some p) :
    scanOnce (2 * s.length + 2) (skipWs s) = some p := by
  have := skipWs_length s
  exact ((scan_enough n).1 h).2 _ (by omega)

end Lib.Json
