import ModelGuard.Lib.Json
import Mathlib.Tactic.IntervalCases

/-!
# Numbers and strings of JSON text

Each lexer reads back what the encoder writes, and reads the same from a longer text as long as
what follows cannot continue the token.
-/

namespace Lib.Json

/-! ### Tokens and what follows them -/

/-- The text does not start with a character in `p`. -/
def StopsAt (p : CodePoint → Bool) (s : Str) : Prop := ∀ c rest, s = c :: rest → p c = false

def inFraction (c : CodePoint) : Bool := isDigit c || c == cp '.'

def inNumber (c : CodePoint) : Bool := inFraction c || c == cp 'e' || c == cp 'E'

theorem stopsAt_nil (p : CodePoint → Bool) : StopsAt p [] := fun _ _ h => by cases h

theorem stopsAt_cons {p : CodePoint → Bool} {c : CodePoint} {s : Str} (h : p c = false) : StopsAt p (c :: s) :=
  fun _ _ e => by cases e; exact h

theorem StopsAt.head {p : CodePoint → Bool} {c : CodePoint} {s : Str} (h : StopsAt p (c :: s)) : p c = false :=
  h c s rfl

theorem StopsAt.mono {p q : CodePoint → Bool} {s : Str} (h : StopsAt p s) (le : ∀ c, q c = true → p c = true) :
    StopsAt q s := fun c rest e => by
  have := h c rest e
  cases hq : q c
  · rfl
  · rw [le c hq] at this
    cases this

theorem inFraction_le_inNumber (c : CodePoint) (h : inFraction c = true) : inNumber c = true := by
  simp [inNumber, h]

theorem isDigit_le_inFraction (c : CodePoint) (h : isDigit c = true) : inFraction c = true := by
  simp [inFraction, h]

theorem takeWhile_append {p : CodePoint → Bool} {s t : Str} (h : StopsAt p (s.dropWhile p ++ t)) :
    (s ++ t).takeWhile p = s.takeWhile p ∧ (s ++ t).dropWhile p = s.dropWhile p ++ t := by
  induction s with
  | nil =>
    cases t with
    | nil => exact ⟨rfl, rfl⟩
    | cons c t => simp [h.head]
  | cons c s ih =>
    cases hc : p c with
    | true =>
      obtain ⟨take, drop⟩ := ih (by simpa [List.dropWhile_cons, hc] using h)
      simp [hc, take, drop]
    | false => simp [hc]

theorem takeWhile_all {p : CodePoint → Bool} {s t : Str} (all : ∀ c ∈ s, p c = true) (h : StopsAt p t) :
    (s ++ t).takeWhile p = s ∧ (s ++ t).dropWhile p = t := by
  have drop : s.dropWhile p = [] := List.dropWhile_eq_nil_iff.mpr all
  have take : s.takeWhile p = s := List.takeWhile_eq_self_iff.mpr all
  simpa [drop, take] using takeWhile_append (p := p) (s := s) (t := t) (by simpa [drop] using h)

/-! ### Numbers over a longer text -/

theorem lexInt_append {s t d r : Str} (h : lexInt s = some (d, r)) (stop : StopsAt isDigit (r ++ t)) :
    lexInt (s ++ t) = some (d, r ++ t) := by
  cases s with
  | nil => cases h
  | cons c s =>
    simp only [lexInt, List.cons_append] at h ⊢
    split at h
    · rename_i zero
      cases h
      rw [if_pos zero]
    · rename_i nonzero
      rw [if_neg nonzero]
      split at h
      · rename_i digit
        cases h
        obtain ⟨take, drop⟩ := takeWhile_append stop
        rw [if_pos digit, take, drop]
      · cases h

theorem lexFraction_append {s t f r : Str} (h : lexFraction s = (f, r)) (stop : StopsAt inFraction (r ++ t)) :
    lexFraction (s ++ t) = (f, r ++ t) := by
  match s, h with
  | [], h =>
    cases h
    match t, stop with
    | [], _ => rfl
    | [c], _ => rfl
    | c :: d :: t, stop =>
      have point : c ≠ cp '.' := by
        have := stop.head
        simp only [inFraction, Bool.or_eq_false_iff, beq_eq_false_iff_ne] at this
        exact this.2
      simp [lexFraction, point]
  | [c], h =>
    cases h
    have point : c ≠ cp '.' := by
      have := stop.head
      simp only [inFraction, Bool.or_eq_false_iff, beq_eq_false_iff_ne] at this
      exact this.2
    cases t <;> simp [lexFraction, point]
  | c :: d :: s, h =>
    simp only [lexFraction, List.cons_append] at h ⊢
    split at h
    · rename_i fraction
      cases h
      obtain ⟨take, drop⟩ := takeWhile_append (stop.mono isDigit_le_inFraction)
      rw [if_pos fraction, take, drop]
    · rename_i plain
      cases h
      rw [if_neg plain]
      rfl

theorem inNumber_mark {c : CodePoint} (h : inNumber c = false) : ¬(c = cp 'e' ∨ c = cp 'E') := by
  simp only [inNumber, Bool.or_eq_false_iff, beq_eq_false_iff_ne] at h
  exact fun mark => mark.elim h.1.2 h.2

theorem lexExponent_append {s t x r : Str} (h : lexExponent s = (x, r)) (stop : StopsAt inNumber (r ++ t)) :
    lexExponent (s ++ t) = (x, r ++ t) := by
  have digits {u : Str} (stop : StopsAt inNumber (u.dropWhile isDigit ++ t)) :=
    takeWhile_append (stop.mono fun c hc => inFraction_le_inNumber c (isDigit_le_inFraction c hc))
  match s, h with
  | [], h =>
    cases h
    match t, stop with
    | [], _ => rfl
    | [c], _ => rfl
    | c :: d :: t, stop => simp only [List.nil_append, lexExponent, if_neg (inNumber_mark stop.head)]
  | [c], h =>
    cases h
    cases t with
    | nil => rfl
    | cons d t => simp only [List.cons_append, List.nil_append, lexExponent, if_neg (inNumber_mark stop.head)]
  | e :: d :: s, h =>
    simp only [lexExponent, List.cons_append] at h ⊢
    split at h
    case isFalse mark =>
      cases h
      rw [if_neg mark]
      rfl
    case isTrue mark =>
      rw [if_pos mark]
      -- A mark that starts no exponent is left in the rest, which cannot start with one.
      have stuck : r = e :: d :: s → False := fun same => inNumber_mark (by rw [same] at stop; exact stop.head) mark
      split at h
      · rename_i digit
        cases h
        rw [if_pos digit, (digits stop).1, (digits stop).2]
      · rename_i sign
        rw [if_neg sign]
        cases s with
        | nil => cases h; exact (stuck rfl).elim
        | cons d' s =>
          simp only [List.cons_append] at h ⊢
          split at h
          · rename_i signed
            cases h
            rw [if_pos signed, (digits stop).1, (digits stop).2]
          · cases h
            exact (stuck rfl).elim

theorem lexExponent_head {s x r : Str} (h : lexExponent s = (x, r)) :
    s = r ∨ ∃ c rest, s = c :: rest ∧ (c = cp 'e' ∨ c = cp 'E') := by
  match s, h with
  | [], h => cases h; exact Or.inl rfl
  | [c], h => cases h; exact Or.inl rfl
  | e :: d :: s, h =>
    by_cases mark : e = cp 'e' ∨ e = cp 'E'
    · exact Or.inr ⟨e, d :: s, rfl, mark⟩
    · simp only [lexExponent, if_neg mark] at h
      cases h
      exact Or.inl rfl

theorem lexFraction_head {s f r : Str} (h : lexFraction s = (f, r)) : s = r ∨ ∃ rest, s = cp '.' :: rest := by
  match s, h with
  | [], h => cases h; exact Or.inl rfl
  | [c], h => cases h; exact Or.inl rfl
  | p :: d :: s, h =>
    by_cases point : p = cp '.'
    · exact Or.inr ⟨d :: s, by rw [point]⟩
    · simp only [lexFraction, point, false_and, if_false] at h
      cases h
      exact Or.inl rfl

theorem lexNumber_append {s t r : Str} {l : NumberLexeme} (h : lexNumber s = some (l, r))
    (stop : StopsAt inNumber (r ++ t)) : lexNumber (s ++ t) = some (l, r ++ t) := by
  simp only [lexNumber, Option.bind_eq_bind, Option.bind_eq_some_iff, Option.pure_def, Option.some.injEq,
    Prod.mk.injEq] at h
  obtain ⟨⟨d, b⟩, hint, hl, hr⟩ := h
  have exponent := lexExponent_append (t := t) (s := (lexFraction b).2) (Prod.mk.eta.symm) (by rw [hr]; exact stop)
  have fractionStop : StopsAt inFraction ((lexFraction b).2 ++ t) := by
    rcases lexExponent_head (s := (lexFraction b).2) Prod.mk.eta.symm with same | ⟨c, rest, same, mark⟩
    · rw [same, hr]
      exact stop.mono inFraction_le_inNumber
    · rw [same]
      refine stopsAt_cons ?_
      rcases mark with rfl | rfl <;> decide
  have fraction := lexFraction_append (t := t) (s := b) Prod.mk.eta.symm fractionStop
  have intStop : StopsAt isDigit (b ++ t) := by
    rcases lexFraction_head (s := b) Prod.mk.eta.symm with same | ⟨rest, same⟩
    · rw [same]
      exact fractionStop.mono isDigit_le_inFraction
    · rw [same]
      exact stopsAt_cons (by decide)
  have int := lexInt_append (t := t) hint intStop
  have sign : lexSign (s ++ t) = ((lexSign s).1, (lexSign s).2 ++ t) := by
    cases s with
    | nil => cases hint
    | cons c s =>
      simp only [lexSign, List.cons_append]
      split <;> rfl
  simp only [lexNumber, Option.bind_eq_bind, sign, int, Option.bind_some, fraction, exponent, Option.pure_def, hr, hl]

/-! ### Integers -/

theorem digitChar_isDigit {c : Char} (h : c.isDigit = true) : isDigit (cp c) = true := by
  simp only [Char.isDigit, Bool.and_eq_true, decide_eq_true_eq, UInt32.le_iff_toNat_le] at h
  exact Bool.and_eq_true_iff.mpr ⟨decide_eq_true h.1, decide_eq_true h.2⟩

theorem natText_digits (n : Nat) : ∀ c ∈ natText n, isDigit c = true := by
  intro c hc
  obtain ⟨d, hd, rfl⟩ := List.mem_map.mp hc
  exact digitChar_isDigit (Nat.isDigit_of_mem_toDigits (by decide) (by decide) hd)

theorem digitsValue_natText (n : Nat) : digitsValue (natText n) = n := by
  have value : ∀ (l : List Char) (start : Nat),
      (l.map cp).foldl (fun n c => 10 * n + (c.val - 0x30)) start = Nat.ofDigitChars 10 l start := by
    intro l
    induction l with
    | nil => intro start; rfl
    | cons c l ih =>
      intro start
      rw [List.map_cons, List.foldl_cons, ih, Nat.ofDigitChars_cons]
      rfl
  rw [digitsValue, natText, value, Nat.ofDigitChars_ten_toDigits]

/-- A decimal numeral is a single digit, or starts with a digit other than zero. -/
theorem toDigits_head (n : Nat) :
    (n < 10 ∧ Nat.toDigits 10 n = [n.digitChar]) ∨
      ∃ c rest, Nat.toDigits 10 n = c :: rest ∧ c ≠ '0' := by
  induction n using Nat.strong_induction_on with
  | _ n ih =>
    by_cases small : n < 10
    · exact Or.inl ⟨small, Nat.toDigits_of_lt_base small⟩
    · refine Or.inr ?_
      have split := Nat.toDigits_of_base_le (b := 10) (by decide) (Nat.not_lt.mp small)
      rcases ih (n / 10) (by omega) with ⟨less, single⟩ | ⟨c, rest, cons, head⟩
      · refine ⟨(n / 10).digitChar, _, by rw [split, single]; rfl, ?_⟩
        have positive : 0 < n / 10 := by omega
        interval_cases n / 10 <;> decide
      · exact ⟨c, _, by rw [split, cons]; rfl, head⟩

theorem lexInt_natText (n : Nat) {t : Str} (stop : StopsAt isDigit t) :
    lexInt (natText n ++ t) = some (natText n, t) := by
  have digits := natText_digits n
  rcases toDigits_head n with ⟨less, single⟩ | ⟨c, rest, cons, head⟩
  · have text : natText n = [cp n.digitChar] := by rw [natText, single]; rfl
    rw [text] at digits ⊢
    have digit := digits _ List.mem_cons_self
    obtain ⟨take, drop⟩ := takeWhile_all (s := []) (by simp) stop
    rw [List.nil_append] at take drop
    simp only [List.cons_append, List.nil_append, lexInt, digit, if_true, take, drop]
    split <;> rfl
  · have text : natText n = cp c :: rest.map cp := by rw [natText, cons]; rfl
    rw [text] at digits ⊢
    obtain ⟨take, drop⟩ := takeWhile_all (fun d hd => digits d (List.mem_cons_of_mem _ hd)) stop
    simp only [List.cons_append, lexInt, cp_inj, head, if_false, digits _ List.mem_cons_self, if_true, take, drop]

theorem natText_head (n : Nat) : ∃ c rest, natText n = c :: rest ∧ isDigit c = true := by
  have digits := natText_digits n
  cases text : natText n with
  | nil => exact (Nat.toDigits_ne_nil (List.map_eq_nil_iff.mp text)).elim
  | cons c rest => exact ⟨c, rest, rfl, digits c (by rw [text]; exact List.mem_cons_self)⟩

theorem isDigit_ne_minus {c : CodePoint} (h : isDigit c = true) : c ≠ cp '-' := by
  rintro rfl
  revert h
  decide

theorem stopsAt_inNumber_lex {t : Str} (stop : StopsAt inNumber t) :
    lexFraction t = ([], t) ∧ lexExponent t = ([], t) :=
  ⟨by simpa using lexFraction_append (s := []) rfl (stop.mono inFraction_le_inNumber),
    by simpa using lexExponent_append (s := []) rfl stop⟩

theorem lexNumber_intText (n : Int) {t : Str} (stop : StopsAt inNumber t) :
    lexNumber (intText n ++ t) = some (⟨intText n, false⟩, t) := by
  obtain ⟨fraction, exponent⟩ := stopsAt_inNumber_lex stop
  have digits := lexInt_natText n.natAbs
    (stop.mono fun c hc => inFraction_le_inNumber c (isDigit_le_inFraction c hc))
  have body (sign : Str) (sep : lexSign (sign ++ natText n.natAbs ++ t) = (sign, natText n.natAbs ++ t)) :
      lexNumber (sign ++ natText n.natAbs ++ t) = some (⟨sign ++ natText n.natAbs, false⟩, t) := by
    simp only [lexNumber, sep, Option.bind_eq_bind, digits, Option.bind_some, fraction, exponent, Option.pure_def,
      List.append_nil, List.isEmpty_nil, Bool.not_true]
  rw [intText]
  split
  · exact body [cp '-'] rfl
  · obtain ⟨c, rest, text, digit⟩ := natText_head n.natAbs
    exact body [] (by simp [text, lexSign, isDigit_ne_minus digit])

theorem intValue_intText (n : Int) : intValue (intText n) = n := by
  rw [intText]
  split
  · simp only [intValue, if_true, digitsValue_natText]
    omega
  · obtain ⟨c, rest, text, digit⟩ := natText_head n.natAbs
    have value := digitsValue_natText n.natAbs
    rw [text] at value
    simp only [text, intValue, if_neg (isDigit_ne_minus digit), value]
    omega

/-! ### Strings -/

/-- No high surrogate directly before a low one: the decoder never yields such a pair. -/
def Joined (s : Str) : Prop := s.IsChain fun a b => (isHighSurrogate a && isLowSurrogate b) = false

/-- What the decoder sees of one encoded character. -/
def unitsOf (c : CodePoint) : List CharUnit :=
  match shortEscapes.lookup c with
  | some _ => [.plain c]
  | none =>
    if 0x20 ≤ c.val ∧ c.val ≤ 0x7e then [.plain c]
    else if c.val < 0x10000 then [.escaped c]
    else [.escaped (highSurrogate c), .escaped (lowSurrogate c)]

theorem hexValue_hexDigit (d : Nat) (h : d < 16) : hexValue (hexDigit d) = some d := by
  interval_cases d <;> decide

theorem hexUnit_hexDigits (n : Nat) (h : n < 0x10000) :
    hexUnit (hexDigit (n / 4096 % 16)) (hexDigit (n / 256 % 16)) (hexDigit (n / 16 % 16)) (hexDigit (n % 16)) =
      some (Fin.ofNat _ n) := by
  have value : (n / 4096 % 16 * 4096 + n / 256 % 16 * 256 + n / 16 % 16 * 16 + n % 16) % 65536 = n := by omega
  simp only [hexUnit, hexValue_hexDigit _ (Nat.mod_lt _ (by decide : 0 < 16)), Option.bind_eq_bind, Option.bind_some,
    Option.pure_def, value]

theorem ofNat_val (c : CodePoint) : (Fin.ofNat 0x110000 c.val : CodePoint) = c :=
  Fin.ext (Nat.mod_eq_of_lt c.isLt)

/-! One lemma for each kind of character in a literal. -/

theorem quote_ne_backslash : ¬cp '\\' = cp '"' := by decide

theorem scanUnits_close (r : Str) : scanUnits (cp '"' :: r) = some ([], r) := by
  rw [scanUnits.eq_def]
  exact if_pos rfl

theorem scanUnits_plain {c : CodePoint} (quote : c ≠ cp '"') (backslash : c ≠ cp '\\') (printable : ¬c.val < 0x20)
    (r : Str) : scanUnits (c :: r) = (scanUnits r).map fun p => (.plain c :: p.1, p.2) := by
  rw [scanUnits.eq_def]
  simp only [if_neg quote, if_neg backslash, if_neg printable, Option.bind_eq_bind, Option.pure_def]
  cases scanUnits r <;> rfl

theorem scanUnits_letter {e u : CodePoint} (notHex : e ≠ cp 'u') (h : shortEscape e = some u) (r : Str) :
    scanUnits (cp '\\' :: e :: r) = (scanUnits r).map fun p => (.plain u :: p.1, p.2) := by
  rw [scanUnits.eq_def]
  simp only [if_neg quote_ne_backslash, if_true, if_neg notHex, h, Option.bind_eq_bind, Option.bind_some,
    Option.pure_def]
  cases scanUnits r <;> rfl

theorem scanUnits_hex {a b c d u : CodePoint} (h : hexUnit a b c d = some u) (r : Str) :
    scanUnits (cp '\\' :: cp 'u' :: a :: b :: c :: d :: r) =
      (scanUnits r).map fun p => (.escaped u :: p.1, p.2) := by
  rw [scanUnits.eq_def]
  simp only [if_neg quote_ne_backslash, if_true, h, Option.bind_eq_bind, Option.bind_some, Option.pure_def]
  cases scanUnits r <;> rfl

/-- What a literal that scans starts with. -/
theorem scanUnits_cases {s r : Str} {units : List CharUnit} (h : scanUnits s = some (units, r)) :
    (s = cp '"' :: r ∧ units = []) ∨
      (∃ c rest units', s = c :: rest ∧ c ≠ cp '"' ∧ c ≠ cp '\\' ∧ ¬c.val < 0x20 ∧
        units = .plain c :: units' ∧ scanUnits rest = some (units', r)) ∨
      (∃ e u rest units', s = cp '\\' :: e :: rest ∧ e ≠ cp 'u' ∧ shortEscape e = some u ∧
        units = .plain u :: units' ∧ scanUnits rest = some (units', r)) ∨
      (∃ a b c d u rest units', s = cp '\\' :: cp 'u' :: a :: b :: c :: d :: rest ∧ hexUnit a b c d = some u ∧
        units = .escaped u :: units' ∧ scanUnits rest = some (units', r)) := by
  rw [scanUnits.eq_def] at h
  split at h
  · cases h
  · rename_i c rest
    split at h
    case isTrue quote => cases h; exact Or.inl ⟨by rw [quote], rfl⟩
    case isFalse quote =>
      refine Or.inr ?_
      split at h
      case isTrue backslash =>
        subst backslash
        refine Or.inr ?_
        split at h
        · cases h
        · rename_i e rest
          split at h
          case isTrue hex =>
            subst hex
            split at h
            · rename_i a b c d rest
              simp only [Option.bind_eq_bind, Option.bind_eq_some_iff, Option.pure_def, Option.some.injEq,
                Prod.mk.injEq] at h
              obtain ⟨u, unit, ⟨units', rest'⟩, tail, rfl, rfl⟩ := h
              exact Or.inr ⟨a, b, c, d, u, rest, units', rfl, unit, rfl, tail⟩
            · cases h
          case isFalse notHex =>
            simp only [Option.bind_eq_bind, Option.bind_eq_some_iff, Option.pure_def, Option.some.injEq,
              Prod.mk.injEq] at h
            obtain ⟨u, unit, ⟨units', rest'⟩, tail, rfl, rfl⟩ := h
            exact Or.inl ⟨e, u, rest, units', rfl, notHex, unit, rfl, tail⟩
      case isFalse backslash =>
        split at h
        · cases h
        · rename_i printable
          simp only [Option.bind_eq_bind, Option.bind_eq_some_iff, Option.pure_def, Option.some.injEq,
            Prod.mk.injEq] at h
          obtain ⟨⟨units', rest'⟩, tail, rfl, rfl⟩ := h
          exact Or.inl ⟨c, rest, units', rfl, quote, backslash, printable, rfl, tail⟩

theorem scanUnits_append {s t r : Str} {units : List CharUnit} (h : scanUnits s = some (units, r)) :
    scanUnits (s ++ t) = some (units, r ++ t) := by
  induction units generalizing s with
  | nil =>
    rcases scanUnits_cases h with ⟨rfl, -⟩ | ⟨_, _, _, -, -, -, -, no, -⟩ | ⟨_, _, _, _, -, -, -, no, -⟩ |
      ⟨_, _, _, _, _, _, _, -, -, no, -⟩
    · exact scanUnits_close _
    all_goals cases no
  | cons u units ih =>
    rcases scanUnits_cases h with ⟨-, no⟩ | ⟨c, rest, _, rfl, quote, backslash, printable, same, tail⟩ |
      ⟨e, u, rest, _, rfl, notHex, unit, same, tail⟩ | ⟨a, b, c, d, u, rest, _, rfl, unit, same, tail⟩
    · cases no
    all_goals cases same; simp only [List.cons_append]
    · rw [scanUnits_plain quote backslash printable, ih tail]; rfl
    · rw [scanUnits_letter notHex unit, ih tail]; rfl
    · rw [scanUnits_hex unit, ih tail]; rfl

theorem scanUnits_escapeUnit (c : CodePoint) (h : c.val < 0x10000) (r : Str) :
    scanUnits (escapeUnit c.val ++ r) = (scanUnits r).map fun p => (.escaped c :: p.1, p.2) :=
  scanUnits_hex (by rw [hexUnit_hexDigits _ h, ofNat_val]) r

theorem scanUnits_short {c e : CodePoint} (h : shortEscapes.lookup c = some e) (r : Str) :
    scanUnits (cp '\\' :: e :: r) = (scanUnits r).map fun p => (.plain c :: p.1, p.2) := by
  have member : (c, e) ∈ shortEscapes := by
    obtain ⟨before, after, split, _⟩ := List.lookup_eq_some_iff.mp h
    exact split ▸ by simp
  have reads : e ≠ cp 'u' ∧ shortEscape e = some c := by
    revert member
    simp only [shortEscapes, List.mem_cons, Prod.mk.injEq, List.not_mem_nil, or_false]
    rintro (⟨rfl, rfl⟩ | ⟨rfl, rfl⟩ | ⟨rfl, rfl⟩ | ⟨rfl, rfl⟩ | ⟨rfl, rfl⟩ | ⟨rfl, rfl⟩ | ⟨rfl, rfl⟩) <;> decide
  exact scanUnits_letter reads.1 reads.2 r

theorem surrogates_split (c : CodePoint) (h : 0x10000 ≤ c.val) :
    (highSurrogate c).val = 0xd800 + (c.val - 0x10000) / 0x400 ∧
      (lowSurrogate c).val = 0xdc00 + (c.val - 0x10000) % 0x400 := by
  have := c.isLt
  constructor
  · show (0xd800 + (c.val - 0x10000) / 0x400 % 0x400) % 0x110000 = _
    omega
  · show (0xdc00 + (c.val - 0x10000) % 0x400) % 0x110000 = _
    omega

theorem scanUnits_escapeChar (c : CodePoint) (r : Str) :
    scanUnits (escapeChar c ++ r) = (scanUnits r).map fun p => (unitsOf c ++ p.1, p.2) := by
  unfold escapeChar unitsOf
  cases short : shortEscapes.lookup c with
  | some e => exact scanUnits_short short r
  | none =>
    have unescaped : c ≠ cp '"' ∧ c ≠ cp '\\' := by
      constructor <;> rintro rfl <;> revert short <;> decide
    dsimp only
    split
    case isTrue printable =>
      exact scanUnits_plain unescaped.1 unescaped.2 (Nat.not_lt.mpr printable.1) r
    case isFalse =>
      split
      case isTrue basic => exact scanUnits_escapeUnit c basic r
      case isFalse astral =>
        obtain ⟨high, low⟩ := surrogates_split c (Nat.not_lt.mp astral)
        have := c.isLt
        rw [List.append_assoc, scanUnits_escapeUnit _ (by omega), scanUnits_escapeUnit _ (by omega)]
        cases scanUnits r <;> rfl

theorem scanUnits_escaped (s r : Str) :
    scanUnits (s.flatMap escapeChar ++ cp '"' :: r) = some (s.flatMap unitsOf, r) := by
  induction s with
  | nil => exact scanUnits_close r
  | cons c s ih => rw [List.flatMap_cons, List.append_assoc, scanUnits_escapeChar, ih, List.flatMap_cons]; rfl

/-- The units of a string start with a low surrogate escape only if the string does. -/
theorem units_head_low {s : Str} {l : CodePoint} {units : List CharUnit}
    (h : s.flatMap unitsOf = .escaped l :: units) (low : isLowSurrogate l = true) : s.head? = some l := by
  cases s with
  | nil => cases h
  | cons c s =>
    rw [List.flatMap_cons, unitsOf] at h
    split at h
    · cases h
    · split at h
      · cases h
      · split at h
        · cases h
          rfl
        · rename_i astral
          cases h
          have := c.isLt
          obtain ⟨high, -⟩ := surrogates_split c (Nat.not_lt.mp astral)
          simp only [isLowSurrogate, Bool.and_eq_true, decide_eq_true_eq] at low
          omega

theorem joinPairs_escaped {c : CodePoint} {units : List CharUnit}
    (h : ∀ l rest, units = .escaped l :: rest → (isHighSurrogate c && isLowSurrogate l) = false) :
    joinPairs (.escaped c :: units) = c :: joinPairs units := by
  match units with
  | [] => rfl
  | .plain d :: rest => rw [joinPairs, joinPairs]
  | .escaped l :: rest => simp only [joinPairs, h l rest rfl, Bool.false_eq_true, if_false]

theorem joinPair_surrogates (c : CodePoint) (h : 0x10000 ≤ c.val) :
    (isHighSurrogate (highSurrogate c) && isLowSurrogate (lowSurrogate c)) = true ∧
      joinPair (highSurrogate c) (lowSurrogate c) = c := by
  have := c.isLt
  obtain ⟨high, low⟩ := surrogates_split c h
  constructor
  · simp only [isHighSurrogate, isLowSurrogate, high, low, Bool.and_eq_true, decide_eq_true_eq]
    omega
  · apply Fin.ext
    show (0x10000 + ((highSurrogate c).val - 0xd800) * 0x400 + ((lowSurrogate c).val - 0xdc00)) % 0x110000 = _
    omega

theorem joinPairs_units {s : Str} (h : Joined s) : joinPairs (s.flatMap unitsOf) = s := by
  induction s with
  | nil => rfl
  | cons c s ih =>
    have tail : joinPairs (s.flatMap unitsOf) = s := ih h.of_cons
    rw [List.flatMap_cons, unitsOf]
    split
    · rw [List.singleton_append, joinPairs, tail]
    · split
      · rw [List.singleton_append, joinPairs, tail]
      · split
        · rw [List.singleton_append, joinPairs_escaped, tail]
          intro l rest starts
          cases low : isLowSurrogate l
          · simp
          · obtain ⟨rest', rfl⟩ : ∃ rest', s = l :: rest' := by
              have head := units_head_low starts low
              cases s with
              | nil => cases head
              | cons d s => cases head; exact ⟨s, rfl⟩
            have apart := (List.isChain_cons_cons.mp h).1
            rwa [low] at apart
        · rename_i astral
          obtain ⟨pair, joined⟩ := joinPair_surrogates c (Nat.not_lt.mp astral)
          simp only [List.cons_append, List.nil_append, joinPairs, pair, if_true, joined, tail]

/-- The decoder reads back what the encoder quotes. -/
theorem scanString_quote {s : Str} (h : Joined s) (r : Str) :
    ∃ body, quote s ++ r = cp '"' :: body ∧ scanString body = some (s, r) := by
  refine ⟨s.flatMap escapeChar ++ cp '"' :: r, by simp [quote], ?_⟩
  simp only [scanString, scanUnits_escaped, Option.bind_eq_bind, Option.bind_some, Option.pure_def, joinPairs_units h]

theorem scanString_append {s t r v : Str} (h : scanString s = some (v, r)) :
    scanString (s ++ t) = some (v, r ++ t) := by
  simp only [scanString, Option.bind_eq_bind, Option.bind_eq_some_iff, Option.pure_def, Option.some.injEq,
    Prod.mk.injEq] at h ⊢
  obtain ⟨⟨units, rest⟩, scanned, rfl, rfl⟩ := h
  exact ⟨_, scanUnits_append scanned, rfl, rfl⟩

/-! ### Decoded strings -/

/-- No character between escapes is a surrogate, as in text that was read from a file. -/
def CharUnit.Clean : CharUnit → Prop
  | .plain c => isSurrogate c = false
  | .escaped _ => True

theorem surrogate_of_high {c : CodePoint} (h : isSurrogate c = false) : isHighSurrogate c = false := by
  simp only [isSurrogate, isHighSurrogate, Bool.and_eq_false_iff, decide_eq_false_iff_not] at h ⊢
  omega

theorem surrogate_of_low {c : CodePoint} (h : isSurrogate c = false) : isLowSurrogate c = false := by
  simp only [isSurrogate, isLowSurrogate, Bool.and_eq_false_iff, decide_eq_false_iff_not] at h ⊢
  omega

theorem joined_cons {c : CodePoint} {s : Str}
    (apart : ∀ d rest, s = d :: rest → (isHighSurrogate c && isLowSurrogate d) = false) (h : Joined s) :
    Joined (c :: s) := by
  cases s with
  | nil => exact List.IsChain.singleton c
  | cons d s => exact List.isChain_cons_cons.mpr ⟨apart d s rfl, h⟩

theorem joined_of_scalars {s : Str} (h : Scalars s) : Joined s := by
  induction s with
  | nil => exact List.IsChain.nil
  | cons c s ih =>
    obtain ⟨head, tail⟩ := scalars_cons.mp h
    exact joined_cons (fun _ _ _ => by rw [surrogate_of_high head, Bool.false_and]) (ih tail)

theorem joinPair_clean {h l : CodePoint} (pair : (isHighSurrogate h && isLowSurrogate l) = true) :
    isSurrogate (joinPair h l) = false := by
  simp only [isHighSurrogate, isLowSurrogate, Bool.and_eq_true, decide_eq_true_eq] at pair
  have value : (joinPair h l).val = (0x10000 + (h.val - 0xd800) * 0x400 + (l.val - 0xdc00)) % 0x110000 := rfl
  simp only [isSurrogate, Bool.and_eq_false_iff, decide_eq_false_iff_not]
  omega

/-- A low surrogate at the head of the result comes from an escape at the head of the units. -/
theorem joinPairs_head_low {units : List CharUnit} (clean : ∀ u ∈ units, u.Clean) {c : CodePoint} {rest : Str}
    (h : joinPairs units = c :: rest) (low : isLowSurrogate c = true) : ∃ us, units = .escaped c :: us := by
  have notClean {d : CodePoint} (clear : isSurrogate d = false) (same : d = c) : False := by
    rw [← same, surrogate_of_low clear] at low
    cases low
  match units with
  | [] => cases h
  | .plain d :: us =>
    rw [joinPairs] at h
    exact (notClean (clean _ List.mem_cons_self) (List.cons.inj h).1).elim
  | [.escaped d] => exact ⟨[], by rw [(List.cons.inj h).1]⟩
  | .escaped d :: .plain e :: us => exact ⟨.plain e :: us, by rw [(List.cons.inj h).1]⟩
  | .escaped d :: .escaped e :: us =>
    rw [joinPairs] at h
    split at h
    · rename_i pair
      exact (notClean (joinPair_clean pair) (List.cons.inj h).1).elim
    · exact ⟨.escaped e :: us, by rw [(List.cons.inj h).1]⟩

theorem joinPairs_joined {units : List CharUnit} (clean : ∀ u ∈ units, u.Clean) : Joined (joinPairs units) := by
  induction units using joinPairs.induct with
  | case1 => exact List.IsChain.nil
  | case2 c rest ih =>
    rw [joinPairs]
    refine joined_cons (fun _ _ _ => ?_) (ih fun u hu => clean u (List.mem_cons_of_mem _ hu))
    rw [surrogate_of_high (clean _ List.mem_cons_self), Bool.false_and]
  | case3 c => exact List.IsChain.singleton c
  | case4 h c rest ih =>
    have clear : isSurrogate c = false := clean (.plain c) (by simp)
    refine joined_cons (fun d _ same => ?_) (joined_cons (fun _ _ _ => ?_) (ih fun u hu => clean u (by simp [hu])))
    · cases same
      rw [surrogate_of_low clear, Bool.and_false]
    · rw [surrogate_of_high clear, Bool.false_and]
  | case5 h l rest pair ih =>
    rw [joinPairs, if_pos pair]
    refine joined_cons (fun _ _ _ => ?_) (ih fun u hu => clean u (by simp [hu]))
    rw [surrogate_of_high (joinPair_clean pair), Bool.false_and]
  | case6 h l rest noPair ih =>
    have tail : ∀ u ∈ CharUnit.escaped l :: rest, u.Clean := fun u hu => clean u (List.mem_cons_of_mem _ hu)
    rw [joinPairs, if_neg noPair]
    refine joined_cons (fun d _ same => ?_) (ih tail)
    cases low : isLowSurrogate d with
    | false => rw [Bool.and_false]
    | true =>
      obtain ⟨us, head⟩ := joinPairs_head_low tail same low
      cases head
      rw [low] at noPair
      simpa using noPair

theorem shortEscape_clean {e u : CodePoint} (h : shortEscape e = some u) : isSurrogate u = false := by
  rw [shortEscape] at h
  split at h
  · rename_i slash
    cases h
    rw [slash]
    decide
  · obtain ⟨p, found, rfl⟩ := Option.map_eq_some_iff.mp h
    have all : (shortEscapes.all fun p => !isSurrogate p.1) = true := by decide
    simpa using List.all_eq_true.mp all p (List.mem_of_find?_eq_some found)

/-- What a literal decodes to in text without surrogates, and that the rest has none either. -/
theorem scanUnits_clean {s r : Str} {units : List CharUnit} (text : ∀ c ∈ s, isSurrogate c = false)
    (h : scanUnits s = some (units, r)) :
    (∀ u ∈ units, u.Clean) ∧ ∀ c ∈ r, isSurrogate c = false := by
  induction units generalizing s with
  | nil =>
    refine ⟨by simp, ?_⟩
    rcases scanUnits_cases h with ⟨rfl, -⟩ | ⟨_, _, _, -, -, -, -, no, -⟩ | ⟨_, _, _, _, -, -, -, no, -⟩ |
      ⟨_, _, _, _, _, _, _, -, -, no, -⟩
    · exact fun c hc => text c (List.mem_cons_of_mem _ hc)
    all_goals cases no
  | cons u units ih =>
    rcases scanUnits_cases h with ⟨-, no⟩ | ⟨c, rest, _, rfl, -, -, -, same, tail⟩ |
      ⟨e, u, rest, _, rfl, -, unit, same, tail⟩ | ⟨a, b, c, d, u, rest, _, rfl, -, same, tail⟩
    · cases no
    all_goals cases same
    all_goals obtain ⟨units, left⟩ := ih (fun c hc => text c (by simp [hc])) tail
    all_goals refine ⟨List.forall_mem_cons.mpr ⟨?_, units⟩, left⟩
    · exact text c List.mem_cons_self
    · exact shortEscape_clean unit
    · trivial

theorem scanString_joined {s v r : Str} (text : ∀ c ∈ s, isSurrogate c = false) (h : scanString s = some (v, r)) :
    Joined v ∧ ∀ c ∈ r, isSurrogate c = false := by
  simp only [scanString, Option.bind_eq_bind, Option.bind_eq_some_iff, Option.pure_def, Option.some.injEq,
    Prod.mk.injEq] at h
  obtain ⟨⟨units, rest⟩, scanned, rfl, rfl⟩ := h
  exact (scanUnits_clean text scanned).imp joinPairs_joined id

end Lib.Json
