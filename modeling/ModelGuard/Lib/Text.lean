import Mathlib.Data.List.DropRight
import Mathlib.Data.List.Lex
import Mathlib.Order.Fin.Basic

/-!
# Text

A string is a list of Unicode code points, surrogates included: that is what an escape sequence or
an undecodable file name produces. Strict UTF-8 never yields a surrogate.
-/

namespace Lib

abbrev CodePoint := Fin 0x110000

abbrev Str := List CodePoint

abbrev Bytes := List UInt8

instance CodePoint.lawfulBEq : LawfulBEq CodePoint := inferInstance

instance Str.lawfulBEq : LawfulBEq Str := inferInstance

theorem codePoints_ne_zero : 0x110000 ≠ 0 := by decide

instance CodePoint.neZero : @NeZero Nat Zero.ofOfNat0 0x110000 := ⟨codePoints_ne_zero⟩

def cp (c : Char) : CodePoint :=
  ⟨c.toNat, by have := c.valid; simp only [UInt32.isValidChar, Nat.isValidChar] at this; unfold Char.toNat; omega⟩

/-- The code points of a literal. -/
def str (s : String) : Str := s.toList.map cp

/-- A literal character by character. Evaluation decodes the text otherwise, which is slow. -/
theorem str_ofList (chars : List Char) : str (String.ofList chars) = chars.map cp := by
  unfold str
  rw [String.toList_ofList]

theorem str_append (s t : String) : str (s ++ t) = str s ++ str t := by
  unfold str
  rw [String.toList_append, List.map_append]

theorem cp_val (c : Char) : (cp c).val = c.toNat := rfl

theorem cp_injective : Function.Injective cp := fun _ _ h => by
  have same := congrArg Fin.val h
  simp only [cp_val] at same
  exact Char.toNat_inj.mp same

theorem str_injective : Function.Injective str := fun _ _ h =>
  String.toList_inj.mp (List.map_injective_iff.mpr cp_injective h)

theorem cp_inj {a b : Char} : cp a = cp b ↔ a = b := cp_injective.eq_iff

def isHighSurrogate (c : CodePoint) : Bool := 0xd800 ≤ c.val && c.val ≤ 0xdbff

def isLowSurrogate (c : CodePoint) : Bool := 0xdc00 ≤ c.val && c.val ≤ 0xdfff

def isSurrogate (c : CodePoint) : Bool := 0xd800 ≤ c.val && c.val ≤ 0xdfff

/-- Unicode white space, as `str.isspace` and `str.strip` have it. -/
def isSpace (c : CodePoint) : Bool :=
  let n := c.val
  (0x09 ≤ n && n ≤ 0x0d) || (0x1c ≤ n && n ≤ 0x20) || n == 0x85 || n == 0xa0 || n == 0x1680 ||
    (0x2000 ≤ n && n ≤ 0x200a) || n == 0x2028 || n == 0x2029 || n == 0x202f || n == 0x205f || n == 0x3000

/-- `unicodedata.category(ch) == "Cc"`. -/
def isControl (c : CodePoint) : Bool := decide (c.val < 0x20) || (0x7f ≤ c.val && c.val < 0xa0)

/-- Whether `s.strip()` is empty. -/
def isBlank (s : Str) : Bool := s.all isSpace

/-! ### ASCII -/

def Ascii (s : Str) : Prop := ∀ c ∈ s, c.val < 0x80

instance (s : Str) : Decidable (Ascii s) :=
  decidable_of_iff (s.all (fun c => decide (c.val < 0x80)) = true) (by simp [Ascii])

theorem ascii_append {s t : Str} : Ascii (s ++ t) ↔ Ascii s ∧ Ascii t := by
  simp only [Ascii, List.mem_append, or_imp, forall_and]

theorem ascii_cons {c : CodePoint} {s : Str} : Ascii (c :: s) ↔ c.val < 0x80 ∧ Ascii s := by
  simp [Ascii]

theorem ascii_nil : Ascii [] := by simp [Ascii]

/-- The octets of an ASCII string. -/
def asciiBytes (s : Str) : Bytes := s.map fun c => UInt8.ofNat c.val

@[simp] theorem asciiBytes_append (s t : Str) : asciiBytes (s ++ t) = asciiBytes s ++ asciiBytes t :=
  List.map_append

@[simp] theorem asciiBytes_nil : asciiBytes [] = [] := rfl

/-- The characters with the values of the octets. -/
def latin1 (bs : Bytes) : Str := bs.map fun b => ⟨b.toNat, by have := b.toNat_lt; omega⟩

theorem latin1_injective : Function.Injective latin1 :=
  List.map_injective_iff.mpr fun _ _ h => UInt8.toNat_inj.mp (Fin.mk.inj h)

@[simp] theorem latin1_append (a b : Bytes) : latin1 (a ++ b) = latin1 a ++ latin1 b := List.map_append

theorem latin1_asciiBytes {s : Str} (h : Ascii s) : latin1 (asciiBytes s) = s := by
  induction s with
  | nil => rfl
  | cons c s ih =>
    obtain ⟨hc, hs⟩ := ascii_cons.mp h
    have value : (UInt8.ofNat c.val).toNat = c.val := by simp only [UInt8.toNat_ofNat']; omega
    have tail : latin1 (asciiBytes s) = s := ih hs
    rw [asciiBytes, List.map_cons, latin1, List.map_cons]
    exact List.cons_eq_cons.mpr ⟨Fin.ext value, tail⟩

theorem asciiBytes_injOn {s t : Str} (hs : Ascii s) (ht : Ascii t) (h : asciiBytes s = asciiBytes t) : s = t := by
  rw [← latin1_asciiBytes hs, h, latin1_asciiBytes ht]

/-! ### UTF-8 -/

/-- Where a strict decoder stands between octets: between characters, or owed `need` continuation
octets of which the next lies in `low..high`. -/
inductive Utf8State where
  | start
  | owed (need acc low high : Nat)

/-- The state after one octet, with the character it completes. -/
def utf8Step : Utf8State → UInt8 → Option (Utf8State × Str)
  | .start, b =>
    let n := b.toNat
    if h : n < 0x80 then some (.start, [⟨n, by omega⟩])
    else if 0xc2 ≤ n ∧ n ≤ 0xdf then some (.owed 1 (n - 0xc0) 0x80 0xbf, [])
    else if n = 0xe0 then some (.owed 2 0 0xa0 0xbf, [])
    else if n = 0xed then some (.owed 2 0xd 0x80 0x9f, [])
    else if 0xe1 ≤ n ∧ n ≤ 0xef then some (.owed 2 (n - 0xe0) 0x80 0xbf, [])
    else if n = 0xf0 then some (.owed 3 0 0x90 0xbf, [])
    else if 0xf1 ≤ n ∧ n ≤ 0xf3 then some (.owed 3 (n - 0xf0) 0x80 0xbf, [])
    else if n = 0xf4 then some (.owed 3 4 0x80 0x8f, [])
    else none
  | .owed need acc low high, b =>
    let n := b.toNat
    if low ≤ n ∧ n ≤ high then
      let acc := acc * 64 + (n - 0x80)
      if need ≤ 1 then if h : acc < 0x110000 then some (.start, [⟨acc, h⟩]) else none
      else some (.owed (need - 1) acc 0x80 0xbf, [])
    else none

def decodeUtf8From : Utf8State → Bytes → Option Str
  | .start, [] => some []
  | .owed .., [] => none
  | q, b :: bs => do
    let (q', out) ← utf8Step q b
    return out ++ (← decodeUtf8From q' bs)

/-- `bytes.decode("utf-8")`. -/
def decodeUtf8 (bs : Bytes) : Option Str := decodeUtf8From .start bs

theorem decodeUtf8From_append {q : Utf8State} {a b : Bytes} {s : Str} (h : decodeUtf8From q a = some s) :
    decodeUtf8From q (a ++ b) = (decodeUtf8 b).map (s ++ ·) := by
  induction a generalizing q s with
  | nil =>
    cases q with
    | start =>
      cases h
      cases hb : decodeUtf8From .start b <;> simp [decodeUtf8, hb]
    | owed need acc low high => cases h
  | cons x a ih =>
    rw [List.cons_append]
    simp only [decodeUtf8From, Option.bind_eq_bind, Option.bind_eq_some_iff, Option.pure_def,
      Option.some.injEq] at h ⊢
    obtain ⟨⟨q', out⟩, hstep, t, ht, rfl⟩ := h
    rw [hstep, Option.bind_some, ih ht]
    cases decodeUtf8 b <;> simp

theorem decodeUtf8_append {a b : Bytes} {s : Str} (h : decodeUtf8 a = some s) :
    decodeUtf8 (a ++ b) = (decodeUtf8 b).map (s ++ ·) := decodeUtf8From_append h

theorem decodeUtf8_ascii {s : Str} (h : Ascii s) : decodeUtf8 (asciiBytes s) = some s := by
  induction s with
  | nil => rfl
  | cons c s ih =>
    obtain ⟨hc, hs⟩ := ascii_cons.mp h
    have value : (UInt8.ofNat c.val).toNat = c.val := by simp [UInt8.toNat_ofNat']; omega
    have tail : decodeUtf8From .start (asciiBytes s) = some s := ih hs
    simp only [decodeUtf8, asciiBytes, List.map_cons, decodeUtf8From, utf8Step, value, hc, dif_pos,
      Option.bind_eq_bind, Option.bind_some]
    rw [show List.map (fun c : CodePoint => UInt8.ofNat c.val) s = asciiBytes s from rfl, tail]
    rfl

/-- The octets of one code point. -/
def encodeUtf8Char (c : CodePoint) : Bytes :=
  let n := c.val
  if n < 0x80 then [UInt8.ofNat n]
  else if n < 0x800 then [UInt8.ofNat (0xc0 + n / 64), UInt8.ofNat (0x80 + n % 64)]
  else if n < 0x10000 then
    [UInt8.ofNat (0xe0 + n / 4096), UInt8.ofNat (0x80 + n / 64 % 64), UInt8.ofNat (0x80 + n % 64)]
  else
    [UInt8.ofNat (0xf0 + n / 262144), UInt8.ofNat (0x80 + n / 4096 % 64), UInt8.ofNat (0x80 + n / 64 % 64),
      UInt8.ofNat (0x80 + n % 64)]

/-- `str.encode("utf-8")`, which refuses surrogates. -/
def encodeUtf8 (s : Str) : Option Bytes :=
  if s.any isSurrogate then none else some (s.flatMap encodeUtf8Char)

theorem encodeUtf8_ascii {s : Str} (h : Ascii s) : encodeUtf8 s = some (asciiBytes s) := by
  have plain : s.any isSurrogate = false := by
    rw [List.any_eq_false]
    intro c hc
    have := h c hc
    simp only [isSurrogate, Bool.and_eq_true, decide_eq_true_eq, not_and]
    omega
  have octets : s.flatMap encodeUtf8Char = asciiBytes s := by
    clear plain
    induction s with
    | nil => rfl
    | cons c s ih =>
      obtain ⟨hc, hs⟩ := ascii_cons.mp h
      rw [List.flatMap_cons, ih hs]
      simp [encodeUtf8Char, hc, asciiBytes]
  simp [encodeUtf8, plain, octets]

/-- No surrogate: the text of a file that was decoded. -/
def Scalars (s : Str) : Prop := ∀ c ∈ s, isSurrogate c = false

theorem scalars_cons {c : CodePoint} {s : Str} : Scalars (c :: s) ↔ isSurrogate c = false ∧ Scalars s := by
  simp [Scalars]

theorem scalar_cp (c : Char) : isSurrogate (cp c) = false := by
  have valid : c.toNat < 0xd800 ∨ 0xdfff < c.toNat ∧ c.toNat < 0x110000 := c.valid
  unfold isSurrogate
  rw [cp_val, ← Bool.not_eq_true, Bool.and_eq_true, decide_eq_true_eq, decide_eq_true_eq]
  omega

/-- A text written with characters has no surrogates. -/
theorem scalars_str (s : String) : Scalars (str s) := by
  intro c mem
  obtain ⟨ch, -, same⟩ := List.mem_map.mp mem
  exact same ▸ scalar_cp ch

theorem scalars_append {s t : Str} : Scalars (s ++ t) ↔ Scalars s ∧ Scalars t := by
  simp only [Scalars, List.mem_append, or_imp, forall_and]

theorem Scalars.of_sublist {s t : Str} (h : Scalars t) (sub : s.Sublist t) : Scalars s :=
  fun c hc => h c (sub.subset hc)

/-- No state leads to a surrogate: the octets read so far exclude `0xd800..0xdfff`. -/
def Utf8State.NoSurrogate : Utf8State → Prop
  | .start => True
  | .owed need acc low high =>
    0x80 ≤ low ∧ high ≤ 0xbf ∧
      ((need = 1 ∧ (acc < 0x360 ∨ 0x380 ≤ acc)) ∨
        (need = 2 ∧ (acc < 13 ∨ (acc = 13 ∧ high ≤ 0x9f) ∨ 14 ≤ acc)) ∨
        (need = 3 ∧ (0x90 ≤ low ∨ 1 ≤ acc)))

theorem scalars_nil : Scalars [] := by simp [Scalars]

theorem scalars_single {n : Nat} (lt : n < 0x110000) (h : n < 0xd800 ∨ 0xdfff < n) : Scalars [⟨n, lt⟩] := by
  simp only [Scalars, List.mem_singleton, forall_eq, isSurrogate, Bool.and_eq_false_iff, decide_eq_false_iff_not]
  omega

theorem utf8Step_noSurrogate {q q' : Utf8State} {b : UInt8} {out : Str} (h : utf8Step q b = some (q', out))
    (inv : q.NoSurrogate) : q'.NoSurrogate ∧ Scalars out := by
  cases q with
  | start =>
    simp only [utf8Step] at h
    repeat' split at h
    all_goals cases h
    all_goals first
      | exact ⟨trivial, scalars_single _ (by omega)⟩
      | exact ⟨⟨by omega, by omega, by omega⟩, scalars_nil⟩
  | owed need acc low high =>
    obtain ⟨hlow, hhigh, owed⟩ := inv
    simp only [utf8Step] at h
    repeat' split at h
    all_goals cases h
    · exact ⟨trivial, scalars_single _ (by omega)⟩
    · exact ⟨⟨by omega, by omega, by omega⟩, scalars_nil⟩

theorem decodeUtf8From_scalars {q : Utf8State} {bs : Bytes} {s : Str} (h : decodeUtf8From q bs = some s)
    (inv : q.NoSurrogate) : Scalars s := by
  induction bs generalizing q s with
  | nil =>
    cases q with
    | start => cases h; simp [Scalars]
    | owed need acc low high => cases h
  | cons b bs ih =>
    simp only [decodeUtf8From, Option.bind_eq_bind, Option.bind_eq_some_iff, Option.pure_def, Option.some.injEq] at h
    obtain ⟨⟨q', out⟩, step, t, tail, rfl⟩ := h
    obtain ⟨next, clean⟩ := utf8Step_noSurrogate step inv
    exact scalars_append.mpr ⟨clean, ih tail next⟩

theorem decodeUtf8_scalars {bs : Bytes} {s : Str} (h : decodeUtf8 bs = some s) : Scalars s :=
  decodeUtf8From_scalars h trivial

/-! ### Lines of a text file -/

def newline : CodePoint := cp '\n'

/-- Universal newlines: `\r\n` and `\r` read as `\n`. The flag says that `\r` was just read. -/
def universalFrom : Bool → Str → Str
  | _, [] => []
  | cr, c :: rest =>
    if c = cp '\r' then newline :: universalFrom true rest
    else if cr = true ∧ c = newline then universalFrom false rest
    else c :: universalFrom false rest

def universalNewlines (s : Str) : Str := universalFrom false s

/-- The lines of a text, each with its terminator. -/
def splitLines : Str → List Str
  | [] => []
  | c :: rest =>
    if c = newline then [c] :: splitLines rest
    else
      match splitLines rest with
      | [] => [[c]]
      | line :: lines => (c :: line) :: lines

/-- What iterating over a text file yields. -/
def textLines (s : Str) : List Str := splitLines (universalNewlines s)

/-- What follows the last line break: empty when the text ends in one. -/
def openLine (s : Str) : Str := s.rtakeWhile (· ≠ newline)

/-- What `openLine` leaves: the terminated lines. -/
def closedLines (s : Str) : Str := s.rdropWhile (· ≠ newline)

theorem universalFrom_append (q : Bool) (a b : Str) :
    ∃ q', universalFrom q (a ++ b) = universalFrom q a ++ universalFrom q' b := by
  induction a generalizing q with
  | nil => exact ⟨q, rfl⟩
  | cons c a ih =>
    simp only [List.cons_append, universalFrom]
    split
    · obtain ⟨q', h⟩ := ih true
      exact ⟨q', by rw [h, List.cons_append]⟩
    · split
      · exact ih false
      · obtain ⟨q', h⟩ := ih false
        exact ⟨q', by rw [h, List.cons_append]⟩

theorem universalFrom_plain {q : Bool} {s : Str} (h : ∀ c ∈ s, c ≠ cp '\r')
    (head : q = true → s.head? ≠ some newline) : universalFrom q s = s := by
  induction s generalizing q with
  | nil => rfl
  | cons c s ih =>
    have notSkipped : ¬(q = true ∧ c = newline) := fun ⟨hq, hc⟩ => head hq (by rw [hc]; rfl)
    rw [universalFrom, if_neg (h c List.mem_cons_self), if_neg notSkipped,
      ih (fun d hd => h d (List.mem_cons_of_mem _ hd)) (by simp)]

/-- A text without `\r` that does not start with a line break reads the same after any other. -/
theorem universalNewlines_append {a b : Str} (h : ∀ c ∈ b, c ≠ cp '\r') (head : b.head? ≠ some newline) :
    universalNewlines (a ++ b) = universalNewlines a ++ b := by
  obtain ⟨q, split⟩ := universalFrom_append false a b
  rw [universalNewlines, split, universalFrom_plain h (fun _ => head), universalNewlines]

theorem splitLines_open {s : Str} (h : newline ∉ s) (ne : s ≠ []) : splitLines s = [s] := by
  induction s with
  | nil => exact (ne rfl).elim
  | cons c s ih =>
    simp only [List.mem_cons, not_or] at h
    obtain ⟨hc, hs⟩ := h
    rw [splitLines, if_neg (Ne.symm hc)]
    cases s with
    | nil => rfl
    | cons d s => rw [ih hs (by simp)]

/-- An unterminated line runs on into the first line of what follows. -/
theorem splitLines_open_append {s t line : Str} {lines : List Str} (h : newline ∉ s)
    (ht : splitLines t = line :: lines) : splitLines (s ++ t) = (s ++ line) :: lines := by
  induction s with
  | nil => exact ht
  | cons c s ih =>
    simp only [List.mem_cons, not_or] at h
    obtain ⟨hc, hs⟩ := h
    rw [List.cons_append, splitLines, if_neg (Ne.symm hc), ih hs]
    rfl

theorem splitLines_terminated {s : Str} (h : newline ∉ s) : splitLines (s ++ [newline]) = [s ++ [newline]] :=
  splitLines_open_append h (by simp [splitLines])

theorem splitLines_append {a b : Str} (h : a = [] ∨ a.getLast? = some newline) :
    splitLines (a ++ b) = splitLines a ++ splitLines b := by
  induction a with
  | nil => rfl
  | cons c a ih =>
    have last : a = [] ∨ a.getLast? = some newline := by
      cases a with
      | nil => exact Or.inl rfl
      | cons d a => exact Or.inr (by simpa [List.getLast?_cons_cons] using h)
    rw [List.cons_append, splitLines, splitLines, ih last]
    by_cases hc : c = newline
    · simp only [hc, if_true, List.cons_append]
    · rw [if_neg hc, if_neg hc]
      cases a with
      | nil => simp [hc] at h
      | cons d a =>
        -- A nonempty text has a first line, so the split of `a` decides how `c` is attached.
        cases hs : splitLines (d :: a) with
        | nil =>
          rw [splitLines] at hs
          split at hs
          · cases hs
          · split at hs <;> cases hs
        | cons line lines => rfl

theorem closed_append_open (s : Str) : closedLines s ++ openLine s = s := List.rdropWhile_append_rtakeWhile ..

theorem newline_not_mem_openLine (s : Str) : newline ∉ openLine s := fun h => by
  simpa using List.mem_rtakeWhile_imp h

theorem closedLines_terminated (s : Str) : closedLines s = [] ∨ (closedLines s).getLast? = some newline := by
  by_cases h : closedLines s = []
  · exact Or.inl h
  · refine Or.inr ?_
    have last := List.rdropWhile_last_not (fun c : CodePoint => decide (c ≠ newline)) s h
    rw [List.getLast?_eq_some_getLast h]
    simpa [closedLines] using last

end Lib
