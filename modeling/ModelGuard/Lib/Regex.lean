import Mathlib.Data.List.Infix

/-!
# Regular expressions

Single characters, sequences, alternatives, bounded repetition and word boundaries. The matcher tries every way of
matching from a position, and finds exactly the texts that the expressions mean.
-/

namespace Lib

variable {α : Type}

inductive Regex (α : Type) where
  | empty
  | char (p : α → Bool)
  /-- Between a character of a word and one that is not, or an end of the text. -/
  | boundary (word : α → Bool)
  | seq (r s : Regex α)
  | alt (r s : Regex α)

namespace Regex

/-- `r{least,most}`. -/
def times (r : Regex α) : Nat → Nat → Regex α
  | _, 0 => empty
  | 0, most + 1 => alt (seq r (times r 0 most)) empty
  | least + 1, most + 1 => seq r (times r least most)

/-- One text. -/
def text [DecidableEq α] : List α → Regex α
  | [] => empty
  | c :: s => seq (char fun d => d = c) (text s)

/-- One of some texts, or nothing. -/
def oneOf [DecidableEq α] : List (List α) → Regex α
  | [] => empty
  | s :: rest => alt (text s) (oneOf rest)

def sequence : List (Regex α) → Regex α
  | [] => empty
  | r :: rest => seq r (sequence rest)

/-- Whether the character, if there is one, is part of a word. -/
def inWord (word : α → Bool) (c : Option α) : Bool := c.any word

/-! ### What an expression means -/

/-- The text in the middle is one that the expression means, between these. -/
def Matches : Regex α → List α → List α → List α → Prop
  | empty, _, middle, _ => middle = []
  | char p, _, middle, _ => ∃ c, middle = [c] ∧ p c = true
  | boundary word, before, middle, after => middle = [] ∧ inWord word before.getLast? ≠ inWord word after.head?
  | seq r s, before, middle, after =>
    ∃ first rest, middle = first ++ rest ∧ Matches r before first (rest ++ after) ∧ Matches s (before ++ first) rest after
  | alt r s, before, middle, after => Matches r before middle after ∨ Matches s before middle after

def Occurs (r : Regex α) (s : List α) : Prop := ∃ before middle after, s = before ++ middle ++ after ∧ Matches r before middle after

/-! ### The matcher -/

/-- Every way to match at a position: the last character before the end of the match and what follows. -/
def ends : Regex α → Option α → List α → List (Option α × List α)
  | empty, prev, s => [(prev, s)]
  | char p, _, s =>
    match s with
    | [] => []
    | c :: rest => if p c then [(some c, rest)] else []
  | boundary word, prev, s => if inWord word prev ≠ inWord word s.head? then [(prev, s)] else []
  | seq r s, prev, t => (ends r prev t).flatMap fun e => ends s e.1 e.2
  | alt r s, prev, t => ends r prev t ++ ends s prev t

/-- `pattern.search(s) is not None`, from a position on. -/
def searchFrom (r : Regex α) (prev : Option α) : List α → Bool
  | [] => !(ends r prev []).isEmpty
  | c :: rest => !(ends r prev (c :: rest)).isEmpty || searchFrom r (some c) rest

def search (r : Regex α) (s : List α) : Bool := searchFrom r none s

theorem getLast?_append_cons (before : List α) (c : α) : (before ++ [c]).getLast? = some c := List.getLast?_concat ..

theorem mem_ends {r : Regex α} {before s : List α} {e : Option α × List α} :
    e ∈ ends r before.getLast? s ↔
      ∃ middle, s = middle ++ e.2 ∧ e.1 = (before ++ middle).getLast? ∧ Matches r before middle e.2 := by
  induction r generalizing before s e with
  | empty =>
    unfold ends Matches
    rw [List.mem_singleton]
    constructor
    · intro same
      subst same
      exact ⟨[], rfl, by rw [List.append_nil], rfl⟩
    · rintro ⟨middle, whole, last, none⟩
      subst none
      rw [List.append_nil] at last
      exact Prod.ext last whole.symm
  | char p =>
    unfold ends Matches
    cases s with
    | nil =>
      refine iff_of_false List.not_mem_nil ?_
      rintro ⟨middle, whole, -, c, one, -⟩
      subst one
      cases whole
    | cons c rest =>
      dsimp only
      constructor
      · intro mem
        split at mem
        · rename_i own
          rw [List.mem_singleton.mp mem]
          exact ⟨[c], rfl, (getLast?_append_cons before c).symm, c, rfl, own⟩
        · exact (List.not_mem_nil mem).elim
      · rintro ⟨middle, whole, last, d, one, own⟩
        subst one
        obtain ⟨same, below⟩ := List.cons.inj whole
        subst same
        rw [if_pos own, List.mem_singleton]
        exact Prod.ext (last.trans (getLast?_append_cons before c)) below.symm
  | boundary word =>
    unfold ends Matches
    constructor
    · intro mem
      split at mem
      · rename_i edge
        rw [List.mem_singleton.mp mem]
        exact ⟨[], rfl, by rw [List.append_nil], rfl, edge⟩
      · exact (List.not_mem_nil mem).elim
    · rintro ⟨middle, whole, last, none, edge⟩
      subst none
      rw [List.append_nil] at last
      have whole : s = e.2 := whole
      subst whole
      rw [if_pos edge, List.mem_singleton]
      exact Prod.ext last rfl
  | seq r t ihr iht =>
    unfold ends Matches
    rw [List.mem_flatMap]
    constructor
    · rintro ⟨between, mem, own⟩
      obtain ⟨first, whole, last, matched⟩ := ihr.mp mem
      rw [last] at own
      obtain ⟨rest, below, end_, matched'⟩ := iht.mp own
      rw [below] at whole matched
      exact ⟨first ++ rest, by rw [whole, List.append_assoc], by rw [end_, List.append_assoc], first, rest, rfl, matched, matched'⟩
    · rintro ⟨middle, whole, last, first, rest, split, matched, matched'⟩
      subst split
      rw [List.append_assoc] at whole
      rw [← List.append_assoc] at last
      exact ⟨((before ++ first).getLast?, rest ++ e.2), ihr.mpr ⟨first, whole, rfl, matched⟩,
        iht.mpr ⟨rest, rfl, last, matched'⟩⟩
  | alt r t ihr iht =>
    unfold ends Matches
    rw [List.mem_append, ihr, iht, ← exists_or]
    exact exists_congr fun middle => by tauto

theorem ends_ne_nil {r : Regex α} {before s : List α} :
    (ends r before.getLast? s).isEmpty = false ↔ ∃ middle after, s = middle ++ after ∧ Matches r before middle after := by
  rw [List.isEmpty_eq_false_iff_exists_mem]
  constructor
  · rintro ⟨e, mem⟩
    obtain ⟨middle, whole, -, matched⟩ := mem_ends.mp mem
    exact ⟨middle, e.2, whole, matched⟩
  · rintro ⟨middle, after, whole, matched⟩
    exact ⟨((before ++ middle).getLast?, after), mem_ends.mpr ⟨middle, whole, rfl, matched⟩⟩

theorem searchFrom_iff {r : Regex α} {before s : List α} :
    searchFrom r before.getLast? s = true ↔
      ∃ skipped middle after, s = skipped ++ middle ++ after ∧ Matches r (before ++ skipped) middle after := by
  induction s generalizing before with
  | nil =>
    unfold searchFrom
    rw [Bool.not_eq_true', ends_ne_nil]
    constructor
    · rintro ⟨middle, after, whole, matched⟩
      exact ⟨[], middle, after, whole, by rwa [List.append_nil]⟩
    · rintro ⟨skipped, middle, after, whole, matched⟩
      obtain ⟨none, rest⟩ := List.append_eq_nil_iff.mp whole.symm
      obtain ⟨none', -⟩ := List.append_eq_nil_iff.mp none
      subst none'
      rw [List.append_nil] at matched
      exact ⟨middle, after, whole, matched⟩
  | cons c rest ih =>
    unfold searchFrom
    have later := @ih (before ++ [c])
    rw [getLast?_append_cons] at later
    rw [Bool.or_eq_true, Bool.not_eq_true', ends_ne_nil, later]
    constructor
    · rintro (⟨middle, after, whole, matched⟩ | ⟨skipped, middle, after, whole, matched⟩)
      · exact ⟨[], middle, after, whole, by rwa [List.append_nil]⟩
      · rw [List.append_assoc] at matched
        exact ⟨c :: skipped, middle, after, by rw [whole]; rfl, matched⟩
    · rintro ⟨skipped, middle, after, whole, matched⟩
      cases skipped with
      | nil =>
        rw [List.append_nil] at matched
        exact .inl ⟨middle, after, whole, matched⟩
      | cons d skipped =>
        obtain ⟨same, below⟩ := List.cons.inj whole
        subst same
        refine .inr ⟨skipped, middle, after, below, ?_⟩
        rwa [List.append_assoc]

/-- The search finds what the expression means. -/
theorem search_iff {r : Regex α} {s : List α} : search r s = true ↔ Occurs r s := @searchFrom_iff α r [] s

/-! ### What the shorthands mean -/

section Shorthands

variable {before middle after : List α}

theorem matches_seq {r s : Regex α} : Matches (seq r s) before middle after ↔
    ∃ first rest, middle = first ++ rest ∧ Matches r before first (rest ++ after) ∧ Matches s (before ++ first) rest after :=
  Iff.rfl

/-- Repeated characters are texts of some lengths. -/
theorem matches_times {p : α → Bool} {least most : Nat} (within : least ≤ most) :
    Matches (times (char p) least most) before middle after ↔
      (∀ c ∈ middle, p c = true) ∧ least ≤ middle.length ∧ middle.length ≤ most := by
  induction most generalizing before middle least with
  | zero =>
    have none : least = 0 := Nat.le_zero.mp within
    subst none
    unfold times Matches
    constructor
    · intro empty
      subst empty
      exact ⟨List.forall_mem_nil _, le_refl _, le_refl _⟩
    · rintro ⟨-, -, short⟩
      exact List.length_eq_zero_iff.mp (Nat.le_zero.mp short)
  | succ most ih =>
    have cons {k : Nat} (within : k ≤ most) : Matches (seq (char p) (times (char p) k most)) before middle after ↔
        ∃ c rest, middle = c :: rest ∧ (∀ d ∈ middle, p d = true) ∧ k ≤ rest.length ∧ rest.length ≤ most := by
      rw [matches_seq]
      constructor
      · rintro ⟨first, rest, whole, ⟨c, same, own⟩, later⟩
        subst same
        obtain ⟨all, long, short⟩ := (ih within).mp later
        subst whole
        exact ⟨c, rest, rfl, List.forall_mem_cons.mpr ⟨own, all⟩, long, short⟩
      · rintro ⟨c, rest, whole, all, long, short⟩
        subst whole
        obtain ⟨own, others⟩ := List.forall_mem_cons.mp all
        exact ⟨[c], rest, rfl, ⟨c, rfl, own⟩, (ih within).mpr ⟨others, long, short⟩⟩
    cases least with
    | zero =>
      show Matches (seq (char p) (times (char p) 0 most)) before middle after ∨ middle = [] ↔ _
      rw [cons (Nat.zero_le _)]
      constructor
      · rintro (⟨c, rest, whole, all, -, short⟩ | empty)
        · subst whole
          exact ⟨all, Nat.zero_le _, Nat.succ_le_succ short⟩
        · subst empty
          exact ⟨List.forall_mem_nil _, le_refl _, Nat.zero_le _⟩
      · rintro ⟨all, -, short⟩
        cases middle with
        | nil => exact .inr rfl
        | cons c rest => exact .inl ⟨c, rest, rfl, all, Nat.zero_le _, Nat.le_of_succ_le_succ short⟩
    | succ least =>
      show Matches (seq (char p) (times (char p) least most)) before middle after ↔ _
      rw [cons (Nat.le_of_succ_le_succ within)]
      constructor
      · rintro ⟨c, rest, whole, all, long, short⟩
        subst whole
        exact ⟨all, Nat.succ_le_succ long, Nat.succ_le_succ short⟩
      · rintro ⟨all, long, short⟩
        cases middle with
        | nil => exact absurd long (by simp)
        | cons c rest => exact ⟨c, rest, rfl, all, Nat.le_of_succ_le_succ long, Nat.le_of_succ_le_succ short⟩

variable [DecidableEq α]

theorem matches_text {s : List α} : Matches (text s) before middle after ↔ middle = s := by
  induction s generalizing before middle with
  | nil => exact Iff.rfl
  | cons c s ih =>
    unfold text
    rw [matches_seq]
    constructor
    · rintro ⟨first, rest, whole, ⟨d, same, own⟩, later⟩
      rw [whole, same, of_decide_eq_true own, ih.mp later, List.singleton_append]
    · intro same
      subst same
      exact ⟨[c], s, rfl, ⟨c, rfl, decide_eq_true rfl⟩, ih.mpr rfl⟩

theorem matches_oneOf {texts : List (List α)} : Matches (oneOf texts) before middle after ↔ middle ∈ texts ∨ middle = [] := by
  induction texts with
  | nil => exact ⟨.inr, fun h => h.resolve_left List.not_mem_nil⟩
  | cons s rest ih =>
    show Matches (text s) before middle after ∨ Matches (oneOf rest) before middle after ↔ _
    rw [matches_text, ih, List.mem_cons, or_assoc]

omit [DecidableEq α] in
theorem matches_sequence_nil : Matches (sequence []) before middle after ↔ middle = [] := Iff.rfl

omit [DecidableEq α] in
theorem matches_sequence_cons {r : Regex α} {rest : List (Regex α)} :
    Matches (sequence (r :: rest)) before middle after ↔
      ∃ first others, middle = first ++ others ∧ Matches r before first (others ++ after) ∧
        Matches (sequence rest) (before ++ first) others after :=
  Iff.rfl

omit [DecidableEq α] in
theorem matches_append {first rest : List (Regex α)} : Matches (sequence (first ++ rest)) before middle after ↔
    ∃ start others, middle = start ++ others ∧ Matches (sequence first) before start (others ++ after) ∧
      Matches (sequence rest) (before ++ start) others after := by
  induction first generalizing before middle with
  | nil =>
    simp only [List.nil_append, matches_sequence_nil]
    constructor
    · intro matched
      exact ⟨[], middle, rfl, rfl, by rwa [List.append_nil]⟩
    · rintro ⟨start, others, whole, none, matched⟩
      subst none
      rw [List.append_nil] at matched
      rwa [whole]
  | cons r first ih =>
    rw [List.cons_append, matches_sequence_cons]
    simp only [ih, matches_sequence_cons]
    constructor
    · rintro ⟨own, others, whole, head, start, tail, split, firsts, rests⟩
      subst split
      rw [List.append_assoc] at head
      rw [List.append_assoc before] at rests
      exact ⟨own ++ start, tail, by rw [whole, List.append_assoc], ⟨own, start, rfl, head, firsts⟩, rests⟩
    · rintro ⟨both, tail, whole, ⟨own, start, split, head, firsts⟩, rests⟩
      subst split
      rw [← List.append_assoc] at head rests
      exact ⟨own, start ++ tail, by rw [whole, List.append_assoc], head, start, tail, rfl, firsts, rests⟩

end Shorthands

end Regex

end Lib
