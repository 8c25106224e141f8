import ModelGuard.Scanning.Scanners

/-!
# What the secret patterns mean

A token stands alone: no character of a word touches its head, and its end is the end of a word or of a run of
dashes.
-/

namespace ModelGuard.Scanning

open Lib Lib.Regex

/-- One of the heads and a run of characters, between the boundaries of words. -/
def HasToken (word : CodePoint → Bool) (heads : List Str) (body : CodePoint → Bool) (least most : Nat) (s : Str) : Prop :=
  ∃ before head token after, s = before ++ (head ++ token) ++ after ∧ head ∈ heads ∧ (∀ c ∈ token, body c = true) ∧
    least ≤ token.length ∧ token.length ≤ most ∧ inWord word before.getLast? = false ∧
    inWord word token.getLast? ≠ inWord word after.head?

def HasPrivateKeyHeader (s : Str) : Prop :=
  ∃ kind ∈ [str "RSA ", str "EC ", str "OPENSSH ", str "DSA ", str "ENCRYPTED ", []],
    str "-----BEGIN " ++ kind ++ str "PRIVATE KEY-----" <:+: s

/-! ### Tokens -/

section Tokens

variable {word body : CodePoint → Bool} {head : List (Regex CodePoint)} {heads : List Str} {least most : Nat} {s : Str}

theorem tokenPattern_occurs
    (meant : ∀ {before first after}, Matches (sequence head) before first after ↔ first ∈ heads)
    (letters : ∀ first ∈ heads, inWord word first.head? = true) (filled : 0 < least) (within : least ≤ most) :
    (tokenPattern word head body least most).Occurs s ↔ HasToken word heads body least most s := by
  have matched {before middle after : Str} : Matches (tokenPattern word head body least most) before middle after ↔
      ∃ first token, middle = first ++ token ∧ first ∈ heads ∧ (∀ c ∈ token, body c = true) ∧ least ≤ token.length ∧
        token.length ≤ most ∧ inWord word before.getLast? ≠ inWord word (first ++ (token ++ after)).head? ∧
        inWord word ((before ++ first) ++ token).getLast? ≠ inWord word after.head? := by
    unfold tokenPattern
    rw [List.cons_append, matches_sequence_cons]
    constructor
    · rintro ⟨none, others, whole, ⟨gone, edge⟩, rest⟩
      subst gone
      obtain ⟨first, tail, split, firsts, rest⟩ := matches_append.mp rest
      rw [matches_sequence_cons] at rest
      obtain ⟨token, closing, split', run, rest⟩ := rest
      rw [matches_sequence_cons] at rest
      obtain ⟨closing', nothing, split'', ⟨gone, edge'⟩, end_⟩ := rest
      rw [matches_sequence_nil] at end_
      subst gone end_ split'' split' split
      obtain ⟨own, long, short⟩ := (matches_times within).mp run
      simp only [List.append_nil, List.nil_append, List.append_assoc] at whole edge
      simp only [List.append_nil] at edge'
      exact ⟨first, token, whole, meant.mp firsts, own, long, short, edge, edge'⟩
    · rintro ⟨first, token, whole, firsts, own, long, short, edge, edge'⟩
      refine ⟨[], first ++ token, whole, ⟨rfl, by rwa [List.append_assoc]⟩, ?_⟩
      rw [List.append_nil]
      refine matches_append.mpr ⟨first, token, rfl, meant.mpr firsts, ?_⟩
      refine matches_sequence_cons.mpr ⟨token, [], (List.append_nil _).symm, (matches_times within).mpr ⟨own, long, short⟩, ?_⟩
      exact matches_sequence_cons.mpr ⟨[], [], rfl, ⟨rfl, edge'⟩, rfl⟩
  unfold Occurs HasToken
  simp only [matched]
  constructor
  · rintro ⟨before, middle, after, whole, first, token, split, firsts, own, long, short, edge, edge'⟩
    subst split
    have start := letters first firsts
    have nonempty : first ≠ [] := fun none => by
      rw [none] at start
      cases start
    have tokenNonempty : token ≠ [] := List.ne_nil_of_length_pos (Nat.lt_of_lt_of_le filled long)
    rw [List.head?_append_of_ne_nil _ nonempty, start] at edge
    rw [List.getLast?_append_of_ne_nil _ tokenNonempty] at edge'
    exact ⟨before, first, token, after, whole, firsts, own, long, short, Bool.eq_false_of_not_eq_true edge, edge'⟩
  · rintro ⟨before, first, token, after, whole, firsts, own, long, short, edge, edge'⟩
    have start := letters first firsts
    have nonempty : first ≠ [] := fun none => by
      rw [none] at start
      cases start
    have tokenNonempty : token ≠ [] := List.ne_nil_of_length_pos (Nat.lt_of_lt_of_le filled long)
    refine ⟨before, first ++ token, after, whole, first, token, rfl, firsts, own, long, short, ?_, ?_⟩
    · rw [List.head?_append_of_ne_nil _ nonempty, start, edge]
      exact Bool.false_ne_true
    · rwa [List.getLast?_append_of_ne_nil _ tokenNonempty]

end Tokens

/-! ### The patterns -/

section Patterns

variable {unicode : Unicode} {s : Str}

theorem matches_text_list {text before first after : Str} :
    Matches (sequence [.text text]) before first after ↔ first ∈ [text] := by
  rw [matches_sequence_cons, List.mem_singleton]
  constructor
  · rintro ⟨own, rest, whole, matched, none⟩
    rw [whole, matches_text.mp matched, matches_sequence_nil.mp none, List.append_nil]
  · intro same
    exact ⟨first, [], (List.append_nil _).symm, matches_text.mpr same, rfl⟩

/-- A text, one of some characters, a text. -/
theorem matches_prefixed {start letters close before first after : Str} :
    Matches (sequence [.text start, .char fun c => letters.contains c, .text close]) before first after ↔
      first ∈ letters.map fun c => start ++ c :: close := by
  rw [matches_sequence_cons, List.mem_map]
  constructor
  · rintro ⟨own, rest, whole, matched, tail⟩
    obtain ⟨single, rest', whole', ⟨c, one, listed⟩, tail'⟩ := matches_sequence_cons.mp tail
    have closing := List.mem_singleton.mp (matches_text_list.mp tail')
    refine ⟨c, List.contains_iff_mem.mp listed, ?_⟩
    rw [whole, matches_text.mp matched, whole', one, closing, List.singleton_append]
  · rintro ⟨c, listed, same⟩
    refine ⟨start, c :: close, same.symm, matches_text.mpr rfl, ?_⟩
    refine matches_sequence_cons.mpr ⟨[c], close, rfl, ⟨c, rfl, List.contains_iff_mem.mpr listed⟩, ?_⟩
    exact matches_text_list.mpr List.mem_cons_self

theorem inWord_ascii {c : CodePoint} {rest : Str} (low : c.val < 0x80) (letter : isAsciiWord c = true) :
    inWord unicode.word (c :: rest).head? = true :=
  (unicode.word_ascii c low).trans letter

theorem awsAccessKeyId_occurs : (awsAccessKeyId unicode.word).pattern.Occurs s ↔
    HasToken unicode.word [str "AKIA"] isKeyIdChar 16 16 s := by
  refine tokenPattern_occurs matches_text_list ?_ (by decide) (le_refl _)
  intro first mem
  rw [List.mem_singleton.mp mem]
  exact inWord_ascii (by decide) (by decide)

theorem githubPat_occurs : (githubPat unicode.word).pattern.Occurs s ↔
    HasToken unicode.word ((str "pousr").map fun c => str "gh" ++ c :: str "_") isTokenChar 36 36 s := by
  refine tokenPattern_occurs matches_prefixed ?_ (by decide) (le_refl _)
  intro first mem
  obtain ⟨c, -, same⟩ := List.mem_map.mp mem
  rw [← same]
  exact inWord_ascii (by decide) (by decide)

theorem slackToken_occurs : (slackToken unicode.word).pattern.Occurs s ↔
    HasToken unicode.word ((str "abposr").map fun c => str "xox" ++ c :: str "-") isSlackChar 10 72 s := by
  refine tokenPattern_occurs matches_prefixed ?_ (by decide) (by decide)
  intro first mem
  obtain ⟨c, -, same⟩ := List.mem_map.mp mem
  rw [← same]
  exact inWord_ascii (by decide) (by decide)

theorem pemPrivateKey_occurs : pemPrivateKey.pattern.Occurs s ↔ HasPrivateKeyHeader s := by
  have matched {before middle after : Str} : Matches pemPrivateKey.pattern before middle after ↔
      ∃ kind ∈ [str "RSA ", str "EC ", str "OPENSSH ", str "DSA ", str "ENCRYPTED ", []],
        middle = str "-----BEGIN " ++ kind ++ str "PRIVATE KEY-----" := by
    unfold pemPrivateKey
    rw [matches_sequence_cons]
    constructor
    · rintro ⟨start, rest, whole, head, tail⟩
      obtain ⟨kind, closing, whole', kinds, tail'⟩ := matches_sequence_cons.mp tail
      refine ⟨kind, ?_, ?_⟩
      · rcases matches_oneOf.mp kinds with listed | none
        · exact List.mem_append_left [[]] listed
        · subst none
          exact List.mem_append_right [str "RSA ", str "EC ", str "OPENSSH ", str "DSA ", str "ENCRYPTED "] List.mem_cons_self
      · rw [whole, matches_text.mp head, whole', List.mem_singleton.mp (matches_text_list.mp tail'), List.append_assoc]
    · rintro ⟨kind, listed, whole⟩
      refine ⟨str "-----BEGIN ", kind ++ str "PRIVATE KEY-----", by rw [whole, List.append_assoc], matches_text.mpr rfl, ?_⟩
      refine matches_sequence_cons.mpr ⟨kind, str "PRIVATE KEY-----", rfl, matches_oneOf.mpr ?_,
        matches_text_list.mpr List.mem_cons_self⟩
      rcases List.mem_append.mp (show kind ∈ [_, _, _, _, _] ++ [[]] from listed) with listed | none
      · exact .inl listed
      · exact .inr (List.mem_singleton.mp none)
  unfold Occurs HasPrivateKeyHeader
  simp only [matched]
  constructor
  · rintro ⟨before, middle, after, whole, kind, listed, same⟩
    subst same
    exact ⟨kind, listed, before, after, whole.symm⟩
  · rintro ⟨kind, listed, before, after, whole⟩
    exact ⟨before, _, after, whole.symm, kind, listed, rfl⟩

end Patterns

end ModelGuard.Scanning
