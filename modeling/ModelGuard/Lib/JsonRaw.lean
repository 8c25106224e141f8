import ModelGuard.Lib.JsonBytes
import ModelGuard.Lib.JsonJoin
import ModelGuard.Lib.JsonPretty
import ModelGuard.Lib.Utf8RoundTrip

/-!
# JSON text for a UTF-8 file

Quotes, backslashes and control characters are escaped, every other character stands for itself.
-/

namespace Lib.Json

def rawEscape (c : CodePoint) : Str :=
  match shortEscapes.lookup c with
  | some e => [cp '\\', e]
  | none => if c.val < 0x20 then escapeUnit c.val else [c]

def rawQuote (s : Str) : Str := cp '"' :: s.flatMap rawEscape ++ [cp '"']

/-- The unit that a character is read back as. -/
def rawUnit (c : CodePoint) : CharUnit :=
  match shortEscapes.lookup c with
  | some _ => .plain c
  | none => if c.val < 0x20 then .escaped c else .plain c

theorem scanUnits_rawEscape (c : CodePoint) (r : Str) :
    scanUnits (rawEscape c ++ r) = (scanUnits r).map fun p => (rawUnit c :: p.1, p.2) := by
  unfold rawEscape rawUnit
  cases short : shortEscapes.lookup c with
  | some e => exact scanUnits_short short r
  | none =>
    have unescaped : c ≠ cp '"' ∧ c ≠ cp '\\' := by
      constructor <;> rintro rfl <;> revert short <;> decide
    dsimp only
    split
    case isTrue control => exact scanUnits_escapeUnit c (by omega) r
    case isFalse printable => exact scanUnits_plain unescaped.1 unescaped.2 printable r

theorem scanUnits_raw (s r : Str) : scanUnits (s.flatMap rawEscape ++ cp '"' :: r) = some (s.map rawUnit, r) := by
  induction s with
  | nil => exact scanUnits_close r
  | cons c s ih => rw [List.flatMap_cons, List.append_assoc, scanUnits_rawEscape, ih, List.map_cons]; rfl

/-- An escaped character is no surrogate, so nothing is joined. -/
theorem joinPairs_raw (s : Str) : joinPairs (s.map rawUnit) = s := by
  induction s with
  | nil => rfl
  | cons c s ih =>
    rw [List.map_cons]
    generalize s.map rawUnit = units at ih ⊢
    unfold rawUnit
    split
    · rw [joinPairs, ih]
    · split
      · rename_i control
        rw [joinPairs_escaped, ih]
        intro l rest _
        have low : isHighSurrogate c = false := by
          simp only [isHighSurrogate, Bool.and_eq_false_iff, decide_eq_false_iff_not]
          omega
        rw [low, Bool.false_and]
      · rw [joinPairs, ih]

/-- The characters that UTF-8 has. -/
def rawQuoting : Quoting where
  quote := rawQuote
  fits := Scalars
  head _ := ⟨_, rfl⟩
  reads {s t body} _ starts := by
    have same : s.flatMap rawEscape ++ cp '"' :: t = body := by
      have tail : s.flatMap rawEscape ++ [cp '"'] ++ t = body := List.tail_eq_of_cons_eq starts
      rw [List.append_assoc] at tail
      exact tail
    rw [← same]
    simp only [scanString, scanUnits_raw, Option.bind_eq_bind, Option.bind_some, Option.pure_def, joinPairs_raw]

/-! ### Lengths -/

theorem scalars_rawEscape {c : CodePoint} (scalar : isSurrogate c = false) : Scalars (rawEscape c) := by
  unfold rawEscape
  split
  · rename_i e short
    have every : shortEscapes.all (fun p => !isSurrogate p.2) = true := by decide
    have plain : isSurrogate e = false := by simpa using List.all_eq_true.mp every _ (Dict.mem_of_lookup short)
    exact scalars_cons.mpr ⟨by decide, scalars_cons.mpr ⟨plain, scalars_nil⟩⟩
  · split
    · rename_i control
      have low : ∀ n < 0x20, Scalars (escapeUnit n) := by
        intro n below
        interval_cases n <;> exact Printable.scalars (by decide)
      exact low c.val control
    · exact scalars_cons.mpr ⟨scalar, scalars_nil⟩

theorem rawEscape_surrogate {c : CodePoint} (surrogate : isSurrogate c = true) : rawEscape c = [c] := by
  have value : 0xd800 ≤ c.val := by
    unfold isSurrogate at surrogate
    exact of_decide_eq_true (Bool.and_eq_true_iff.mp surrogate).1
  unfold rawEscape
  rw [lookup_shortEscapes (by omega)]
  exact if_neg (by omega)

/-- Quoting leaves surrogates as they are, and makes none. -/
theorem scalars_rawQuote {s : Str} : Scalars (rawQuote s) ↔ Scalars s := by
  have mark : isSurrogate (cp '"') = false := by decide
  have body : Scalars (s.flatMap rawEscape) ↔ Scalars s := by
    induction s with
    | nil => exact Iff.rfl
    | cons c s ih =>
      rw [List.flatMap_cons, scalars_append, ih, scalars_cons]
      refine and_congr_left fun _ => ⟨?_, scalars_rawEscape⟩
      intro escaped
      by_contra other
      have surrogate : isSurrogate c = true := by simpa using other
      rw [rawEscape_surrogate surrogate] at escaped
      exact other (escaped c List.mem_cons_self)
  unfold rawQuote
  rw [List.cons_append, scalars_cons, scalars_append, body]
  simp [mark, scalars_cons, scalars_nil]

theorem length_rawQuote (s : Str) : s.length < (rawQuote s).length := by
  have escaped (c : CodePoint) : 1 ≤ (rawEscape c).length := by
    unfold rawEscape
    split
    · exact Nat.le_add_left 1 1
    · split
      · unfold escapeUnit
        simp
      · exact le_refl 1
  have body : s.length ≤ (s.flatMap rawEscape).length := by
    induction s with
    | nil => exact le_refl 0
    | cons c s ih =>
      have one := escaped c
      rw [List.flatMap_cons, List.length_append, List.length_cons]
      omega
  unfold rawQuote
  rw [List.length_append, List.length_cons]
  omega

/-! ### Integers -/

section Integers

variable {F : Type}

mutual
/-- Putting members in order, and keeping the last of equal keys, leaves no other integer. -/
theorem shortInts_sortMembers : ∀ v : Json F, shortInts v = true → shortInts (sortMembers v) = true
  | .null => (congrArg shortInts (by rw [sortMembers])).trans
  | .bool _ => (congrArg shortInts (by rw [sortMembers])).trans
  | .int _ => (congrArg shortInts (by rw [sortMembers])).trans
  | .float _ => (congrArg shortInts (by rw [sortMembers])).trans
  | .str _ => (congrArg shortInts (by rw [sortMembers])).trans
  | .arr items => by
    intro h
    rw [shortInts] at h
    rw [sortMembers, shortInts]
    exact shortInts_sortItems items h
  | .obj fields => by
    intro h
    rw [shortInts] at h
    have sorted := shortInts_sortFields fields h
    rw [shortIntFields_eq, List.all_eq_true] at sorted
    rw [sortMembers, shortInts, shortIntFields_eq, List.all_eq_true]
    exact fun e mem => sorted e (Dict.mem_ofPairs mem)

theorem shortInts_sortItems : ∀ items : List (Json F), shortIntItems items = true → shortIntItems (sortItems items) = true
  | [] => (congrArg shortIntItems (by rw [sortItems])).trans
  | v :: items => by
    intro h
    rw [shortIntItems, Bool.and_eq_true] at h
    rw [sortItems, shortIntItems, shortInts_sortMembers v h.1, shortInts_sortItems items h.2, Bool.and_self]

theorem shortInts_sortFields :
    ∀ fields : List (Str × Json F), shortIntFields fields = true → shortIntFields (sortFields fields) = true
  | [] => (congrArg shortIntFields (by rw [sortFields])).trans
  | (k, v) :: fields => by
    intro h
    rw [shortIntFields, Bool.and_eq_true] at h
    rw [sortFields, shortIntFields, shortInts_sortMembers v h.1, shortInts_sortFields fields h.2, Bool.and_self]
end

end Integers

/-! ### Characters and lengths -/

section Characters

variable {F : Type} [FloatText F]

theorem scalars_lineBreak (level : Nat) : Scalars (lineBreak level) := by
  unfold lineBreak
  refine scalars_cons.mpr ⟨by decide, ?_⟩
  intro c mem
  rw [(List.mem_replicate.mp mem).2]
  decide

/-- Only what is quoted can have a surrogate. -/
theorem scalars_pretty {q : Quoting} {fits : Str → Prop} (quoted : ∀ s, fits s → Scalars (q.quote s)) {v : Json F}
    (texts : Texts fits v) (level : Nat) : Scalars (pretty q level v) := by
  have closed (level : Nat) (c : Char) : Scalars (lineBreak level ++ [cp c]) :=
    scalars_append.mpr ⟨scalars_lineBreak level, scalars_cons.mpr ⟨scalar_cp c, scalars_nil⟩⟩
  induction texts generalizing level with
  | null => rw [pretty]; exact (dumps_printable _).scalars
  | bool _ => rw [pretty]; exact (dumps_printable _).scalars
  | int _ => rw [pretty]; exact (dumps_printable _).scalars
  | float _ => rw [pretty]; exact (dumps_printable _).scalars
  | str fits => rw [pretty]; exact quoted _ fits
  | arr texts ih =>
    rename_i items
    have tail : ∀ rest ⊆ items, Scalars (prettyItems q level rest) := by
      intro rest inside
      induction rest with
      | nil => rw [prettyItems]; exact closed level ']'
      | cons v rest rest_ih =>
        have first := ih v (inside List.mem_cons_self) (level + 1)
        have later := rest_ih (List.subset_of_cons_subset inside)
        rw [prettyItems, scalars_cons, scalars_append, scalars_append]
        exact ⟨scalar_cp ',', ⟨scalars_lineBreak _, first⟩, later⟩
    cases items with
    | nil => rw [pretty]; exact (dumps_printable _).scalars
    | cons v items =>
      have first := ih v List.mem_cons_self (level + 1)
      rw [pretty, scalars_cons, scalars_append, scalars_append]
      exact ⟨scalar_cp '[', ⟨scalars_lineBreak _, first⟩, tail items (List.subset_cons_self _ _)⟩
  | obj keys texts ih =>
    rename_i fields
    have member (e : Str × Json F) (mem : e ∈ fields) : Scalars (lineBreak (level + 1) ++ q.quote e.1 ++
        cp ':' :: cp ' ' :: pretty q (level + 1) e.2) := by
      rw [scalars_append, scalars_append, scalars_cons, scalars_cons]
      exact ⟨⟨scalars_lineBreak _, quoted e.1 (keys e mem)⟩, scalar_cp ':', scalar_cp ' ', ih e mem (level + 1)⟩
    have tail : ∀ rest ⊆ fields, Scalars (prettyFields q level rest) := by
      intro rest inside
      induction rest with
      | nil => rw [prettyFields]; exact closed level '\x7d'
      | cons e rest rest_ih =>
        have later := rest_ih (List.subset_of_cons_subset inside)
        rw [prettyFields, scalars_cons, scalars_append]
        exact ⟨scalar_cp ',', member e (inside List.mem_cons_self), later⟩
    cases fields with
    | nil => rw [pretty]; exact (dumps_printable _).scalars
    | cons e fields =>
      rw [pretty, scalars_cons, scalars_append]
      exact ⟨scalar_cp '\x7b', member e List.mem_cons_self, tail fields (List.subset_cons_self _ _)⟩

end Characters

/-- The octets that a quoted text takes. -/
def quotedSize (s : Str) : Nat := utf8Length (rawQuote s)

theorem length_le_quotedSize (s : Str) : s.length ≤ quotedSize s :=
  ((length_rawQuote s).le).trans (length_le_utf8Length _)

/-- An ASCII character that stands for itself between quotes. -/
def isUnescaped (c : CodePoint) : Bool := 0x20 ≤ c.val && c.val < 0x80 && c ≠ cp '"' && c ≠ cp '\\'

theorem quotedSize_unescaped {s : Str} (plain : ∀ c ∈ s, isUnescaped c = true) : quotedSize s = s.length + 2 := by
  have char (c : CodePoint) (unescaped : isUnescaped c = true) :
      rawEscape c = [c] ∧ (encodeUtf8Char c).length = 1 := by
    simp only [isUnescaped, Bool.and_eq_true, decide_eq_true_eq] at unescaped
    obtain ⟨⟨⟨above, below⟩, noQuote⟩, noBackslash⟩ := unescaped
    have absent : c ∉ shortEscapes.map Prod.fst := by
      intro mem
      have keys : (shortEscapes.map Prod.fst).all (fun k => k = cp '"' ∨ k = cp '\\' ∨ k.val < 0x20) = true := by decide
      rcases of_decide_eq_true (List.all_eq_true.mp keys c mem) with quote | backslash | control
      · exact noQuote quote
      · exact noBackslash backslash
      · omega
    unfold rawEscape encodeUtf8Char
    rw [Dict.lookup_absent absent]
    dsimp only
    rw [if_neg (by omega), if_pos (by omega)]
    exact ⟨rfl, rfl⟩
  have body : utf8Length (s.flatMap rawEscape) = s.length := by
    induction s with
    | nil => rfl
    | cons c s ih =>
      obtain ⟨escaped, octet⟩ := char c (plain c List.mem_cons_self)
      have rest := ih fun d mem => plain d (List.mem_cons_of_mem _ mem)
      rw [List.flatMap_cons, escaped, List.singleton_append, utf8Length_cons, octet, rest, List.length_cons]
      omega
  unfold quotedSize rawQuote
  rw [List.cons_append, utf8Length_cons, utf8Length_append, body, show (encodeUtf8Char (cp '"')).length = 1 from rfl,
    show utf8Length [cp '"'] = 1 from rfl]
  omega

section Size

variable {F : Type} [FloatText F]

/-- What one member of an object takes: a brace or a comma, a line of its own, and the key. -/
def memberSize (level : Nat) (e : Str × Json F) : Nat :=
  2 * level + 6 + quotedSize e.1 + utf8Length (pretty rawQuoting (level + 1) e.2)

theorem utf8Length_lineBreak (level : Nat) : utf8Length (lineBreak level) = 2 * level + 1 := by
  have blanks : ∀ n, utf8Length (List.replicate n (cp ' ')) = n := by
    intro n
    induction n with
    | zero => rfl
    | succ n ih =>
      rw [List.replicate_succ, utf8Length_cons, ih]
      exact Nat.add_comm 1 n
  unfold lineBreak
  rw [utf8Length_cons, blanks]
  exact Nat.add_comm 1 _

theorem utf8Length_member (level : Nat) (e : Str × Json F) (first : CodePoint) (one : (encodeUtf8Char first).length = 1) :
    utf8Length (first :: (lineBreak (level + 1) ++ rawQuoting.quote e.1 ++ cp ':' :: cp ' ' ::
      pretty rawQuoting (level + 1) e.2)) = memberSize level e := by
  have colon : (encodeUtf8Char (cp ':')).length = 1 := rfl
  have space : (encodeUtf8Char (cp ' ')).length = 1 := rfl
  unfold memberSize quotedSize
  rw [utf8Length_cons, utf8Length_append, utf8Length_append, utf8Length_cons, utf8Length_cons, utf8Length_lineBreak, one,
    colon, space, show rawQuoting.quote e.1 = rawQuote e.1 from rfl]
  omega

theorem utf8Length_prettyFields (level : Nat) (fields : List (Str × Json F)) :
    utf8Length (prettyFields rawQuoting level fields) = (fields.map (memberSize level)).sum + 2 * level + 2 := by
  induction fields with
  | nil =>
    rw [prettyFields, utf8Length_append, utf8Length_lineBreak]
    exact (Nat.zero_add _).symm
  | cons e fields ih =>
    have member := utf8Length_member level e (cp ',') rfl
    rw [prettyFields, List.map_cons, List.sum_cons, ← member, ← List.cons_append, utf8Length_append, ih]
    omega

/-- The size of an object is the sum over its members. -/
theorem utf8Length_pretty_obj (level : Nat) (e : Str × Json F) (fields : List (Str × Json F)) :
    utf8Length (pretty rawQuoting level (.obj (e :: fields))) =
      ((e :: fields).map (memberSize level)).sum + 2 * level + 2 := by
  have member := utf8Length_member level e (cp '\x7b') rfl
  rw [pretty, ← List.cons_append, utf8Length_append, member, utf8Length_prettyFields, List.map_cons, List.sum_cons]
  omega

end Size

end Lib.Json
