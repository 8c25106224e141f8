import ModelGuard.Lib.JsonRoundTrip

/-!
# Split surrogate pairs

Escaped text does not tell a character outside the basic plane from the two surrogates that encode it.
Decoding gives the character.
-/

namespace Lib.Json

variable {F : Type}

/-- Every high surrogate followed by a low one becomes the character they stand for. -/
def joinText : Str → Str
  | [] => []
  | [c] => [c]
  | h :: l :: rest =>
    if isHighSurrogate h && isLowSurrogate l then joinPair h l :: joinText rest else h :: joinText (l :: rest)

theorem joinText_of_joined {s : Str} (joined : Joined s) : joinText s = s := by
  induction s using joinText.induct with
  | case1 => rfl
  | case2 c => rfl
  | case3 h l rest pair ih =>
    have apart := (List.isChain_cons_cons.mp joined).1
    rw [pair] at apart
    cases apart
  | case4 h l rest apart ih =>
    unfold joinText
    rw [if_neg apart, ih joined.of_cons]

theorem joined_str (s : String) : Joined (Lib.str s) := joined_of_scalars (scalars_str s)

theorem joinText_head_low {s rest : Str} {c : CodePoint} (h : joinText s = c :: rest) (low : isLowSurrogate c = true) :
    s.head? = some c := by
  match s with
  | [] => cases h
  | [d] =>
    cases h
    rfl
  | d :: l :: s =>
    unfold joinText at h
    split at h
    · rename_i pair
      have clean := joinPair_clean pair
      rw [(List.cons.inj h).1] at clean
      rw [surrogate_of_low clean] at low
      cases low
    · exact congrArg some (List.cons.inj h).1

theorem joinText_joined (s : Str) : Joined (joinText s) := by
  induction s using joinText.induct with
  | case1 => exact List.IsChain.nil
  | case2 c => exact List.IsChain.singleton c
  | case3 h l rest pair ih =>
    unfold joinText
    rw [if_pos pair]
    refine joined_cons (fun _ _ _ => ?_) ih
    rw [surrogate_of_high (joinPair_clean pair), Bool.false_and]
  | case4 h l rest apart ih =>
    unfold joinText
    rw [if_neg apart]
    refine joined_cons (fun d tail same => ?_) ih
    cases low : isLowSurrogate d with
    | false => rw [Bool.and_false]
    | true =>
      have head : some l = some d := joinText_head_low same low
      cases head
      rw [low] at apart
      simpa using apart

theorem lookup_shortEscapes {c : CodePoint} (h : 0x80 ≤ c.val) : shortEscapes.lookup c = none := by
  cases found : shortEscapes.lookup c with
  | none => rfl
  | some e =>
    obtain ⟨before, after, split, -⟩ := List.lookup_eq_some_iff.mp found
    have mem : (c, e) ∈ shortEscapes := split ▸ by simp
    have small : ∀ p ∈ shortEscapes, p.1.val < 0x80 := by
      simp only [shortEscapes, List.forall_mem_cons, List.not_mem_nil, false_implies, implies_true, and_true]
      decide
    have : c.val < 0x80 := small _ mem
    omega

theorem escapeChar_surrogate {c : CodePoint} (h : isSurrogate c = true) : escapeChar c = escapeUnit c.val := by
  simp only [isSurrogate, Bool.and_eq_true, decide_eq_true_eq] at h
  unfold escapeChar
  rw [lookup_shortEscapes (by omega)]
  dsimp only
  rw [if_neg (by omega), if_pos (by omega)]

theorem escapeChar_astral {c : CodePoint} (h : 0x10000 ≤ c.val) :
    escapeChar c = escapeUnit (highSurrogate c).val ++ escapeUnit (lowSurrogate c).val := by
  unfold escapeChar
  rw [lookup_shortEscapes (by omega)]
  dsimp only
  rw [if_neg (by omega), if_neg (by omega)]

/-- The character and its two surrogates are escaped alike. -/
theorem escapeChar_joinPair {h l : CodePoint} (pair : (isHighSurrogate h && isLowSurrogate l) = true) :
    escapeChar (joinPair h l) = escapeChar h ++ escapeChar l := by
  simp only [isHighSurrogate, isLowSurrogate, Bool.and_eq_true, decide_eq_true_eq] at pair
  have value : (joinPair h l).val = (0x10000 + (h.val - 0xd800) * 0x400 + (l.val - 0xdc00)) % 0x110000 := rfl
  have astral : 0x10000 ≤ (joinPair h l).val := by omega
  obtain ⟨high, low⟩ := surrogates_split (joinPair h l) astral
  have highVal : (highSurrogate (joinPair h l)).val = h.val := by omega
  have lowVal : (lowSurrogate (joinPair h l)).val = l.val := by omega
  have surrogates : isSurrogate h = true ∧ isSurrogate l = true := by
    simp only [isSurrogate, Bool.and_eq_true, decide_eq_true_eq]
    omega
  rw [escapeChar_surrogate surrogates.1, escapeChar_surrogate surrogates.2, escapeChar_astral astral, highVal, lowVal]

theorem quote_joinText (s : Str) : quote (joinText s) = quote s := by
  have body : (joinText s).flatMap escapeChar = s.flatMap escapeChar := by
    induction s using joinText.induct with
    | case1 => rfl
    | case2 c => rfl
    | case3 h l rest pair ih =>
      unfold joinText
      rw [if_pos pair, List.flatMap_cons, List.flatMap_cons, List.flatMap_cons, escapeChar_joinPair pair, ih,
        List.append_assoc]
    | case4 h l rest apart ih =>
      unfold joinText
      rw [if_neg apart, List.flatMap_cons, List.flatMap_cons, ih]
  unfold quote
  rw [body]

mutual
/-- The strings of a value joined; the keys of its objects stay as they are. -/
def joinStrings : Json F → Json F
  | .null => .null
  | .bool b => .bool b
  | .int n => .int n
  | .float x => .float x
  | .str s => .str (joinText s)
  | .arr items => .arr (joinItems items)
  | .obj fields => .obj (joinFields fields)

def joinItems : List (Json F) → List (Json F)
  | [] => []
  | v :: items => joinStrings v :: joinItems items

def joinFields : List (Str × Json F) → List (Str × Json F)
  | [] => []
  | (k, v) :: fields => (k, joinStrings v) :: joinFields fields
end

theorem joinItems_eq (items : List (Json F)) : joinItems items = items.map joinStrings := by
  induction items with
  | nil => rfl
  | cons v items ih => rw [joinItems, ih, List.map_cons]

theorem joinFields_eq (fields : List (Str × Json F)) :
    joinFields fields = fields.map fun e => (e.1, joinStrings e.2) := by
  induction fields with
  | nil => rfl
  | cons e fields ih => rw [joinFields, ih, List.map_cons]

variable [FloatText F]

mutual
/-- The text does not tell whether the strings are joined. -/
theorem dumps_joinStrings : ∀ v : Json F, dumps (joinStrings v) = dumps v
  | .null => rfl
  | .bool _ => rfl
  | .int _ => rfl
  | .float _ => rfl
  | .str s => quote_joinText s
  | .arr [] => rfl
  | .arr (v :: items) => by
    simp only [joinStrings, joinItems, dumps, dumps_joinStrings v, dumpsItems_joinItems items]
  | .obj [] => rfl
  | .obj ((k, v) :: fields) => by
    simp only [joinStrings, joinFields, dumps, dumps_joinStrings v, dumpsFields_joinFields fields]

theorem dumpsItems_joinItems : ∀ items : List (Json F), dumpsItems (joinItems items) = dumpsItems items
  | [] => rfl
  | v :: items => by simp only [joinItems, dumpsItems, dumps_joinStrings v, dumpsItems_joinItems items]

theorem dumpsFields_joinFields : ∀ fields : List (Str × Json F), dumpsFields (joinFields fields) = dumpsFields fields
  | [] => rfl
  | (k, v) :: fields => by simp only [joinFields, dumpsFields, dumps_joinStrings v, dumpsFields_joinFields fields]
end

end Lib.Json
