import ModelGuard.Lib.Text

/-!
# Normalizing text
-/

namespace Lib

/-- `str.strip`. -/
def strip (s : Str) : Str := (s.dropWhile isSpace).rdropWhile isSpace

/-- `str.removeprefix`. -/
def removePrefix (start s : Str) : Str := if start.isPrefixOf s then s.drop start.length else s

def asciiLower (c : CodePoint) : CodePoint := if h : 0x41 ≤ c.val ∧ c.val ≤ 0x5a then ⟨c.val + 0x20, by omega⟩ else c

/-- `str.lower`, of which only the part below U+0080 is fixed here. -/
structure CaseTable where
  lower : Str → Str
  lower_ascii : ∀ s, Ascii s → lower s = s.map asciiLower

theorem strip_of_dense {s : Str} (dense : ∀ c ∈ s, isSpace c = false) : strip s = s := by
  have left : s.dropWhile isSpace = s := by
    cases s with
    | nil => rfl
    | cons c s => exact List.dropWhile_cons_of_neg (by simp [dense c List.mem_cons_self])
  unfold strip
  rw [left]
  cases reversed : s.reverse with
  | nil => rw [List.reverse_eq_nil_iff.mp reversed]; rfl
  | cons c rest =>
    have last : c ∈ s := List.mem_reverse.mp (reversed ▸ List.mem_cons_self)
    rw [List.rdropWhile, reversed, List.dropWhile_cons_of_neg (by simp [dense c last]), ← reversed, List.reverse_reverse]

theorem removePrefix_of_head {start s : Str} {c : CodePoint} (head : start.head? = some c) (foreign : c ∉ s) :
    removePrefix start s = s := by
  unfold removePrefix
  rw [if_neg]
  intro found
  obtain ⟨rest, split⟩ := List.isPrefixOf_iff_prefix.mp found
  exact foreign (split ▸ List.mem_append_left _ (List.mem_of_mem_head? head))

end Lib
