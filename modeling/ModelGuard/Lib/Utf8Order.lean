import ModelGuard.Lib.Text
import Mathlib.Data.List.Sort
import Mathlib.Data.UInt

/-!
# The order of UTF-8 texts

Comparing the octets of two texts compares their code points.
-/

namespace Lib

/-- The octets of a text. -/
def utf8Octets (s : Str) : Bytes := s.flatMap encodeUtf8Char

theorem ofNat_lt_ofNat {m n : Nat} (hm : m < 256) (hn : n < 256) : UInt8.ofNat m < UInt8.ofNat n ↔ m < n := by
  rw [UInt8.lt_iff_toNat_lt, UInt8.toNat_ofNat', UInt8.toNat_ofNat']
  omega

theorem ofNat_eq_ofNat {m n : Nat} (hm : m < 256) (hn : n < 256) : UInt8.ofNat m = UInt8.ofNat n ↔ m = n := by
  rw [← UInt8.toNat_inj, UInt8.toNat_ofNat', UInt8.toNat_ofNat']
  omega

theorem encodeUtf8Char_lt {c d : CodePoint} (h : c < d) (x y : Bytes) : encodeUtf8Char c ++ x < encodeUtf8Char d ++ y := by
  have value : c.val < d.val := h
  have bound := d.isLt
  unfold encodeUtf8Char
  dsimp only
  split_ifs <;> simp only [List.cons_append, List.nil_append, List.cons_lt_cons_iff] <;>
    simp (disch := omega) only [ofNat_lt_ofNat, ofNat_eq_ofNat] <;> omega

theorem utf8Octets_lt {s t : Str} (h : s < t) : utf8Octets s < utf8Octets t := by
  induction s generalizing t with
  | nil =>
    cases t with
    | nil => exact absurd h (lt_irrefl _)
    | cons d t =>
      have nonempty : encodeUtf8Char d ≠ [] := by
        unfold encodeUtf8Char
        dsimp only
        split_ifs <;> exact nofun
      obtain ⟨b, bs, split⟩ := List.exists_cons_of_ne_nil nonempty
      unfold utf8Octets
      rw [List.flatMap_cons, split]
      exact List.nil_lt_cons _ _
  | cons c s ih =>
    cases t with
    | nil => exact absurd h (List.not_lt_nil _)
    | cons d t =>
      unfold utf8Octets
      rw [List.flatMap_cons, List.flatMap_cons]
      rcases List.cons_lt_cons_iff.mp h with first | ⟨same, rest⟩
      · exact encodeUtf8Char_lt first _ _
      · rw [same]
        exact List.append_left_lt (ih rest)

theorem utf8Octets_le {s t : Str} : utf8Octets s ≤ utf8Octets t ↔ s ≤ t := by
  rw [← List.not_lt]
  constructor
  · intro h
    exact not_lt.mp fun less => h (utf8Octets_lt less)
  · intro h less
    rcases lt_or_eq_of_le h with more | same
    · exact List.lt_asymm less (utf8Octets_lt more)
    · exact List.lt_irrefl _ (same ▸ less)

/-- Sorting by octets is sorting by code points. -/
theorem insertionSort_utf8Octets (texts : List Str) :
    (texts.insertionSort fun s t => utf8Octets s ≤ utf8Octets t) = texts.insertionSort (· ≤ ·) := by
  have agrees := List.map_insertionSort (fun s t => utf8Octets s ≤ utf8Octets t) (fun s t : Str => s ≤ t) id texts
    fun s _ t _ => utf8Octets_le
  rwa [List.map_id, List.map_id] at agrees

end Lib
