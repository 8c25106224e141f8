import ModelGuard.Lib.Text
import Mathlib.Data.Nat.Digits.Lemmas

/-!
# DER

Lengths and INTEGERs of the distinguished encoding rules. Which contents an INTEGER has is stated of any octets,
apart from the encoder.
-/

namespace Lib.Der

/-! ### Numbers and octets -/

/-- The number that octets stand for, the highest first. -/
def natOfBytes (data : Bytes) : Nat := Nat.ofDigits 256 (data.reverse.map UInt8.toNat)

/-- The fewest octets of a number, none for zero. -/
def octets (n : Nat) : Bytes := (Nat.digits 256 n).reverse.map UInt8.ofNat

theorem natOfBytes_cons (b : UInt8) (rest : Bytes) :
    natOfBytes (b :: rest) = natOfBytes rest + 256 ^ rest.length * b.toNat := by
  unfold natOfBytes
  rw [List.reverse_cons, List.map_append, Nat.ofDigits_append, List.length_map, List.length_reverse]
  simp

theorem natOfBytes_lt (data : Bytes) : natOfBytes data < 256 ^ data.length := by
  have digit : ∀ d ∈ data.reverse.map UInt8.toNat, d < 256 := by
    intro d mem
    obtain ⟨b, -, same⟩ := List.mem_map.mp mem
    exact same ▸ b.toNat_lt
  have bound := Nat.ofDigits_lt_base_pow_length (by decide) digit
  rwa [List.length_map, List.length_reverse] at bound

theorem natOfBytes_octets (n : Nat) : natOfBytes (octets n) = n := by
  have octet (d : Nat) (mem : d ∈ Nat.digits 256 n) : (UInt8.toNat ∘ UInt8.ofNat) d = d :=
    UInt8.toNat_ofNat_of_lt (Nat.digits_lt_base (by decide) mem)
  unfold natOfBytes octets
  rw [← List.map_reverse, List.reverse_reverse, List.map_map, List.map_congr_left octet, List.map_id',
    Nat.ofDigits_digits]

theorem length_octets (n : Nat) : (octets n).length = (Nat.digits 256 n).length := by
  unfold octets
  rw [List.length_map, List.length_reverse]

/-- The fewest octets have no leading zero. -/
theorem octets_head {n : Nat} {b : UInt8} {rest : Bytes} (starts : octets n = b :: rest) : b ≠ 0 := by
  unfold octets at starts
  rcases List.eq_nil_or_concat (Nat.digits 256 n) with empty | ⟨init, d, split⟩
  · rw [empty] at starts
    cases starts
  · have positive : n ≠ 0 := by
      intro zero
      rw [zero, Nat.digits_zero] at split
      simp at split
    have last := Nat.getLast_digit_ne_zero 256 positive
    have below : d < 256 := Nat.digits_lt_base (b := 256) (m := n) (by decide) (by rw [split]; simp)
    simp only [split, List.concat_eq_append, List.getLast_append_singleton] at last
    simp only [split, List.concat_eq_append, List.reverse_append, List.reverse_singleton, List.singleton_append,
      List.map_cons, List.cons.injEq] at starts
    intro zero
    have value : (UInt8.ofNat d).toNat = d := UInt8.toNat_ofNat_of_lt below
    rw [starts.1, zero] at value
    exact last value.symm

/-! ### Lengths -/

/-- The length of some contents: one octet, or the number of octets that follow. -/
def lengthOctets (n : Nat) : Bytes :=
  if n < 0x80 then [UInt8.ofNat n] else UInt8.ofNat (0x80 + (octets n).length) :: octets n

/-- A length and what follows it. Only the shortest form counts. -/
def readLength : Bytes → Option (Nat × Bytes)
  | [] => none
  | b :: rest =>
    if b < 0x80 then some (b.toNat, rest)
    else
      let width := b.toNat - 0x80
      let n := natOfBytes (rest.take width)
      if lengthOctets n = b :: rest.take width then some (n, rest.drop width) else none

theorem readLength_lengthOctets {n : Nat} (fits : (octets n).length < 0x80) (rest : Bytes) :
    readLength (lengthOctets n ++ rest) = some (n, rest) := by
  unfold lengthOctets
  split
  · rename_i short
    have value : (UInt8.ofNat n).toNat = n := UInt8.toNat_ofNat_of_lt (show n < 256 by omega)
    have below : UInt8.ofNat n < 0x80 := UInt8.lt_iff_toNat_lt.mpr (by rw [value]; exact short)
    rw [List.singleton_append, readLength, if_pos below, value]
  · rename_i long
    have value : (UInt8.ofNat (0x80 + (octets n).length)).toNat = 0x80 + (octets n).length :=
      UInt8.toNat_ofNat_of_lt (show _ < 256 by omega)
    have above : ¬UInt8.ofNat (0x80 + (octets n).length) < 0x80 := by
      rw [UInt8.lt_iff_toNat_lt, value, show (0x80 : UInt8).toNat = 0x80 from rfl]
      omega
    have form : lengthOctets n = UInt8.ofNat (0x80 + (octets n).length) :: octets n := if_neg long
    rw [List.cons_append, readLength, if_neg above, value, Nat.add_sub_cancel_left]
    simp only [List.take_left, List.drop_left, natOfBytes_octets]
    rw [if_pos form]

theorem length_lengthOctets {n : Nat} (short : n < 0x80) : (lengthOctets n).length = 1 := by
  unfold lengthOctets
  rw [if_pos short, List.length_singleton]

/-! ### Tag, length, contents -/

def tlv (tag : UInt8) (content : Bytes) : Bytes := tag :: (lengthOctets content.length ++ content)

/-- The contents under a tag and what follows them. -/
def readTlv (tag : UInt8) : Bytes → Option (Bytes × Bytes)
  | [] => none
  | first :: data =>
    if first = tag then do
      let (n, rest) ← readLength data
      if n ≤ rest.length then some (rest.take n, rest.drop n) else none
    else none

theorem readTlv_tlv {content : Bytes} (short : content.length < 0x80) (tag : UInt8) (rest : Bytes) :
    readTlv tag (tlv tag content ++ rest) = some (content, rest) := by
  have fits : (octets content.length).length < 0x80 := by
    rw [length_octets]
    have few := (Nat.digits_length_le_iff (k := 1) (show 1 < 256 by decide) content.length).mpr (by omega)
    omega
  unfold tlv
  rw [List.cons_append, readTlv, if_pos rfl, List.append_assoc, readLength_lengthOctets fits]
  simp

theorem length_tlv {content : Bytes} (short : content.length < 0x80) (tag : UInt8) :
    (tlv tag content).length = content.length + 2 := by
  unfold tlv
  rw [List.length_cons, List.length_append, length_lengthOctets short]
  omega

/-! ### INTEGER -/

/-- The value in two's complement. -/
def twosComplement (content : Bytes) : Int :=
  if content.head?.any (0x80 ≤ ·) then natOfBytes content - 256 ^ content.length else natOfBytes content

/-- There is an octet, and the first nine bits are neither all zero nor all one. -/
def isMinimal : Bytes → Bool
  | [] => false
  | [_] => true
  | a :: b :: _ => !(a == 0 && b < 0x80) && !(a == 0xff && 0x80 ≤ b)

theorem isMinimal_iff {a b : UInt8} {rest : Bytes} :
    isMinimal (a :: b :: rest) = true ↔ (a = 0 → 0x80 ≤ b) ∧ (a = 0xff → b < 0x80) := by
  simp [isMinimal, UInt8.not_lt, UInt8.not_le, imp_iff_not_or]

/-- The contents that the value of an INTEGER has. -/
structure IsInteger (content : Bytes) (n : Int) : Prop where
  minimal : isMinimal content = true
  value : twosComplement content = n

def readInteger (content : Bytes) : Option Int := if isMinimal content then some (twosComplement content) else none

theorem readInteger_iff {content : Bytes} {n : Int} : readInteger content = some n ↔ IsInteger content n := by
  unfold readInteger
  constructor
  · intro h
    split at h
    · rename_i minimal
      exact ⟨minimal, Option.some.inj h⟩
    · cases h
  · intro ⟨minimal, value⟩
    rw [if_pos minimal, value]

/-- A number below `256 ^ k` takes at most one octet more, for its sign. -/
theorem IsInteger.length_le {content : Bytes} {n k : Nat} (h : IsInteger content n) (small : n < 256 ^ k) :
    content.length ≤ k + 1 := by
  obtain ⟨minimal, value⟩ := h
  match content with
  | [] => exact Nat.zero_le _
  | [_] => exact Nat.le_add_left 1 k
  | a :: b :: rest =>
    by_contra long
    have wide : k ≤ rest.length := by
      simp only [List.length_cons] at long
      omega
    have power : 256 ^ k ≤ 256 ^ rest.length := Nat.pow_le_pow_right (by decide) wide
    have bound := natOfBytes_lt (a :: b :: rest)
    unfold twosComplement at value
    rw [List.head?_cons, Option.any_some] at value
    split at value
    · have negative : (natOfBytes (a :: b :: rest) : Int) < 256 ^ (a :: b :: rest).length := by exact_mod_cast bound
      omega
    · rename_i positive
      have sum : natOfBytes (a :: b :: rest) = n := by exact_mod_cast value
      rw [natOfBytes_cons, natOfBytes_cons, List.length_cons, Nat.pow_succ] at sum
      have octet : 1 ≤ a.toNat ∨ 128 ≤ b.toNat := by
        rcases Nat.eq_zero_or_pos a.toNat with zero | nonzero
        · have second := (isMinimal_iff.mp minimal).1 (UInt8.toNat_inj.mp zero)
          exact Or.inr (UInt8.le_iff_toNat_le.mp second)
        · exact Or.inl nonzero
      rcases octet with first | second
      · have large := Nat.mul_le_mul_left (256 ^ rest.length * 256) first
        omega
      · have large := Nat.mul_le_mul_left (256 ^ rest.length) second
        omega

/-! ### The encoder -/

/-- The contents of the INTEGER of a number. -/
def integerContent (n : Nat) : Bytes :=
  match octets n with
  | [] => [0]
  | b :: rest => if 0x80 ≤ b then 0 :: b :: rest else b :: rest

theorem integerContent_isInteger (n : Nat) : IsInteger (integerContent n) n := by
  have value := natOfBytes_octets n
  unfold integerContent
  split
  · rename_i empty
    rw [empty] at value
    subst value
    exact ⟨rfl, rfl⟩
  · rename_i b rest starts
    rw [starts] at value
    have nonzero := octets_head starts
    split
    · rename_i high
      refine ⟨isMinimal_iff.mpr ⟨fun _ => high, nofun⟩, ?_⟩
      show (natOfBytes (0 :: b :: rest) : Int) = n
      rw [natOfBytes_cons, value]
      simp
    · rename_i low
      refine ⟨?_, ?_⟩
      · cases rest with
        | nil => rfl
        | cons c rest =>
          refine isMinimal_iff.mpr ⟨fun zero => (nonzero zero).elim, fun ones => ?_⟩
          subst ones
          exact (low (by decide)).elim
      · unfold twosComplement
        rw [List.head?_cons, Option.any_some, if_neg (by simpa using low), value]

end Lib.Der
