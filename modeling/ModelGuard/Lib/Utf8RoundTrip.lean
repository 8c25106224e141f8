import ModelGuard.Lib.Text
import Mathlib.Tactic.IntervalCases

/-!
# Decoding encoded text

What `encode("utf-8")` writes, strict decoding reads back, and each character takes one to four octets.
-/

namespace Lib

theorem decodeUtf8From_step {q q' : Utf8State} {b : UInt8} {out : Str} (step : utf8Step q b = some (q', out)) (bs : Bytes) :
    decodeUtf8From q (b :: bs) = (decodeUtf8From q' bs).map (out ++ ·) := by
  rw [decodeUtf8From, step]
  simp only [Option.bind_eq_bind, Option.bind_some, Option.pure_def]
  cases decodeUtf8From q' bs <;> rfl

theorem decodeUtf8From_quiet {q q' : Utf8State} {b : UInt8} (step : utf8Step q b = some (q', [])) (bs : Bytes) :
    decodeUtf8From q (b :: bs) = decodeUtf8From q' bs := by
  rw [decodeUtf8From_step step]
  cases decodeUtf8From q' bs <;> rfl

theorem toNat_ofNat {n : Nat} (h : n < 256) : (UInt8.ofNat n).toNat = n := by
  rw [UInt8.toNat_ofNat']
  exact Nat.mod_eq_of_lt h

/-! ### First octets -/

theorem utf8Step_lead_two {n : Nat} (low : 2 ≤ n) (high : n < 32) :
    utf8Step .start (UInt8.ofNat (0xc0 + n)) = some (.owed 1 n 0x80 0xbf, []) := by
  interval_cases n <;> rfl

theorem utf8Step_lead_three {n : Nat} (high : n < 16) :
    utf8Step .start (UInt8.ofNat (0xe0 + n)) =
      some (.owed 2 n (if n = 0 then 0xa0 else 0x80) (if n = 13 then 0x9f else 0xbf), []) := by
  interval_cases n <;> rfl

theorem utf8Step_lead_four {n : Nat} (high : n < 5) :
    utf8Step .start (UInt8.ofNat (0xf0 + n)) =
      some (.owed 3 n (if n = 0 then 0x90 else 0x80) (if n = 4 then 0x8f else 0xbf), []) := by
  interval_cases n <;> rfl

/-! ### Continuation octets -/

theorem decodeUtf8From_owed {need acc low high n : Nat} (more : 1 < need) (size : n < 64) (above : low ≤ 0x80 + n)
    (below : 0x80 + n ≤ high) (bs : Bytes) :
    decodeUtf8From (.owed need acc low high) (UInt8.ofNat (0x80 + n) :: bs) =
      decodeUtf8From (.owed (need - 1) (acc * 64 + n) 0x80 0xbf) bs := by
  have value : (UInt8.ofNat (0x80 + n)).toNat = 0x80 + n := toNat_ofNat (by omega)
  have step : utf8Step (.owed need acc low high) (UInt8.ofNat (0x80 + n)) =
      some (.owed (need - 1) (acc * 64 + n) 0x80 0xbf, []) := by
    unfold utf8Step
    dsimp only
    rw [value, if_pos ⟨above, below⟩, if_neg (by omega), show 0x80 + n - 0x80 = n by omega]
  exact decodeUtf8From_quiet step bs

theorem decodeUtf8From_last {c : CodePoint} {acc low high n : Nat} (size : n < 64) (above : low ≤ 0x80 + n)
    (below : 0x80 + n ≤ high) (same : acc * 64 + n = c.val) (bs : Bytes) :
    decodeUtf8From (.owed 1 acc low high) (UInt8.ofNat (0x80 + n) :: bs) = (decodeUtf8 bs).map (c :: ·) := by
  have value : (UInt8.ofNat (0x80 + n)).toNat = 0x80 + n := toNat_ofNat (by omega)
  have step : utf8Step (.owed 1 acc low high) (UInt8.ofNat (0x80 + n)) = some (.start, [c]) := by
    have sum : acc * 64 + (0x80 + n - 0x80) = c.val := by omega
    unfold utf8Step
    dsimp only
    rw [value, if_pos ⟨above, below⟩, if_pos (le_refl 1)]
    simp only [sum, c.isLt, dif_pos]
  exact decodeUtf8From_step step bs

/-! ### Characters -/

/-- The octets of a character that is no surrogate are read back as it. -/
theorem decodeUtf8_char {c : CodePoint} (scalar : isSurrogate c = false) (bs : Bytes) :
    decodeUtf8 (encodeUtf8Char c ++ bs) = (decodeUtf8 bs).map (c :: ·) := by
  have bound := c.isLt
  have apart : c.val < 0xd800 ∨ 0xdfff < c.val := by
    simp only [isSurrogate, Bool.and_eq_false_iff, decide_eq_false_iff_not] at scalar
    omega
  unfold encodeUtf8Char
  dsimp only
  show decodeUtf8From .start _ = _
  split_ifs with one two three
  · have value : (UInt8.ofNat c.val).toNat = c.val := toNat_ofNat (by omega)
    have step : utf8Step .start (UInt8.ofNat c.val) = some (.start, [c]) := by simp only [utf8Step, value, one, dif_pos]
    exact decodeUtf8From_step step bs
  · rw [List.cons_append, List.cons_append, List.nil_append,
      decodeUtf8From_quiet (utf8Step_lead_two (by omega) (by omega)),
      decodeUtf8From_last (c := c) (by omega) (by omega) (by omega) (by omega)]
  · rw [List.cons_append, List.cons_append, List.cons_append, List.nil_append,
      decodeUtf8From_quiet (utf8Step_lead_three (by omega)),
      decodeUtf8From_owed (by omega) (by omega) (by split <;> omega) (by split <;> omega),
      decodeUtf8From_last (c := c) (by omega) (by omega) (by omega) (by omega)]
  · rw [List.cons_append, List.cons_append, List.cons_append, List.cons_append, List.nil_append,
      decodeUtf8From_quiet (utf8Step_lead_four (by omega)),
      decodeUtf8From_owed (by omega) (by omega) (by split <;> omega) (by split <;> omega),
      decodeUtf8From_owed (by omega) (by omega) (by omega) (by omega),
      decodeUtf8From_last (c := c) (by omega) (by omega) (by omega) (by omega)]

/-- Strict decoding undoes encoding. -/
theorem decodeUtf8_encodeUtf8 {s : Str} {bs : Bytes} (h : encodeUtf8 s = some bs) : decodeUtf8 bs = some s := by
  unfold encodeUtf8 at h
  split at h
  · cases h
  · rename_i plain
    cases h
    have scalars : ∀ c ∈ s, isSurrogate c = false := by
      intro c mem
      by_contra other
      exact plain (List.any_eq_true.mpr ⟨c, mem, by simpa using other⟩)
    clear plain
    induction s with
    | nil => rfl
    | cons c s ih =>
      rw [List.flatMap_cons, decodeUtf8_char (scalars c List.mem_cons_self),
        ih fun d mem => scalars d (List.mem_cons_of_mem _ mem)]
      rfl

theorem encodeUtf8_some {s : Str} (scalars : Scalars s) : encodeUtf8 s = some (s.flatMap encodeUtf8Char) := by
  have plain : s.any isSurrogate = false := List.any_eq_false.mpr fun c mem => by rw [scalars c mem]; exact Bool.false_ne_true
  unfold encodeUtf8
  rw [if_neg (by rw [plain]; exact Bool.false_ne_true)]

theorem encodeUtf8_none {s : Str} (other : ¬Scalars s) : encodeUtf8 s = none := by
  unfold encodeUtf8
  rw [if_pos]
  by_contra plain
  apply other
  intro c mem
  by_contra surrogate
  exact plain (List.any_eq_true.mpr ⟨c, mem, by simpa using surrogate⟩)

/-! ### Lengths -/

/-- The number of octets of a text. -/
def utf8Length (s : Str) : Nat := (s.flatMap encodeUtf8Char).length

@[simp] theorem utf8Length_append (s t : Str) : utf8Length (s ++ t) = utf8Length s + utf8Length t := by
  unfold utf8Length
  rw [List.flatMap_append, List.length_append]

theorem utf8Length_cons (c : CodePoint) (s : Str) : utf8Length (c :: s) = (encodeUtf8Char c).length + utf8Length s := by
  unfold utf8Length
  rw [List.flatMap_cons, List.length_append]

theorem length_le_utf8Length (s : Str) : s.length ≤ utf8Length s := by
  induction s with
  | nil => exact Nat.zero_le _
  | cons c s ih =>
    have octets : 1 ≤ (encodeUtf8Char c).length := by
      unfold encodeUtf8Char
      dsimp only
      split_ifs <;> simp
    rw [utf8Length_cons, List.length_cons]
    omega

end Lib
