import ModelGuard.Lib.Json
import Mathlib.Data.List.Nodup
import Mathlib.Tactic.IntervalCases

/-!
# SHA-256

The digest is a parameter: any function from bytes to lower-case hexadecimal text. What a result
needs beyond that, such as the absence of collisions, it assumes by name.
-/

namespace ModelGuard

open Lib

/-- A character of `hexdigest()`. -/
def isHexDigit (c : CodePoint) : Bool := isDigit c || (0x61 ≤ c.val && c.val ≤ 0x66)

def IsHex (s : Str) : Prop := ∀ c ∈ s, isHexDigit c = true

/-- `hashlib.sha256(data).hexdigest()`. -/
structure Sha256 where
  hexdigest : Bytes → Str
  hex : ∀ data, IsHex (hexdigest data)

instance (s : Str) : Decidable (IsHex s) := decidable_of_iff (s.all isHexDigit = true) List.all_eq_true

theorem isHexDigit_iff {c : CodePoint} :
    isHexDigit c = true ↔ (0x30 ≤ c.val ∧ c.val ≤ 0x39) ∨ (0x61 ≤ c.val ∧ c.val ≤ 0x66) := by
  simp [isHexDigit, isDigit]

theorem IsHex.ascii {s : Str} (h : IsHex s) : Ascii s := fun c hc => by
  have := isHexDigit_iff.mp (h c hc)
  omega

theorem IsHex.scalars {s : Str} (h : IsHex s) : Scalars s := fun c hc => by
  have := isHexDigit_iff.mp (h c hc)
  simp only [isSurrogate, Bool.and_eq_false_iff, decide_eq_false_iff_not]
  omega

/-! ### A digest given by a table -/

def nibble (n : Nat) : CodePoint := if n < 10 then Fin.ofNat _ (0x30 + n) else Fin.ofNat _ (0x57 + n)

/-- `bytes.hex()`. -/
def hexText (data : Bytes) : Str := data.flatMap fun b => [nibble (b.toNat / 16), nibble (b.toNat % 16)]

theorem nibble_hex (n : Nat) (h : n < 16) : isHexDigit (nibble n) = true := by
  interval_cases n <;> decide

theorem nibble_inj {m n : Nat} (hm : m < 16) (hn : n < 16) (h : nibble m = nibble n) : m = n := by
  interval_cases m <;> interval_cases n <;> first | rfl | exact absurd h (by decide)

theorem hexText_hex (data : Bytes) : IsHex (hexText data) := by
  intro c hc
  obtain ⟨b, -, hb⟩ := List.mem_flatMap.mp hc
  have := b.toNat_lt
  simp only [List.mem_cons, List.not_mem_nil, or_false] at hb
  rcases hb with rfl | rfl
  · exact nibble_hex _ (by omega)
  · exact nibble_hex _ (by omega)

theorem hexText_injective : Function.Injective hexText := by
  intro a
  induction a with
  | nil =>
    intro b h
    cases b with
    | nil => rfl
    | cons y b => cases h
  | cons x a ih =>
    intro b h
    cases b with
    | nil => cases h
    | cons y b =>
      have hx := x.toNat_lt
      have hy := y.toNat_lt
      simp only [hexText, List.flatMap_cons, List.cons_append, List.nil_append, List.cons.injEq] at h
      have high := nibble_inj (by omega) (by omega) h.1
      have low := nibble_inj (by omega) (by omega) h.2.1
      have same : x = y := UInt8.toNat_inj.mp (by omega)
      rw [same, ih h.2.2]

theorem noEntries_hex : ∀ e ∈ ([] : List (Bytes × Str)), IsHex e.2 :=
  fun _ mem => (List.not_mem_nil mem).elim

/-- Known digests, and for other data a longer text that shows the data. -/
def Sha256.ofTable (table : List (Bytes × Str)) (hex : ∀ e ∈ table, IsHex e.2) : Sha256 where
  hexdigest data := (table.lookup data).getD (List.replicate 65 (cp 'f') ++ hexText data)
  hex data := by
    cases found : table.lookup data with
    | some digest =>
      obtain ⟨before, after, split, -⟩ := List.lookup_eq_some_iff.mp found
      exact hex (data, digest) (split ▸ by simp)
    | none =>
      intro c hc
      rcases List.mem_append.mp hc with hc | hc
      · rw [(List.mem_replicate.mp hc).2]
        decide
      · exact hexText_hex data c hc

theorem ofTable_cases (table : List (Bytes × Str)) (hex : ∀ e ∈ table, IsHex e.2) (data : Bytes) :
    (data, (Sha256.ofTable table hex).hexdigest data) ∈ table ∨
      (Sha256.ofTable table hex).hexdigest data = List.replicate 65 (cp 'f') ++ hexText data := by
  cases found : table.lookup data with
  | some digest =>
    obtain ⟨before, after, split, -⟩ := List.lookup_eq_some_iff.mp found
    have value : (Sha256.ofTable table hex).hexdigest data = digest := by simp [Sha256.ofTable, found]
    exact Or.inl (by rw [value, split]; simp)
  | none => exact Or.inr (by simp [Sha256.ofTable, found])

theorem ofTable_of_mem {table : List (Bytes × Str)} (hex : ∀ e ∈ table, IsHex e.2) (apart : (table.map (·.1)).Nodup)
    {data : Bytes} {digest : Str} (mem : (data, digest) ∈ table) : (Sha256.ofTable table hex).hexdigest data = digest := by
  have found : table.lookup data = some digest := by
    clear hex
    induction table with
    | nil => cases mem
    | cons e rest ih =>
      rw [List.map_cons, List.nodup_cons] at apart
      rw [List.lookup_cons]
      rcases List.mem_cons.mp mem with same | later
      · rw [← same]
        simp
      · have other : data ≠ e.1 := fun same => apart.1 (same ▸ List.mem_map.mpr ⟨_, later, rfl⟩)
        rw [beq_false_of_ne other]
        exact ih apart.2 later
  show (table.lookup data).getD _ = digest
  rw [found]
  rfl

/-- A table of distinct 64-character digests has no collision, inside or outside the table. -/
theorem ofTable_injective {table : List (Bytes × Str)} (hex : ∀ e ∈ table, IsHex e.2)
    (size : ∀ e ∈ table, e.2.length = 64) (apart : (table.map (·.2)).Nodup) :
    Function.Injective (Sha256.ofTable table hex).hexdigest := by
  intro a b h
  have long (data : Bytes) : (List.replicate 65 (cp 'f') ++ hexText data).length ≠ 64 := by
    rw [List.length_append, List.length_replicate]
    omega
  rcases ofTable_cases table hex a with ha | ha <;> rcases ofTable_cases table hex b with hb | hb
  · rw [← h] at hb
    exact congrArg Prod.fst (List.inj_on_of_nodup_map apart ha hb rfl)
  · exact (long b (by rw [← hb, ← h]; exact size _ ha)).elim
  · exact (long a (by rw [← ha, h]; exact size _ hb)).elim
  · rw [ha, hb, List.append_cancel_left_eq] at h
    exact hexText_injective h

theorem ofTable_fresh {table : List (Bytes × Str)} (hex : ∀ e ∈ table, IsHex e.2) {other : Str} (size : other.length = 64)
    (fresh : ∀ e ∈ table, e.2 ≠ other) (data : Bytes) : (Sha256.ofTable table hex).hexdigest data ≠ other := by
  rcases ofTable_cases table hex data with known | value
  · exact fresh _ known
  · rw [value]
    rintro rfl
    rw [List.length_append, List.length_replicate] at size
    omega

end ModelGuard
