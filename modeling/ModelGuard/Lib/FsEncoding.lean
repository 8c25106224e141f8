import ModelGuard.Lib.Utf8RoundTrip

/-!
# Names as the file system stores them

`os.fsencode` writes UTF-8 and turns the surrogates that stand for stray octets back into them. A POSIX file
system limits the octets of a name.
-/

namespace Lib

/-- A surrogate that `surrogateescape` puts in the place of an octet. -/
def isEscape (c : CodePoint) : Bool := 0xdc80 ≤ c.val && c.val ≤ 0xdcff

def fsEncodeChar (c : CodePoint) : Bytes := if isEscape c then [UInt8.ofNat (c.val - 0xdc00)] else encodeUtf8Char c

/-- `s.encode("utf-8", "surrogateescape")`: none when a character has no octets. -/
def fsEncode (s : Str) : Option Bytes :=
  if s.any (fun c => isSurrogate c && !isEscape c) then none else some (s.flatMap fsEncodeChar)

/-- The number of octets of a name. -/
def fsLength (s : Str) : Nat := (s.flatMap fsEncodeChar).length

/-- Every character of the name has octets. -/
def FsEncodable (s : Str) : Prop := ∀ c ∈ s, (isSurrogate c && !isEscape c) = false

instance (s : Str) : Decidable (FsEncodable s) := inferInstanceAs (Decidable (∀ c ∈ s, _))

/-- One component of a path, as octets: what a POSIX file system with names of at most 255 octets takes. -/
structure LegalOctets (b : Bytes) : Prop where
  shown : b ≠ []
  notCurrent : b ≠ [0x2e]
  notParent : b ≠ [0x2e, 0x2e]
  slash : (0x2f : UInt8) ∉ b
  null : (0x00 : UInt8) ∉ b
  short : b.length ≤ 255

def LegalComponent (name : Str) : Prop := ∃ b, fsEncode name = some b ∧ LegalOctets b

theorem fsEncode_some {s : Str} {b : Bytes} : fsEncode s = some b ↔ FsEncodable s ∧ s.flatMap fsEncodeChar = b := by
  unfold fsEncode FsEncodable
  split
  · rename_i other
    refine ⟨nofun, fun h => ?_⟩
    obtain ⟨c, mem, surrogate⟩ := List.any_eq_true.mp other
    rw [h.1 c mem] at surrogate
    cases surrogate
  · rename_i plain
    rw [Option.some.injEq]
    have every : ∀ c ∈ s, (isSurrogate c && !isEscape c) = false := by
      intro c mem
      by_contra other
      exact plain (List.any_eq_true.mpr ⟨c, mem, by simpa using other⟩)
    exact ⟨fun h => ⟨every, h⟩, fun h => h.2⟩

theorem fsEncodable_append {s t : Str} : FsEncodable (s ++ t) ↔ FsEncodable s ∧ FsEncodable t := List.forall_mem_append

@[simp] theorem fsLength_append (s t : Str) : fsLength (s ++ t) = fsLength s + fsLength t := by
  unfold fsLength
  rw [List.flatMap_append, List.length_append]

/-! ### ASCII octets stand for themselves -/

theorem fsEncodeChar_ascii {c : CodePoint} (small : c.val < 0x80) : fsEncodeChar c = [UInt8.ofNat c.val] := by
  have plain : isEscape c = false := by
    unfold isEscape
    simp only [Bool.and_eq_false_iff, decide_eq_false_iff_not]
    omega
  unfold fsEncodeChar
  rw [if_neg (by rw [plain]; exact Bool.false_ne_true)]
  unfold encodeUtf8Char
  dsimp only
  rw [if_pos small]

theorem fsEncodeChar_high {c : CodePoint} (large : 0x80 ≤ c.val) : ∀ b ∈ fsEncodeChar c, 0x80 ≤ b.toNat := by
  have bound := c.isLt
  have value {n : Nat} (low : 0x80 ≤ n) (high : n < 256) : 0x80 ≤ (UInt8.ofNat n).toNat := by
    rw [toNat_ofNat high]
    exact low
  unfold fsEncodeChar
  split
  · rename_i escape
    unfold isEscape at escape
    simp only [Bool.and_eq_true, decide_eq_true_eq] at escape
    intro b mem
    rw [List.mem_singleton.mp mem]
    exact value (by omega) (by omega)
  · unfold encodeUtf8Char
    dsimp only
    split_ifs with one two three
    · omega
    · intro b mem
      simp only [List.mem_cons, List.not_mem_nil, or_false] at mem
      rcases mem with same | same <;> rw [same] <;> exact value (by omega) (by omega)
    · intro b mem
      simp only [List.mem_cons, List.not_mem_nil, or_false] at mem
      rcases mem with same | same | same <;> rw [same] <;> exact value (by omega) (by omega)
    · intro b mem
      simp only [List.mem_cons, List.not_mem_nil, or_false] at mem
      rcases mem with same | same | same | same <;> rw [same] <;> exact value (by omega) (by omega)

theorem fsEncodeChar_ne_nil (c : CodePoint) : fsEncodeChar c ≠ [] := by
  unfold fsEncodeChar encodeUtf8Char
  dsimp only
  split_ifs <;> exact List.cons_ne_nil _ _

theorem fsOctets_ascii {s : Str} (ascii : Ascii s) : s.flatMap fsEncodeChar = asciiBytes s := by
  induction s with
  | nil => rfl
  | cons c s ih =>
    obtain ⟨small, rest⟩ := ascii_cons.mp ascii
    rw [List.flatMap_cons, fsEncodeChar_ascii small, ih rest]
    rfl

theorem fsEncodable_ascii {s : Str} (ascii : Ascii s) : FsEncodable s := by
  intro c mem
  have small := ascii c mem
  have plain : isSurrogate c = false := by
    simp only [isSurrogate, Bool.and_eq_false_iff, decide_eq_false_iff_not]
    omega
  rw [plain, Bool.false_and]

theorem fsLength_ascii {s : Str} (ascii : Ascii s) : fsLength s = s.length := by
  unfold fsLength
  rw [fsOctets_ascii ascii]
  exact List.length_map ..

/-- A text whose octets are those of an ASCII text is that text. -/
theorem fsOctets_eq_ascii {s t : Str} (ascii : Ascii t) : s.flatMap fsEncodeChar = asciiBytes t ↔ s = t := by
  constructor
  · intro same
    have own : Ascii s := by
      intro c mem
      by_contra large
      obtain ⟨b, inChar⟩ := List.exists_mem_of_ne_nil _ (fsEncodeChar_ne_nil c)
      have high := fsEncodeChar_high (not_lt.mp large) b inChar
      have inText : b ∈ asciiBytes t := same ▸ List.mem_flatMap.mpr ⟨c, mem, inChar⟩
      obtain ⟨d, inT, octet⟩ := List.mem_map.mp inText
      have small := ascii d inT
      rw [← octet, toNat_ofNat (by omega)] at high
      omega
    rw [fsOctets_ascii own] at same
    exact asciiBytes_injOn own ascii same
  · intro same
    rw [same, fsOctets_ascii ascii]

theorem mem_fsOctets_ascii {s : Str} {c : CodePoint} (small : c.val < 0x80) :
    UInt8.ofNat c.val ∈ s.flatMap fsEncodeChar ↔ c ∈ s := by
  rw [List.mem_flatMap]
  constructor
  · intro ⟨d, mem, octet⟩
    by_cases plain : d.val < 0x80
    · rw [fsEncodeChar_ascii plain] at octet
      have same := congrArg UInt8.toNat (List.mem_singleton.mp octet)
      rw [toNat_ofNat (by omega), toNat_ofNat (by omega)] at same
      exact Fin.ext same ▸ mem
    · have high := fsEncodeChar_high (not_lt.mp plain) _ octet
      rw [toNat_ofNat (by omega)] at high
      omega
  · intro mem
    exact ⟨c, mem, by rw [fsEncodeChar_ascii small]; exact List.mem_singleton_self _⟩

/-- A component in terms of its characters. -/
theorem legalComponent_iff {s : Str} :
    LegalComponent s ↔ (s ≠ [] ∧ s ≠ str "." ∧ s ≠ str ".." ∧ cp '/' ∉ s ∧ cp '\x00' ∉ s) ∧
      FsEncodable s ∧ fsLength s ≤ 255 := by
  have empty : s.flatMap fsEncodeChar = [] ↔ s = [] := fsOctets_eq_ascii (t := []) (List.forall_mem_nil _)
  have current : s.flatMap fsEncodeChar = [0x2e] ↔ s = str "." := fsOctets_eq_ascii (t := str ".") (by decide)
  have parent : s.flatMap fsEncodeChar = [0x2e, 0x2e] ↔ s = str ".." := fsOctets_eq_ascii (t := str "..") (by decide)
  have slash : (0x2f : UInt8) ∈ s.flatMap fsEncodeChar ↔ cp '/' ∈ s :=
    mem_fsOctets_ascii (c := cp '/') (by decide)
  have null : (0x00 : UInt8) ∈ s.flatMap fsEncodeChar ↔ cp '\x00' ∈ s :=
    mem_fsOctets_ascii (c := cp '\x00') (by decide)
  unfold LegalComponent
  simp only [fsEncode_some]
  constructor
  · intro ⟨b, ⟨encodable, octets⟩, legal⟩
    subst octets
    obtain ⟨h₁, h₂, h₃, h₄, h₅, short⟩ := legal
    exact ⟨⟨h₁ ∘ empty.mpr, h₂ ∘ current.mpr, h₃ ∘ parent.mpr, h₄ ∘ slash.mpr, h₅ ∘ null.mpr⟩, encodable, short⟩
  · intro ⟨⟨h₁, h₂, h₃, h₄, h₅⟩, encodable, short⟩
    exact ⟨_, ⟨encodable, rfl⟩, h₁ ∘ empty.mp, h₂ ∘ current.mp, h₃ ∘ parent.mp, h₄ ∘ slash.mp, h₅ ∘ null.mp, short⟩

end Lib
