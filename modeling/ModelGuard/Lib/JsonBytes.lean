import ModelGuard.Lib.JsonJoin
import ModelGuard.Lib.JsonScan

/-!
# JSON text in octets

`json.loads` of octets guesses the encoding from the first of them, lets lone surrogates pass and refuses
integers of too many digits.
-/

namespace Lib.Json

/-- The encodings of a JSON text; those without an order of octets begin with a mark that tells it. -/
inductive Encoding where
  | utf8
  | utf8Sig
  | utf16
  | utf16le
  | utf16be
  | utf32
  | utf32le
  | utf32be
deriving DecidableEq

/-- `json.detect_encoding`. -/
def detectEncoding (b : Bytes) : Encoding :=
  if [0x00, 0x00, 0xfe, 0xff] <+: b ∨ [0xff, 0xfe, 0x00, 0x00] <+: b then .utf32
  else if [0xfe, 0xff] <+: b ∨ [0xff, 0xfe] <+: b then .utf16
  else if [0xef, 0xbb, 0xbf] <+: b then .utf8Sig
  else
    match b with
    | b₀ :: b₁ :: b₂ :: b₃ :: _ =>
      if b₀ = 0 then if b₁ ≠ 0 then .utf16be else .utf32be
      else if b₁ = 0 then if b₂ ≠ 0 ∨ b₃ ≠ 0 then .utf16le else .utf32le
      else .utf8
    | [b₀, b₁] => if b₀ = 0 then .utf16be else if b₁ = 0 then .utf16le else .utf8
    | _ => .utf8

/-- The steps of the strict decoder, and the octets that a lone surrogate would have. -/
def utf8PassStep : Utf8State → UInt8 → Option (Utf8State × Str)
  | .start, b => if b = 0xed then some (.owed 2 0xd 0x80 0xbf, []) else utf8Step .start b
  | q, b => utf8Step q b

def decodeUtf8PassFrom : Utf8State → Bytes → Option Str
  | .start, [] => some []
  | .owed .., [] => none
  | q, b :: bs => do
    let (q', out) ← utf8PassStep q b
    return out ++ (← decodeUtf8PassFrom q' bs)

def unit16 (high low : UInt8) : CodePoint :=
  ⟨high.toNat * 256 + low.toNat, by have := high.toNat_lt; have := low.toNat_lt; omega⟩

def units16 (big : Bool) : Bytes → Option Str
  | [] => some []
  | [_] => none
  | a :: b :: rest => (units16 big rest).map ((if big then unit16 a b else unit16 b a) :: ·)

def char32 (a b c d : UInt8) : Option CodePoint :=
  let n := ((a.toNat * 256 + b.toNat) * 256 + c.toNat) * 256 + d.toNat
  if h : n < 0x110000 then some ⟨n, h⟩ else none

def chars32 (big : Bool) : Bytes → Option Str
  | [] => some []
  | a :: b :: c :: d :: rest => do
    let char ← if big then char32 a b c d else char32 d c b a
    return char :: (← chars32 big rest)
  | _ => none

/-- `b.decode(encoding, "surrogatepass")`. -/
def decodePass (encoding : Encoding) (b : Bytes) : Option Str :=
  match encoding with
  | .utf8 => decodeUtf8PassFrom .start b
  | .utf8Sig => decodeUtf8PassFrom .start (b.drop 3)
  | .utf16 => (units16 (decide ([0xfe, 0xff] <+: b)) (b.drop 2)).map joinText
  | .utf16le => (units16 false b).map joinText
  | .utf16be => (units16 true b).map joinText
  | .utf32 => chars32 (decide ([0x00, 0x00, 0xfe, 0xff] <+: b)) (b.drop 4)
  | .utf32le => chars32 false b
  | .utf32be => chars32 true b

/-- `sys.get_int_max_str_digits()`. -/
def maxStrDigits : Nat := 4300

variable {F : Type}

mutual
/-- No integer has more digits than `int` reads. -/
def shortInts : Json F → Bool
  | .int n => n.natAbs < 10 ^ maxStrDigits
  | .arr items => shortIntItems items
  | .obj fields => shortIntFields fields
  | _ => true

def shortIntItems : List (Json F) → Bool
  | [] => true
  | v :: items => shortInts v && shortIntItems items

def shortIntFields : List (Str × Json F) → Bool
  | [] => true
  | (_, v) :: fields => shortInts v && shortIntFields fields
end

/-- `json.loads(b)`: none when it raises a `ValueError`. -/
def loadsBytes [FloatText F] (b : Bytes) : Option (Json F) := do
  let text ← decodePass (detectEncoding b) b
  let v ← loads text
  if shortInts v then some v else none

theorem shortIntItems_eq (items : List (Json F)) : shortIntItems items = items.all shortInts := by
  induction items with
  | nil => rfl
  | cons v items ih => rw [shortIntItems, ih, List.all_cons]

theorem shortIntFields_eq (fields : List (Str × Json F)) : shortIntFields fields = fields.all fun e => shortInts e.2 := by
  induction fields with
  | nil => rfl
  | cons e fields ih => rw [shortIntFields, ih, List.all_cons]

theorem decodeUtf8Pass_ascii {s : Str} (h : Ascii s) : decodeUtf8PassFrom .start (asciiBytes s) = some s := by
  induction s with
  | nil => rfl
  | cons c s ih =>
    obtain ⟨hc, hs⟩ := ascii_cons.mp h
    have value : (UInt8.ofNat c.val).toNat = c.val := by
      rw [UInt8.toNat_ofNat']
      omega
    have plain : UInt8.ofNat c.val ≠ 0xed := by
      intro same
      rw [same] at value
      have : (0xed : UInt8).toNat = 237 := rfl
      omega
    have tail : decodeUtf8PassFrom .start (asciiBytes s) = some s := ih hs
    simp only [asciiBytes, List.map_cons, decodeUtf8PassFrom, utf8PassStep, if_neg plain, utf8Step, value, hc, dif_pos,
      Option.bind_eq_bind, Option.bind_some]
    rw [show List.map (fun c : CodePoint => UInt8.ofNat c.val) s = asciiBytes s from rfl, tail]
    rfl

theorem ascii_octet_ne {c : CodePoint} (range : 0 < c.val ∧ c.val < 0x80) {b : UInt8} (other : b = 0 ∨ 0x80 ≤ b.toNat) :
    UInt8.ofNat c.val ≠ b := by
  intro same
  have value := congrArg UInt8.toNat same
  rw [UInt8.toNat_ofNat'] at value
  rcases other with zero | large
  · subst zero
    have none : (0 : UInt8).toNat = 0 := rfl
    omega
  · omega

theorem detectEncoding_ascii {c d : CodePoint} {s : Str} (hc : 0 < c.val ∧ c.val < 0x80) (hd : 0 < d.val ∧ d.val < 0x80) :
    detectEncoding (asciiBytes (c :: d :: s)) = .utf8 := by
  have zero : UInt8.ofNat c.val ≠ 0 := ascii_octet_ne hc (.inl rfl)
  have zero' : UInt8.ofNat d.val ≠ 0 := ascii_octet_ne hd (.inl rfl)
  have fe : UInt8.ofNat c.val ≠ 0xfe := ascii_octet_ne hc (.inr (by decide))
  have ff : UInt8.ofNat c.val ≠ 0xff := ascii_octet_ne hc (.inr (by decide))
  have ef : UInt8.ofNat c.val ≠ 0xef := ascii_octet_ne hc (.inr (by decide))
  have marks : ¬([0x00, 0x00, 0xfe, 0xff] <+: asciiBytes (c :: d :: s) ∨ [0xff, 0xfe, 0x00, 0x00] <+: asciiBytes (c :: d :: s)) ∧
      ¬([0xfe, 0xff] <+: asciiBytes (c :: d :: s) ∨ [0xff, 0xfe] <+: asciiBytes (c :: d :: s)) ∧
      ¬[0xef, 0xbb, 0xbf] <+: asciiBytes (c :: d :: s) := by
    unfold asciiBytes
    simp only [List.map_cons, List.cons_prefix_cons, not_or]
    exact ⟨⟨fun h => zero h.1.symm, fun h => ff h.1.symm⟩, ⟨fun h => fe h.1.symm, fun h => ff h.1.symm⟩, fun h => ef h.1.symm⟩
  unfold detectEncoding
  rw [if_neg marks.1, if_neg marks.2.1, if_neg marks.2.2]
  unfold asciiBytes
  rw [List.map_cons, List.map_cons]
  split
  · rename_i first second _ _ _ same
    obtain ⟨one, rest⟩ := List.cons.inj same
    obtain ⟨two, -⟩ := List.cons.inj rest
    subst one two
    rw [if_neg zero, if_neg zero']
  · rename_i first second same
    obtain ⟨one, rest⟩ := List.cons.inj same
    obtain ⟨two, -⟩ := List.cons.inj rest
    subst one two
    rw [if_neg zero, if_neg zero']
  · rfl

/-- ASCII text that does not begin with a null character is read as it stands. -/
theorem loadsBytes_ascii [FloatText F] {c d : CodePoint} {s : Str} (ascii : Ascii (c :: d :: s)) (hc : 0 < c.val) (hd : 0 < d.val) :
    (loadsBytes (asciiBytes (c :: d :: s)) : Option (Json F)) =
      (loads (c :: d :: s)).bind fun v => if shortInts v then some v else none := by
  obtain ⟨smallC, rest⟩ := ascii_cons.mp ascii
  obtain ⟨smallD, -⟩ := ascii_cons.mp rest
  unfold loadsBytes
  rw [detectEncoding_ascii ⟨hc, smallC⟩ ⟨hd, smallD⟩]
  unfold decodePass
  dsimp only
  rw [decodeUtf8Pass_ascii ascii]
  rfl

end Lib.Json
