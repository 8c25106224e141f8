import ModelGuard.Lib.Dict
import ModelGuard.Lib.Text

/-!
# JSON text

`dumps` is compact JSON with sorted keys and every character outside printable ASCII escaped;
`loads` is the matching decoder, lenient where it is: `NaN` and the infinities, lone surrogates,
repeated keys. Recursion depth and the length of an integer literal are not limited.
-/

namespace Lib

/-- The digits, point and exponent of a number, and whether it is a float. -/
structure NumberLexeme where
  text : Str
  isFloat : Bool

def isDigit (c : CodePoint) : Bool := 0x30 ≤ c.val && c.val ≤ 0x39

namespace Json

def isWs (c : CodePoint) : Bool := c == cp ' ' || c == cp '\t' || c == cp '\n' || c == cp '\r'

def skipWs (s : Str) : Str := s.dropWhile isWs

/-! ### Numbers -/

def lexInt : Str → Option (Str × Str)
  | [] => none
  | c :: rest =>
    if c = cp '0' then some ([c], rest)
    else if isDigit c then some (c :: rest.takeWhile isDigit, rest.dropWhile isDigit)
    else none

/-- A point and at least one digit, or nothing. -/
def lexFraction : Str → Str × Str
  | p :: d :: rest =>
    if p = cp '.' ∧ isDigit d then (p :: d :: rest.takeWhile isDigit, rest.dropWhile isDigit)
    else ([], p :: d :: rest)
  | s => ([], s)

/-- An exponent mark, an optional sign and at least one digit, or nothing. -/
def lexExponent : Str → Str × Str
  | e :: d :: rest =>
    if e = cp 'e' ∨ e = cp 'E' then
      if isDigit d then (e :: d :: rest.takeWhile isDigit, rest.dropWhile isDigit)
      else
        match rest with
        | d' :: rest' =>
          if (d = cp '+' ∨ d = cp '-') ∧ isDigit d' then
            (e :: d :: d' :: rest'.takeWhile isDigit, rest'.dropWhile isDigit)
          else ([], e :: d :: rest)
        | [] => ([], e :: d :: rest)
    else ([], e :: d :: rest)
  | s => ([], s)

def lexSign : Str → Str × Str
  | c :: rest => if c = cp '-' then ([c], rest) else ([], c :: rest)
  | [] => ([], [])

def lexNumber (s : Str) : Option (NumberLexeme × Str) := do
  let (sign, s) := lexSign s
  let (digits, s) ← lexInt s
  let (fraction, s) := lexFraction s
  let (exponent, s) := lexExponent s
  return (⟨sign ++ digits ++ fraction ++ exponent, !(fraction ++ exponent).isEmpty⟩, s)

def digitsValue (digits : Str) : Nat := digits.foldl (fun n c => 10 * n + (c.val - 0x30)) 0

/-- `int(text)` of an integer lexeme. -/
def intValue : Str → Int
  | c :: rest => if c = cp '-' then -(digitsValue rest : Int) else digitsValue (c :: rest)
  | [] => 0

def natText (n : Nat) : Str := (Nat.toDigits 10 n).map cp

/-- `int.__repr__`. -/
def intText (n : Int) : Str := if n < 0 then cp '-' :: natText n.natAbs else natText n.natAbs

end Json

/-- What JSON text shows of a type of floating-point numbers: three special values with spellings
of their own, and for every other value a text that reads back as that value. -/
class FloatText (F : Type) where
  nan : F
  inf : F
  negInf : F
  /-- The text `json.dumps` writes. -/
  repr : F → Str
  /-- `float(text)` of a float lexeme. -/
  read : Str → F
  /-- `x + 1`. -/
  succ : F → F
  repr_nan : repr nan = str "NaN"
  repr_inf : repr inf = str "Infinity"
  repr_negInf : repr negInf = str "-Infinity"
  lex_repr : ∀ x, x = nan ∨ x = inf ∨ x = negInf ∨
    Json.lexNumber (repr x) = some (⟨repr x, true⟩, []) ∧ read (repr x) = x

/-- The values with spellings of their own: all that is needed where a text holds no other float. -/
inductive SpecialFloat where
  | nan
  | inf
  | negInf
deriving DecidableEq

instance : FloatText SpecialFloat where
  nan := .nan
  inf := .inf
  negInf := .negInf
  repr
    | .nan => str "NaN"
    | .inf => str "Infinity"
    | .negInf => str "-Infinity"
  read _ := .nan
  succ x := x
  repr_nan := rfl
  repr_inf := rfl
  repr_negInf := rfl
  lex_repr x := by cases x <;> simp

/-- A decoded JSON value. An object is a finite map: nothing here depends on insertion order. -/
inductive Json (F : Type) where
  | null
  | bool (b : Bool)
  | int (n : Int)
  | float (x : F)
  | str (s : Str)
  | arr (items : List (Json F))
  | obj (fields : List (Str × Json F))

namespace Json

section Equality

variable {F : Type} [DecidableEq F]

mutual
/-- Equality of values, decided. -/
def same : Json F → Json F → Bool
  | .null, .null => true
  | .bool a, .bool b => a == b
  | .int a, .int b => a == b
  | .float a, .float b => a == b
  | .str a, .str b => a == b
  | .arr a, .arr b => sameItems a b
  | .obj a, .obj b => sameFields a b
  | _, _ => false

def sameItems : List (Json F) → List (Json F) → Bool
  | [], [] => true
  | v :: vs, w :: ws => same v w && sameItems vs ws
  | _, _ => false

def sameFields : List (Str × Json F) → List (Str × Json F) → Bool
  | [], [] => true
  | (k, v) :: vs, (l, w) :: ws => k == l && same v w && sameFields vs ws
  | _, _ => false
end

mutual
theorem same_iff : ∀ v w : Json F, same v w = true ↔ v = w
  | .null, w => by cases w <;> simp [same]
  | .bool a, w => by cases w <;> simp [same]
  | .int a, w => by cases w <;> simp [same]
  | .float a, w => by cases w <;> simp [same]
  | .str a, w => by cases w <;> simp [same]
  | .arr a, w => by cases w <;> simp [same, sameItems_iff a]
  | .obj a, w => by cases w <;> simp [same, sameFields_iff a]

theorem sameItems_iff : ∀ vs ws : List (Json F), sameItems vs ws = true ↔ vs = ws
  | [], ws => by cases ws <;> simp [sameItems]
  | v :: vs, ws => by cases ws <;> simp [sameItems, same_iff v, sameItems_iff vs]

theorem sameFields_iff : ∀ vs ws : List (Str × Json F), sameFields vs ws = true ↔ vs = ws
  | [], ws => by cases ws <;> simp [sameFields]
  | (k, v) :: vs, ws => by
    cases ws with
    | nil => simp [sameFields]
    | cons e ws => obtain ⟨l, w⟩ := e; simp [sameFields, same_iff v, sameFields_iff vs, Prod.ext_iff]
end

instance : DecidableEq (Json F) := fun v w => decidable_of_iff _ (same_iff v w)

end Equality

variable {F : Type} [FloatText F]

/-! ### Encoding -/

def hexDigit (n : Nat) : CodePoint := if n < 10 then Fin.ofNat _ (0x30 + n) else Fin.ofNat _ (0x57 + n)

/-- `\uXXXX`. -/
def escapeUnit (n : Nat) : Str :=
  [cp '\\', cp 'u', hexDigit (n / 4096 % 16), hexDigit (n / 256 % 16), hexDigit (n / 16 % 16), hexDigit (n % 16)]

def highSurrogate (c : CodePoint) : CodePoint := Fin.ofNat _ (0xd800 + (c.val - 0x10000) / 0x400 % 0x400)

def lowSurrogate (c : CodePoint) : CodePoint := Fin.ofNat _ (0xdc00 + (c.val - 0x10000) % 0x400)

/-- The escapes with a letter of their own. -/
def shortEscapes : List (CodePoint × CodePoint) :=
  [(cp '"', cp '"'), (cp '\\', cp '\\'), (cp '\x08', cp 'b'), (cp '\x0c', cp 'f'), (cp '\n', cp 'n'),
    (cp '\r', cp 'r'), (cp '\t', cp 't')]

def escapeChar (c : CodePoint) : Str :=
  match shortEscapes.lookup c with
  | some e => [cp '\\', e]
  | none =>
    if 0x20 ≤ c.val ∧ c.val ≤ 0x7e then [c]
    else if c.val < 0x10000 then escapeUnit c.val
    else escapeUnit (highSurrogate c).val ++ escapeUnit (lowSurrogate c).val

def quote (s : Str) : Str := cp '"' :: s.flatMap escapeChar ++ [cp '"']

mutual
/-- `json.dumps(v, sort_keys=True, separators=(",", ":"))`. -/
def dumps : Json F → Str
  | .null => Lib.str "null"
  | .bool true => Lib.str "true"
  | .bool false => Lib.str "false"
  | .int n => intText n
  | .float x => FloatText.repr x
  | .str s => quote s
  | .arr [] => Lib.str "[]"
  | .arr (v :: items) => cp '[' :: dumps v ++ dumpsItems items
  | .obj [] => Lib.str "\x7b\x7d"
  | .obj ((k, v) :: fields) => cp '\x7b' :: quote k ++ cp ':' :: dumps v ++ dumpsFields fields

def dumpsItems : List (Json F) → Str
  | [] => [cp ']']
  | v :: items => cp ',' :: dumps v ++ dumpsItems items

def dumpsFields : List (Str × Json F) → Str
  | [] => [cp '\x7d']
  | (k, v) :: fields => cp ',' :: quote k ++ cp ':' :: dumps v ++ dumpsFields fields
end

/-! ### Decoding -/

def hexValue (c : CodePoint) : Option Nat :=
  if isDigit c then some (c.val - 0x30)
  else if 0x61 ≤ c.val ∧ c.val ≤ 0x66 then some (c.val - 0x57)
  else if 0x41 ≤ c.val ∧ c.val ≤ 0x46 then some (c.val - 0x37)
  else none

def hexUnit (a b c d : CodePoint) : Option CodePoint := do
  return Fin.ofNat _ (((← hexValue a) * 4096 + (← hexValue b) * 256 + (← hexValue c) * 16 + (← hexValue d)) % 65536)

def shortEscape (e : CodePoint) : Option CodePoint :=
  if e = cp '/' then some e else (shortEscapes.find? fun p => p.2 = e).map Prod.fst

/-- One character of a string literal, and whether a `\uXXXX` escape gave it. -/
inductive CharUnit where
  | plain (c : CodePoint)
  | escaped (c : CodePoint)

/-- The characters of a literal up to its closing quote. -/
def scanUnits : Str → Option (List CharUnit × Str)
  | [] => none
  | c :: rest =>
    if c = cp '"' then some ([], rest)
    else if c = cp '\\' then
      match rest with
      | [] => none
      | e :: rest =>
        if e = cp 'u' then
          match rest with
          | a :: b :: c :: d :: rest => do
            let u ← hexUnit a b c d
            let (units, rest) ← scanUnits rest
            return (.escaped u :: units, rest)
          | _ => none
        else do
          let u ← shortEscape e
          let (units, rest) ← scanUnits rest
          return (.plain u :: units, rest)
    else if c.val < 0x20 then none
    else do
      let (units, rest) ← scanUnits rest
      return (.plain c :: units, rest)

def joinPair (h l : CodePoint) : CodePoint :=
  Fin.ofNat _ (0x10000 + (h.val - 0xd800) * 0x400 + (l.val - 0xdc00))

/-- Adjacent escapes of a high and a low surrogate are one character. -/
def joinPairs : List CharUnit → Str
  | [] => []
  | .plain c :: rest => c :: joinPairs rest
  | [.escaped c] => [c]
  | .escaped h :: .plain c :: rest => h :: c :: joinPairs rest
  | .escaped h :: .escaped l :: rest =>
    if isHighSurrogate h && isLowSurrogate l then joinPair h l :: joinPairs rest
    else h :: joinPairs (.escaped l :: rest)

def scanString (s : Str) : Option (Str × Str) := do
  let (units, rest) ← scanUnits s
  return (joinPairs units, rest)

/-- `c` at the head of the text, and what follows it. -/
def expect (c : CodePoint) : Str → Option Str
  | d :: rest => if d = c then some rest else none
  | [] => none

def literals : List (Str × Json F) :=
  [(Lib.str "null", .null), (Lib.str "true", .bool true), (Lib.str "false", .bool false),
    (Lib.str "NaN", .float FloatText.nan), (Lib.str "Infinity", .float FloatText.inf),
    (Lib.str "-Infinity", .float FloatText.negInf)]

/-- What follows `word` when the text starts with it. -/
def afterWord : Str → Str → Option Str
  | [], s => some s
  | c :: word, s => (expect c s).bind (afterWord word)

def scanLiteral (s : Str) : Option (Json F × Str) :=
  literals.findSome? fun l => (afterWord l.1 s).map fun rest => (l.2, rest)

def scanNumber (s : Str) : Option (Json F × Str) := do
  let (lexeme, rest) ← lexNumber s
  return (if lexeme.isFloat then .float (FloatText.read lexeme.text) else .int (intValue lexeme.text), rest)

mutual
def scanOnce : Nat → Str → Option (Json F × Str)
  | 0, _ => none
  | _ + 1, [] => none
  | fuel + 1, c :: rest =>
    if c = cp '"' then do
      let (s, rest) ← scanString rest
      return (.str s, rest)
    else if c = cp '[' then
      match expect (cp ']') (skipWs rest) with
      | some rest => some (.arr [], rest)
      | none => do
        let (items, rest) ← scanItems fuel (skipWs rest)
        return (.arr items, rest)
    else if c = cp '\x7b' then
      match expect (cp '\x7d') (skipWs rest) with
      | some rest => some (.obj [], rest)
      | none => do
        let (fields, rest) ← scanFields fuel (skipWs rest)
        return (.obj (Dict.ofPairs fields), rest)
    else (scanLiteral (c :: rest)).or (scanNumber (c :: rest))

/-- The items of an array up to its closing bracket. -/
def scanItems : Nat → Str → Option (List (Json F) × Str)
  | 0, _ => none
  | fuel + 1, s => do
    let (v, s) ← scanOnce fuel s
    match expect (cp ']') (skipWs s) with
    | some rest => return ([v], rest)
    | none =>
      let s ← expect (cp ',') (skipWs s)
      let (items, rest) ← scanItems fuel (skipWs s)
      return (v :: items, rest)

/-- The members of an object up to its closing brace. -/
def scanFields : Nat → Str → Option (List (Str × Json F) × Str)
  | 0, _ => none
  | fuel + 1, s => do
    let s ← expect (cp '"') s
    let (k, s) ← scanString s
    let s ← expect (cp ':') (skipWs s)
    let (v, s) ← scanOnce fuel (skipWs s)
    match expect (cp '\x7d') (skipWs s) with
    | some rest => return ([(k, v)], rest)
    | none =>
      let s ← expect (cp ',') (skipWs s)
      let (fields, rest) ← scanFields fuel (skipWs s)
      return ((k, v) :: fields, rest)
end

def byteOrderMark : CodePoint := 0xfeff

/-- `json.loads(s)`. Every nesting level consumes a character, so the fuel is never the limit. -/
def loads (s : Str) : Option (Json F) :=
  if s.head? = some byteOrderMark then none
  else
    match scanOnce (2 * s.length + 2) (skipWs s) with
    | some (v, rest) => if (skipWs rest).isEmpty then some v else none
    | none => none

/-- `data[key]`, on an object. -/
def get (key : Str) : Json F → Option (Json F)
  | .obj fields => fields.lookup key
  | _ => none

end Json
end Lib
