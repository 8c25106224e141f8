import ModelGuard.Lib.Text
import Mathlib.Data.List.Infix

/-!
# Shell patterns

`fnmatch.fnmatchcase`: the pattern is translated to single-character tests and stars, and must match
the whole text.
-/

namespace Lib.Fnmatch

/-- A piece of a translated pattern. -/
inductive Token where
  | star
  | one
  | never
  | char (c : CodePoint)
  /-- A bracket expression: the ranges, and whether it is negated. -/
  | set (negated : Bool) (ranges : List (CodePoint × CodePoint))

/-- A character of a bracket expression, or a hyphen that makes a range. -/
inductive SetItem where
  | lit (c : CodePoint)
  | dash

def bang : CodePoint := cp '!'

def hyphen : CodePoint := cp '-'

def close : CodePoint := cp ']'

def takeMark (c : CodePoint) (s : Str) : Str × Str :=
  if s.head? = some c then ([c], s.tail) else ([], s)

/-- The inside of a bracket expression and what follows its closing bracket. -/
def bracket (s : Str) : Option (Str × Str) :=
  let (negation, s) := takeMark bang s
  let (first, s) := takeMark close s
  match s.dropWhile (· ≠ close) with
  | [] => none
  | _ :: rest => some (negation ++ first ++ s.takeWhile (· ≠ close), rest)

/-- The inside split at the hyphens that make ranges; a hyphen next to an end makes none. -/
def chunks : Nat → Nat → Str → List Str
  | 0, _, s => [s]
  | fuel + 1, skip, s =>
    let body := (s.drop skip).takeWhile (· ≠ hyphen)
    match (s.drop skip).dropWhile (· ≠ hyphen) with
    | [] => [s]
    | _ :: [] => [s.take skip ++ body ++ [hyphen]]
    | _ :: rest => (s.take skip ++ body) :: chunks fuel 2 rest

/-- Ranges whose ends are out of order are dropped, from the last to the first. -/
def dropEmptyRanges : List Str → List Str
  | [] => []
  | c :: rest =>
    match dropEmptyRanges rest with
    | [] => [c]
    | d :: more =>
      match c.getLast?, d.head? with
      | some low, some high => if high < low then (c.dropLast ++ d.tail) :: more else c :: d :: more
      | _, _ => c :: d :: more

def joinChunks : List Str → List SetItem
  | [] => []
  | [c] => c.map .lit
  | c :: rest => c.map .lit ++ .dash :: joinChunks rest

def setItems (stuff : Str) : List SetItem :=
  if stuff.contains hyphen then
    joinChunks (dropEmptyRanges (chunks stuff.length (if stuff.head? = some bang then 2 else 1) stuff))
  else stuff.map .lit

def setRanges : List SetItem → List (CodePoint × CodePoint)
  | .lit a :: .dash :: .lit b :: rest => (a, b) :: setRanges rest
  | .lit a :: rest => (a, a) :: setRanges rest
  | .dash :: rest => (hyphen, hyphen) :: setRanges rest
  | [] => []

def setToken (stuff : Str) : Token :=
  match setItems stuff with
  | [] => .never
  | .lit c :: rest =>
    if c = bang then (if rest.isEmpty then .one else .set true (setRanges rest))
    else .set false (setRanges (.lit c :: rest))
  | items => .set false (setRanges items)

/-- Each step consumes a character, so the length of the pattern is enough fuel. -/
def translateFrom : Nat → Str → List Token
  | _, [] => []
  | 0, _ :: _ => []
  | fuel + 1, c :: rest =>
    if c = cp '*' then .star :: translateFrom fuel rest
    else if c = cp '?' then .one :: translateFrom fuel rest
    else if c = cp '[' then
      match bracket rest with
      | some (stuff, rest) => setToken stuff :: translateFrom fuel rest
      | none => .char c :: translateFrom fuel rest
    else .char c :: translateFrom fuel rest

def translate (pattern : Str) : List Token := translateFrom pattern.length pattern

def Token.admits : Token → CodePoint → Bool
  | .star, _ => false
  | .one, _ => true
  | .never, _ => false
  | .char c, d => c == d
  | .set negated ranges, d => (ranges.any fun r => r.1 ≤ d && d ≤ r.2) != negated

def matchTokens : List Token → Str → Bool
  | [], s => s.isEmpty
  | .star :: rest, s => s.tails.any (matchTokens rest)
  | _ :: _, [] => false
  | token :: rest, c :: s => token.admits c && matchTokens rest s

/-- `fnmatch.fnmatchcase(name, pattern)`. -/
def fnmatchcase (name pattern : Str) : Bool := matchTokens (translate pattern) name

example : fnmatchcase (str "org/model-7") (str "org/*-[0-9]") = true := by decide +kernel

example : fnmatchcase (str "a-c") (str "a[!x-z-]c") = false := by decide +kernel

/-- A pattern of stars and plain characters only. -/
theorem translateFrom_plain {s : Str} (plain : ∀ c ∈ s, c ≠ cp '*' ∧ c ≠ cp '?' ∧ c ≠ cp '[') {fuel : Nat}
    (enough : s.length ≤ fuel) : translateFrom fuel s = s.map .char := by
  induction s generalizing fuel with
  | nil => cases fuel <;> rfl
  | cons c s ih =>
    obtain ⟨star, one, open'⟩ := plain c List.mem_cons_self
    obtain ⟨n, rfl⟩ : ∃ n, fuel = n + 1 := ⟨fuel - 1, by simp only [List.length_cons] at enough; omega⟩
    have tail := ih (fun d hd => plain d (List.mem_cons_of_mem _ hd)) (Nat.le_of_succ_le_succ enough)
    rw [translateFrom, if_neg star, if_neg one, if_neg open', tail, List.map_cons]

/-- A pattern without special characters matches itself only. -/
theorem fnmatchcase_plain {name pattern : Str} (plain : ∀ c ∈ pattern, c ≠ cp '*' ∧ c ≠ cp '?' ∧ c ≠ cp '[') :
    fnmatchcase name pattern = true ↔ name = pattern := by
  rw [fnmatchcase, translate, translateFrom_plain plain (Nat.le_refl _)]
  clear plain
  induction pattern generalizing name with
  | nil => simp [matchTokens]
  | cons c pattern ih =>
    cases name with
    | nil => simp [matchTokens]
    | cons d name =>
      show (c == d && matchTokens (pattern.map .char) name) = true ↔ _
      rw [Bool.and_eq_true, beq_iff_eq, ih, List.cons.injEq]
      exact and_congr_left fun _ => eq_comm

/-- A lone star matches everything. -/
theorem fnmatchcase_star (name : Str) : fnmatchcase name (str "*") = true := by
  show (name.tails.any fun s => s.isEmpty) = true
  exact List.any_eq_true.mpr ⟨[], (List.mem_tails _ _).mpr List.nil_suffix, rfl⟩

end Lib.Fnmatch
