import Mathlib.Data.List.Forall2
import ModelGuard.Lib.Json

/-!
# Validation that collects every problem

A computation fails with the problems of all of its parts, each with the place it was found at.
-/

namespace Lib.Validation

variable {α β : Type}

structure Problem where
  loc : List Str
  message : Str
deriving DecidableEq

abbrev Validated (α : Type) := Except (List Problem) α

def problems : Validated α → List Problem
  | .ok _ => []
  | .error found => found

/-- A problem with the value itself. -/
def reject (message : Str) : Validated α := .error [{ loc := [], message }]

/-- Both values, or the problems of both. -/
def both (x : Validated α) (y : Validated β) : Validated (α × β) :=
  match x, y with
  | .ok a, .ok b => .ok (a, b)
  | x, y => .error (problems x ++ problems y)

theorem both_ok {x : Validated α} {y : Validated β} {p : α × β} : both x y = .ok p ↔ x = .ok p.1 ∧ y = .ok p.2 := by
  obtain ⟨a, b⟩ := p
  cases x with
  | error _ => exact ⟨nofun, fun h => by cases h.1⟩
  | ok _ =>
    cases y with
    | error _ => exact ⟨nofun, fun h => by cases h.2⟩
    | ok _ => simp [both]

/-- The problems of a part, seen from the whole. -/
def under (key : Str) : Validated α → Validated α
  | .ok a => .ok a
  | .error found => .error (found.map fun p => { p with loc := key :: p.loc })

theorem under_ok {key : Str} {x : Validated α} {a : α} : under key x = .ok a ↔ x = .ok a := by
  cases x with
  | ok _ => exact Iff.rfl
  | error _ => exact ⟨nofun, nofun⟩

/-- Every item, each under its index. -/
def each (read : α → Validated β) : Nat → List α → Validated (List β)
  | _, [] => .ok []
  | n, a :: as => (both (under (Json.natText n) (read a)) (each read (n + 1) as)).map fun p => p.1 :: p.2

theorem map_ok {x : Validated α} {f : α → β} {b : β} : x.map f = .ok b ↔ ∃ a, x = .ok a ∧ f a = b := by
  cases x with
  | error _ => exact ⟨nofun, fun ⟨_, h, _⟩ => by cases h⟩
  | ok a => simp [Except.map]

theorem each_ok {read : α → Validated β} {n : Nat} {as : List α} {bs : List β} :
    each read n as = .ok bs ↔ List.Forall₂ (fun a b => read a = .ok b) as bs := by
  induction as generalizing n bs with
  | nil => simp [each, eq_comm]
  | cons a as ih =>
    unfold each
    rw [map_ok]
    constructor
    · rintro ⟨⟨b, rest⟩, found, made⟩
      obtain ⟨first, others⟩ := both_ok.mp found
      rw [← made]
      exact .cons (under_ok.mp first) (ih.mp others)
    · intro h
      cases h with
      | cons first others => exact ⟨(_, _), both_ok.mpr ⟨under_ok.mpr first, ih.mpr others⟩, rfl⟩

/-- A value in which a check finds no problem. -/
def passing (problem : α → Option Str) (a : α) : Validated { a : α // problem a = none } :=
  match found : problem a with
  | none => .ok ⟨a, found⟩
  | some message => reject (str "Value error, " ++ message)

theorem passing_ok {problem : α → Option Str} {a : α} {b : { a : α // problem a = none }} :
    passing problem a = .ok b ↔ a = b.val := by
  unfold passing
  split
  · exact ⟨fun h => congrArg Subtype.val (Except.ok.inj h), fun h => congrArg Except.ok (Subtype.ext h)⟩
  · rename_i message found
    refine ⟨nofun, ?_⟩
    intro same
    rw [same, b.property] at found
    cases found

/-! ### Members of a mapping -/

variable {F : Type}

def lift : Except Str α → Validated α
  | .ok a => .ok a
  | .error message => reject message

/-- `null`, or what `read` accepts. -/
def optional (read : Json F → Validated α) : Json F → Validated (Option α)
  | .null => .ok none
  | v => (read v).map some

/-- A member, or `absent` where there is none. -/
def field (name : String) (absent : Validated α) (read : Json F → Validated α) (members : List (Str × Json F)) :
    Validated α :=
  match members.lookup (str name) with
  | some v => under (str name) (read v)
  | none => under (str name) absent

def required : Validated α := reject (str "Field required")

/-- No member but the given ones. -/
def noExtra (known : List Str) (members : List (Str × Json F)) : Validated Unit :=
  match members.filter (fun e => e.1 ∉ known) with
  | [] => .ok ()
  | extra => .error (extra.map fun e => { loc := [e.1], message := str "Extra inputs are not permitted" })

theorem field_present {name : String} {absent : Validated α} {read : Json F → Validated α} {members : List (Str × Json F)}
    {v : Json F} {a : α} (found : members.lookup (str name) = some v) :
    field name absent read members = .ok a ↔ read v = .ok a := by
  unfold field
  rw [found]
  exact under_ok

theorem field_absent {name : String} {absent : Validated α} {read : Json F → Validated α} {members : List (Str × Json F)}
    {a : α} (missing : members.lookup (str name) = none) : field name absent read members = .ok a ↔ absent = .ok a := by
  unfold field
  rw [missing]
  exact under_ok

theorem noExtra_ok {known : List Str} {members : List (Str × Json F)} {u : Unit} :
    noExtra known members = .ok u ↔ ∀ e ∈ members, e.1 ∈ known := by
  unfold noExtra
  split
  · rename_i none
    simpa using none
  · rename_i some
    constructor
    · intro raised
      cases raised
    · intro all
      exact (some (by simpa using all)).elim

/-- The first problems in one line, as error messages show them. -/
def render (found : List Problem) : Str :=
  (str "; ").intercalate ((found.take 8).map fun p =>
    (if p.loc.isEmpty then str "<root>" else (str ".").intercalate p.loc) ++ str ": " ++ p.message)

end Lib.Validation
