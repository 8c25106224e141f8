import Mathlib.Tactic.Common

/-!
# Computations that raise

Inversion of `Except` computations: what must have succeeded when the whole did.
-/

namespace Lib.Fallible

variable {ε α β : Type}

/-- `raise e` unless there is a value. -/
def orRaise (e : ε) : Option α → Except ε α
  | some a => .ok a
  | none => .error e

/-- `if not p: raise e`. -/
def ensure (p : Prop) [Decidable p] (e : ε) : Except ε Unit := if p then .ok () else .error e

theorem bind_ok {x : Except ε α} {f : α → Except ε β} {b : β} :
    x >>= f = .ok b ↔ ∃ a, x = .ok a ∧ f a = .ok b := by
  cases x with
  | error e => exact ⟨nofun, nofun⟩
  | ok a => exact ⟨fun h => ⟨a, rfl, h⟩, fun ⟨_, same, h⟩ => by cases same; exact h⟩

theorem pure_ok {a b : α} : (pure a : Except ε α) = .ok b ↔ a = b :=
  ⟨fun h => Except.ok.inj h, fun h => by rw [h]; rfl⟩

theorem throw_ok {e : ε} {a : α} : (throw e : Except ε α) = .ok a ↔ False :=
  ⟨nofun, False.elim⟩

theorem orRaise_ok {e : ε} {o : Option α} {a : α} : orRaise e o = .ok a ↔ o = some a := by
  cases o with
  | none => exact ⟨nofun, nofun⟩
  | some b => exact ⟨fun h => congrArg some (Except.ok.inj h), fun h => congrArg Except.ok (Option.some.inj h)⟩

@[simp] theorem orRaise_some_bind {e : ε} {a : α} {f : α → Except ε β} : orRaise e (some a) >>= f = f a := rfl

theorem ensure_ok {p : Prop} [Decidable p] {e : ε} {u : Unit} : ensure p e = .ok u ↔ p := by
  unfold ensure
  split <;> simp_all

theorem mapError_ok {ε' : Type} {g : ε → ε'} {x : Except ε α} {a : α} : x.mapError g = .ok a ↔ x = .ok a := by
  cases x with
  | error e => exact ⟨nofun, nofun⟩
  | ok b => exact ⟨fun h => congrArg Except.ok (Except.ok.inj h), fun h => congrArg Except.ok (Except.ok.inj h)⟩

/-! ### What may be raised -/

/-- Whatever is raised satisfies `P`. -/
def RaisesOnly (P : ε → Prop) (x : Except ε α) : Prop := ∀ e, x = .error e → P e

variable {P : ε → Prop}

@[simp] theorem raisesOnly_ok {a : α} : RaisesOnly P (.ok a : Except ε α) := nofun

@[simp] theorem raisesOnly_error {e : ε} : RaisesOnly P (.error e : Except ε α) ↔ P e :=
  ⟨fun h => h e rfl, fun h _ same => Except.error.inj same ▸ h⟩

theorem raisesOnly_iff {x : Except ε α} : RaisesOnly P x ↔ (∃ a, x = .ok a) ∨ ∃ e, P e ∧ x = .error e := by
  cases x with
  | ok a => simp
  | error e => simp

theorem raisesOnly_bind {x : Except ε α} {f : α → Except ε β} :
    RaisesOnly P (x >>= f) ↔ RaisesOnly P x ∧ ∀ a, x = .ok a → RaisesOnly P (f a) := by
  cases x with
  | error e =>
    constructor
    · intro h
      exact ⟨fun e' same => h e' (by cases same; rfl), nofun⟩
    · intro ⟨h, _⟩ e' same
      exact h e' (by cases same; rfl)
  | ok a =>
    constructor
    · intro h
      exact ⟨raisesOnly_ok, fun _ same => by cases same; exact h⟩
    · intro ⟨_, h⟩
      exact h a rfl

theorem raisesOnly_ensure {p : Prop} [Decidable p] {e : ε} : RaisesOnly P (ensure p e) ↔ (¬p → P e) := by
  unfold ensure
  split
  · rename_i holds
    simp [holds]
  · rename_i fails
    simp [fails]

theorem raisesOnly_mapError {ε' : Type} {P : ε' → Prop} {g : ε → ε'} {x : Except ε α} :
    RaisesOnly P (x.mapError g) ↔ RaisesOnly (fun e => P (g e)) x := by
  cases x with
  | ok a => exact iff_of_true raisesOnly_ok raisesOnly_ok
  | error e =>
    show RaisesOnly P (.error (g e) : Except ε' α) ↔ _
    rw [raisesOnly_error, raisesOnly_error]

/-- Where nothing raised satisfies `P`, only a value is left. -/
theorem raisesOnly_of_not {x : Except ε α} (never : RaisesOnly (fun e => ¬P e) x) : RaisesOnly P x ↔ ∃ a, x = .ok a := by
  cases x with
  | ok a => simp
  | error e => simp [raisesOnly_error.mp never]

theorem raisesOnly_orRaise {e : ε} {o : Option α} : RaisesOnly P (orRaise e o) ↔ (o = none → P e) := by
  cases o with
  | none => simp [orRaise]
  | some a => simp [orRaise]

/-! ### A loop that may raise -/

theorem mapM_ok_nil {f : α → Except ε β} {out : List β} : [].mapM f = .ok out ↔ out = [] := by
  rw [List.mapM_nil, pure_ok]
  exact eq_comm

theorem mapM_ok_cons {f : α → Except ε β} {a : α} {l : List α} {out : List β} :
    (a :: l).mapM f = .ok out ↔ ∃ b rest, f a = .ok b ∧ l.mapM f = .ok rest ∧ out = b :: rest := by
  simp only [List.mapM_cons, bind_ok, pure_ok]
  constructor
  · rintro ⟨b, hb, rest, hrest, rfl⟩
    exact ⟨b, rest, hb, hrest, rfl⟩
  · rintro ⟨b, rest, hb, hrest, rfl⟩
    exact ⟨b, hb, rest, hrest, rfl⟩

theorem raisesOnly_mapM {f : α → Except ε β} {l : List α} (each : ∀ a ∈ l, RaisesOnly P (f a)) :
    RaisesOnly P (l.mapM f) := by
  induction l with
  | nil => exact raisesOnly_ok
  | cons a l ih =>
    obtain ⟨first, others⟩ := List.forall_mem_cons.mp each
    rw [List.mapM_cons]
    refine raisesOnly_bind.mpr ⟨first, fun b _ => raisesOnly_bind.mpr ⟨ih others, fun rest _ => raisesOnly_ok⟩⟩

/-- The loop returns exactly when every call does. -/
theorem mapM_returns_iff {f : α → Except ε β} {l : List α} :
    (∃ out, l.mapM f = .ok out) ↔ ∀ a ∈ l, ∃ b, f a = .ok b := by
  induction l with
  | nil => exact ⟨fun _ => List.forall_mem_nil _, fun _ => ⟨[], rfl⟩⟩
  | cons a l ih =>
    rw [List.forall_mem_cons, ← ih]
    constructor
    · intro ⟨out, ran⟩
      obtain ⟨b, rest, first, others, -⟩ := mapM_ok_cons.mp ran
      exact ⟨⟨b, first⟩, rest, others⟩
    · intro ⟨⟨b, first⟩, rest, others⟩
      exact ⟨b :: rest, mapM_ok_cons.mpr ⟨b, rest, first, others, rfl⟩⟩

theorem mapM_ok_append {f : α → Except ε β} {l m : List α} {out : List β} :
    (l ++ m).mapM f = .ok out ↔ ∃ a b, l.mapM f = .ok a ∧ m.mapM f = .ok b ∧ out = a ++ b := by
  induction l generalizing out with
  | nil => simp [pure_ok]
  | cons x l ih =>
    simp only [List.cons_append, mapM_ok_cons, ih]
    constructor
    · rintro ⟨b, rest, hb, ⟨a, c, ha, hc, rfl⟩, rfl⟩
      exact ⟨b :: a, c, ⟨b, a, hb, ha, rfl⟩, hc, rfl⟩
    · rintro ⟨_, c, ⟨b, a, hb, ha, rfl⟩, hc, rfl⟩
      exact ⟨b, a ++ c, hb, ⟨a, c, ha, hc, rfl⟩, rfl⟩

theorem mapM_ok_mem {f : α → Except ε β} {l : List α} {out : List β} (h : l.mapM f = .ok out) :
    ∀ b ∈ out, ∃ a ∈ l, f a = .ok b := by
  induction l generalizing out with
  | nil =>
    cases mapM_ok_nil.mp h
    simp
  | cons x l ih =>
    obtain ⟨b, rest, hb, hrest, rfl⟩ := mapM_ok_cons.mp h
    intro c hc
    rcases List.mem_cons.mp hc with rfl | hc
    · exact ⟨x, List.mem_cons_self, hb⟩
    · obtain ⟨a, ha, value⟩ := ih hrest c hc
      exact ⟨a, List.mem_cons_of_mem _ ha, value⟩

end Lib.Fallible
