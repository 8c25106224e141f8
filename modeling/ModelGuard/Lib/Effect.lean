import Mathlib.Tactic.Common

/-!
# Programs that change a state and may raise

A program that raises keeps what it did to the state before. The rules say how a program ends, from how its
parts do.
-/

namespace Lib

/-- A program over the states `σ` that raises an `ε` or returns an `α`. -/
def Prog (ε σ α : Type) : Type := σ → Except ε α × σ

namespace Prog

variable {ε σ α β : Type}

protected def pure (a : α) : Prog ε σ α := fun s => (.ok a, s)

protected def bind (x : Prog ε σ α) (f : α → Prog ε σ β) : Prog ε σ β := fun s =>
  match x s with
  | (.ok a, next) => f a next
  | (.error e, next) => (.error e, next)

instance : Monad (Prog ε σ) where
  pure := Prog.pure
  bind := Prog.bind

def raise (e : ε) : Prog ε σ α := fun s => (.error e, s)

/-- A computation that leaves the state alone. -/
def ofExcept (x : Except ε α) : Prog ε σ α := fun s => (x, s)

def observe (f : σ → α) : Prog ε σ α := fun s => (.ok (f s), s)

def update (f : σ → σ) : Prog ε σ Unit := fun s => (.ok (), f s)

/-- `try: x except BaseException as e: handler(e)`. -/
def onError (x : Prog ε σ α) (handler : ε → Prog ε σ α) : Prog ε σ α := fun s =>
  match x s with
  | (.ok a, next) => (.ok a, next)
  | (.error e, next) => handler e next

/-- `try: x finally: cleanup`. An error of the cleanup replaces the outcome of `x`. -/
def andFinally (x : Prog ε σ α) (cleanup : Prog ε σ Unit) : Prog ε σ α := fun s =>
  match x s with
  | (outcome, next) =>
    match cleanup next with
    | (.ok (), last) => (outcome, last)
    | (.error e, last) => (.error e, last)

/-- `for a in l: f(a)`. -/
def forEach (f : α → Prog ε σ Unit) : List α → Prog ε σ Unit
  | [] => pure ()
  | a :: l => do
    f a
    forEach f l

theorem bind_of_ok {x : Prog ε σ α} {f : α → Prog ε σ β} {s next : σ} {a : α} (run : x s = (.ok a, next)) :
    (x >>= f) s = f a next := by
  show Prog.bind x f s = _
  unfold Prog.bind
  rw [run]

theorem bind_of_error {x : Prog ε σ α} {f : α → Prog ε σ β} {s next : σ} {e : ε} (run : x s = (.error e, next)) :
    (x >>= f) s = (.error e, next) := by
  show Prog.bind x f s = _
  unfold Prog.bind
  rw [run]

theorem bind_returned {x : Prog ε σ α} {f : α → Prog ε σ β} {s last : σ} {b : β} :
    (x >>= f) s = (.ok b, last) ↔ ∃ a next, x s = (.ok a, next) ∧ f a next = (.ok b, last) := by
  cases run : x s with
  | mk outcome next =>
    cases outcome with
    | ok a =>
      rw [bind_of_ok run]
      constructor
      · exact fun rest => ⟨a, next, rfl, rest⟩
      · intro ⟨a', next', same, rest⟩
        cases same
        exact rest
    | error e =>
      rw [bind_of_error run]
      exact ⟨nofun, nofun⟩

theorem ofExcept_ok_bind {a : α} {f : α → Prog ε σ β} : (ofExcept (.ok a) : Prog ε σ α) >>= f = f a := rfl

theorem bind_assoc {γ : Type} (x : Prog ε σ α) (f : α → Prog ε σ β) (g : β → Prog ε σ γ) :
    x >>= f >>= g = x >>= fun a => f a >>= g := by
  funext s
  cases run : x s with
  | mk outcome next =>
    cases outcome with
    | ok a =>
      have first : (x >>= f) s = f a next := bind_of_ok run
      rw [bind_of_ok run]
      cases run' : f a next with
      | mk outcome last =>
        cases outcome with
        | ok b => rw [bind_of_ok (first.trans run'), bind_of_ok run']
        | error e => rw [bind_of_error (first.trans run'), bind_of_error run']
    | error e =>
      have first : (x >>= f) s = (.error e, next) := bind_of_error run
      rw [bind_of_error run, bind_of_error first]

/-! ### How a program ends -/

/-- Run on `s`, the program returns with `ok` or raises with `failed`. -/
def Ends (x : Prog ε σ α) (s : σ) (ok : α → σ → Prop) (failed : ε → σ → Prop) : Prop :=
  match x s with
  | (.ok a, next) => ok a next
  | (.error e, next) => failed e next

variable {x : Prog ε σ α} {s : σ} {ok : α → σ → Prop} {failed : ε → σ → Prop}

theorem ends_of_eq_ok {a : α} {next : σ} (run : x s = (.ok a, next)) : Ends x s ok failed ↔ ok a next := by
  unfold Ends
  rw [run]

theorem ends_of_eq_error {e : ε} {next : σ} (run : x s = (.error e, next)) : Ends x s ok failed ↔ failed e next := by
  unfold Ends
  rw [run]

theorem Ends.returned (h : Ends x s ok failed) {a : α} {next : σ} (run : x s = (.ok a, next)) : ok a next :=
  (ends_of_eq_ok run).mp h

theorem Ends.raised (h : Ends x s ok failed) {e : ε} {next : σ} (run : x s = (.error e, next)) : failed e next :=
  (ends_of_eq_error run).mp h

/-- The outcome, with how it ended. -/
theorem Ends.cases (h : Ends x s ok failed) :
    (∃ a next, x s = (.ok a, next) ∧ ok a next) ∨ ∃ e next, x s = (.error e, next) ∧ failed e next := by
  cases run : x s with
  | mk outcome next =>
    cases outcome with
    | ok a => exact Or.inl ⟨a, next, rfl, h.returned run⟩
    | error e => exact Or.inr ⟨e, next, rfl, h.raised run⟩

theorem ends_iff : Ends x s ok failed ↔
    (∀ a next, x s = (.ok a, next) → ok a next) ∧ ∀ e next, x s = (.error e, next) → failed e next := by
  constructor
  · intro h
    exact ⟨fun _ _ run => h.returned run, fun _ _ run => h.raised run⟩
  · intro ⟨returned, raised⟩
    unfold Ends
    split
    · rename_i run
      exact returned _ _ run
    · rename_i run
      exact raised _ _ run

theorem Ends.mono {ok' : α → σ → Prop} {failed' : ε → σ → Prop} (h : Ends x s ok failed)
    (returned : ∀ a next, ok a next → ok' a next) (raised : ∀ e next, failed e next → failed' e next) :
    Ends x s ok' failed' := by
  rw [ends_iff] at h ⊢
  exact ⟨fun a next run => returned a next (h.1 a next run), fun e next run => raised e next (h.2 e next run)⟩

theorem Ends.and {ok' : α → σ → Prop} {failed' : ε → σ → Prop} (h : Ends x s ok failed) (h' : Ends x s ok' failed') :
    Ends x s (fun a next => ok a next ∧ ok' a next) fun e next => failed e next ∧ failed' e next := by
  rw [ends_iff] at h h' ⊢
  exact ⟨fun a next run => ⟨h.1 a next run, h'.1 a next run⟩, fun e next run => ⟨h.2 e next run, h'.2 e next run⟩⟩

/-! ### The rules -/

theorem ends_pure {a : α} : Ends (pure a : Prog ε σ α) s ok failed ↔ ok a s := Iff.rfl

theorem ends_raise {e : ε} : Ends (raise e : Prog ε σ α) s ok failed ↔ failed e s := Iff.rfl

theorem ends_observe {f : σ → α} : Ends (observe f : Prog ε σ α) s ok failed ↔ ok (f s) s := Iff.rfl

theorem ends_update {f : σ → σ} {ok : Unit → σ → Prop} : Ends (update f : Prog ε σ Unit) s ok failed ↔ ok () (f s) := Iff.rfl

theorem ends_ofExcept {value : Except ε α} (returned : ∀ a, value = .ok a → ok a s)
    (raised : ∀ e, value = .error e → failed e s) : Ends (ofExcept value) s ok failed := by
  cases value with
  | ok a => exact returned a rfl
  | error e => exact raised e rfl

theorem ends_bind_iff {f : α → Prog ε σ β} {ok : β → σ → Prop} :
    Ends (x >>= f) s ok failed ↔ Ends x s (fun a next => Ends (f a) next ok failed) failed := by
  show Ends (Prog.bind x f) s ok failed ↔ _
  unfold Ends Prog.bind
  cases x s with
  | mk outcome next => cases outcome <;> exact Iff.rfl

theorem ends_bind {f : α → Prog ε σ β} {ok : β → σ → Prop} {middle : α → σ → Prop} (first : Ends x s middle failed)
    (rest : ∀ a next, middle a next → Ends (f a) next ok failed) : Ends (x >>= f) s ok failed :=
  ends_bind_iff.mpr (first.mono rest fun _ _ h => h)

/-- When nothing is said of how it raises, only the last part matters. -/
theorem ends_bind_partial {f : α → Prog ε σ β} {ok : β → σ → Prop} (rest : ∀ a next, Ends (f a) next ok fun _ _ => True) :
    Ends (x >>= f) s ok fun _ _ => True :=
  ends_bind_iff.mpr (ends_iff.mpr ⟨fun a next _ => rest a next, fun _ _ _ => trivial⟩)

theorem ends_observe_bind {f : σ → α} {g : α → Prog ε σ β} {ok : β → σ → Prop} :
    Ends (observe f >>= g) s ok failed ↔ Ends (g (f s)) s ok failed := by
  rw [ends_bind_iff, ends_observe]

theorem ends_ofExcept_bind {value : Except ε α} {g : α → Prog ε σ β} {ok : β → σ → Prop}
    (returned : ∀ a, value = .ok a → Ends (g a) s ok failed) (raised : ∀ e, value = .error e → failed e s) :
    Ends (ofExcept value >>= g) s ok failed := by
  rw [ends_bind_iff]
  exact ends_ofExcept returned raised

theorem ends_onError {handler : ε → Prog ε σ α} {middle : ε → σ → Prop} (body : Ends x s ok middle)
    (handles : ∀ e next, middle e next → Ends (handler e) next ok failed) : Ends (onError x handler) s ok failed := by
  rcases body.cases with ⟨a, next, run, holds⟩ | ⟨e, next, run, holds⟩
  · have same : onError x handler s = (.ok a, next) := by
      unfold onError
      rw [run]
    exact (ends_of_eq_ok same).mpr holds
  · have same : onError x handler s = handler e next := by
      unfold onError
      rw [run]
    unfold Ends
    rw [same]
    exact handles e next holds

theorem ends_andFinally {cleanup : Prog ε σ Unit} {done : α → σ → Prop} {broken : ε → σ → Prop} (body : Ends x s done broken)
    (afterOk : ∀ a next, done a next → Ends cleanup next (fun _ last => ok a last) failed)
    (afterError : ∀ e next, broken e next → Ends cleanup next (fun _ last => failed e last) failed) :
    Ends (andFinally x cleanup) s ok failed := by
  rcases body.cases with ⟨a, next, run, holds⟩ | ⟨e, next, run, holds⟩
  · have last := afterOk a next holds
    unfold Ends andFinally at *
    rw [run]
    dsimp only
    cases ran : cleanup next with
    | mk outcome final =>
      rw [ran] at last
      cases outcome <;> exact last
  · have last := afterError e next holds
    unfold Ends andFinally at *
    rw [run]
    dsimp only
    cases ran : cleanup next with
    | mk outcome final =>
      rw [ran] at last
      cases outcome <;> exact last

/-- A loop keeps what each round of it keeps. -/
theorem ends_forEach {f : α → Prog ε σ Unit} {l : List α} {invariant : σ → Prop} (start : invariant s)
    (round : ∀ a ∈ l, ∀ s, invariant s → Ends (f a) s (fun _ next => invariant next) fun _ next => invariant next) :
    Ends (forEach f l) s (fun _ next => invariant next) fun _ next => invariant next := by
  induction l generalizing s with
  | nil => exact start
  | cons a l ih =>
    obtain ⟨first, rest⟩ := List.forall_mem_cons.mp round
    exact ends_bind (first s start) fun _ next holds => ih holds rest

/-! ### What every run keeps -/

section Moves

variable {R : σ → σ → Prop}

/-- However it ends, the program takes a state to one related to it. -/
def Moves (R : σ → σ → Prop) (x : Prog ε σ α) : Prop :=
  ∀ s, Ends x s (fun _ next => R s next) fun _ next => R s next

theorem moves_iff : Moves R x ↔ ∀ s, R s (x s).2 := by
  refine forall_congr' fun s => ?_
  unfold Ends
  cases x s with
  | mk outcome next => cases outcome <;> exact Iff.rfl

theorem moves_pure (refl : ∀ s, R s s) (a : α) : Moves R (pure a : Prog ε σ α) := fun s => refl s

theorem moves_raise (refl : ∀ s, R s s) (e : ε) : Moves R (raise e : Prog ε σ α) := fun s => refl s

theorem moves_observe (refl : ∀ s, R s s) (f : σ → α) : Moves R (observe f : Prog ε σ α) := fun s => refl s

theorem moves_ofExcept (refl : ∀ s, R s s) (value : Except ε α) : Moves R (ofExcept value : Prog ε σ α) :=
  moves_iff.mpr fun s => refl s

theorem moves_update {f : σ → σ} (step : ∀ s, R s (f s)) : Moves R (update f : Prog ε σ Unit) := fun s => step s

theorem moves_bind (trans : ∀ s t u, R s t → R t u → R s u) {f : α → Prog ε σ β} (first : Moves R x)
    (rest : ∀ a, Moves R (f a)) : Moves R (x >>= f) := by
  intro s
  rw [ends_bind_iff]
  refine (first s).mono (fun a t here => ?_) fun _ _ here => here
  exact (rest a t).mono (fun _ u there => trans s t u here there) fun _ u there => trans s t u here there

theorem moves_ofExcept_bind (refl : ∀ s, R s s) {value : Except ε α} {f : α → Prog ε σ β}
    (rest : ∀ a, value = .ok a → Moves R (f a)) : Moves R (ofExcept value >>= f) := by
  cases value with
  | ok a => exact rest a rfl
  | error e => exact fun s => refl s

theorem moves_onError (trans : ∀ s t u, R s t → R t u → R s u) {handler : ε → Prog ε σ α} (body : Moves R x)
    (handles : ∀ e, Moves R (handler e)) : Moves R (onError x handler) := by
  intro s
  refine ends_onError (body s) fun e t here => ?_
  exact (handles e t).mono (fun _ u there => trans s t u here there) fun _ u there => trans s t u here there

theorem moves_forEach (refl : ∀ s, R s s) (trans : ∀ s t u, R s t → R t u → R s u) {f : α → Prog ε σ Unit} {l : List α}
    (round : ∀ a ∈ l, Moves R (f a)) : Moves R (forEach f l) := by
  intro s
  refine ends_forEach (refl s) fun a mem t here => ?_
  exact (round a mem t).mono (fun _ u there => trans s t u here there) fun _ u there => trans s t u here there

end Moves

end Prog

end Lib
