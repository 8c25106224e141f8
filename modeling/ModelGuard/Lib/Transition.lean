import Mathlib.Data.List.Forall2
import Mathlib.Logic.Relation

/-!
# Runs of a transition system
-/

namespace Lib.Transition

section Relation

variable {S : Type*} {step : S → S → Prop}

/-- What every step keeps holds after every run. -/
theorem holds_after {inv : S → Prop} (keeps : ∀ s s', inv s → step s s' → inv s') {s s' : S}
    (run : Relation.ReflTransGen step s s') (start : inv s) : inv s' := by
  induction run with
  | refl => exact start
  | tail _ last ih => exact keeps _ _ ih last

end Relation

section Function

variable {S I : Type*} {next : S → I → S} {inv : S → Prop} {breaks : S → I → Prop}

/-- What every input keeps, but for those that break it, holds in all states of a run exactly when no input of the
run breaks it. -/
theorem holds_along_iff {inputs : List I} (keeps : ∀ i ∈ inputs, ∀ s, inv s → ¬breaks s i → inv (next s i))
    (broken : ∀ s i, inv s → breaks s i → ¬inv (next s i)) {s : S} (start : inv s) :
    (∀ n, inv ((inputs.take n).foldl next s)) ↔
      ∀ n i, inputs[n]? = some i → ¬breaks ((inputs.take n).foldl next s) i := by
  have last {n : Nat} {i : I} (found : inputs[n]? = some i) :
      (inputs.take (n + 1)).foldl next s = next ((inputs.take n).foldl next s) i := by
    rw [List.take_add_one, found, List.foldl_append]
    rfl
  constructor
  · intro holds n i found breaking
    have after := holds (n + 1)
    rw [last found] at after
    exact broken _ i (holds n) breaking after
  · intro unbroken n
    induction n with
    | zero => exact start
    | succ n ih =>
      cases found : inputs[n]? with
      | none =>
        rw [List.take_add_one, found, Option.toList_none, List.append_nil]
        exact ih
      | some i =>
        rw [last found]
        exact keeps i (List.mem_of_getElem? found) _ ih (unbroken n i found)

end Function

/-! ### Machines that answer each input -/

section Machine

variable {S T I O P : Type}

/-- The answers to some inputs, one after the other. -/
def outputs (step : S → I → O × S) : S → List I → List O
  | _, [] => []
  | s, i :: rest => (step s i).1 :: outputs step (step s i).2 rest

def final (step : S → I → O × S) (s : S) (inputs : List I) : S := inputs.foldl (fun s i => (step s i).2) s

/-- Every input fits the state that it meets. -/
def Along (step : S → I → O × S) (fits : S → I → Prop) : S → List I → Prop
  | _, [] => True
  | s, i :: rest => fits s i ∧ Along step fits (step s i).2 rest

/-- Machines in related states that stay related answer alike. -/
theorem outputs_related {stepS : S → I → O × S} {stepT : T → I → P × T} (fits : S → I → Prop) {related : S → T → Prop}
    {alike : O → P → Prop}
    (keeps : ∀ s t i, related s t → fits s i → alike (stepS s i).1 (stepT t i).1 ∧ related (stepS s i).2 (stepT t i).2)
    {s : S} {t : T} (start : related s t) {inputs : List I} (along : Along stepS fits s inputs) :
    List.Forall₂ alike (outputs stepS s inputs) (outputs stepT t inputs) := by
  induction inputs generalizing s t with
  | nil => exact .nil
  | cons i rest ih =>
    obtain ⟨fitting, later⟩ := along
    obtain ⟨answers, next⟩ := keeps s t i start fitting
    exact .cons answers (ih next later)

/-- Each input is answered in some state that the machines come to. -/
theorem answered_of_related {stepS : S → I → O × S} {stepT : T → I → P × T} {alike : O → P → Prop} {s : S} {t : T}
    {inputs : List I} (h : List.Forall₂ alike (outputs stepS s inputs) (outputs stepT t inputs)) {i : I} (mem : i ∈ inputs) :
    ∃ s t, alike (stepS s i).1 (stepT t i).1 := by
  induction inputs generalizing s t with
  | nil => exact (List.not_mem_nil mem).elim
  | cons j rest ih =>
    obtain ⟨first, later⟩ := List.forall₂_cons.mp h
    rcases List.mem_cons.mp mem with same | mem
    · exact same ▸ ⟨s, t, first⟩
    · exact ih later mem

theorem mem_outputs {step : S → I → O × S} {s : S} {inputs : List I} {o : O} (mem : o ∈ outputs step s inputs) :
    ∃ t i, o = (step t i).1 := by
  induction inputs generalizing s with
  | nil => exact (List.not_mem_nil mem).elim
  | cons i rest ih =>
    rcases List.mem_cons.mp mem with same | later
    · exact ⟨s, i, same⟩
    · exact ih later

/-- What fits in every state that a growing measure of the last one covers. -/
theorem along_of_final {step : S → I → O × S} {fits : S → I → Prop} (below : S → S → Prop)
    (refl : ∀ s, below s s) (trans : ∀ s t u, below s t → below t u → below s u) (grows : ∀ s i, below s (step s i).2)
    {s : S} {inputs : List I} (fit : ∀ t, ∀ i ∈ inputs, below (step t i).2 (final step s inputs) → fits t i) :
    Along step fits s inputs := by
  have reaches : ∀ (rest : List I) (t : S), below t (final step t rest) := by
    intro rest
    induction rest with
    | nil => exact refl
    | cons i rest ih => exact fun t => trans _ _ _ (grows t i) (ih _)
  induction inputs generalizing s with
  | nil => trivial
  | cons i rest ih =>
    exact ⟨fit s i List.mem_cons_self (reaches rest _), ih fun t j mem => fit t j (List.mem_cons_of_mem _ mem)⟩

end Machine

end Lib.Transition
