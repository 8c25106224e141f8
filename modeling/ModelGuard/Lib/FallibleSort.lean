import Mathlib.Data.List.Nodup
import ModelGuard.Lib.Fallible

/-!
# Sorting with a comparison that may raise

Where elements compare within families only, a list of several families is not sorted.
-/

namespace Lib.Fallible

variable {ε α κ : Type}

/-- `x` in a sorted list, after what is not greater. -/
def insertM (less : α → α → Except ε Bool) (x : α) : List α → Except ε (List α)
  | [] => .ok [x]
  | y :: ys => do
    if ← less x y then .ok (x :: y :: ys)
    else do
      let rest ← insertM less x ys
      .ok (y :: rest)

def sortInto (less : α → α → Except ε Bool) (done : List α) : List α → Except ε (List α)
  | [] => .ok done
  | x :: xs => do
    let done ← insertM less x done
    sortInto less done xs

/-- `sorted(l)`. -/
def sorted (less : α → α → Except ε Bool) (l : List α) : Except ε (List α) := sortInto less [] l

variable {less : α → α → Except ε Bool}

theorem insertM_perm {x : α} {l out : List α} (ran : insertM less x l = .ok out) : out.Perm (x :: l) := by
  induction l generalizing out with
  | nil =>
    have same := Except.ok.inj ran
    rw [← same]
  | cons y ys ih =>
    unfold insertM at ran
    obtain ⟨below, _, ran⟩ := bind_ok.mp ran
    split at ran
    · have same := Except.ok.inj ran
      rw [← same]
    · obtain ⟨rest, inserted, made⟩ := bind_ok.mp ran
      have same := Except.ok.inj made
      rw [← same]
      exact ((ih inserted).cons y).trans (List.Perm.swap x y ys)

theorem sortInto_perm {done l out : List α} (ran : sortInto less done l = .ok out) : out.Perm (done ++ l) := by
  induction l generalizing done with
  | nil =>
    have same := Except.ok.inj ran
    rw [← same, List.append_nil]
  | cons x xs ih =>
    obtain ⟨next, inserted, ran⟩ := bind_ok.mp ran
    have placed : (next ++ xs).Perm (x :: done ++ xs) := (insertM_perm inserted).append_right xs
    exact (ih ran).trans (placed.trans List.perm_middle.symm)

theorem sorted_perm {l out : List α} (ran : sorted less l = .ok out) : out.Perm l := sortInto_perm ran

/-! ### What is raised -/

theorem raisesOnly_insertM {P : ε → Prop} (each : ∀ a b, RaisesOnly P (less a b)) (x : α) (l : List α) :
    RaisesOnly P (insertM less x l) := by
  induction l with
  | nil => exact raisesOnly_ok
  | cons y ys ih =>
    unfold insertM
    rw [raisesOnly_bind]
    refine ⟨each x y, fun below _ => ?_⟩
    split
    · exact raisesOnly_ok
    · rw [raisesOnly_bind]
      exact ⟨ih, fun _ _ => raisesOnly_ok⟩

theorem raisesOnly_sorted {P : ε → Prop} (each : ∀ a b, RaisesOnly P (less a b)) (l : List α) :
    RaisesOnly P (sorted less l) := by
  unfold sorted
  generalize ([] : List α) = done
  induction l generalizing done with
  | nil => exact raisesOnly_ok
  | cons x xs ih =>
    unfold sortInto
    rw [raisesOnly_bind]
    exact ⟨raisesOnly_insertM each x done, fun next _ => ih next⟩

/-! ### Families -/

section Families

variable {family : α → κ} (compares : ∀ a b, a ≠ b → ((∃ below, less a b = .ok below) ↔ family a = family b))

include compares

theorem insertM_returns {x : α} {l : List α} (alike : ∀ y ∈ l, x ≠ y ∧ family x = family y) :
    ∃ out, insertM less x l = .ok out := by
  induction l with
  | nil => exact ⟨[x], rfl⟩
  | cons y ys ih =>
    obtain ⟨⟨other, same⟩, later⟩ := List.forall_mem_cons.mp alike
    obtain ⟨below, compared⟩ := (compares x y other).mpr same
    obtain ⟨rest, inserted⟩ := ih later
    unfold insertM
    cases below with
    | true => exact ⟨x :: y :: ys, bind_ok.mpr ⟨true, compared, rfl⟩⟩
    | false => exact ⟨y :: rest, bind_ok.mpr ⟨false, compared, bind_ok.mpr ⟨rest, inserted, rfl⟩⟩⟩

/-- The first comparison tells the family of the new element from that of a list. -/
theorem family_of_insertM {x : α} {l out : List α} (ran : insertM less x l = .ok out) (fresh : x ∉ l)
    (alike : ∀ a ∈ l, ∀ b ∈ l, family a = family b) : ∀ y ∈ l, family x = family y := by
  cases l with
  | nil => exact List.forall_mem_nil _
  | cons z zs =>
    intro y mem
    unfold insertM at ran
    obtain ⟨below, compared, -⟩ := bind_ok.mp ran
    have other : x ≠ z := fun same => fresh (same ▸ List.mem_cons_self)
    exact ((compares x z other).mp ⟨below, compared⟩).trans (alike z List.mem_cons_self y mem)

theorem sortInto_returns_iff {done l : List α} (distinct : (done ++ l).Nodup) (alike : ∀ a ∈ done, ∀ b ∈ done, family a = family b) :
    (∃ out, sortInto less done l = .ok out) ↔ ∀ a ∈ done ++ l, ∀ b ∈ done ++ l, family a = family b := by
  induction l generalizing done with
  | nil =>
    rw [List.append_nil]
    exact iff_of_true ⟨done, rfl⟩ alike
  | cons x xs ih =>
    have moved : (done ++ x :: xs).Perm (x :: done ++ xs) := List.perm_middle
    have apart := moved.nodup_iff.mp distinct
    have fresh : x ∉ done := fun mem => (List.nodup_cons.mp apart).1 (List.mem_append_left _ mem)
    have after {next : List α} (inserted : insertM less x done = .ok next) :
        (∃ out, sortInto less next xs = .ok out) ↔ ∀ a ∈ done ++ x :: xs, ∀ b ∈ done ++ x :: xs, family a = family b := by
      have placed : (next ++ xs).Perm (done ++ x :: xs) := ((insertM_perm inserted).append_right xs).trans moved.symm
      have own := family_of_insertM compares inserted fresh alike
      have alike' : ∀ a ∈ next, ∀ b ∈ next, family a = family b := by
        have same : ∀ a ∈ next, family x = family a := by
          intro a mem
          rcases List.mem_cons.mp ((insertM_perm inserted).mem_iff.mp mem) with rfl | mem
          · rfl
          · exact own a mem
        exact fun a memA b memB => (same a memA).symm.trans (same b memB)
      rw [ih (placed.nodup_iff.mpr distinct) alike']
      simp only [placed.mem_iff]
    constructor
    · intro ⟨out, ran⟩
      obtain ⟨next, inserted, ran⟩ := bind_ok.mp ran
      exact (after inserted).mp ⟨out, ran⟩
    · intro all
      have first : ∀ y ∈ done, x ≠ y ∧ family x = family y := by
        intro y mem
        exact ⟨fun same => fresh (same ▸ mem), all x (by simp) y (by simp [mem])⟩
      obtain ⟨next, inserted⟩ := insertM_returns compares first
      obtain ⟨out, ran⟩ := (after inserted).mpr all
      exact ⟨out, bind_ok.mpr ⟨next, inserted, ran⟩⟩

/-- Different elements are sorted exactly when they are of one family. -/
theorem sorted_returns_iff {l : List α} (distinct : l.Nodup) :
    (∃ out, sorted less l = .ok out) ↔ ∀ a ∈ l, ∀ b ∈ l, family a = family b :=
  sortInto_returns_iff compares distinct (List.forall_mem_nil _)

end Families

end Lib.Fallible
