import Mathlib.Data.List.Induction

/-!
# Hash chains

Each link digests a record together with the digest before it. When links do not collide and none
yields the genesis value, the last digest determines every record.
-/

namespace Lib.HashChain

variable {R D : Type}

/-- The digest after a sequence of records. -/
def head (link : R → D → D) (genesis : D) (records : List R) : D :=
  records.foldl (fun digest record => link record digest) genesis

@[simp] theorem head_nil (link : R → D → D) (genesis : D) : head link genesis [] = genesis := rfl

@[simp] theorem head_append (link : R → D → D) (genesis : D) (records : List R) (record : R) :
    head link genesis (records ++ [record]) = link record (head link genesis records) := by
  simp [head]

theorem head_fresh {link : R → D → D} {genesis : D} (fresh : ∀ r h, link r h ≠ genesis) {records : List R}
    (ne : records ≠ []) : head link genesis records ≠ genesis := by
  obtain ⟨before, last, rfl⟩ := (List.eq_nil_or_concat records).resolve_left ne
  rw [List.concat_eq_append, head_append]
  exact fresh _ _

/-- The induction is from the last record back; the genesis value decides which chain ends first. -/
theorem records_unique {link : R → D → D} {genesis : D} {rs rs' : List R}
    (apart : ∀ r ∈ rs, ∀ r' ∈ rs', ∀ h h', link r h = link r' h' → r = r' ∧ h = h')
    (fresh : ∀ r h, link r h ≠ genesis) (same : head link genesis rs = head link genesis rs') : rs = rs' := by
  induction rs using List.reverseRecOn generalizing rs' with
  | nil =>
    by_contra ne
    exact head_fresh fresh (Ne.symm ne) same.symm
  | append_singleton rs r ih =>
    rcases List.eq_nil_or_concat rs' with rfl | ⟨rs', r', rfl⟩
    · exact (head_fresh fresh (by simp) same).elim
    · rw [List.concat_eq_append] at apart same ⊢
      rw [head_append, head_append] at same
      obtain ⟨rfl, before⟩ := apart r (by simp) r' (by simp) _ _ same
      rw [ih (fun s hs s' hs' => apart s (by simp [hs]) s' (by simp [hs'])) before]

end Lib.HashChain
