import ModelGuard.Lib.Entries
import ModelGuard.Lib.FileTree

/-!
# Changing trees of files

What is at a path, putting something there and taking it away. A tree is what a path leads to: a node, or
nothing.
-/

namespace Lib.Node

variable {α : Type}

abbrev Tree (α : Type) := Option (Node α)

/-- What is at a path below a tree. -/
def find : RelPath → Tree α → Tree α
  | [], t => t
  | name :: rest, t =>
    match t with
    | some (.dir _ entries) => find rest (entries.lookup name)
    | _ => none

/-- The tree in which `n` is at the path. The directories on the way must be there. -/
def graft : RelPath → Tree α → Tree α → Tree α
  | [], n, _ => n
  | name :: rest, n, t =>
    match t with
    | some (.dir l entries) => some (.dir l (Entries.alter name (graft rest n) entries))
    | other => other

/-- The tree with the directories of the path in it, unless something else is in their way. -/
def makeDirs : RelPath → Tree α → Tree α
  | [], none => some (.dir true [])
  | [], some (.dir l entries) => some (.dir l entries)
  | [], some _ => none
  | name :: rest, none => (makeDirs rest none).map fun n => .dir true [(name, n)]
  | name :: rest, some (.dir l entries) =>
    (makeDirs rest (entries.lookup name)).map fun n => .dir l (Entries.set name n entries)
  | _ :: _, some _ => none

mutual
/-- The same tree, with something else for what each file holds. -/
def mapFiles {β : Type} (f : α → β) : Node α → Node β
  | .file a => .file (f a)
  | .symlink target => .symlink target
  | .dir l entries => .dir l (mapFilesIn f entries)

def mapFilesIn {β : Type} (f : α → β) : List (FileName × Node α) → List (FileName × Node β)
  | [] => []
  | (name, n) :: rest => (name, mapFiles f n) :: mapFilesIn f rest
end

/-- What is at a path, unless that is a directory. -/
def leaf (path : RelPath) (t : Tree α) : Tree α :=
  match find path t with
  | some (.dir ..) => none
  | other => other

/-! ### What is at a path -/

@[simp] theorem find_none (path : RelPath) : find path (none : Tree α) = none := by
  cases path <;> rfl

theorem find_append (p q : RelPath) (t : Tree α) : find (p ++ q) t = find q (find p t) := by
  induction p generalizing t with
  | nil => rfl
  | cons name p ih =>
    match t with
    | some (.dir l entries) => exact ih (entries.lookup name)
    | none => exact (find_none q).symm
    | some (.file a) => exact (find_none q).symm
    | some (.symlink target) => exact (find_none q).symm

theorem find_some_dir {name : FileName} {rest : RelPath} {t : Tree α} {n : Node α} (h : find (name :: rest) t = some n) :
    ∃ l entries, t = some (.dir l entries) ∧ find rest (entries.lookup name) = some n := by
  unfold find at h
  split at h
  · exact ⟨_, _, rfl, h⟩
  · cases h

/-- What leads to something is a directory on the way. -/
theorem find_dir_of_append {p : RelPath} {name : FileName} {rest : RelPath} {t : Tree α} {n : Node α}
    (h : find (p ++ name :: rest) t = some n) : ∃ l entries, find p t = some (.dir l entries) := by
  rw [find_append] at h
  obtain ⟨l, entries, same, -⟩ := find_some_dir h
  exact ⟨l, entries, same⟩

/-! ### Putting something at a path -/

theorem graft_append (p q : RelPath) (n t : Tree α) : graft (p ++ q) n t = graft p (graft q n (find p t)) t := by
  induction p generalizing t with
  | nil => rfl
  | cons name p ih =>
    rw [List.cons_append]
    match t with
    | some (.dir l entries) =>
      simp only [graft, find, Entries.alter]
      rw [ih (entries.lookup name)]
    | none => rfl
    | some (.file a) => rfl
    | some (.symlink target) => rfl

theorem graft_isSome {p : RelPath} (n : Node α) {t : Tree α} (present : t.isSome) :
    (graft p (some n) t).isSome := by
  cases p with
  | nil => rfl
  | cons name p =>
    unfold graft
    split
    · rfl
    · exact present

theorem find_graft {p : RelPath} {t : Tree α} {old : Node α} (found : find p t = some old) (n : Node α) :
    find p (graft p (some n) t) = some n := by
  induction p generalizing t with
  | nil => rfl
  | cons name p ih =>
    obtain ⟨l, entries, rfl, below⟩ := find_some_dir found
    simp only [graft, find]
    rw [Entries.lookup_alter_same, ih below]

/-- What a new or changed entry of a directory leads to. -/
theorem find_graft_entry {d : RelPath} {t : Tree α} {l : Bool} {entries : List (FileName × Node α)}
    (dir : find d t = some (.dir l entries)) (name : FileName) (n : Tree α) :
    find (d ++ [name]) (graft (d ++ [name]) n t) = n := by
  rw [graft_append, dir, find_append]
  simp only [graft]
  rw [find_graft dir]
  simp only [find]
  exact Entries.lookup_alter_same name (fun _ => n) entries

theorem leaf_graft {p q : RelPath} (apart : ¬p <+: q) (n t : Tree α) : leaf q (graft p n t) = leaf q t := by
  induction p generalizing q t with
  | nil => exact absurd (List.nil_prefix) apart
  | cons name p ih =>
    match t with
    | some (.dir l entries) =>
      cases q with
      | nil => rfl
      | cons other q =>
        simp only [leaf, graft, find]
        by_cases same : other = name
        · subst same
          have below : ¬p <+: q := fun within => apart (List.cons_prefix_cons.mpr ⟨rfl, within⟩)
          have inside := ih below (entries.lookup other)
          unfold leaf at inside
          rw [Entries.lookup_alter_same]
          exact inside
        · rw [Entries.lookup_alter_other same]
    | none => rfl
    | some (.file a) => rfl
    | some (.symlink target) => rfl

/-- Taking away what was put where nothing was. -/
theorem graft_undo {p : RelPath} {t : Tree α} (absent : find p t = none) (n : Node α) :
    graft p none (graft p (some n) t) = t := by
  induction p generalizing t with
  | nil => exact absent.symm
  | cons name p ih =>
    match t with
    | some (.dir l entries) =>
      have below : find p (entries.lookup name) = none := absent
      simp only [graft]
      congr 2
      unfold Entries.alter
      cases put : graft p (some n) (entries.lookup name) with
      | none =>
        have gone : entries.lookup name = none := by
          by_contra present
          have still := graft_isSome (p := p) n (Option.isSome_iff_ne_none.mpr present)
          rw [put] at still
          cases still
        dsimp only
        have nothing : graft p none (none : Tree α) = none := by cases p <;> rfl
        rw [Entries.lookup_erase_same, nothing]
        dsimp only
        rw [Entries.erase_absent gone, Entries.erase_absent gone]
      | some m =>
        dsimp only
        have back := ih below
        rw [put] at back
        rw [Entries.lookup_set_same, back]
        cases found : entries.lookup name with
        | none =>
          dsimp only
          rw [Entries.erase_set, Entries.erase_absent found]
        | some old =>
          dsimp only
          rw [Entries.set_set, Entries.set_lookup found]
    | none => rfl
    | some (.file a) => rfl
    | some (.symlink target) => rfl

theorem graft_graft (p : RelPath) (n m : Node α) (t : Tree α) :
    graft p (some n) (graft p (some m) t) = graft p (some n) t := by
  induction p generalizing t with
  | nil => rfl
  | cons name p ih =>
    match t with
    | some (.dir l entries) =>
      simp only [graft]
      congr 2
      have twice := ih (entries.lookup name)
      cases put : graft p (some m) (entries.lookup name) with
      | none =>
        have gone : entries.lookup name = none := by
          by_contra present
          have still := graft_isSome (p := p) m (Option.isSome_iff_ne_none.mpr present)
          rw [put] at still
          cases still
        have same : Entries.alter name (graft p (some m)) entries = entries := by
          unfold Entries.alter
          rw [put]
          exact Entries.erase_absent gone
        rw [same]
      | some k =>
        have kept : (graft p (some n) (some k)).isSome := graft_isSome n rfl
        rw [put] at twice
        have same : Entries.alter name (graft p (some m)) entries = Entries.set name k entries := by
          unfold Entries.alter
          rw [put]
        rw [same]
        unfold Entries.alter
        rw [Entries.lookup_set_same, ← twice]
        obtain ⟨new, made⟩ := Option.isSome_iff_exists.mp kept
        rw [made]
        dsimp only
        rw [Entries.set_set]
    | none => rfl
    | some (.file a) => rfl
    | some (.symlink target) => rfl

/-! ### Making directories -/

theorem find_makeDirs {p : RelPath} {t : Tree α} {new : Node α} (made : makeDirs p t = some new) :
    ∃ l entries, find p (some new) = some (.dir l entries) := by
  induction p generalizing t new with
  | nil =>
    match t with
    | none =>
      cases made
      exact ⟨_, _, rfl⟩
    | some (.dir l entries) =>
      cases made
      exact ⟨_, _, rfl⟩
  | cons name p ih =>
    match t with
    | none =>
      obtain ⟨n, below, rfl⟩ := Option.map_eq_some_iff.mp made
      obtain ⟨l, entries, found⟩ := ih below
      refine ⟨l, entries, ?_⟩
      simp only [find]
      rw [Entries.lookup_cons, if_pos rfl, found]
    | some (.dir l entries) =>
      obtain ⟨n, below, rfl⟩ := Option.map_eq_some_iff.mp made
      obtain ⟨l', entries', found⟩ := ih below
      refine ⟨l', entries', ?_⟩
      simp only [find]
      rw [Entries.lookup_set_same, found]

theorem leaf_none (q : RelPath) : leaf q (none : Tree α) = none := by
  unfold leaf
  rw [find_none]

/-- Making directories touches no file and no link. -/
theorem leaf_makeDirs {p : RelPath} {t : Tree α} {new : Node α} (made : makeDirs p t = some new) (q : RelPath) :
    leaf q (some new) = leaf q t := by
  induction p generalizing t new q with
  | nil =>
    match t with
    | none =>
      cases made
      cases q with
      | nil => rfl
      | cons other q =>
        unfold leaf
        simp only [find]
        rw [List.lookup_nil, find_none]
    | some (.dir l entries) =>
      cases made
      rfl
  | cons name p ih =>
    match t with
    | none =>
      obtain ⟨n, below, rfl⟩ := Option.map_eq_some_iff.mp made
      cases q with
      | nil => rfl
      | cons other q =>
        have inside := ih below q
        rw [leaf_none] at inside ⊢
        unfold leaf at inside ⊢
        simp only [find]
        rw [Entries.lookup_cons]
        split_ifs
        · exact inside
        · rw [List.lookup_nil, find_none]
    | some (.dir l entries) =>
      obtain ⟨n, below, rfl⟩ := Option.map_eq_some_iff.mp made
      cases q with
      | nil => rfl
      | cons other q =>
        have inside := ih below q
        unfold leaf at inside ⊢
        simp only [find]
        by_cases same : other = name
        · rw [same, Entries.lookup_set_same]
          exact inside
        · rw [Entries.lookup_set_other same]

/-- Directories below a node are made within it. -/
theorem makeDirs_append {p : RelPath} {t : Tree α} {sub : Node α} (found : find p t = some sub) (q : RelPath) :
    makeDirs (p ++ q) t = (makeDirs q (some sub)).bind fun n => graft p (some n) t := by
  induction p generalizing t with
  | nil =>
    rw [List.nil_append, show t = some sub from found]
    cases makeDirs q (some sub) <;> rfl
  | cons name p ih =>
    obtain ⟨l, entries, rfl, below⟩ := find_some_dir found
    rw [List.cons_append, makeDirs, ih below]
    cases made : makeDirs q (some sub) with
    | none => rfl
    | some n =>
      have present : (entries.lookup name).isSome := by
        cases lookup : entries.lookup name with
        | none => rw [lookup, find_none] at below; cases below
        | some child => rfl
      obtain ⟨new, put⟩ := Option.isSome_iff_exists.mp (graft_isSome (p := p) n present)
      simp only [Option.bind_some, graft, Entries.alter, put, Option.map_some]

/-! ### What is elsewhere -/

def IsDir (t : Tree α) (p : RelPath) : Prop := ∃ l entries, find p t = some (.dir l entries)

theorem graft_self {p : RelPath} {t : Tree α} {n : Node α} (found : find p t = some n) : graft p (some n) t = t := by
  induction p generalizing t with
  | nil => exact found.symm
  | cons name p ih =>
    obtain ⟨l, entries, same, below⟩ := find_some_dir found
    subst same
    simp only [graft, Entries.alter]
    rw [ih below]
    cases child : entries.lookup name with
    | none =>
      rw [child, find_none] at below
      cases below
    | some m =>
      dsimp only
      rw [Entries.set_lookup child]

theorem find_graft_apart {p q : RelPath} (apart : ¬p <+: q) (apart' : ¬q <+: p) (n t : Tree α) :
    find q (graft p n t) = find q t := by
  induction p generalizing q t with
  | nil => exact absurd List.nil_prefix apart
  | cons name p ih =>
    match t with
    | some (.dir l entries) =>
      cases q with
      | nil => exact absurd List.nil_prefix apart'
      | cons other q =>
        simp only [graft, find]
        by_cases same : other = name
        · subst same
          rw [Entries.lookup_alter_same]
          apply ih
          · exact fun within => apart (List.cons_prefix_cons.mpr ⟨rfl, within⟩)
          · exact fun within => apart' (List.cons_prefix_cons.mpr ⟨rfl, within⟩)
        · rw [Entries.lookup_alter_other same]
    | none => rfl
    | some (.file a) => rfl
    | some (.symlink target) => rfl

/-- A directory stays one when something is put where there was nothing. -/
theorem isDir_graft {p q : RelPath} {t : Tree α} (absent : find p t = none) (dir : IsDir t q) (n : Node α) :
    IsDir (graft p (some n) t) q := by
  induction p generalizing q t with
  | nil =>
    obtain ⟨l, entries, found⟩ := dir
    rw [show t = none from absent, find_none] at found
    cases found
  | cons name p ih =>
    match t with
    | some (.dir l entries) =>
      cases q with
      | nil => exact ⟨_, _, rfl⟩
      | cons other q =>
        unfold IsDir at dir ⊢
        simp only [graft, find] at dir ⊢
        by_cases same : other = name
        · subst same
          rw [Entries.lookup_alter_same]
          exact ih absent dir
        · rw [Entries.lookup_alter_other same]
          exact dir
    | none => exact dir
    | some (.file a) => exact dir
    | some (.symlink target) => exact dir

/-- `new` is `old` with some more directories on the way to `p`, and otherwise the same. -/
structure Grown (p : RelPath) (old new : Tree α) : Prop where
  leaves : ∀ q, leaf q new = leaf q old
  kept : ∀ q, IsDir old q → IsDir new q
  fresh : ∀ q, IsDir new q → IsDir old q ∨ q <+: p

theorem Grown.refl (p : RelPath) (t : Tree α) : Grown p t t :=
  ⟨fun _ => rfl, fun _ dir => dir, fun _ dir => Or.inl dir⟩

theorem Grown.trans {p : RelPath} {t u v : Tree α} (first : Grown p t u) (second : Grown p u v) : Grown p t v := by
  refine ⟨fun q => (second.leaves q).trans (first.leaves q), fun q dir => second.kept q (first.kept q dir), ?_⟩
  intro q dir
  rcases second.fresh q dir with before | within
  · exact first.fresh q before
  · exact Or.inr within

/-- Making one directory on the way. -/
theorem grown_graft {p d : RelPath} {name : FileName} {t : Tree α} (within : d ++ [name] <+: p) (dir : IsDir t d)
    (absent : find (d ++ [name]) t = none) : Grown p t (graft (d ++ [name]) (some (.dir true [])) t) := by
  obtain ⟨l, entries, found⟩ := dir
  have made : find (d ++ [name]) (graft (d ++ [name]) (some (.dir true [])) t) = some (.dir true []) :=
    find_graft_entry found name _
  have inside (other : FileName) (s : RelPath) :
      find (d ++ [name] ++ other :: s) (graft (d ++ [name]) (some (.dir true [])) t) = none := by
    rw [find_append, made]
    exact find_none s
  refine ⟨fun q => ?_, fun q before => isDir_graft absent before _, fun q after => ?_⟩
  · by_cases below : d ++ [name] <+: q
    · obtain ⟨s, same⟩ := below
      subst same
      unfold leaf
      cases s with
      | nil =>
        rw [List.append_nil, made, absent]
      | cons other s =>
        rw [inside, find_append, absent, find_none]
    · exact leaf_graft below _ t
  · by_cases above : q <+: d ++ [name]
    · exact Or.inr (above.trans within)
    · refine Or.inl ?_
      unfold IsDir at after ⊢
      by_cases below : d ++ [name] <+: q
      · obtain ⟨s, same⟩ := below
        subst same
        cases s with
        | nil =>
          rw [List.append_nil] at above
          exact (above (List.prefix_refl _)).elim
        | cons other s =>
          obtain ⟨l', entries', there⟩ := after
          rw [inside] at there
          cases there
      · rwa [find_graft_apart below above] at after

/-- Growing towards `p` puts nothing at a path that does not lead there. -/
theorem Grown.find_none {p q : RelPath} {old new : Tree α} (grown : Grown p old new) (apart : ¬q <+: p)
    (absent : find q old = none) : find q new = none := by
  have leaves := grown.leaves q
  unfold leaf at leaves
  rw [absent] at leaves
  cases found : find q new with
  | none => rfl
  | some n =>
    cases n with
    | dir l entries =>
      rcases grown.fresh q ⟨l, entries, found⟩ with ⟨l', entries', before⟩ | within
      · rw [absent] at before
        cases before
      · exact (apart within).elim
    | file a =>
      rw [found] at leaves
      cases leaves
    | symlink target =>
      rw [found] at leaves
      cases leaves

end Lib.Node
