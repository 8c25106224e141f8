import ModelGuard.Lib.TreeEdit

/-!
# Filling a tree with files

Files are put one after another below a directory that was empty, each after the directories on the way to it.
In the end the tree holds them, and nothing else but the directories that lead to them.
-/

namespace Lib.Node

variable {α : Type}

/-! ### Trees with names of their own -/

theorem distinct_lookup {l : Bool} {entries : List (FileName × Node α)} {name : FileName} {child : Node α}
    (distinct : Distinct (.dir l entries)) (found : entries.lookup name = some child) : Distinct child := by
  cases distinct with
  | dir names below =>
    obtain ⟨before, after, split, -⟩ := List.lookup_eq_some_iff.mp found
    exact below (name, child) (split ▸ by simp)

theorem distinct_set {l : Bool} {entries : List (FileName × Node α)} (distinct : Distinct (.dir l entries))
    (name : FileName) {n : Node α} (own : Distinct n) : Distinct (.dir l (Entries.set name n entries)) := by
  cases distinct with
  | dir names below =>
    refine .dir (Entries.nodup_set names) fun e mem => ?_
    rcases Entries.mem_set mem with same | mem
    · exact same ▸ own
    · exact below e mem

/-- In a tree whose directories have names of their own, the files of a walk are those that paths lead to. -/
theorem mem_regularFiles_iff {n : Node α} (distinct : Distinct n) {path q : RelPath} {a : α} :
    (path ++ q, a) ∈ regularFiles path n ↔ find q (some n) = some (.file a) := by
  constructor
  · induction n using entryInduction generalizing path q with
    | file b =>
      intro mem
      obtain ⟨samePath, same⟩ := Prod.mk.inj (List.mem_singleton.mp mem)
      have none : q = [] := by simpa using samePath
      rw [none, same]
      rfl
    | symlink target =>
      intro mem
      cases mem
    | dir l entries ih =>
      intro mem
      rw [regularFiles, regularFilesIn_eq, List.mem_flatMap] at mem
      obtain ⟨e, own, mem⟩ := mem
      obtain ⟨rest, split⟩ := regularFiles_below mem
      rw [List.append_assoc] at split
      have split := List.append_cancel_left split
      subst split
      rw [← List.append_assoc] at mem
      cases distinct with
      | dir names below =>
        have found := ih e own (below e own) mem
        show find rest (entries.lookup e.1) = _
        rw [Entries.lookup_of_mem names own]
        exact found
  · intro found
    refine regularFiles_file ?_
    clear distinct
    induction q generalizing n with
    | nil => exact found
    | cons name q ih =>
      obtain ⟨l, entries, same, below⟩ := find_some_dir found
      cases same
      cases child : entries.lookup name with
      | none =>
        rw [child, find_none] at below
        cases below
      | some m =>
        rw [child] at below
        show (entries.lookup name).bind (nodeAt q) = _
        rw [child]
        exact ih below

/-- What holds of everything that a path leads to holds everywhere. -/
theorem everywhere_of_find {n : Node α} (distinct : Distinct n) {p : Node α → Bool}
    (all : ∀ q m, find q (some n) = some m → p m = true) : everywhere p n = true := by
  induction n using entryInduction with
  | file a => exact all [] _ rfl
  | symlink target => exact all [] _ rfl
  | dir l entries ih =>
    cases distinct with
    | dir names below =>
      rw [everywhere, everywhereIn_eq, Bool.and_eq_true, List.all_eq_true]
      refine ⟨all [] _ rfl, fun e own => ih e own (below e own) fun q m found => all (e.1 :: q) m ?_⟩
      show find q (entries.lookup e.1) = _
      rw [Entries.lookup_of_mem names own]
      exact found

/-! ### The same tree with other files -/

section MapFiles

variable {β : Type} (f : α → β)

theorem mapFilesIn_eq (entries : List (FileName × Node α)) :
    mapFilesIn f entries = entries.map fun e => (e.1, mapFiles f e.2) := by
  induction entries with
  | nil => rfl
  | cons e rest ih => rw [mapFilesIn, ih, List.map_cons]

theorem distinct_mapFiles {n : Node α} (distinct : Distinct n) : Distinct (mapFiles f n) := by
  induction n using entryInduction with
  | file a => exact .file _
  | symlink target => exact .symlink _
  | dir l entries ih =>
    cases distinct with
    | dir names below =>
      rw [mapFiles, mapFilesIn_eq]
      refine .dir ?_ ?_
      · rwa [List.map_map, show ((·.1) ∘ fun e : FileName × Node α => (e.1, mapFiles f e.2)) = (·.1) from rfl]
      · simp only [List.forall_mem_map]
        exact fun e mem => ih e mem (below e mem)

theorem everywhere_mapFiles (p : Node β → Bool) (n : Node α) :
    everywhere p (mapFiles f n) = everywhere (fun m => p (mapFiles f m)) n := by
  induction n using entryInduction with
  | file a => rfl
  | symlink target => rfl
  | dir l entries ih =>
    rw [mapFiles, everywhere, everywhere, everywhereIn_eq, everywhereIn_eq, mapFilesIn_eq, List.all_map, mapFiles,
      mapFilesIn_eq]
    refine congrArg _ ?_
    rw [Bool.eq_iff_iff, List.all_eq_true, List.all_eq_true]
    exact forall₂_congr fun e mem => by rw [Function.comp, ih e mem]

theorem regularFiles_mapFiles (path : RelPath) (n : Node α) :
    regularFiles path (mapFiles f n) = (regularFiles path n).map fun e => (e.1, f e.2) := by
  induction n using entryInduction generalizing path with
  | file a => rfl
  | symlink target => rfl
  | dir l entries ih =>
    rw [mapFiles, regularFiles, regularFiles, regularFilesIn_eq, regularFilesIn_eq, mapFilesIn_eq, List.flatMap_map,
      List.map_flatMap]
    exact List.flatMap_congr fun e mem => ih e mem _

end MapFiles

/-! ### What is at a path, but for the entries of a directory -/

/-- The node without what a directory holds. -/
def bare : Node α → Node α
  | .dir l _ => .dir l []
  | other => other

def shape (q : RelPath) (t : Tree α) : Tree α := (find q t).map bare

theorem shape_none (q : RelPath) : shape q (none : Tree α) = none := by
  unfold shape
  rw [find_none]
  rfl

theorem shape_eq_none {q : RelPath} {t : Tree α} : shape q t = none ↔ find q t = none := Option.map_eq_none_iff

/-- Making directories adds the missing ones on the way. -/
theorem shape_makeDirs {p : RelPath} {t : Tree α} {new : Node α} (made : makeDirs p t = some new) (q : RelPath) :
    shape q (some new) = if q <+: p then some ((shape q t).getD (.dir true [])) else shape q t := by
  induction p generalizing t new q with
  | nil =>
    cases q with
    | nil =>
      rw [if_pos List.nil_prefix]
      match t with
      | none =>
        cases made
        rfl
      | some (.dir l entries) =>
        cases made
        rfl
    | cons other q =>
      rw [if_neg (by simp)]
      match t with
      | none =>
        cases made
        exact (shape_none q).trans (shape_none (other :: q)).symm
      | some (.dir l entries) =>
        cases made
        rfl
  | cons name p ih =>
    match t with
    | none =>
      obtain ⟨n, below, rfl⟩ := Option.map_eq_some_iff.mp made
      cases q with
      | nil => exact (if_pos List.nil_prefix).symm
      | cons other q =>
        show shape q ([(name, n)].lookup other) = _
        rw [Entries.lookup_cons, List.lookup_nil, shape_none (other :: q)]
        by_cases same : name = other
        · subst same
          have inside := ih below q
          rw [shape_none] at inside
          rw [if_pos rfl, inside]
          exact if_congr (by simp) rfl rfl
        · rw [if_neg same, shape_none, if_neg (fun within => same (List.cons_prefix_cons.mp within).1.symm)]
    | some (.dir l entries) =>
      obtain ⟨n, below, rfl⟩ := Option.map_eq_some_iff.mp made
      cases q with
      | nil => exact (if_pos List.nil_prefix).symm
      | cons other q =>
        show shape q ((Entries.set name n entries).lookup other) = if _ then some ((shape q (entries.lookup other)).getD _) else shape q (entries.lookup other)
        by_cases same : other = name
        · subst same
          rw [Entries.lookup_set_same, ih below q]
          exact if_congr (by simp) rfl rfl
        · rw [Entries.lookup_set_other same, if_neg (fun within => same (List.cons_prefix_cons.mp within).1)]

/-- A new file changes nothing elsewhere. -/
theorem shape_graft {d : RelPath} {name : FileName} {t : Tree α} (dir : IsDir t d) (a : α) (q : RelPath)
    (absent : find (d ++ [name]) t = none) :
    shape q (graft (d ++ [name]) (some (.file a)) t) = if q = d ++ [name] then some (.file a) else shape q t := by
  obtain ⟨l, entries, found⟩ := dir
  induction d generalizing t q with
  | nil =>
    cases found
    cases q with
    | nil => exact (if_neg (by simp)).symm
    | cons other q =>
      show shape q ((Entries.alter name (fun _ => some (.file a)) entries).lookup other) =
        if other :: q = name :: [] then some (.file a) else shape q (entries.lookup other)
      by_cases same : other = name
      · subst same
        have absent : entries.lookup other = none := absent
        rw [Entries.lookup_alter_same, absent, shape_none]
        cases q with
        | nil => exact (if_pos rfl).symm
        | cons next q => exact (if_neg (by simp)).symm
      · rw [Entries.lookup_alter_other same, if_neg (fun equal => same (List.cons.inj equal).1)]
  | cons first d ih =>
    obtain ⟨l', entries', same, below⟩ := find_some_dir found
    subst same
    cases q with
    | nil => exact (if_neg (by simp)).symm
    | cons other q =>
      show shape q ((Entries.alter first (graft (d ++ [name]) (some (.file a))) entries').lookup other) =
        if other :: q = first :: (d ++ [name]) then some (.file a) else shape q (entries'.lookup other)
      by_cases same : other = first
      · subst same
        rw [Entries.lookup_alter_same, ih q absent below]
        exact if_congr (by simp) rfl rfl
      · rw [Entries.lookup_alter_other same, if_neg (fun equal => same (List.cons.inj equal).1)]

theorem distinct_makeDirs {p : RelPath} {t : Tree α} {new : Node α} (made : makeDirs p t = some new)
    (distinct : ∀ n, t = some n → Distinct n) : Distinct new := by
  induction p generalizing t new with
  | nil =>
    match t with
    | none =>
      cases made
      exact .dir List.nodup_nil (by simp)
    | some (.dir l entries) =>
      cases made
      exact distinct _ rfl
  | cons name p ih =>
    match t with
    | none =>
      obtain ⟨n, below, rfl⟩ := Option.map_eq_some_iff.mp made
      refine .dir (List.nodup_singleton _) fun e mem => ?_
      rw [List.mem_singleton.mp mem]
      exact ih below fun _ same => by cases same
    | some (.dir l entries) =>
      obtain ⟨n, below, rfl⟩ := Option.map_eq_some_iff.mp made
      exact distinct_set (distinct _ rfl) name (ih below fun m found => distinct_lookup (distinct _ rfl) found)

theorem distinct_graft {d : RelPath} {name : FileName} {old new : Node α} (distinct : Distinct old)
    (dir : IsDir (some old) d) (own : Distinct new) {n : Node α} (made : graft (d ++ [name]) (some new) (some old) = some n) :
    Distinct n := by
  obtain ⟨l, entries, found⟩ := dir
  induction d generalizing old n with
  | nil =>
    cases found
    cases made
    exact distinct_set distinct name own
  | cons first d ih =>
    obtain ⟨l', entries', same, below⟩ := find_some_dir found
    cases same
    cases child : entries'.lookup first with
    | none =>
      rw [child, find_none] at below
      cases below
    | some m =>
      rw [child] at below
      obtain ⟨k, put⟩ := Option.isSome_iff_exists.mp (graft_isSome (p := d ++ [name]) new (t := some m) rfl)
      have alter : Entries.alter first (graft (d ++ [name]) (some new)) entries' = Entries.set first k entries' := by
        unfold Entries.alter
        rw [child, put]
      rw [List.cons_append] at made
      unfold graft at made
      dsimp only at made
      rw [alter] at made
      cases made
      exact distinct_set distinct first (ih (distinct_lookup distinct child) put below)

/-! ### Making directories one after another -/

/-- Directories that are made on the way to others change nothing of what is made in the end. -/
theorem makeDirs_again {p : RelPath} {t : Tree α} {middle : Node α} (made : makeDirs p t = some middle) (q : RelPath) :
    makeDirs (p ++ q) (some middle) = makeDirs (p ++ q) t := by
  induction p generalizing t middle with
  | nil =>
    match t with
    | none =>
      cases made
      cases q <;> rfl
    | some (.dir l entries) =>
      cases made
      rfl
  | cons name p ih =>
    match t with
    | none =>
      obtain ⟨n, below, rfl⟩ := Option.map_eq_some_iff.mp made
      have single : ([(name, n)] : List (FileName × Node α)).lookup name = some n := by
        rw [Entries.lookup_cons, if_pos rfl]
      rw [List.cons_append, makeDirs, makeDirs, single, ih below]
      refine congrArg (fun f => Option.map f (makeDirs (p ++ q) none)) ?_
      funext k
      unfold Entries.set
      rw [if_pos rfl]
    | some (.dir l entries) =>
      obtain ⟨n, below, rfl⟩ := Option.map_eq_some_iff.mp made
      rw [List.cons_append, makeDirs, makeDirs, Entries.lookup_set_same, ih below]
      refine congrArg (fun f => Option.map f (makeDirs (p ++ q) (entries.lookup name))) ?_
      funext k
      rw [Entries.set_set]

theorem makeDirs_there {p : RelPath} {t : Tree α} (dir : IsDir t p) : makeDirs p t = t := by
  obtain ⟨l, entries, found⟩ := dir
  have made := makeDirs_append found []
  rw [List.append_nil] at made
  rw [made]
  exact graft_self found

/-- Making one directory is putting it there. -/
theorem makeDirs_one {d : RelPath} {name : FileName} {t : Tree α} (dir : IsDir t d) (absent : find (d ++ [name]) t = none) :
    makeDirs (d ++ [name]) t = graft (d ++ [name]) (some (.dir true [])) t := by
  obtain ⟨l, entries, found⟩ := dir
  have free : entries.lookup name = none := by
    rw [find_append, found] at absent
    exact absent
  rw [makeDirs_append found, graft_append, found]
  unfold makeDirs
  rw [free]
  rfl

/-- Where directories can be made, there is nothing else in their way. -/
theorem makeDirs_way {p : RelPath} {t : Tree α} {new : Node α} (made : makeDirs p t = some new) {q : RelPath} (within : q <+: p) :
    find q t = none ∨ IsDir t q := by
  have shapes := shape_makeDirs made q
  rw [if_pos within] at shapes
  obtain ⟨l, entries, last⟩ := find_makeDirs made
  have dir : ∃ l entries, find q (some new) = some (.dir l entries) := by
    obtain ⟨rest, split⟩ := within
    subst split
    cases rest with
    | nil =>
      rw [List.append_nil] at last
      exact ⟨l, entries, last⟩
    | cons name rest => exact find_dir_of_append last
  obtain ⟨l', entries', found⟩ := dir
  have whole : shape q (some new) = some (.dir l' []) := congrArg (Option.map bare) found
  rw [whole] at shapes
  cases old : find q t with
  | none => exact .inl rfl
  | some n =>
    have bared : shape q t = some (bare n) := congrArg (Option.map bare) old
    rw [bared] at shapes
    cases n with
    | dir l'' entries'' => exact .inr ⟨l'', entries'', old⟩
    | file a => cases shapes
    | symlink target => cases shapes

/-! ### Directories that files are put in -/

theorem root_of_find {d : RelPath} {n : Node α} {l : Bool} {entries : List (FileName × Node α)}
    (found : find d (some n) = some (.dir l entries)) : IsDir (some n) [] := by
  cases d with
  | nil => exact ⟨l, entries, found⟩
  | cons name d =>
    obtain ⟨l', entries', same, -⟩ := find_some_dir found
    exact ⟨l', entries', same⟩

/-- Where nothing but directories is on the way, the missing ones can be made. -/
theorem makeDirs_isSome {p : RelPath} {t : Tree α} (clear : ∀ q, q <+: p → leaf q t = none) : (makeDirs p t).isSome := by
  induction p generalizing t with
  | nil =>
    have here := clear [] List.nil_prefix
    match t with
    | none => rfl
    | some (.dir l entries) => rfl
  | cons name p ih =>
    have here := clear [] List.nil_prefix
    match t with
    | none =>
      have below := ih (t := none) fun q _ => leaf_none q
      unfold makeDirs
      rwa [Option.isSome_map]
    | some (.dir l entries) =>
      have below := ih (t := entries.lookup name) fun q within => clear (name :: q) (List.cons_prefix_cons.mpr ⟨rfl, within⟩)
      unfold makeDirs
      rwa [Option.isSome_map]

/-- What may be at a path of a tree that holds these files and no others. -/
def Belongs (files : List (RelPath × α)) (q : RelPath) : Node α → Prop
  | .file a => (q, a) ∈ files
  | .symlink _ => False
  | .dir l _ => l = true ∧ (q = [] ∨ ∃ e ∈ files, q <+: e.1)

/-- A directory with these files and no others. -/
structure Filled (files : List (RelPath × α)) (n : Node α) : Prop where
  root : IsDir (some n) []
  distinct : Distinct n
  there : ∀ e ∈ files, find e.1 (some n) = some (.file e.2)
  only : ∀ q m, find q (some n) = some m → Belongs files q m

theorem belongs_bare {files : List (RelPath × α)} {q : RelPath} {n : Node α} : Belongs files q (bare n) ↔ Belongs files q n := by
  cases n <;> exact Iff.rfl

theorem only_of_shape {files : List (RelPath × α)} {t : Tree α} (only : ∀ q m, shape q t = some m → Belongs files q m) (q : RelPath)
    (m : Node α) (found : find q t = some m) : Belongs files q m :=
  belongs_bare.mp (only q (bare m) (congrArg (Option.map bare) found))

theorem belongs_of_shape {files : List (RelPath × α)} {n : Node α} (filled : Filled files n) {q : RelPath} {m : Node α}
    (found : shape q (some n) = some m) : Belongs files q m := by
  obtain ⟨k, there, same⟩ := Option.map_eq_some_iff.mp found
  exact same ▸ belongs_bare.mpr (filled.only q k there)

theorem belongs_mono {files : List (RelPath × α)} {q : RelPath} {n : Node α} (belongs : Belongs files q n) (e : RelPath × α) :
    Belongs (e :: files) q n := by
  cases n with
  | file a => exact List.mem_cons_of_mem _ belongs
  | symlink target => exact belongs
  | dir l entries =>
    obtain ⟨listed, root | ⟨f, mem, within⟩⟩ := belongs
    · exact ⟨listed, .inl root⟩
    · exact ⟨listed, .inr ⟨f, List.mem_cons_of_mem _ mem, within⟩⟩

/-- The order of the files does not matter. -/
theorem Filled.congr {files files' : List (RelPath × α)} {n : Node α} (filled : Filled files n)
    (same : ∀ e, e ∈ files ↔ e ∈ files') : Filled files' n where
  root := filled.root
  distinct := filled.distinct
  there e mem := filled.there e ((same e).mpr mem)
  only q m found := by
    have belongs := filled.only q m found
    cases m with
    | file a => exact (same _).mp belongs
    | symlink target => exact belongs
    | dir l entries =>
      obtain ⟨listed, root | ⟨e, mem, within⟩⟩ := belongs
      · exact ⟨listed, .inl root⟩
      · exact ⟨listed, .inr ⟨e, (same e).mp mem, within⟩⟩

theorem filled_nil : Filled [] (.dir true [] : Node α) where
  root := ⟨_, _, rfl⟩
  distinct := .dir List.nodup_nil (by simp)
  there _ mem := (List.not_mem_nil mem).elim
  only q m found := by
    cases q with
    | nil =>
      cases found
      exact ⟨rfl, .inl rfl⟩
    | cons name q =>
      have nothing : find q none = some m := found
      rw [find_none] at nothing
      cases nothing

section Add

variable {files : List (RelPath × α)} {n : Node α} (filled : Filled files n) {d : RelPath} {name : FileName}
  (apart : ∀ e ∈ files, ¬e.1 <+: d ++ [name] ∧ ¬d ++ [name] <+: e.1)

include filled apart

/-- The directories on the way to a new file can be made, and its place is free. -/
theorem filled_makeDirs (a : α) : ∃ made, makeDirs d (some n) = some made ∧ IsDir (some made) d ∧ Distinct made ∧
    find (d ++ [name]) (some made) = none ∧ (∀ e ∈ files, find e.1 (some made) = some (.file e.2)) ∧
      ∀ q m, shape q (some made) = some m → Belongs ((d ++ [name], a) :: files) q m := by
  have clear : ∀ q, q <+: d → leaf q (some n) = none := by
    intro q within
    unfold leaf
    split
    · rfl
    · rename_i other
      cases found : find q (some n) with
      | none => rfl
      | some m =>
        have belongs := filled.only q m found
        cases m with
        | dir l entries => exact (other _ _ found).elim
        | symlink target => exact belongs.elim
        | file b => exact ((apart _ belongs).1 (within.trans (List.prefix_append d [name]))).elim
  obtain ⟨made, dirs⟩ := Option.isSome_iff_exists.mp (makeDirs_isSome clear)
  have shapes := shape_makeDirs dirs
  have long : ¬d ++ [name] <+: d := fun within => by simpa using within.length_le
  have free : shape (d ++ [name]) (some n) = none := by
    cases found : shape (d ++ [name]) (some n) with
    | none => rfl
    | some m =>
      have belongs := belongs_of_shape filled found
      cases m with
      | file b => exact ((apart _ belongs).1 (List.prefix_refl _)).elim
      | symlink target => exact belongs.elim
      | dir l entries =>
        obtain ⟨-, root | ⟨e, mem, within⟩⟩ := belongs
        · simp at root
        · exact ((apart e mem).2 within).elim
  refine ⟨made, dirs, find_makeDirs dirs, distinct_makeDirs dirs fun m same => Option.some.inj same ▸ filled.distinct, ?_, ?_, ?_⟩
  · rw [← shape_eq_none, shapes, if_neg long]
    exact free
  · intro e mem
    have kept := shapes e.1
    rw [if_neg fun within => (apart e mem).1 (within.trans (List.prefix_append d [name]))] at kept
    unfold shape at kept
    rw [filled.there e mem] at kept
    obtain ⟨m, found, same⟩ := Option.map_eq_some_iff.mp kept
    rw [found]
    cases m with
    | file b => exact congrArg some same
    | symlink target => cases same
    | dir l entries => cases same
  · intro q m found
    rw [shapes] at found
    split at found
    · rename_i within
      have within' := within.trans (List.prefix_append d [name])
      cases before : shape q (some n) with
      | none =>
        rw [before] at found
        cases found
        exact ⟨rfl, .inr ⟨_, List.mem_cons_self, within'⟩⟩
      | some k =>
        rw [before] at found
        cases found
        exact belongs_mono (belongs_of_shape filled before) _
    · exact belongs_mono (belongs_of_shape filled found) _

/-- A new file is put beside the others. -/
theorem filled_add {a : α} {made : Node α} (dirs : makeDirs d (some n) = some made) :
    ∃ new, graft (d ++ [name]) (some (.file a)) (some made) = some new ∧ Filled ((d ++ [name], a) :: files) new := by
  obtain ⟨made', dirs', dir, distinct, free, there, only⟩ := filled_makeDirs filled apart a
  cases dirs.symm.trans dirs'
  obtain ⟨new, put⟩ := Option.isSome_iff_exists.mp (graft_isSome (p := d ++ [name]) (.file a) (t := some made) rfl)
  have shapes (q : RelPath) := shape_graft dir a q free
  obtain ⟨l, entries, found⟩ := dir
  refine ⟨new, put, ?_, distinct_graft distinct ⟨l, entries, found⟩ (.file a) put, ?_, only_of_shape fun q m found => ?_⟩
  · rw [← put]
    exact isDir_graft free (root_of_find found) _
  · refine List.forall_mem_cons.mpr ⟨?_, fun e mem => ?_⟩
    · rw [← put]
      exact find_graft_entry found name _
    · rw [← put, find_graft_apart (apart e mem).2 (apart e mem).1]
      exact there e mem
  · rw [← put, shapes] at found
    split at found
    · rename_i same
      cases found
      rw [same]
      exact List.mem_cons_self
    · exact only q m found

end Add

end Lib.Node
