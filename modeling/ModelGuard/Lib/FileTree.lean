import ModelGuard.Lib.JsonLex
import Mathlib.Data.List.Nodup
import Mathlib.Data.List.Perm.Basic

/-!
# Trees of files

A directory is the list of its entries in the order a listing yields them. What a file holds is left
to the type of its payload.
-/

namespace Lib

/-- One component of a path, decoded from octets: no octet decodes to a high surrogate. -/
def IsFileName (s : Str) : Prop :=
  s ≠ [] ∧ cp '/' ∉ s ∧ cp '\x00' ∉ s ∧ s ≠ str "." ∧ s ≠ str ".." ∧ s.all (fun c => !isHighSurrogate c) = true

instance (s : Str) : Decidable (IsFileName s) := inferInstanceAs (Decidable (_ ∧ _))

abbrev FileName := { s : Str // IsFileName s }

/-- A path relative to the root of a tree. -/
abbrev RelPath := List FileName

/-- `PurePosixPath.as_posix`. -/
def pathText : RelPath → Str
  | [] => []
  | [name] => name.val
  | name :: rest => name.val ++ cp '/' :: pathText rest

theorem pathText_cons {name : FileName} {rest : RelPath} (h : rest ≠ []) :
    pathText (name :: rest) = name.val ++ cp '/' :: pathText rest := by
  cases rest with
  | nil => exact (h rfl).elim
  | cons next rest => rfl

theorem pathText_ne_nil {path : RelPath} (h : path ≠ []) : pathText path ≠ [] := by
  match path with
  | [] => exact (h rfl).elim
  | [name] => exact name.property.1
  | name :: _ :: _ => simp [pathText]

/-- The first separator decides where two texts split. -/
theorem append_sep_inj {β : Type} {c : β} {a b s t : List β} (ha : c ∉ a) (hb : c ∉ b)
    (h : a ++ c :: s = b ++ c :: t) : a = b ∧ s = t := by
  induction a generalizing b with
  | nil =>
    cases b with
    | nil => exact ⟨rfl, (List.cons.inj h).2⟩
    | cons d b =>
      rw [List.mem_cons, not_or] at hb
      exact (hb.1 (List.cons.inj h).1).elim
  | cons d a ih =>
    rw [List.mem_cons, not_or] at ha
    cases b with
    | nil => exact (ha.1 (List.cons.inj h).1.symm).elim
    | cons e b =>
      rw [List.mem_cons, not_or] at hb
      obtain ⟨head, tail⟩ := List.cons.inj h
      obtain ⟨same, rest⟩ := ih ha.2 hb.2 tail
      exact ⟨by rw [head, same], rest⟩

theorem pathText_injective : Function.Injective pathText := by
  intro p
  induction p with
  | nil =>
    intro q h
    by_contra ne
    exact pathText_ne_nil (Ne.symm ne) h.symm
  | cons name rest ih =>
    intro q h
    cases q with
    | nil => exact (pathText_ne_nil (List.cons_ne_nil _ _) h).elim
    | cons name' rest' =>
      have slash : cp '/' ∉ name.val := name.property.2.1
      have slash' : cp '/' ∉ name'.val := name'.property.2.1
      by_cases last : rest = [] <;> by_cases last' : rest' = []
      · subst last last'
        rw [Subtype.ext (show name.val = name'.val from h)]
      · subst last
        rw [pathText_cons last'] at h
        exact (slash (by rw [show name.val = _ from h]; simp)).elim
      · subst last'
        rw [pathText_cons last] at h
        exact (slash' (by rw [show name'.val = _ from h.symm]; simp)).elim
      · rw [pathText_cons last, pathText_cons last'] at h
        obtain ⟨same, tails⟩ := append_sep_inj slash slash' h
        rw [Subtype.ext same, ih tails]

/-- The text of a path has no pair of surrogates, so it survives JSON. -/
theorem pathText_joined (path : RelPath) : Json.Joined (pathText path) := by
  have plain : ∀ c ∈ pathText path, isHighSurrogate c = false := by
    induction path with
    | nil => simp [pathText]
    | cons name rest ih =>
      have own : ∀ c ∈ name.val, isHighSurrogate c = false := fun c hc => by
        simpa using List.all_eq_true.mp name.property.2.2.2.2.2 c hc
      by_cases last : rest = []
      · rw [last]
        exact own
      · rw [pathText_cons last]
        intro c hc
        rcases List.mem_append.mp hc with hc | hc
        · exact own c hc
        · rcases List.mem_cons.mp hc with rfl | hc
          · decide
          · exact ih c hc
  generalize pathText path = s at plain
  induction s with
  | nil => exact List.IsChain.nil
  | cons c s ih =>
    refine Json.joined_cons (fun _ _ _ => ?_) (ih fun d hd => plain d (List.mem_cons_of_mem _ hd))
    rw [plain c List.mem_cons_self, Bool.false_and]

/-- There is always another name. -/
theorem exists_unused (used : List FileName) : ∃ name : FileName, name ∉ used := by
  have valid (n : Nat) : IsFileName (List.replicate (n + 3) (cp 'a')) := by
    refine ⟨by simp, ?_, ?_, ?_, ?_, ?_⟩
    · simpa [List.mem_replicate] using cp_injective.ne (by decide)
    · simpa [List.mem_replicate] using cp_injective.ne (by decide)
    · exact fun h => by simpa [str] using congrArg List.length h
    · exact fun h => by simpa [str] using congrArg List.length h
    · rw [List.all_eq_true]
      intro c hc
      rw [(List.mem_replicate.mp hc).2]
      decide
  have longer : ∀ used : List FileName, ∃ n, ∀ name ∈ used, name.val.length < n + 3 := by
    intro used
    induction used with
    | nil => exact ⟨0, by simp⟩
    | cons first rest ih =>
      obtain ⟨n, bound⟩ := ih
      refine ⟨n + first.val.length, List.forall_mem_cons.mpr ⟨by omega, fun name h => ?_⟩⟩
      have := bound name h
      omega
  obtain ⟨n, bound⟩ := longer used
  refine ⟨⟨_, valid n⟩, fun h => ?_⟩
  have := bound _ h
  simp at this

/-- What a symbolic link leads to. -/
inductive LinkTarget where
  | directory
  | file
  | missing
deriving DecidableEq

/-- An entry of the file system. A directory that cannot be listed still has its entries. -/
inductive Node (α : Type) where
  | file (payload : α)
  | symlink (target : LinkTarget)
  | dir (listable : Bool) (entries : List (FileName × Node α))

namespace Node

variable {α : Type}

/-- Induction with a hypothesis for every entry of a directory. -/
theorem entryInduction {P : Node α → Prop} (file : ∀ a, P (.file a)) (symlink : ∀ t, P (.symlink t))
    (dir : ∀ l entries, (∀ e ∈ entries, P e.2) → P (.dir l entries)) : ∀ n, P n
  | .file a => file a
  | .symlink t => symlink t
  | .dir l entries => dir l entries (all entries)
where
  all : ∀ entries : List (FileName × Node α), ∀ e ∈ entries, P e.2
    | [], _, h => (List.not_mem_nil h).elim
    | (name, n) :: rest, e, h => by
      rcases List.mem_cons.mp h with same | h
      · rw [same]
        exact entryInduction file symlink dir n
      · exact all rest e h

mutual
/-- Every regular file at or below the node, with its path. -/
def regularFiles (path : RelPath) : Node α → List (RelPath × α)
  | .file a => [(path, a)]
  | .symlink _ => []
  | .dir _ entries => regularFilesIn path entries

def regularFilesIn (path : RelPath) : List (FileName × Node α) → List (RelPath × α)
  | [] => []
  | (name, n) :: rest => regularFiles (path ++ [name]) n ++ regularFilesIn path rest
end

mutual
/-- Every symbolic link at or below the node, with its path. -/
def symlinks (path : RelPath) : Node α → List (RelPath × LinkTarget)
  | .file _ => []
  | .symlink t => [(path, t)]
  | .dir _ entries => symlinksIn path entries

def symlinksIn (path : RelPath) : List (FileName × Node α) → List (RelPath × LinkTarget)
  | [] => []
  | (name, n) :: rest => symlinks (path ++ [name]) n ++ symlinksIn path rest
end

mutual
/-- Whether `p` holds of the node and of everything below it. -/
def everywhere (p : Node α → Bool) : Node α → Bool
  | .file a => p (.file a)
  | .symlink t => p (.symlink t)
  | .dir l entries => p (.dir l entries) && everywhereIn p entries

def everywhereIn (p : Node α → Bool) : List (FileName × Node α) → Bool
  | [] => true
  | (_, n) :: rest => everywhere p n && everywhereIn p rest
end

mutual
/-- The part of the tree that listings show: a directory that cannot be listed looks empty. -/
def seen : Node α → Node α
  | .file a => .file a
  | .symlink t => .symlink t
  | .dir false _ => .dir true []
  | .dir true entries => .dir true (seenIn entries)

def seenIn : List (FileName × Node α) → List (FileName × Node α)
  | [] => []
  | (name, n) :: rest => (name, seen n) :: seenIn rest
end

/-- The node that a path leads to. -/
def nodeAt : RelPath → Node α → Option (Node α)
  | [], n => some n
  | name :: rest, .dir _ entries => (entries.lookup name).bind (nodeAt rest)
  | _ :: _, _ => none

def notSymlink : Node α → Bool
  | .symlink _ => false
  | _ => true

def isListable : Node α → Bool
  | .dir listable _ => listable
  | _ => true

/-- The entries of every directory have names of their own. -/
inductive Distinct : Node α → Prop
  | file (a : α) : Distinct (.file a)
  | symlink (t : LinkTarget) : Distinct (.symlink t)
  | dir {l : Bool} {entries : List (FileName × Node α)} :
      (entries.map (·.1)).Nodup → (∀ e ∈ entries, Distinct e.2) → Distinct (.dir l entries)

/-- `new` is `old` with one more entry in the directory at `path`. -/
inductive Added (name : FileName) (n : Node α) : RelPath → Node α → Node α → Prop
  | here {l : Bool} {before after : List (FileName × Node α)} :
      (∀ e ∈ before ++ after, e.1 ≠ name) →
      Added name n [] (.dir l (before ++ after)) (.dir l (before ++ (name, n) :: after))
  | inside {l : Bool} {d : FileName} {path : RelPath} {old new : Node α} {before after : List (FileName × Node α)} :
      Added name n path old new →
      Added name n (d :: path) (.dir l (before ++ (d, old) :: after)) (.dir l (before ++ (d, new) :: after))

/-! ### Lists of entries -/

theorem regularFilesIn_eq (path : RelPath) (entries : List (FileName × Node α)) :
    regularFilesIn path entries = entries.flatMap fun e => regularFiles (path ++ [e.1]) e.2 := by
  induction entries with
  | nil => rfl
  | cons e rest ih => rw [regularFilesIn, ih, List.flatMap_cons]

theorem symlinksIn_eq (path : RelPath) (entries : List (FileName × Node α)) :
    symlinksIn path entries = entries.flatMap fun e => symlinks (path ++ [e.1]) e.2 := by
  induction entries with
  | nil => rfl
  | cons e rest ih => rw [symlinksIn, ih, List.flatMap_cons]

theorem everywhereIn_eq (p : Node α → Bool) (entries : List (FileName × Node α)) :
    everywhereIn p entries = entries.all fun e => everywhere p e.2 := by
  induction entries with
  | nil => rfl
  | cons e rest ih => rw [everywhereIn, ih, List.all_cons]

theorem seenIn_eq (entries : List (FileName × Node α)) : seenIn entries = entries.map fun e => (e.1, seen e.2) := by
  induction entries with
  | nil => rfl
  | cons e rest ih => rw [seenIn, ih, List.map_cons]

/-! ### What a listing shows -/

/-- A tree in which every directory can be listed shows everything. -/
theorem seen_eq_self {n : Node α} (h : everywhere isListable n = true) : seen n = n := by
  induction n using entryInduction with
  | file a => rw [seen]
  | symlink t => rw [seen]
  | dir l entries ih =>
    simp only [everywhere, everywhereIn_eq, isListable, Bool.and_eq_true, List.all_eq_true] at h
    obtain ⟨rfl, below⟩ := h
    rw [seen, seenIn_eq]
    congr 1
    conv_rhs => rw [← List.map_id entries]
    refine List.map_congr_left fun e he => ?_
    rw [ih e he (below e he), id]

theorem seen_listable (n : Node α) : everywhere isListable (seen n) = true := by
  induction n using entryInduction with
  | file a => rfl
  | symlink t => rfl
  | dir l entries ih =>
    cases l with
    | false => rfl
    | true =>
      simp only [seen, everywhere, isListable, everywhereIn_eq, seenIn_eq, Bool.true_and, List.all_eq_true,
        List.forall_mem_map]
      exact ih

theorem distinct_seen {n : Node α} (h : Distinct n) : Distinct (seen n) := by
  induction n using entryInduction with
  | file a => exact .file a
  | symlink t => exact .symlink t
  | dir l entries ih =>
    cases h with
    | dir names below =>
      cases l with
      | false => exact .dir List.nodup_nil (by simp)
      | true =>
        rw [seen, seenIn_eq]
        refine .dir ?_ ?_
        · rwa [List.map_map, show ((·.1) ∘ fun e : FileName × Node α => (e.1, seen e.2)) = (·.1) from rfl]
        · simp only [List.forall_mem_map]
          exact fun e he => ih e he (below e he)

/-- Where a directory cannot be listed, there is a place to add an entry that no listing shows. -/
theorem exists_unseen {n : Node α} (h : everywhere isListable n = false) (extra : Node α) :
    ∃ name path new, Added name extra path n new ∧ seen new = seen n := by
  induction n using entryInduction with
  | file a => cases h
  | symlink t => cases h
  | dir l entries ih =>
    cases l with
    | false =>
      obtain ⟨name, unused⟩ := exists_unused (entries.map (·.1))
      have added : Added name extra [] (.dir false ([] ++ entries)) (.dir false ([] ++ (name, extra) :: entries)) :=
        .here fun e he same => unused (same ▸ List.mem_map_of_mem he)
      exact ⟨name, [], _, added, rfl⟩
    | true =>
      simp only [everywhere, isListable, Bool.true_and, everywhereIn_eq, List.all_eq_false, Bool.not_eq_true] at h
      obtain ⟨e, he, unlistable⟩ := h
      obtain ⟨name, path, new, added, same⟩ := ih e he unlistable
      obtain ⟨before, after, rfl⟩ := List.append_of_mem he
      refine ⟨name, e.1 :: path, .dir true (before ++ (e.1, new) :: after), added.inside, ?_⟩
      simp only [seen, seenIn_eq, List.map_append, List.map_cons, same]

/-! ### Paths of files -/

theorem regularFiles_below {n : Node α} {path : RelPath} {e : RelPath × α} (h : e ∈ regularFiles path n) :
    path <+: e.1 := by
  induction n using entryInduction generalizing path with
  | file a =>
    rw [regularFiles, List.mem_singleton] at h
    subst h
    exact List.prefix_refl path
  | symlink t => cases h
  | dir l entries ih =>
    rw [regularFiles, regularFilesIn_eq, List.mem_flatMap] at h
    obtain ⟨entry, mem, h⟩ := h
    exact (List.prefix_append path [entry.1]).trans (ih entry mem h)

theorem regularFiles_nodup {n : Node α} (h : Distinct n) (path : RelPath) :
    ((regularFiles path n).map (·.1)).Nodup := by
  induction n using entryInduction generalizing path with
  | file a => exact List.nodup_singleton _
  | symlink t => exact List.nodup_nil
  | dir l entries ih =>
    cases h with
    | dir names below =>
      rw [regularFiles, regularFilesIn_eq, List.map_flatMap]
      rw [List.Nodup, List.pairwise_map] at names
      refine List.nodup_flatMap.mpr ⟨fun e he => ih e he (below e he) _, names.imp fun {a b} apart => ?_⟩
      -- Files below different entries differ in the component that names the entry.
      intro p hp hp'
      obtain ⟨x, hx, rfl⟩ := List.mem_map.mp hp
      obtain ⟨y, hy, same⟩ := List.mem_map.mp hp'
      obtain ⟨s, hs⟩ := regularFiles_below hx
      obtain ⟨t, ht⟩ := regularFiles_below hy
      rw [← hs, ← ht, List.append_assoc, List.append_assoc, List.append_cancel_left_eq] at same
      exact apart (List.cons.inj same).1.symm

theorem regularFiles_file {n : Node α} {path below : RelPath} {a : α} (h : nodeAt below n = some (.file a)) :
    (path ++ below, a) ∈ regularFiles path n := by
  induction below generalizing n path with
  | nil =>
    have same := Option.some.inj h
    subst same
    rw [List.append_nil, regularFiles]
    exact List.mem_singleton_self _
  | cons name below ih =>
    cases n with
    | file b => cases h
    | symlink t => cases h
    | dir l entries =>
      obtain ⟨child, found, h⟩ := Option.bind_eq_some_iff.mp h
      obtain ⟨before, after, split, -⟩ := List.lookup_eq_some_iff.mp found
      rw [regularFiles, regularFilesIn_eq, List.mem_flatMap]
      refine ⟨(name, child), split ▸ by simp, ?_⟩
      have inside : (path ++ [name] ++ below, a) ∈ regularFiles (path ++ [name]) child := ih h
      rwa [List.append_assoc, List.singleton_append] at inside

theorem regularFiles_seen {n : Node α} {path : RelPath} {e : RelPath × α} (h : e ∈ regularFiles path (seen n)) :
    e ∈ regularFiles path n := by
  induction n using entryInduction generalizing path with
  | file a => exact h
  | symlink t => exact h
  | dir l entries ih =>
    cases l with
    | false => cases h
    | true =>
      rw [seen, seenIn_eq, regularFiles, regularFilesIn_eq, List.mem_flatMap] at h
      obtain ⟨_, mem, h⟩ := h
      obtain ⟨entry, own, same⟩ := List.mem_map.mp mem
      subst same
      rw [regularFiles, regularFilesIn_eq, List.mem_flatMap]
      exact ⟨entry, own, ih entry own h⟩

/-- What a walk finds in one listing, and what it finds below. -/
def entryFile (path : RelPath) (e : FileName × Node α) : List (RelPath × α) :=
  match e.2 with
  | .file a => [(path ++ [e.1], a)]
  | _ => []

def filesBelow (path : RelPath) (n : Node α) : List (RelPath × α) :=
  match n with
  | .dir _ entries => regularFilesIn path entries
  | _ => []

theorem regularFiles_entry (path : RelPath) (e : FileName × Node α) :
    regularFiles (path ++ [e.1]) e.2 = entryFile path e ++ filesBelow (path ++ [e.1]) e.2 := by
  obtain ⟨name, n⟩ := e
  cases n with
  | file a => rfl
  | symlink t => rfl
  | dir l below => rfl

theorem filesBelow_perm (path : RelPath) (l : Bool) (entries : List (FileName × Node α)) :
    (filesBelow path (.dir l entries)).Perm
      (entries.flatMap (entryFile path) ++ entries.flatMap fun e => filesBelow (path ++ [e.1]) e.2) := by
  show (regularFilesIn path entries).Perm _
  rw [regularFilesIn_eq]
  simp only [regularFiles_entry]
  exact (List.flatMap_append_perm _ _ _).symm

theorem entryFile_seen (path : RelPath) (entries : List (FileName × Node α)) :
    (seenIn entries).flatMap (entryFile path) = entries.flatMap (entryFile path) := by
  rw [seenIn_eq, List.flatMap_map]
  apply List.flatMap_congr
  intro e _
  obtain ⟨name, n⟩ := e
  cases n with
  | file a => rfl
  | symlink t => rfl
  | dir l below => cases l <;> rfl

/-- Where the listings show no symlink, neither does the first one, nor any below it. -/
theorem notSymlink_listing {entries : List (FileName × Node α)}
    (plain : everywhere notSymlink (seen (.dir true entries)) = true) :
    (∀ e ∈ entries, notSymlink e.2 = true) ∧ ∀ e ∈ entries, everywhere notSymlink (seen e.2) = true := by
  simp only [seen, everywhere, everywhereIn_eq, seenIn_eq, notSymlink, Bool.true_and, List.all_map, List.all_eq_true,
    Function.comp] at plain
  refine ⟨?_, plain⟩
  intro e mem
  have below := plain e mem
  obtain ⟨name, n⟩ := e
  cases n with
  | file a => rfl
  | symlink t => cases below
  | dir l below => rfl

theorem symlinks_nil {n : Node α} (plain : everywhere notSymlink n = true) (path : RelPath) : symlinks path n = [] := by
  induction n using entryInduction generalizing path with
  | file a => rfl
  | symlink t => cases plain
  | dir l entries ih =>
    rw [everywhere, everywhereIn_eq, Bool.and_eq_true, List.all_eq_true] at plain
    rw [symlinks, symlinksIn_eq, List.flatMap_eq_nil_iff]
    exact fun e mem => ih e mem (plain.2 e mem) (path ++ [e.1])

theorem everywhere_mono {p q : Node α → Bool} (implied : ∀ n, p n = true → q n = true) {n : Node α}
    (all : everywhere p n = true) : everywhere q n = true := by
  induction n using entryInduction with
  | file a => exact implied _ all
  | symlink t => exact implied _ all
  | dir l entries ih =>
    simp only [everywhere, everywhereIn_eq, Bool.and_eq_true, List.all_eq_true] at all ⊢
    exact ⟨implied _ all.1, fun e mem => ih e mem (all.2 e mem)⟩

/-! ### An added entry -/

theorem Added.everywhere_new {name : FileName} {n old new : Node α} {path : RelPath} (h : Added name n path old new)
    {p : Node α → Bool} (all : everywhere p new = true) : everywhere p n = true := by
  induction h with
  | here =>
    simp only [everywhere, everywhereIn_eq, Bool.and_eq_true, List.all_append, List.all_cons] at all
    exact all.2.2.1
  | inside _ ih =>
    simp only [everywhere, everywhereIn_eq, Bool.and_eq_true, List.all_append, List.all_cons] at all
    exact ih all.2.2.1

theorem Added.listable {name : FileName} {n old new : Node α} {path : RelPath} (h : Added name n path old new)
    (all : everywhere isListable old = true) (own : everywhere isListable n = true) :
    everywhere isListable new = true := by
  induction h with
  | here =>
    simp only [everywhere, everywhereIn_eq, isListable, Bool.and_eq_true, List.all_append, List.all_cons] at all ⊢
    exact ⟨all.1, all.2.1, own, all.2.2⟩
  | inside _ ih =>
    simp only [everywhere, everywhereIn_eq, isListable, Bool.and_eq_true, List.all_append, List.all_cons] at all ⊢
    exact ⟨all.1, all.2.1, ih all.2.2.1, all.2.2.2⟩

theorem Added.distinct {name : FileName} {n old new : Node α} {path : RelPath} (h : Added name n path old new)
    (distinct : Distinct old) (own : Distinct n) : Distinct new := by
  induction h with
  | here fresh =>
    cases distinct with
    | dir names below =>
      refine .dir ?_ ?_
      · simp only [List.map_append, List.map_cons]
        refine List.nodup_middle.mpr (List.nodup_cons.mpr ⟨?_, by rwa [← List.map_append]⟩)
        rw [← List.map_append]
        rintro mem
        obtain ⟨e, he, same⟩ := List.mem_map.mp mem
        exact fresh e he same
      · intro e he
        rcases List.mem_append.mp he with he | he
        · exact below e (List.mem_append_left _ he)
        · rcases List.mem_cons.mp he with rfl | he
          · exact own
          · exact below e (List.mem_append_right _ he)
  | inside _ ih =>
    cases distinct with
    | dir names below =>
      refine .dir (by simpa using names) ?_
      intro e he
      rcases List.mem_append.mp he with he | he
      · exact below e (List.mem_append_left _ he)
      · rcases List.mem_cons.mp he with rfl | he
        · exact ih (below _ (List.mem_append_right _ List.mem_cons_self))
        · exact below e (List.mem_append_right _ (List.mem_cons_of_mem _ he))

theorem regularFiles_length_path (n : Node α) (p q : RelPath) :
    (regularFiles p n).length = (regularFiles q n).length := by
  induction n using entryInduction generalizing p q with
  | file a => rfl
  | symlink t => rfl
  | dir l entries ih =>
    simp only [regularFiles, regularFilesIn_eq, List.length_flatMap]
    exact congrArg List.sum (List.map_congr_left fun e he => ih e he _ _)

theorem Added.regularFiles_length {name : FileName} {n old new : Node α} {path : RelPath}
    (h : Added name n path old new) (p : RelPath) :
    (regularFiles p new).length = (regularFiles p old).length + (regularFiles [] n).length := by
  induction h generalizing p with
  | here =>
    simp only [regularFiles, regularFilesIn_eq, List.flatMap_append, List.flatMap_cons, List.length_append]
    rw [regularFiles_length_path n _ []]
    omega
  | inside _ ih =>
    simp only [regularFiles, regularFilesIn_eq, List.flatMap_append, List.flatMap_cons, List.length_append, ih]
    omega

theorem Added.directory {name : FileName} {n old new : Node α} {path : RelPath} (h : Added name n path old new) :
    ∃ l entries, new = .dir l entries := by
  cases h <;> exact ⟨_, _, rfl⟩

end Node
end Lib
