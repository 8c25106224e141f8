import ModelGuard.Hashing.Walk

/-!
# Fingerprints

A file system with inodes, and the per-file metadata by which the digest cache recognizes an artifact.
-/

namespace ModelGuard.Cache

open Lib Lib.Node ModelGuard.Hashing

structure FileId where
  ino : Nat
  dev : Nat
deriving DecidableEq

structure Inode where
  content : Bytes
  mtimeNs : Int
  ctimeNs : Int
deriving DecidableEq

variable {P : Type}

/-- What each path leads to and resolves to, and what the inodes hold. -/
structure FileSystem (P : Type) where
  node : P → Option (Node FileId)
  resolve : P → Str
  inode : FileId → Inode
  distinct : ∀ p n, node p = some n → n.Distinct

def FileSystem.content (fs : FileSystem P) (id : FileId) : Bytes := (fs.inode id).content

/-- The files of an artifact with the paths that hashing gives them. -/
def FileSystem.table (fs : FileSystem P) (nameOf : P → FileName) (p : P) : List (Str × FileId) :=
  match fs.node p with
  | some (.file id) => [((nameOf p).val, id)]
  | some (.dir l entries) => (regularFiles [] (.dir l entries)).map fun e => (pathText e.1, e.2)
  | _ => []

theorem table_nodup (fs : FileSystem P) (nameOf : P → FileName) (p : P) : ((fs.table nameOf p).map (·.1)).Nodup := by
  unfold FileSystem.table
  split
  · exact List.nodup_singleton _
  · rename_i l entries found
    have paths := (regularFiles_nodup (fs.distinct p _ found) []).map pathText_injective
    rwa [List.map_map] at paths ⊢
  · exact List.nodup_nil

theorem table_unique {fs : FileSystem P} {nameOf : P → FileName} {p : P} {text : Str} {i j : FileId}
    (hi : (text, i) ∈ fs.table nameOf p) (hj : (text, j) ∈ fs.table nameOf p) : i = j :=
  congrArg Prod.snd (List.inj_on_of_nodup_map (table_nodup fs nameOf p) hi hj rfl)

/-- `_StatModel`. -/
structure Stat where
  relpath : Str
  size : Nat
  mtimeNs : Int
  ctimeNs : Int
  id : FileId
deriving DecidableEq

/-- `_stat_model`. -/
def FileSystem.stat (fs : FileSystem P) (relpath : Str) (id : FileId) : Stat where
  relpath := relpath
  size := (fs.content id).length
  mtimeNs := (fs.inode id).mtimeNs
  ctimeNs := (fs.inode id).ctimeNs
  id := id

/-- The loop over `dirnames`: no symlink among the directories. -/
def captureDirnames : List (FileName × Node FileId) → Bool
  | [] => true
  | (_, .symlink .directory) :: _ => false
  | _ :: rest => captureDirnames rest

/-- The loop over `filenames`. -/
def captureFilenames (fs : FileSystem P) (path : RelPath) : List (FileName × Node FileId) → Option (List Stat)
  | [] => some []
  | (_, .dir ..) :: rest => captureFilenames fs path rest
  | (_, .symlink .directory) :: rest => captureFilenames fs path rest
  | (_, .symlink _) :: _ => none
  | (name, .file id) :: rest =>
    if id.ino = 0 then none
    else (captureFilenames fs path rest).map (fs.stat (pathText (path ++ [name])) id :: ·)

mutual
/-- The loop over `os.walk`, which skips a directory whose listing fails. -/
def captureWalk (fs : FileSystem P) (path : RelPath) : Node FileId → Option (List Stat)
  | .dir true entries =>
    if captureDirnames entries then
      (captureFilenames fs path entries).bind fun stats => (captureWalkIn fs path entries).map (stats ++ ·)
    else none
  | _ => some []

def captureWalkIn (fs : FileSystem P) (path : RelPath) : List (FileName × Node FileId) → Option (List Stat)
  | [] => some []
  | (name, n) :: rest =>
    (captureWalk fs (path ++ [name]) n).bind fun stats => (captureWalkIn fs path rest).map (stats ++ ·)
end

/-- `_capture_fingerprint`: `none` when the artifact cannot be cached safely. -/
def captureFingerprint (fs : FileSystem P) (nameOf : P → FileName) (p : P) : Option (ArtifactType × List Stat) :=
  match fs.node p with
  | none => none
  | some (.symlink _) => none
  | some (.file id) => if id.ino = 0 then none else some (.file, [fs.stat (nameOf p).val id])
  | some (.dir l entries) =>
    (captureWalk fs [] (.dir l entries)).bind fun stats =>
      if stats.isEmpty then none else some (.directory, stats.insertionSort fun a b => a.relpath ≤ b.relpath)

/-! ### What a fingerprint shows -/

variable {fs : FileSystem P} {nameOf : P → FileName} {p : P}

/-- The records of the files that the listings show. -/
def FileSystem.seenStats (fs : FileSystem P) (path : RelPath) (n : Node FileId) : List Stat :=
  (regularFiles path (seen n)).map fun e => fs.stat (pathText e.1) e.2

def ownStats (fs : FileSystem P) (path : RelPath) (e : FileName × Node FileId) : List Stat :=
  match e.2 with
  | .file id => [fs.stat (pathText (path ++ [e.1])) id]
  | _ => []

/-- The files below an entry that is a directory. -/
def belowStats (fs : FileSystem P) (path : RelPath) (n : Node FileId) : List Stat :=
  match n with
  | .dir l entries => fs.seenStats path (.dir l entries)
  | _ => []

def NoSymlinkBelow : Node FileId → Prop
  | .dir l entries => everywhere notSymlink (seen (.dir l entries)) = true
  | _ => True

theorem captureListing_ok {path : RelPath} {entries : List (FileName × Node FileId)} {stats : List Stat}
    (dirs : captureDirnames entries = true) (names : captureFilenames fs path entries = some stats) :
    (∀ e ∈ entries, notSymlink e.2 = true) ∧ stats = entries.flatMap (ownStats fs path) := by
  induction entries generalizing stats with
  | nil => exact ⟨by simp, (Option.some.inj names).symm⟩
  | cons e rest ih =>
    obtain ⟨name, n⟩ := e
    cases n with
    | file id =>
      unfold captureFilenames at names
      split at names
      · cases names
      · obtain ⟨others, tail, same⟩ := Option.map_eq_some_iff.mp names
        obtain ⟨plain, all⟩ := ih dirs tail
        subst same
        rw [all]
        exact ⟨List.forall_mem_cons.mpr ⟨rfl, plain⟩, rfl⟩
    | symlink t => cases t <;> simp [captureDirnames, captureFilenames] at dirs names
    | dir l below =>
      obtain ⟨plain, all⟩ := ih dirs names
      exact ⟨List.forall_mem_cons.mpr ⟨rfl, plain⟩, all⟩

theorem seenStats_entry {path : RelPath} {e : FileName × Node FileId} (plain : notSymlink e.2 = true) :
    fs.seenStats (path ++ [e.1]) e.2 = ownStats fs path e ++ belowStats fs (path ++ [e.1]) e.2 := by
  obtain ⟨name, n⟩ := e
  cases n with
  | file id => simp [FileSystem.seenStats, seen, regularFiles, ownStats, belowStats]
  | symlink t => cases plain
  | dir l below => simp [ownStats, belowStats]

theorem belowStats_dir {path : RelPath} {entries : List (FileName × Node FileId)}
    (plain : ∀ e ∈ entries, notSymlink e.2 = true) :
    belowStats fs path (.dir true entries) =
      entries.flatMap fun e => ownStats fs path e ++ belowStats fs (path ++ [e.1]) e.2 := by
  have parts : belowStats fs path (.dir true entries) = entries.flatMap fun e => fs.seenStats (path ++ [e.1]) e.2 := by
    simp only [belowStats, FileSystem.seenStats, seen, regularFiles, regularFilesIn_eq, seenIn_eq, List.flatMap_map,
      List.map_flatMap]
  rw [parts]
  exact List.flatMap_congr fun e he => seenStats_entry (plain e he)

theorem noSymlink_dir {entries : List (FileName × Node FileId)} (plain : ∀ e ∈ entries, notSymlink e.2 = true)
    (below : ∀ e ∈ entries, NoSymlinkBelow e.2) : NoSymlinkBelow (.dir true entries) := by
  simp only [NoSymlinkBelow, seen, everywhere, everywhereIn_eq, seenIn_eq, notSymlink, Bool.true_and, List.all_map,
    List.all_eq_true, Function.comp]
  intro e he
  have own := plain e he
  have inner := below e he
  obtain ⟨name, n⟩ := e
  cases n with
  | file id => rfl
  | symlink t => cases own
  | dir l under => exact inner

theorem captureWalkIn_ok {path : RelPath} {entries : List (FileName × Node FileId)} {stats : List Stat}
    (ih : ∀ e ∈ entries, ∀ path found, captureWalk fs path e.2 = some found →
      NoSymlinkBelow e.2 ∧ found.Perm (belowStats fs path e.2))
    (h : captureWalkIn fs path entries = some stats) :
    (∀ e ∈ entries, NoSymlinkBelow e.2) ∧
      stats.Perm (entries.flatMap fun e => belowStats fs (path ++ [e.1]) e.2) := by
  induction entries generalizing stats with
  | nil =>
    have same := Option.some.inj h
    subst same
    exact ⟨by simp, List.Perm.refl _⟩
  | cons e rest ihr =>
    unfold captureWalkIn at h
    obtain ⟨own, walked, h⟩ := Option.bind_eq_some_iff.mp h
    obtain ⟨others, under, same⟩ := Option.map_eq_some_iff.mp h
    subst same
    obtain ⟨plain, perm⟩ := ih e List.mem_cons_self _ _ walked
    obtain ⟨plainRest, permRest⟩ := ihr (fun e he => ih e (List.mem_cons_of_mem _ he)) under
    exact ⟨List.forall_mem_cons.mpr ⟨plain, plainRest⟩, perm.append permRest⟩

theorem captureWalk_ok {n : Node FileId} {path : RelPath} {stats : List Stat} (h : captureWalk fs path n = some stats) :
    NoSymlinkBelow n ∧ stats.Perm (belowStats fs path n) := by
  induction n using entryInduction generalizing path stats with
  | file id =>
    have same := Option.some.inj h
    subst same
    exact ⟨trivial, List.Perm.refl _⟩
  | symlink t =>
    have same := Option.some.inj h
    subst same
    exact ⟨trivial, List.Perm.refl _⟩
  | dir l entries ih =>
    cases l with
    | false =>
      have same := Option.some.inj h
      subst same
      exact ⟨rfl, List.Perm.refl _⟩
    | true =>
      unfold captureWalk at h
      split at h
      · rename_i dirs
        obtain ⟨own, names, h⟩ := Option.bind_eq_some_iff.mp h
        obtain ⟨others, under, same⟩ := Option.map_eq_some_iff.mp h
        obtain ⟨plain, all⟩ := captureListing_ok dirs names
        obtain ⟨below, perm⟩ := captureWalkIn_ok (fun e he path found => ih e he) under
        subst same all
        refine ⟨noSymlink_dir plain below, ?_⟩
        rw [belowStats_dir plain]
        exact (List.Perm.append_left _ perm).trans (List.flatMap_append_perm _ _ _)
      · cases h

/-- A fingerprint is that of one file, or of a directory whose listings show files and no symlink. -/
inductive Captured (fs : FileSystem P) (nameOf : P → FileName) (p : P) : ArtifactType → List Stat → Prop
  | file {id : FileId} : fs.node p = some (.file id) → Captured fs nameOf p .file [fs.stat (nameOf p).val id]
  | directory {l : Bool} {entries : List (FileName × Node FileId)} {stats : List Stat} :
      fs.node p = some (.dir l entries) → everywhere notSymlink (seen (.dir l entries)) = true → stats ≠ [] →
      stats.Perm (fs.seenStats [] (.dir l entries)) → Captured fs nameOf p .directory stats

theorem captured {kind : ArtifactType} {stats : List Stat} (h : captureFingerprint fs nameOf p = some (kind, stats)) :
    Captured fs nameOf p kind stats := by
  unfold captureFingerprint at h
  split at h
  · cases h
  · cases h
  · rename_i id found
    split at h
    · cases h
    · cases h
      exact .file found
  · rename_i l entries found
    obtain ⟨walked, walk, h⟩ := Option.bind_eq_some_iff.mp h
    obtain ⟨plain, perm⟩ := captureWalk_ok walk
    split at h
    · cases h
    · rename_i nonempty
      cases h
      have sorted := List.perm_insertionSort (fun a b : Stat => a.relpath ≤ b.relpath) walked
      refine .directory found plain ?_ (sorted.trans perm)
      intro none
      rw [none] at sorted
      exact nonempty (by rw [sorted.symm.eq_nil, List.isEmpty_nil])

/-- A record of the present state of a listed file. -/
theorem captured_current {kind : ArtifactType} {stats : List Stat} (h : Captured fs nameOf p kind stats) {st : Stat}
    (mem : st ∈ stats) : st = fs.stat st.relpath st.id ∧ (st.relpath, st.id) ∈ fs.table nameOf p := by
  cases h with
  | file found =>
    have same := List.mem_singleton.mp mem
    subst same
    unfold FileSystem.table
    rw [found]
    exact ⟨rfl, List.mem_singleton_self _⟩
  | directory found plain nonempty perm =>
    obtain ⟨e, shown, same⟩ := List.mem_map.mp (perm.subset mem)
    subst same
    unfold FileSystem.table
    rw [found]
    exact ⟨rfl, List.mem_map_of_mem (regularFiles_seen shown)⟩

end ModelGuard.Cache
