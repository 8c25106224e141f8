import ModelGuard.Hashing.Digest
import Mathlib.Data.List.Perm.Basic

/-!
# What hashing a directory sees

`hash_directory` returns exactly when the listings show no symlink, no unreadable file and at least one
file, and its digest is that of the files the listings show.
-/

namespace ModelGuard.Hashing

open Lib Lib.Fallible Lib.Node

variable {α : Type}

/-- A regular file that can be read, or a directory. -/
def isHashable (disk : Disk α) : Node α → Bool
  | .file a => disk.readable a
  | .symlink _ => false
  | .dir .. => true

/-- The listings below the node show neither a symlink nor an unreadable file. -/
def Clean (disk : Disk α) (n : Node α) : Prop := everywhere (isHashable disk) (seen n) = true

def fileDigest (sha : Sha256) (disk : Disk α) (e : RelPath × α) : FileDigest where
  path := pathText e.1
  sha256 := sha.hexdigest (disk.content e.2)
  size := (disk.content e.2).length

/-- The digests of the files that the listings show. -/
def seenFiles (sha : Sha256) (disk : Disk α) (root : Node α) : List FileDigest :=
  (regularFiles [] (seen root)).map (fileDigest sha disk)

/-- The digest of a directory with the given files. -/
def directoryDigest (sha : Sha256) (files : List FileDigest) : ArtifactDigest where
  artifactType := .directory
  digest := sha.hexdigest (canonicalManifestBytes files)
  files := sortFiles files

theorem hashFileBytes_ok {sha : Sha256} {disk : Disk α} {a : α} {p : Str × Nat} :
    hashFileBytes sha disk a = .ok p ↔
      disk.readable a = true ∧ p = (sha.hexdigest (disk.content a), (disk.content a).length) := by
  unfold hashFileBytes
  split
  · rename_i readable
    simp [readable, eq_comm]
  · rename_i unreadable
    simp [unreadable]

/-! ### The loops over one listing -/

/-- The part of a listing that `hashFilenames` takes in. -/
def ownFiles (sha : Sha256) (disk : Disk α) (path : RelPath) (e : FileName × Node α) : List FileDigest :=
  match e.2 with
  | .file a => [fileDigest sha disk (path ++ [e.1], a)]
  | _ => []

theorem listing_ok (sha : Sha256) {disk : Disk α} (path : RelPath) {entries : List (FileName × Node α)}
    {files : List FileDigest} :
    (checkDirnames path entries = .ok () ∧ hashFilenames sha disk path entries = .ok files) ↔
      (∀ e ∈ entries, isHashable disk e.2 = true) ∧ files = entries.flatMap (ownFiles sha disk path) := by
  induction entries generalizing files with
  | nil => exact ⟨fun h => ⟨by simp, (Except.ok.inj h.2).symm⟩, fun h => ⟨rfl, congrArg Except.ok h.2.symm⟩⟩
  | cons e rest ih =>
    obtain ⟨name, n⟩ := e
    cases n with
    | file a =>
      simp only [checkDirnames, hashFilenames, bind_ok, pure_ok, hashFileBytes_ok, List.forall_mem_cons, isHashable,
        List.flatMap_cons, ownFiles, fileDigest]
      constructor
      · rintro ⟨dirs, _, ⟨readable, rfl⟩, below, rest, rfl⟩
        obtain ⟨hashable, rfl⟩ := ih.mp ⟨dirs, rest⟩
        exact ⟨⟨readable, hashable⟩, rfl⟩
      · rintro ⟨⟨readable, hashable⟩, rfl⟩
        obtain ⟨dirs, rest⟩ := ih.mpr ⟨hashable, rfl⟩
        exact ⟨dirs, _, ⟨readable, rfl⟩, _, rest, rfl⟩
    | symlink t =>
      cases t <;> simp [checkDirnames, hashFilenames, isHashable]
    | dir l below =>
      simp only [checkDirnames, hashFilenames, List.forall_mem_cons, isHashable, true_and, List.flatMap_cons, ownFiles,
        List.nil_append]
      exact ih

/-! ### The walk -/

/-- The files below a directory that the listings show. -/
def belowFiles (sha : Sha256) (disk : Disk α) (path : RelPath) (n : Node α) : List FileDigest :=
  match n with
  | .dir l entries => (regularFiles path (seen (.dir l entries))).map (fileDigest sha disk)
  | _ => []

def CleanBelow (disk : Disk α) : Node α → Prop
  | .dir l entries => Clean disk (.dir l entries)
  | _ => True

theorem clean_dir {disk : Disk α} {entries : List (FileName × Node α)} :
    Clean disk (.dir true entries) ↔
      (∀ e ∈ entries, isHashable disk e.2 = true) ∧ ∀ e ∈ entries, CleanBelow disk e.2 := by
  simp only [Clean, seen, everywhere, isHashable, everywhereIn_eq, seenIn_eq, Bool.true_and, List.all_map,
    List.all_eq_true, Function.comp, ← forall_and]
  refine forall₂_congr fun e _ => ?_
  obtain ⟨name, n⟩ := e
  cases n with
  | file a => simp [seen, everywhere, isHashable, CleanBelow]
  | symlink t => simp [seen, everywhere, isHashable, CleanBelow]
  | dir l below => simp [CleanBelow, Clean]

theorem walkIn_ok {sha : Sha256} {disk : Disk α} {path : RelPath} {entries : List (FileName × Node α)}
    {files : List FileDigest}
    (ih : ∀ e ∈ entries, ∀ path fs, walk sha disk path e.2 = .ok fs →
      CleanBelow disk e.2 ∧ fs.Perm (belowFiles sha disk path e.2))
    (h : walkIn sha disk path entries = .ok files) :
    (∀ e ∈ entries, CleanBelow disk e.2) ∧
      files.Perm (entries.flatMap fun e => belowFiles sha disk (path ++ [e.1]) e.2) := by
  induction entries generalizing files with
  | nil => cases h; exact ⟨by simp, List.Perm.refl _⟩
  | cons e rest ihr =>
    simp only [walkIn, bind_ok, pure_ok] at h
    obtain ⟨own, walked, others, below, rfl⟩ := h
    obtain ⟨clean, perm⟩ := ih e List.mem_cons_self _ _ walked
    obtain ⟨cleanRest, permRest⟩ := ihr (fun e he => ih e (List.mem_cons_of_mem _ he)) below
    exact ⟨List.forall_mem_cons.mpr ⟨clean, cleanRest⟩, perm.append permRest⟩

theorem walkIn_total {sha : Sha256} {disk : Disk α} (path : RelPath) {entries : List (FileName × Node α)}
    (h : ∀ e ∈ entries, ∀ path, ∃ fs, walk sha disk path e.2 = .ok fs) :
    ∃ files, walkIn sha disk path entries = .ok files := by
  induction entries with
  | nil => exact ⟨[], rfl⟩
  | cons e rest ih =>
    obtain ⟨own, walked⟩ := h e List.mem_cons_self (path ++ [e.1])
    obtain ⟨others, below⟩ := ih fun e he => h e (List.mem_cons_of_mem _ he)
    exact ⟨own ++ others, by simp only [walkIn, bind_ok, pure_ok]; exact ⟨own, walked, others, below, rfl⟩⟩

/-- One entry of a directory gives its own digest or the files below it. -/
theorem seenFiles_entry {sha : Sha256} {disk : Disk α} {path : RelPath} {e : FileName × Node α}
    (hashable : isHashable disk e.2 = true) :
    (regularFiles (path ++ [e.1]) (seen e.2)).map (fileDigest sha disk) =
      ownFiles sha disk path e ++ belowFiles sha disk (path ++ [e.1]) e.2 := by
  obtain ⟨name, n⟩ := e
  cases n with
  | file a => simp [seen, regularFiles, ownFiles, belowFiles]
  | symlink t => cases hashable
  | dir l below => simp [ownFiles, belowFiles]

theorem belowFiles_dir {sha : Sha256} {disk : Disk α} {path : RelPath} {entries : List (FileName × Node α)}
    (hashable : ∀ e ∈ entries, isHashable disk e.2 = true) :
    belowFiles sha disk path (.dir true entries) =
      entries.flatMap fun e => ownFiles sha disk path e ++ belowFiles sha disk (path ++ [e.1]) e.2 := by
  have parts : belowFiles sha disk path (.dir true entries) =
      entries.flatMap fun e => (regularFiles (path ++ [e.1]) (seen e.2)).map (fileDigest sha disk) := by
    rw [belowFiles, seen, regularFiles, regularFilesIn_eq, seenIn_eq, List.flatMap_map, List.map_flatMap]
  rw [parts]
  exact List.flatMap_congr fun e he => seenFiles_entry (hashable e he)

theorem walk_ok {sha : Sha256} {disk : Disk α} {n : Node α} {path : RelPath} {files : List FileDigest}
    (h : walk sha disk path n = .ok files) : CleanBelow disk n ∧ files.Perm (belowFiles sha disk path n) := by
  induction n using entryInduction generalizing path files with
  | file a => cases h; exact ⟨trivial, List.Perm.refl _⟩
  | symlink t => cases h; exact ⟨trivial, List.Perm.refl _⟩
  | dir l entries ih =>
    cases l with
    | false => cases h; exact ⟨rfl, List.Perm.refl _⟩
    | true =>
      simp only [walk, bind_ok, pure_ok] at h
      obtain ⟨_, dirs, own, names, others, below, rfl⟩ := h
      obtain ⟨hashable, rfl⟩ := (listing_ok sha path).mp ⟨dirs, names⟩
      obtain ⟨clean, perm⟩ := walkIn_ok (fun e he path fs => ih e he) below
      refine ⟨clean_dir.mpr ⟨hashable, clean⟩, ?_⟩
      rw [belowFiles_dir hashable]
      exact (List.Perm.append_left _ perm).trans (List.flatMap_append_perm _ _ _)

theorem walk_total (sha : Sha256) {disk : Disk α} {n : Node α} (clean : CleanBelow disk n) (path : RelPath) :
    ∃ files, walk sha disk path n = .ok files := by
  induction n using entryInduction generalizing path with
  | file a => exact ⟨[], rfl⟩
  | symlink t => exact ⟨[], rfl⟩
  | dir l entries ih =>
    cases l with
    | false => exact ⟨[], rfl⟩
    | true =>
      obtain ⟨hashable, below⟩ := clean_dir.mp clean
      obtain ⟨dirs, names⟩ := (listing_ok sha path).mpr ⟨hashable, rfl⟩
      obtain ⟨others, walked⟩ := walkIn_total path fun e he path => ih e he (below e he) path
      exact ⟨_, by simp only [walk, bind_ok, pure_ok]; exact ⟨(), dirs, _, names, others, walked, rfl⟩⟩

/-! ### The digest of a directory -/

theorem seenFiles_nodup (sha : Sha256) (disk : Disk α) {root : Node α} (distinct : Distinct root) :
    ((seenFiles sha disk root).map (·.path)).Nodup := by
  have paths : (seenFiles sha disk root).map (·.path) = ((regularFiles [] (seen root)).map (·.1)).map pathText := by
    simp [seenFiles, fileDigest, Function.comp_def]
  rw [paths]
  exact (regularFiles_nodup (distinct_seen distinct) []).map pathText_injective

theorem seenFiles_wf {sha : Sha256} {disk : Disk α} {root : Node α} : ∀ f ∈ seenFiles sha disk root, f.WF := by
  intro f hf
  obtain ⟨e, -, rfl⟩ := List.mem_map.mp hf
  exact ⟨pathText_joined _, Json.joined_of_scalars (sha.hex _).scalars⟩

theorem directoryDigest_perm (sha : Sha256) {files files' : List FileDigest} (perm : files.Perm files')
    (distinct : (files.map (·.path)).Nodup) : directoryDigest sha files = directoryDigest sha files' := by
  simp only [directoryDigest, canonicalManifestBytes, manifestJson, sortFiles_eq_of_perm perm distinct]

/-- When hashing a directory returns, and what. -/
theorem hashDirectory_ok (sha : Sha256) (disk : Disk α) {l : Bool} {entries : List (FileName × Node α)}
    {d : ArtifactDigest} (distinct : Distinct (.dir l entries)) :
    hashDirectory sha disk (.dir l entries) = .ok d ↔
      Clean disk (.dir l entries) ∧ regularFiles [] (seen (.dir l entries)) ≠ [] ∧
        d = directoryDigest sha (seenFiles sha disk (.dir l entries)) := by
  have nodup := seenFiles_nodup sha disk distinct
  have finish {files : List FileDigest} (perm : files.Perm (seenFiles sha disk (.dir l entries))) :
      (do if files.isEmpty then throw HashError.emptyArtifact
          artifactDigestFromFiles sha .directory files) = .ok d ↔
        regularFiles [] (seen (.dir l entries)) ≠ [] ∧ d = directoryDigest sha (seenFiles sha disk (.dir l entries)) := by
    have empty : files.isEmpty = true ↔ regularFiles [] (seen (.dir l entries)) = [] := by
      rw [List.isEmpty_iff, ← List.length_eq_zero_iff, perm.length_eq, seenFiles, List.length_map,
        List.length_eq_zero_iff]
    by_cases none : regularFiles [] (seen (.dir l entries)) = []
    · rw [if_pos (empty.mpr none)]
      exact ⟨nofun, fun h => (h.1 none).elim⟩
    · rw [if_neg (fun h => none (empty.mp h))]
      have same := directoryDigest_perm sha perm ((perm.map _).nodup_iff.mpr nodup)
      simp only [ne_eq, none, not_false_eq_true, true_and, ← same]
      exact ⟨fun h => (Except.ok.inj h).symm, fun h => congrArg Except.ok h.symm⟩
  constructor
  · intro h
    simp only [hashDirectory, bind_ok] at h
    obtain ⟨files, walked, h⟩ := h
    obtain ⟨clean, perm⟩ := walk_ok walked
    exact ⟨clean, (finish perm).mp (by simpa only [bind_ok] using h)⟩
  · rintro ⟨clean, rest⟩
    obtain ⟨files, walked⟩ := walk_total sha (n := .dir l entries) clean []
    obtain ⟨-, perm⟩ := walk_ok walked
    simp only [hashDirectory, walked]
    exact (finish perm).mpr rest

end ModelGuard.Hashing
