import ModelGuard.Cache.Hasher
import ModelGuard.Hashing.Coverage
import ModelGuard.Scanning.Walk

/-!
# Three walks over one directory

Hashing, the fingerprint and the scanners each walk the artifact on their own.
-/

namespace ModelGuard.Cache

open Lib Lib.Fallible Lib.Node ModelGuard.Hashing ModelGuard.Scanning

variable {P : Type}

/-- The entry that `hash` makes of what it computed. -/
def computedEntry (computed : ArtifactDigest) (stats : List Stat) (recordedAtNs : Int) : Entry where
  artifactType := computed.artifactType
  files := computed.files
  stats := stats
  recordedAtNs := recordedAtNs

theorem storeEntry_eq (loaded : Entries) (plan : Plan) (computed : ArtifactDigest) (clock : Int) :
    storeEntry loaded plan computed clock =
      evict (setEntry plan.key (computedEntry computed plan.stats clock) loaded) := rfl

def sizedPath (f : FileDigest) : Str × Nat := (f.path, f.size)

def sizedRelpath (st : Stat) : Str × Nat := (st.relpath, st.size)

/-- The path of an item that a scanner may open. -/
def scannablePath {α : Type} : Item α → Option Str
  | .scannable path _ => some path
  | .finding _ => none

variable {fs : FileSystem P} {nameOf : P → FileName} {p : P} {l : Bool} {entries : List (FileName × Node FileId)}

/-! ### The fingerprint and the digest -/

theorem captureFingerprint_directory {kind : ArtifactType} {stats : List Stat}
    (found : fs.node p = some (.dir l entries)) (h : captureFingerprint fs nameOf p = some (kind, stats)) :
    kind = .directory ∧ (stats.Pairwise fun a b => a.relpath ≤ b.relpath) ∧
      everywhere notSymlink (seen (.dir l entries)) = true ∧ stats.Perm (fs.seenStats [] (.dir l entries)) := by
  have shown := captured h
  have sorted : stats.Pairwise fun a b => a.relpath ≤ b.relpath := by
    unfold captureFingerprint at h
    rw [found] at h
    obtain ⟨walked, -, h⟩ := Option.bind_eq_some_iff.mp h
    split at h
    · cases h
    · cases h
      exact List.pairwise_insertionSort _ _
  cases shown with
  | file other => cases found.symm.trans other
  | directory other plain nonempty perm =>
    cases found.symm.trans other
    exact ⟨rfl, sorted, plain, perm⟩

/-- Both walks sort the same paths, which have one order. -/
theorem sizes_eq (sha : Sha256) (disk : Disk FileId) (same : disk.content = fs.content)
    (distinct : Distinct (.dir l entries)) {stats : List Stat}
    (sorted : stats.Pairwise fun a b => a.relpath ≤ b.relpath) (perm : stats.Perm (fs.seenStats [] (.dir l entries))) :
    (sortFiles (seenFiles sha disk (.dir l entries))).map sizedPath = stats.map sizedRelpath := by
  have files : (seenFiles sha disk (.dir l entries)).map sizedPath =
      (fs.seenStats [] (.dir l entries)).map sizedRelpath := by
    unfold seenFiles FileSystem.seenStats
    rw [List.map_map, List.map_map]
    apply List.map_congr_left
    intro e _
    show (pathText e.1, (disk.content e.2).length) = (pathText e.1, (fs.content e.2).length)
    rw [same]
  have shuffled : ((sortFiles (seenFiles sha disk (.dir l entries))).map sizedPath).Perm (stats.map sizedRelpath) := by
    refine ((sortFiles_perm _).map sizedPath).trans ?_
    rw [files]
    exact (perm.map sizedRelpath).symm
  have once : ((sortFiles (seenFiles sha disk (.dir l entries))).map fun f => (sizedPath f).1).Nodup :=
    ((sortFiles_perm _).map _).nodup_iff.mpr (seenFiles_nodup sha disk distinct)
  have antisymm : ∀ a b, a ∈ (sortFiles (seenFiles sha disk (.dir l entries))).map sizedPath →
      b ∈ stats.map sizedRelpath → a.1 ≤ b.1 → b.1 ≤ a.1 → a = b := by
    intro a b ha hb ab ba
    exact List.inj_on_of_nodup_map (by rwa [List.map_map]) ha (shuffled.symm.subset hb) (le_antisymm ab ba)
  apply shuffled.eq_of_pairwise antisymm
  · exact List.pairwise_map.mpr (sortFiles_sorted _)
  · exact List.pairwise_map.mpr sorted

theorem entryIsConsistent_iff {entry : Entry} {kind : ArtifactType} {stats : List Stat} :
    entryIsConsistent entry kind stats = true ↔
      entry.artifactType = kind ∧ entry.files.map sizedPath = stats.map sizedRelpath := by
  unfold entryIsConsistent
  rw [Bool.and_eq_true, decide_eq_true_eq, decide_eq_true_eq]
  rfl

/-! ### The scanners and the digest -/

theorem scannable_paths (files : List (RelPath × FileId)) :
    (files.map scannableItem).filterMap scannablePath = files.map fun e => pathText e.1 := by
  rw [List.filterMap_map, ← List.filterMap_eq_map]
  rfl

theorem scannable_only {files : List (RelPath × FileId)} {skipped : SkipFinding} :
    .finding skipped ∉ files.map scannableItem := by
  intro mem
  obtain ⟨e, -, same⟩ := List.mem_map.mp mem
  cases same

/-- Where hashing a directory returns and there is a fingerprint of it, the three walks see the same files,
the scanners skip none and the entry to be stored is consistent. -/
theorem walkers_agree (sha : Sha256) (fs : FileSystem P) (nameOf : P → FileName) (readable : FileId → Bool)
    (scannerName path : Str) (p : P) (l : Bool) (entries : List (FileName × Node FileId))
    (found : fs.node p = some (.dir l entries)) (d : ArtifactDigest)
    (hashed : hashArtifact sha { content := fs.content, readable } (nameOf p) (fs.node p) = .ok d)
    (kind : ArtifactType) (stats : List Stat) (captured : captureFingerprint fs nameOf p = some (kind, stats)) :
    d.files.map (fun f => (f.path, f.size)) = stats.map (fun st => (st.relpath, st.size)) ∧
      ((iterScannableFiles { path, name := nameOf p, node := fs.node p } scannerName).filterMap scannablePath).Perm
        (d.files.map (·.path)) ∧
      (∀ skipped, .finding skipped ∉ iterScannableFiles { path, name := nameOf p, node := fs.node p } scannerName) ∧
      ∀ recordedAtNs, entryIsConsistent (computedEntry d stats recordedAtNs) kind stats = true := by
  obtain ⟨sameKind, sorted, plain, perm⟩ := captureFingerprint_directory found captured
  rw [found] at hashed
  have distinct := fs.distinct p _ found
  obtain ⟨-, -, made⟩ := (hashDirectory_ok sha { content := fs.content, readable } distinct).mp hashed
  subst made sameKind
  have sizes := sizes_eq sha { content := fs.content, readable } rfl distinct sorted perm
  have items := iterScannableFiles_plain { path, name := nameOf p, node := fs.node p } scannerName found plain
  refine ⟨sizes, ?_, ?_, fun recordedAtNs => entryIsConsistent_iff.mpr ⟨rfl, sizes⟩⟩
  · have paths := items.filterMap scannablePath
    rw [scannable_paths] at paths
    apply paths.trans
    refine List.Perm.trans ?_ ((sortFiles_perm _).map _).symm
    unfold seenFiles
    rw [List.map_map]
    rfl
  · intro skipped mem
    exact scannable_only (items.subset mem)

/-! A directory with one file in a directory of its own. -/

def nested : FileSystem Unit where
  node _ := some (.dir true [(fileA, .dir true [(fileA, .file { ino := 7, dev := 1 })])])
  resolve _ := str "/model"
  inode _ := { content := [0], mtimeNs := 0, ctimeNs := 0 }
  distinct _ _ found := Option.some.inj found ▸
    .dir (List.nodup_singleton _) (by simpa using .dir (List.nodup_singleton _) (by simpa using .file _))

theorem walkers_agree_nested :
    ∃ d stats, hashArtifact zeroByteSha { content := nested.content, readable := fun _ => true } fileA
        (nested.node ()) = .ok d ∧
      captureFingerprint nested (fun _ => fileA) () = some (.directory, stats) ∧
      d.files.map (fun f => (f.path, f.size)) = stats.map (fun st => (st.relpath, st.size)) :=
  ⟨_, _, rfl, rfl, (walkers_agree zeroByteSha nested (fun _ => fileA) (fun _ => true) (str "secrets") (str "/model") ()
    true _ rfl _ rfl .directory _ rfl).1⟩

end ModelGuard.Cache
