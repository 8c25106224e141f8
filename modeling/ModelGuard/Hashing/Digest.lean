import ModelGuard.Hashing.Sha256
import ModelGuard.Lib.Fallible
import ModelGuard.Lib.FileTree
import ModelGuard.Lib.JsonRoundTrip
import Mathlib.Data.List.Sort

/-!
# Deterministic artifact hashing

`hash_artifact` over a tree of files. A digest is taken over all the bytes of a file at once, and the
path in an error is relative to the artifact.
-/

namespace ModelGuard.Hashing

open Lib Lib.Fallible

/-- The digest of a single file within an artifact. -/
structure FileDigest where
  /-- POSIX-style, artifact-root-relative. -/
  path : Str
  sha256 : Str
  size : Nat
deriving DecidableEq

inductive ArtifactType where
  | file
  | directory
deriving DecidableEq

/-- The result of hashing a whole artifact; `algorithm` is always `sha256`. -/
structure ArtifactDigest where
  artifactType : ArtifactType
  digest : Str
  files : List FileDigest
deriving DecidableEq

inductive HashError where
  | artifactNotFound
  | unsafePath (path : RelPath) (reason : String)
  | emptyArtifact
  | valueError (reason : String)
  /-- A file that cannot be opened or read. -/
  | osError
deriving DecidableEq

/-- What a file holds and whether this process can read it. -/
structure Disk (α : Type) where
  content : α → Bytes
  readable : α → Bool

variable {α : Type}

/-- `_hash_file_bytes`. -/
def hashFileBytes (sha : Sha256) (disk : Disk α) (a : α) : Except HashError (Str × Nat) :=
  if disk.readable a then .ok (sha.hexdigest (disk.content a), (disk.content a).length) else .error .osError

/-- `sorted(files, key=lambda f: f.path)`. -/
def sortFiles (files : List FileDigest) : List FileDigest := files.insertionSort fun f g => f.path ≤ g.path

/-- The object whose text is the canonical manifest: it holds no float. -/
def manifestJson (files : List FileDigest) : Json SpecialFloat :=
  .obj [(str "algorithm", .str (str "sha256")),
    (str "files", .arr ((sortFiles files).map fun f =>
      .obj [(str "path", .str f.path), (str "sha256", .str f.sha256), (str "size", .int f.size)]))]

/-- `canonical_manifest_bytes`: the text is ASCII, so `.encode` cannot fail. -/
def canonicalManifestBytes (files : List FileDigest) : Bytes := asciiBytes (manifestJson files).dumps

/-- `artifact_digest_from_files`. -/
def artifactDigestFromFiles (sha : Sha256) : ArtifactType → List FileDigest → Except HashError ArtifactDigest
  | .file, [f] => .ok { artifactType := .file, digest := f.sha256, files := [f] }
  | .file, _ => .error (.valueError "a file artifact has exactly one file digest")
  | .directory, files =>
    .ok { artifactType := .directory
          digest := sha.hexdigest (canonicalManifestBytes files)
          files := sortFiles files }

/-- The loop over `dirnames`: the entries that are directories when links are followed. -/
def checkDirnames (path : RelPath) : List (FileName × Node α) → Except HashError Unit
  | [] => .ok ()
  | (name, .symlink .directory) :: _ => .error (.unsafePath (path ++ [name]) "symlinked directory")
  | _ :: rest => checkDirnames path rest

/-- The loop over `filenames`: all other entries. -/
def hashFilenames (sha : Sha256) (disk : Disk α) (path : RelPath) :
    List (FileName × Node α) → Except HashError (List FileDigest)
  | [] => .ok []
  | (_, .dir ..) :: rest => hashFilenames sha disk path rest
  | (_, .symlink .directory) :: rest => hashFilenames sha disk path rest
  | (name, .symlink _) :: _ => .error (.unsafePath (path ++ [name]) "symlinked file")
  | (name, .file a) :: rest => do
    let (digest, size) ← hashFileBytes sha disk a
    let files ← hashFilenames sha disk path rest
    return { path := pathText (path ++ [name]), sha256 := digest, size } :: files

mutual
/-- The loop over `os.walk`: without `onerror`, a directory whose listing fails is skipped. -/
def walk (sha : Sha256) (disk : Disk α) (path : RelPath) : Node α → Except HashError (List FileDigest)
  | .dir true entries => do
    checkDirnames path entries
    let files ← hashFilenames sha disk path entries
    let below ← walkIn sha disk path entries
    return files ++ below
  | _ => .ok []

/-- The walk below each entry that is itself a directory. -/
def walkIn (sha : Sha256) (disk : Disk α) (path : RelPath) :
    List (FileName × Node α) → Except HashError (List FileDigest)
  | [] => .ok []
  | (name, n) :: rest => do
    let files ← walk sha disk (path ++ [name]) n
    let below ← walkIn sha disk path rest
    return files ++ below
end

/-- `hash_directory`, of a directory. -/
def hashDirectory (sha : Sha256) (disk : Disk α) (root : Node α) : Except HashError ArtifactDigest := do
  let files ← walk sha disk [] root
  if files.isEmpty then throw .emptyArtifact
  artifactDigestFromFiles sha .directory files

/-- `hash_file`, of a regular file with the given name. -/
def hashFile (sha : Sha256) (disk : Disk α) (name : FileName) (a : α) : Except HashError ArtifactDigest := do
  let (digest, size) ← hashFileBytes sha disk a
  artifactDigestFromFiles sha .file [{ path := name.val, sha256 := digest, size }]

/-- `hash_artifact`, of what a path with the given last component leads to. -/
def hashArtifact (sha : Sha256) (disk : Disk α) (name : FileName) : Option (Node α) → Except HashError ArtifactDigest
  | none => .error .artifactNotFound
  | some (.symlink .missing) => .error .artifactNotFound
  | some (.symlink _) => .error (.unsafePath [] "artifact root is a symlink")
  | some (.dir l entries) => hashDirectory sha disk (.dir l entries)
  | some (.file a) => hashFile sha disk name a

/-! ### The canonical manifest -/

theorem sortFiles_perm (files : List FileDigest) : (sortFiles files).Perm files := List.perm_insertionSort _ _

theorem sortFiles_sorted (files : List FileDigest) : (sortFiles files).Pairwise fun f g => f.path ≤ g.path :=
  List.pairwise_insertionSort _ _

/-- Files with paths of their own have one sorted order. -/
theorem sortFiles_eq_of_perm {files files' : List FileDigest} (perm : files.Perm files')
    (distinct : (files.map (·.path)).Nodup) : sortFiles files = sortFiles files' := by
  have perm' : (sortFiles files).Perm (sortFiles files') :=
    (sortFiles_perm files).trans (perm.trans (sortFiles_perm files').symm)
  have inj : ∀ f g, f ∈ sortFiles files → g ∈ sortFiles files' → f.path ≤ g.path → g.path ≤ f.path → f = g := by
    intro f g hf hg fg gf
    have hg' := perm.symm.subset ((sortFiles_perm files').subset hg)
    exact List.inj_on_of_nodup_map distinct ((sortFiles_perm files).subset hf) hg' (le_antisymm fg gf)
  exact perm'.eq_of_pairwise inj (sortFiles_sorted files) (sortFiles_sorted files')

/-- Text that JSON keeps: paths are decoded file names, digests are hexadecimal. -/
structure FileDigest.WF (f : FileDigest) : Prop where
  path : Json.Joined f.path
  sha256 : Json.Joined f.sha256

theorem manifestJson_wf {files : List FileDigest} (wf : ∀ f ∈ files, f.WF) : (manifestJson files).WF := by
  have joined (s : String) (h : Json.Printable (str s)) : Json.Joined (str s) := Json.joined_of_scalars h.scalars
  refine .obj ?_ ?_ ?_
  · simp only [Dict.Sorted, List.pairwise_cons, List.mem_cons, List.not_mem_nil, or_false, false_implies, implies_true,
      List.Pairwise.nil, and_true, forall_eq]
    decide
  · simp only [List.mem_cons, List.not_mem_nil, or_false, forall_eq_or_imp, forall_eq]
    exact ⟨joined _ (by decide), joined _ (by decide)⟩
  · simp only [List.mem_cons, List.not_mem_nil, or_false, forall_eq_or_imp, forall_eq]
    refine ⟨.str (joined _ (by decide)), .arr ?_⟩
    simp only [List.forall_mem_map]
    intro f hf
    obtain ⟨path, sha256⟩ := wf f ((sortFiles_perm files).subset hf)
    refine .obj ?_ ?_ ?_
    · simp only [Dict.Sorted, List.pairwise_cons, List.mem_cons, List.not_mem_nil, or_false, false_implies, implies_true,
        List.Pairwise.nil, and_true, forall_eq_or_imp, forall_eq]
      decide
    · simp only [List.mem_cons, List.not_mem_nil, or_false, forall_eq_or_imp, forall_eq]
      exact ⟨joined _ (by decide), joined _ (by decide), joined _ (by decide)⟩
    · simp only [List.mem_cons, List.not_mem_nil, or_false, forall_eq_or_imp, forall_eq]
      exact ⟨.str path, .str sha256, .int _⟩

theorem manifestJson_injective {files files' : List FileDigest} (h : manifestJson files = manifestJson files') :
    sortFiles files = sortFiles files' := by
  simp only [manifestJson, Json.obj.injEq, List.cons.injEq, Prod.mk.injEq, Json.arr.injEq, true_and, and_true] at h
  refine List.map_injective_iff.mpr (fun f g same => ?_) h
  simp only [Json.obj.injEq, List.cons.injEq, Prod.mk.injEq, Json.str.injEq, Json.int.injEq, true_and, and_true,
    Nat.cast_inj] at same
  obtain ⟨path, sha256, size⟩ := same
  cases f
  cases g
  cases path
  cases sha256
  cases size
  rfl

/-- The canonical manifest determines the files. -/
theorem canonicalManifestBytes_injective {files files' : List FileDigest} (wf : ∀ f ∈ files, f.WF)
    (wf' : ∀ f ∈ files', f.WF) (h : canonicalManifestBytes files = canonicalManifestBytes files') :
    sortFiles files = sortFiles files' :=
  manifestJson_injective (Json.dumps_injective (manifestJson_wf wf) (manifestJson_wf wf')
    (asciiBytes_injOn (Json.dumps_printable _).ascii (Json.dumps_printable _).ascii h))

end ModelGuard.Hashing
