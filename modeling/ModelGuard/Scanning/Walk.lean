import ModelGuard.Hashing.Raised
import ModelGuard.Scanning.Runner

/-!
# The walk of the scanners

`iter_scannable_files` reports a symlink where hashing raises, and goes on.
-/

namespace ModelGuard.Scanning

open Lib Lib.Node ModelGuard.Hashing ModelGuard.Sdk

variable {α : Type}

inductive Confidence where
  | low
  | medium
  | high
deriving DecidableEq

/-- The `Finding` for an entry that is not followed, with neither its random id nor the time. -/
structure SkipFinding where
  scanner : Str
  category : Str
  severity : Severity
  confidence : Confidence
  component : Str
  message : Str
  remediation : Str
deriving DecidableEq

/-- `_skip_finding`. -/
def skipFinding (scannerName path : Str) (reason : String) : SkipFinding where
  scanner := scannerName
  category := str "scan_skipped"
  severity := .low
  confidence := .high
  component := path
  message := str "Skipped during scan: " ++ str reason ++ str "."
  remediation := str ("Symlinks are never followed during scanning. If this entry is meant to be " ++
    "part of the artifact, replace it with a real file or directory.")

/-- An item that `iter_scannable_files` yields: a `ScannableFile` or a `Finding`. -/
inductive Item (α : Type) where
  | scannable (relativePath : Str) (file : α)
  | finding (skipped : SkipFinding)

/-- The loop over `dirnames`. -/
def iterDirnames (scannerName root : Str) (path : RelPath) : List (FileName × Node α) → List (Item α)
  | [] => []
  | (name, .symlink .directory) :: rest =>
    .finding (skipFinding scannerName (joinPath root (path ++ [name])) "symlinked directory") ::
      iterDirnames scannerName root path rest
  | _ :: rest => iterDirnames scannerName root path rest

/-- The loop over `filenames`. -/
def iterFilenames (scannerName root : Str) (path : RelPath) : List (FileName × Node α) → List (Item α)
  | [] => []
  | (_, .dir ..) :: rest => iterFilenames scannerName root path rest
  | (_, .symlink .directory) :: rest => iterFilenames scannerName root path rest
  | (name, .symlink _) :: rest =>
    .finding (skipFinding scannerName (joinPath root (path ++ [name])) "symlinked file") ::
      iterFilenames scannerName root path rest
  | (name, .file a) :: rest =>
    .scannable (pathText (path ++ [name])) a :: iterFilenames scannerName root path rest

mutual
/-- The loop over `os.walk`, which skips a directory whose listing fails. -/
def iterWalk (scannerName root : Str) (path : RelPath) : Node α → List (Item α)
  | .dir true entries =>
    iterDirnames scannerName root path entries ++ iterFilenames scannerName root path entries ++
      iterWalkIn scannerName root path entries
  | _ => []

def iterWalkIn (scannerName root : Str) (path : RelPath) : List (FileName × Node α) → List (Item α)
  | [] => []
  | (name, n) :: rest =>
    iterWalk scannerName root (path ++ [name]) n ++ iterWalkIn scannerName root path rest
end

/-- `iter_scannable_files`, with its items in one list. -/
def iterScannableFiles (artifact : Artifact α) (scannerName : Str) : List (Item α) :=
  match artifact.node with
  | none => []
  | some (.symlink _) => [.finding (skipFinding scannerName artifact.path "artifact root is a symlink")]
  | some (.file a) => [.scannable artifact.name.val a]
  | some (.dir l entries) => iterWalk scannerName artifact.path [] (.dir l entries)

/-! ### A tree without symlinks -/

def scannableItem (e : RelPath × α) : Item α := .scannable (pathText e.1) e.2

theorem iterListing_plain (scannerName root : Str) (path : RelPath) {entries : List (FileName × Node α)}
    (plain : ∀ e ∈ entries, notSymlink e.2 = true) :
    iterDirnames scannerName root path entries = [] ∧
      iterFilenames scannerName root path entries = (entries.flatMap (entryFile path)).map scannableItem := by
  induction entries with
  | nil => exact ⟨rfl, rfl⟩
  | cons e rest ih =>
    obtain ⟨own, others⟩ := List.forall_mem_cons.mp plain
    obtain ⟨dirs, names⟩ := ih others
    obtain ⟨name, n⟩ := e
    cases n with
    | file a =>
      refine ⟨dirs, ?_⟩
      unfold iterFilenames
      rw [names]
      rfl
    | symlink t => cases own
    | dir l below => exact ⟨dirs, names⟩

theorem iterWalkIn_plain (scannerName root : Str) (path : RelPath) {entries : List (FileName × Node α)}
    (ih : ∀ e ∈ entries, ∀ path,
      (iterWalk scannerName root path e.2).Perm ((filesBelow path (seen e.2)).map scannableItem)) :
    (iterWalkIn scannerName root path entries).Perm
      (((seenIn entries).flatMap fun e => filesBelow (path ++ [e.1]) e.2).map scannableItem) := by
  induction entries with
  | nil => exact List.Perm.refl _
  | cons e rest ihr =>
    unfold iterWalkIn seenIn
    rw [List.flatMap_cons, List.map_append]
    apply List.Perm.append
    · exact ih e List.mem_cons_self _
    · exact ihr fun e mem => ih e (List.mem_cons_of_mem _ mem)

/-- Where the listings show no symlink, the items are the files that they show. -/
theorem iterWalk_plain (scannerName root : Str) (path : RelPath) {n : Node α}
    (plain : everywhere notSymlink (seen n) = true) :
    (iterWalk scannerName root path n).Perm ((filesBelow path (seen n)).map scannableItem) := by
  induction n using entryInduction generalizing path with
  | file a => exact List.Perm.refl _
  | symlink t => cases plain
  | dir l entries ih =>
    cases l with
    | false => exact List.Perm.refl _
    | true =>
      obtain ⟨own, inner⟩ := notSymlink_listing plain
      obtain ⟨dirs, names⟩ := iterListing_plain scannerName root path own
      have below := iterWalkIn_plain scannerName root path fun e mem path => ih e mem path (inner e mem)
      have files := (filesBelow_perm path true (seenIn entries)).map scannableItem
      unfold iterWalk
      rw [dirs, names, List.nil_append, seen]
      apply List.Perm.trans _ files.symm
      rw [List.map_append, entryFile_seen]
      exact below.append_left _

theorem iterScannableFiles_plain (artifact : Artifact α) (scannerName : Str) {l : Bool}
    {entries : List (FileName × Node α)} (found : artifact.node = some (.dir l entries))
    (plain : everywhere notSymlink (seen (.dir l entries)) = true) :
    (iterScannableFiles artifact scannerName).Perm ((regularFiles [] (seen (.dir l entries))).map scannableItem) := by
  have below : filesBelow [] (seen (.dir l entries)) = regularFiles [] (seen (.dir l entries)) := by
    cases l <;> rfl
  unfold iterScannableFiles
  rw [found, ← below]
  exact iterWalk_plain scannerName artifact.path [] plain

end ModelGuard.Scanning
