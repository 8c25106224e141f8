import ModelGuard.Hashing.Coverage

/-!
# Directories with the same digest

Two directories have one digest exactly when they hold the same bytes at the same paths. The order of
a listing and the directories that hold no file leave no trace in it.
-/

namespace ModelGuard.Hashing

open Lib Lib.Fallible Lib.Node

variable {α β : Type}

/-- The tree has a file with these bytes at the path. -/
def HoldsAt (disk : Disk α) (root : Node α) (path : RelPath) (bytes : Bytes) : Prop :=
  ∃ a, (path, a) ∈ regularFiles [] root ∧ disk.content a = bytes

def SameFiles (disk : Disk α) (root : Node α) (disk' : Disk β) (root' : Node β) : Prop :=
  ∀ path bytes, HoldsAt disk root path bytes ↔ HoldsAt disk' root' path bytes

/-- Every directory can be listed and every entry is a directory or a file that can be read. -/
def FullyReadable (disk : Disk α) (root : Node α) : Prop :=
  everywhere isListable root = true ∧ everywhere (isHashable disk) root = true

variable {sha : Sha256} {disk : Disk α} {disk' : Disk β} {root : Node α} {root' : Node β}

theorem mem_seenFiles_iff (sha : Sha256) (readable : FullyReadable disk root) {f : FileDigest} :
    f ∈ seenFiles sha disk root ↔
      ∃ path bytes, HoldsAt disk root path bytes ∧ f = ⟨pathText path, sha.hexdigest bytes, bytes.length⟩ := by
  unfold seenFiles
  rw [seen_eq_self readable.1, List.mem_map]
  constructor
  · rintro ⟨⟨path, a⟩, file, made⟩
    exact ⟨path, _, ⟨a, file, rfl⟩, made.symm⟩
  · rintro ⟨path, bytes, ⟨a, file, content⟩, made⟩
    subst content
    exact ⟨_, file, made.symm⟩

theorem seenFiles_perm (sha : Sha256) (readable : FullyReadable disk root)
    (readable' : FullyReadable disk' root') (distinct : Distinct root) (distinct' : Distinct root')
    (same : SameFiles disk root disk' root') :
    (seenFiles sha disk root).Perm (seenFiles sha disk' root') := by
  have once := (seenFiles_nodup sha disk distinct).of_map
  have once' := (seenFiles_nodup sha disk' distinct').of_map
  apply (List.perm_ext_iff_of_nodup once once').mpr
  intro f
  rw [mem_seenFiles_iff sha readable, mem_seenFiles_iff sha readable']
  simp only [same _ _]

/-- A digest names the path, and under an injective SHA-256 the bytes as well. -/
theorem holdsAt_of_mem (injective : Function.Injective sha.hexdigest) (readable : FullyReadable disk root)
    {path : RelPath} {bytes : Bytes}
    (mem : (⟨pathText path, sha.hexdigest bytes, bytes.length⟩ : FileDigest) ∈ seenFiles sha disk root) :
    HoldsAt disk root path bytes := by
  obtain ⟨path', bytes', holds, made⟩ := (mem_seenFiles_iff sha readable).mp mem
  obtain ⟨samePath, sameDigest, -⟩ := FileDigest.mk.inj made
  rw [pathText_injective samePath, injective sameDigest]
  exact holds

theorem sameFiles_of_perm (injective : Function.Injective sha.hexdigest) (readable : FullyReadable disk root)
    (readable' : FullyReadable disk' root') (perm : (seenFiles sha disk root).Perm (seenFiles sha disk' root')) :
    SameFiles disk root disk' root' := by
  intro path bytes
  constructor
  · intro holds
    have mem := (mem_seenFiles_iff sha readable).mpr ⟨path, bytes, holds, rfl⟩
    exact holdsAt_of_mem injective readable' (perm.subset mem)
  · intro holds
    have mem := (mem_seenFiles_iff sha readable').mpr ⟨path, bytes, holds, rfl⟩
    exact holdsAt_of_mem injective readable (perm.symm.subset mem)

theorem hashDirectory_readable (sha : Sha256) {l : Bool} {entries : List (FileName × Node α)}
    (distinct : Distinct (.dir l entries)) (readable : FullyReadable disk (.dir l entries))
    (some : regularFiles [] (.dir l entries) ≠ []) :
    hashDirectory sha disk (.dir l entries) = .ok (directoryDigest sha (seenFiles sha disk (.dir l entries))) := by
  have shown := seen_eq_self readable.1
  refine (hashDirectory_ok sha disk distinct).mpr ⟨?_, ?_, rfl⟩
  · unfold Clean
    rw [shown]
    exact readable.2
  · rw [shown]
    exact some

/-- Directories that can be read in full and are not empty hash, and to the same digest exactly when they
have the same files with the same bytes. -/
theorem directory_digests_eq_iff (sha : Sha256) (injective : Function.Injective sha.hexdigest) (disk : Disk α)
    (disk' : Disk β) (l l' : Bool) (entries : List (FileName × Node α)) (entries' : List (FileName × Node β))
    (distinct : Distinct (.dir l entries)) (distinct' : Distinct (.dir l' entries'))
    (readable : FullyReadable disk (.dir l entries)) (readable' : FullyReadable disk' (.dir l' entries'))
    (some : regularFiles [] (.dir l entries) ≠ []) (some' : regularFiles [] (.dir l' entries') ≠ []) :
    ∃ d d', hashDirectory sha disk (.dir l entries) = .ok d ∧ hashDirectory sha disk' (.dir l' entries') = .ok d' ∧
      (d.digest = d'.digest ↔ SameFiles disk (.dir l entries) disk' (.dir l' entries')) := by
  refine ⟨_, _, hashDirectory_readable sha distinct readable some,
    hashDirectory_readable sha distinct' readable' some', ?_⟩
  constructor
  · intro same
    have sorted := canonicalManifestBytes_injective seenFiles_wf seenFiles_wf (injective same)
    have perm : (seenFiles sha disk (.dir l entries)).Perm (seenFiles sha disk' (.dir l' entries')) :=
      (sortFiles_perm _).symm.trans (sorted ▸ sortFiles_perm _)
    exact sameFiles_of_perm injective readable readable' perm
  · intro same
    have perm := seenFiles_perm sha readable readable' distinct distinct' same
    exact congrArg ArtifactDigest.digest (directoryDigest_perm sha perm (seenFiles_nodup sha disk distinct))

/-! Two trees that hold `a` and differ in an empty directory, which one lists before the file. -/

def emptyB : FileName × Node Unit := (⟨str "b", by decide⟩, .dir true [])

theorem empty_directory_not_digested :
    ∃ d d', hashDirectory zeroByteSha zeroDisk listableTree = .ok d ∧
      hashDirectory zeroByteSha zeroDisk (.dir true [emptyB, (fileA, .file ())]) = .ok d' ∧
      (d.digest = d'.digest ↔
        SameFiles zeroDisk listableTree zeroDisk (.dir true [emptyB, (fileA, .file ())])) :=
  directory_digests_eq_iff zeroByteSha zeroByteSha_injective zeroDisk zeroDisk true true _ _
    (.dir (List.nodup_singleton _) (by simpa using .file ()))
    (.dir (by decide) (by simpa [emptyB] using ⟨.dir List.nodup_nil (by simp), .file ()⟩))
    ⟨rfl, rfl⟩ ⟨rfl, rfl⟩ (by decide) (by decide)

end ModelGuard.Hashing
