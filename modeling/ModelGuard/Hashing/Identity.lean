import ModelGuard.Hashing.Coverage

/-!
# Digests of files and of directories

A file's digest is taken over its bytes and a directory's over its canonical manifest, with nothing
to tell the two apart.
-/

namespace ModelGuard.Hashing

open Lib Lib.Fallible Lib.Node

variable {α β : Type}

theorem hashFile_ok {sha : Sha256} {disk : Disk α} {name : FileName} {a : α} {d : ArtifactDigest} :
    hashFile sha disk name a = .ok d ↔
      disk.readable a = true ∧
        d = { artifactType := .file
              digest := sha.hexdigest (disk.content a)
              files := [⟨name.val, sha.hexdigest (disk.content a), (disk.content a).length⟩] } := by
  simp only [hashFile, bind_ok, hashFileBytes_ok]
  constructor
  · rintro ⟨_, ⟨readable, rfl⟩, h⟩
    exact ⟨readable, (Except.ok.inj h).symm⟩
  · rintro ⟨readable, rfl⟩
    exact ⟨_, ⟨readable, rfl⟩, rfl⟩

/-- A file and a directory that hash have different digests exactly when the bytes of the file are not
the canonical manifest of the directory. -/
theorem file_and_directory_digests_differ_iff (sha : Sha256) (injective : Function.Injective sha.hexdigest)
    (disk : Disk α) (name : FileName) (a : α) (disk' : Disk β) (name' : FileName) (l : Bool)
    (entries : List (FileName × Node β)) (distinct : Distinct (.dir l entries)) (file directory : ArtifactDigest)
    (hashedFile : hashArtifact sha disk name (some (.file a)) = .ok file)
    (hashedDirectory : hashArtifact sha disk' name' (some (.dir l entries)) = .ok directory) :
    file.digest ≠ directory.digest ↔
      disk.content a ≠ canonicalManifestBytes (seenFiles sha disk' (.dir l entries)) := by
  obtain ⟨-, rfl⟩ := hashFile_ok.mp hashedFile
  obtain ⟨-, -, rfl⟩ := (hashDirectory_ok sha disk' distinct).mp hashedDirectory
  exact not_congr ⟨fun same => injective same, fun same => congrArg sha.hexdigest same⟩

/-- A file that holds the manifest of the directory with one zero byte in the file `a`. -/
def manifestDisk : Disk Unit where
  content _ := canonicalManifestBytes [fileDigest zeroByteSha zeroDisk ([fileA], ())]
  readable _ := true

theorem listableTree_hashed :
    hashArtifact zeroByteSha zeroDisk fileA (some listableTree) =
      .ok { artifactType := .directory
            digest := str "2ce39cf929e4e2908c1581aaca3241c22ef0f936232ee9021c18215d86c67f58"
            files := [fileDigest zeroByteSha zeroDisk ([fileA], ())] } := by
  show Except.ok (ArtifactDigest.mk .directory
    (zeroByteSha.hexdigest (canonicalManifestBytes [fileDigest zeroByteSha zeroDisk ([fileA], ())])) _) = _
  rw [zeroByteSha_manifest]
  rfl

theorem zero_file_and_listable_tree_differ :
    str "6e340b9cffb37a989ca544e6bb780a2c78901d3fb33738768511a30617afa01d" ≠
        str "2ce39cf929e4e2908c1581aaca3241c22ef0f936232ee9021c18215d86c67f58" ↔
      zeroDisk.content () ≠ canonicalManifestBytes (seenFiles zeroByteSha zeroDisk listableTree) :=
  file_and_directory_digests_differ_iff zeroByteSha zeroByteSha_injective zeroDisk fileA () zeroDisk fileA true
    [(fileA, .file ())]
    (.dir (List.nodup_singleton _) (by simpa using .file ()))
    { artifactType := .file
      digest := str "6e340b9cffb37a989ca544e6bb780a2c78901d3fb33738768511a30617afa01d"
      files := [⟨str "a", str "6e340b9cffb37a989ca544e6bb780a2c78901d3fb33738768511a30617afa01d", 1⟩] }
    { artifactType := .directory
      digest := str "2ce39cf929e4e2908c1581aaca3241c22ef0f936232ee9021c18215d86c67f58"
      files := [fileDigest zeroByteSha zeroDisk ([fileA], ())] }
    rfl listableTree_hashed

theorem manifestFile_hashed :
    hashArtifact zeroByteSha manifestDisk fileA (some (.file ())) =
      .ok { artifactType := .file
            digest := str "2ce39cf929e4e2908c1581aaca3241c22ef0f936232ee9021c18215d86c67f58"
            files := [⟨str "a", str "2ce39cf929e4e2908c1581aaca3241c22ef0f936232ee9021c18215d86c67f58", 130⟩] } := by
  have size : (manifestDisk.content ()).length = 130 := by decide +kernel
  have digest : zeroByteSha.hexdigest (manifestDisk.content ()) =
      str "2ce39cf929e4e2908c1581aaca3241c22ef0f936232ee9021c18215d86c67f58" := zeroByteSha_manifest
  have read : hashFileBytes zeroByteSha manifestDisk () =
      .ok (zeroByteSha.hexdigest (manifestDisk.content ()), (manifestDisk.content ()).length) := rfl
  rw [digest, size] at read
  unfold hashArtifact hashFile
  dsimp only
  rw [read]
  rfl

/-- The file with the manifest's bytes and the directory have one digest. -/
theorem manifest_file_collides :
    ∃ file directory, hashArtifact zeroByteSha manifestDisk fileA (some (.file ())) = .ok file ∧
      hashArtifact zeroByteSha zeroDisk fileA (some listableTree) = .ok directory ∧
      file.artifactType ≠ directory.artifactType ∧ file.digest = directory.digest :=
  ⟨{ artifactType := .file
     digest := str "2ce39cf929e4e2908c1581aaca3241c22ef0f936232ee9021c18215d86c67f58"
     files := [⟨str "a", str "2ce39cf929e4e2908c1581aaca3241c22ef0f936232ee9021c18215d86c67f58", 130⟩] },
   { artifactType := .directory
     digest := str "2ce39cf929e4e2908c1581aaca3241c22ef0f936232ee9021c18215d86c67f58"
     files := [fileDigest zeroByteSha zeroDisk ([fileA], ())] },
   manifestFile_hashed, listableTree_hashed, by decide, rfl⟩

end ModelGuard.Hashing
