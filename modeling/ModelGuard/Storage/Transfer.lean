import ModelGuard.Lib.Effect
import ModelGuard.Storage.Manifest

/-!
# Downloading an artifact

`download_artifact` on any file system and from any blob store. A directory is built under a private name, put
in place by a rename and hashed again; a file is what the store leaves.
-/

namespace ModelGuard.Storage

open Lib Lib.Prog ModelGuard.Hashing

/-- The calls that a download makes, on file systems with the states `σ` and the paths `π`. -/
structure FileSystem (σ π : Type) where
  parent : π → π
  /-- `path / text`. -/
  join : π → Str → π
  /-- `path.exists() or path.is_symlink()`. -/
  occupied : π → Prog Raised σ Bool
  /-- `path.mkdir(parents=True, exist_ok=True)`. -/
  mkdirs : π → Prog Raised σ Unit
  mkdir : π → Prog Raised σ Unit
  /-- `uuid.uuid4().hex`. -/
  uuidHex : Prog Raised σ Str
  resolve : π → Prog Raised σ π
  isRelativeTo : π → π → Bool
  /-- `path.stat().st_size`. -/
  size : π → Prog Raised σ Nat
  rename : π → π → Prog Raised σ Unit
  /-- `shutil.rmtree(path, ignore_errors=True)`. -/
  rmtree : π → σ → σ
  /-- The two ends of `tempfile.TemporaryDirectory()`. -/
  mkdtemp : Prog Raised σ π
  cleanup : π → Prog Raised σ Unit
  readBytes : π → Prog Raised σ Bytes
  hashArtifact : π → σ → Except Raised ArtifactDigest

/-- `BlobStore`, as far as a download calls it. -/
structure BlobStore (σ π : Type) where
  getTo : Str → π → Int → Prog Raised σ Unit

/-- `s.partition(":")`, without the separator. -/
def partitionColon (s : Str) : Str × Str :=
  (s.takeWhile (· ≠ cp ':'), (s.dropWhile (· ≠ cp ':')).drop 1)

/-- `OSError` and the classes below it. -/
def osErrorClasses : List Str :=
  ["OSError", "BlockingIOError", "ChildProcessError", "ConnectionError", "BrokenPipeError", "ConnectionAbortedError",
    "ConnectionRefusedError", "ConnectionResetError", "FileExistsError", "FileNotFoundError", "InterruptedError",
    "IsADirectoryError", "NotADirectoryError", "PermissionError", "ProcessLookupError", "TimeoutError"].map str

/-- What the handler of `download_artifact` raises for an exception. -/
def materializeError : Raised → Raised
  | .external className message =>
    if className ∈ osErrorClasses then
      .modelGuard .artifactStoreError (str "Could not materialize the artifact (" ++ className ++ str ").")
    else .external className message
  | e => e

/-- The checks of the arguments. They give the expected SHA-256. -/
def checkRequest (artifactDigest artifactType : Str) : Except Raised Str :=
  let (algorithm, expected) := partitionColon artifactDigest
  if algorithm ≠ str "sha256" then .error (storeError "Only sha256 artifact digests are supported.")
  else if ¬IsSha256 expected then .error malformedIdentifier
  else if artifactType ∉ [str "file", str "directory"] then
    .error (storeError "artifact_type must be 'file' or 'directory'.")
  else .ok expected

def differentSize (host : Host) (path : Str) : Raised :=
  .modelGuard .artifactIntegrityError (host.repr path ++ str " has a different size than the manifest declares.")

section Download

variable {σ π : Type} (fs : FileSystem σ π) (store : BlobStore σ π) (sha : Sha256) (host : Host)

/-- `_fetch_manifest`. -/
def fetchManifest (expected : Str) (maxFiles maxTotalBytes : Int) : Prog Raised σ (List FileDigest) := do
  let tmp ← fs.mkdtemp
  let target := fs.join tmp (str "manifest.json")
  let raw ← andFinally (do
    store.getTo expected target maxManifestBytes
    fs.readBytes target) (fs.cleanup tmp)
  ofExcept (readManifest sha host maxFiles maxTotalBytes expected raw)

/-- One round of the loop over the files. -/
def placeFile (staging root : π) (entry : FileDigest) : Prog Raised σ Unit := do
  let target := fs.join staging entry.path
  let resolved ← fs.resolve target
  if fs.isRelativeTo resolved root then do
    fs.mkdirs (fs.parent target)
    store.getTo entry.sha256 target entry.size
    let size ← fs.size target
    if size = entry.size then pure () else raise (differentSize host entry.path)
  else raise (integrityError "A manifest path escaped the staging directory.")

/-- The body of the `try`. -/
def buildTree (staging dest : π) (files : List FileDigest) : Prog Raised σ Unit := do
  let root ← fs.resolve staging
  forEach (placeFile fs store host staging root) files
  fs.rename staging dest

/-- The tree of the files is put at `dest`, or what was made of it is removed. -/
def materialize (dest : π) (files : List FileDigest) : Prog Raised σ Unit := do
  let hex ← fs.uuidHex
  let staging := fs.join (fs.parent dest) (str ".mg-stage-" ++ hex)
  fs.mkdir staging
  onError (buildTree fs store host staging dest files) fun e => do
    update (fs.rmtree staging)
    raise (materializeError e)

/-- The final check. -/
def verifyRebuilt (dest : π) (expected : Str) : Prog Raised σ Unit := do
  let found ← observe (fs.hashArtifact dest)
  let rebuilt ← ofExcept found
  if rebuilt.digest = expected then pure ()
  else do
    update (fs.rmtree dest)
    raise (integrityError "The rebuilt artifact does not hash to the expected digest; it was removed.")

/-- Everything before the artifact type is looked at. -/
def prepareDownload (artifactDigest artifactType : Str) (dest : π) : Prog Raised σ Str := do
  let expected ← ofExcept (checkRequest artifactDigest artifactType)
  if ← fs.occupied dest then raise (storeError "Destination already exists; refusing to overwrite it.")
  else do
    fs.mkdirs (fs.parent dest)
    pure expected

def downloadDirectory (expected : Str) (dest : π) (maxTotalBytes maxFiles : Int) (verifyAfter : Bool) :
    Prog Raised σ Unit := do
  let files ← fetchManifest fs store sha host expected maxFiles maxTotalBytes
  materialize fs store host dest files
  if verifyAfter then verifyRebuilt fs dest expected else pure ()

/-- `download_artifact`. -/
def downloadArtifact (artifactDigest artifactType : Str) (dest : π) (maxTotalBytes maxFiles : Int) (verifyAfter : Bool) :
    Prog Raised σ Unit := do
  let expected ← prepareDownload fs artifactDigest artifactType dest
  if artifactType = str "file" then store.getTo expected dest maxTotalBytes
  else downloadDirectory fs store sha host expected dest maxTotalBytes maxFiles verifyAfter

/-! ### What the final check ensures -/

/-- What is at `dest` hashes to the digest that was asked for. -/
def HashesTo (dest : π) (artifactDigest : Str) (s : σ) : Prop :=
  ∃ d, fs.hashArtifact dest s = .ok d ∧ d.digest = (partitionColon artifactDigest).2

variable {fs store sha host} {artifactDigest artifactType expected : Str} {dest : π} {maxTotalBytes maxFiles : Int} {s : σ}

theorem checkRequest_ok (ok : checkRequest artifactDigest artifactType = .ok expected) :
    IsSha256 expected ∧ artifactDigest = str "sha256" ++ cp ':' :: expected ∧ expected = (partitionColon artifactDigest).2 ∧
      (artifactType = str "file" ∨ artifactType = str "directory") := by
  unfold checkRequest at ok
  dsimp only at ok
  split at ok
  · cases ok
  · rename_i algorithm
    split at ok
    · cases ok
    · rename_i valid
      split at ok
      · cases ok
      · rename_i kind
        have same := Except.ok.inj ok
        subst same
        have valid := not_not.mp valid
        refine ⟨valid, ?_, rfl, by simpa using not_not.mp kind⟩
        have parts := List.takeWhile_append_dropWhile (p := (· ≠ cp ':')) (l := artifactDigest)
        have first : artifactDigest.takeWhile (· ≠ cp ':') = str "sha256" := not_not.mp algorithm
        cases rest : artifactDigest.dropWhile (· ≠ cp ':') with
        | nil =>
          have none : (partitionColon artifactDigest).2 = [] := by
            unfold partitionColon
            rw [rest]
            rfl
          have size := valid.1
          rw [none] at size
          cases size
        | cons c tail =>
          have colon : c = cp ':' := by
            have head := List.head?_dropWhile_not (fun d => d ≠ cp ':') artifactDigest
            rw [rest] at head
            simpa using head
          have after : (partitionColon artifactDigest).2 = tail := by
            unfold partitionColon
            rw [rest]
            rfl
          rw [first, rest, colon] at parts
          rw [after]
          exact parts.symm

theorem prepareDownload_ends : Ends (prepareDownload fs artifactDigest artifactType dest) s
    (fun expected _ => checkRequest artifactDigest artifactType = .ok expected) fun _ _ => True := by
  unfold prepareDownload
  rw [ends_bind_iff]
  apply ends_ofExcept
  · intro expected checked
    refine ends_bind_partial fun taken s => ?_
    split
    · exact trivial
    · rw [ends_bind_iff]
      exact ends_iff.mpr ⟨fun _ _ _ => checked, fun _ _ _ => trivial⟩
  · exact fun _ _ => trivial

theorem verifyRebuilt_run : verifyRebuilt fs dest expected s =
    match fs.hashArtifact dest s with
    | .error e => (.error e, s)
    | .ok d =>
      if d.digest = expected then (.ok (), s)
      else (.error (integrityError "The rebuilt artifact does not hash to the expected digest; it was removed."),
        fs.rmtree dest s) := by
  have looked : observe (fs.hashArtifact dest) s = ((.ok (fs.hashArtifact dest s), s) : Except Raised _ × σ) := rfl
  unfold verifyRebuilt
  rw [bind_of_ok looked]
  cases fs.hashArtifact dest s with
  | error e => rfl
  | ok d =>
    rw [ofExcept_ok_bind]
    dsimp only
    split
    · rfl
    · rfl

/-- The final check comes last. -/
theorem downloadArtifact_verified (directory : artifactType ≠ str "file") :
    downloadArtifact fs store sha host artifactDigest artifactType dest maxTotalBytes maxFiles true s =
      (downloadArtifact fs store sha host artifactDigest artifactType dest maxTotalBytes maxFiles false >>= fun _ =>
        verifyRebuilt fs dest (partitionColon artifactDigest).2) s := by
  unfold downloadArtifact
  cases prepared : prepareDownload fs artifactDigest artifactType dest s with
  | mk outcome before =>
    cases outcome with
    | error e => rw [bind_assoc, bind_of_error prepared, bind_of_error prepared]
    | ok expected =>
      have same := (checkRequest_ok (prepareDownload_ends.returned prepared)).2.2.1
      rw [bind_assoc, bind_of_ok prepared, bind_of_ok prepared, if_neg directory, if_neg directory, ← same]
      unfold downloadDirectory
      rw [bind_assoc]
      refine congrArg (fun rest => (fetchManifest fs store sha host expected maxFiles maxTotalBytes >>= rest) before) ?_
      funext files
      rw [bind_assoc]
      rfl

end Download

end ModelGuard.Storage
