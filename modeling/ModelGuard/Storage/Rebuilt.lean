import ModelGuard.Storage.Fetch

/-!
# The final check of a download

A directory is hashed again after it was put in place. That makes sure of its digest whatever the store did, and
it is the one step of a download that can fail with something left at the destination.
-/

namespace ModelGuard.Storage

open Lib Lib.Prog Lib.Node ModelGuard.Hashing
open LocalBlobStore (blobPath)
open Signing (plainHost emptySha)

/-! ### What is returned hashes to its digest -/

section Rehash

variable {σ π : Type} {fs : FileSystem σ π} {store : BlobStore σ π} {sha : Sha256} {host : Host}
  {artifactDigest artifactType expected : Str} {dest : π} {maxTotalBytes maxFiles : Int} {s : σ}

theorem verifyRebuilt_ends : Ends (verifyRebuilt fs dest expected) s
    (fun _ s' => ∃ d, fs.hashArtifact dest s' = .ok d ∧ d.digest = expected) fun _ _ => True := by
  unfold verifyRebuilt
  rw [ends_bind_iff, ends_observe, ends_bind_iff]
  apply ends_ofExcept
  · intro d hashed
    split
    · rename_i same
      exact ⟨d, hashed, same⟩
    · exact trivial
  · exact fun _ _ => trivial

theorem downloadDirectory_ends : Ends (downloadDirectory fs store sha host expected dest maxTotalBytes maxFiles true) s
    (fun _ s' => ∃ d, fs.hashArtifact dest s' = .ok d ∧ d.digest = expected) fun _ _ => True := by
  unfold downloadDirectory
  refine ends_bind_partial fun files s => ?_
  refine ends_bind_partial fun _ s => ?_
  exact verifyRebuilt_ends

/-- Whatever the store does, a directory that is returned hashes to its digest. A file does exactly when the
store has left it so: nothing is checked after `get_to`. -/
theorem rehash_protects_iff (fs : FileSystem σ π) (store : BlobStore σ π) (sha : Sha256) (host : Host)
    (artifactDigest artifactType : Str) (dest : π) (maxTotalBytes maxFiles : Int) (s : σ) :
    (∀ s', downloadArtifact fs store sha host artifactDigest artifactType dest maxTotalBytes maxFiles true s = (.ok (), s') →
        HashesTo fs dest artifactDigest s') ↔
      (artifactType = str "file" → ∀ expected before after,
        prepareDownload fs artifactDigest artifactType dest s = (.ok expected, before) →
          store.getTo expected dest maxTotalBytes before = (.ok (), after) → HashesTo fs dest artifactDigest after) := by
  unfold downloadArtifact
  cases prepared : prepareDownload fs artifactDigest artifactType dest s with
  | mk outcome before =>
    cases outcome with
    | error e =>
      rw [bind_of_error prepared]
      exact ⟨fun _ _ _ _ _ same => (nomatch (Prod.mk.inj same).1), fun _ _ same => nomatch (Prod.mk.inj same).1⟩
    | ok expected =>
      rw [bind_of_ok prepared]
      by_cases file : artifactType = str "file"
      · rw [if_pos file]
        constructor
        · intro holds _ expected' before' after same left
          obtain ⟨sameOk, sameState⟩ := Prod.mk.inj same
          cases sameOk
          subst sameState
          exact holds after left
        · intro holds after left
          exact holds file expected before after rfl left
      · rw [if_neg file]
        refine iff_of_true ?_ fun kind => (file kind).elim
        intro s' returned
        obtain ⟨d, hashed, same⟩ := downloadDirectory_ends.returned returned
        have checked := checkRequest_ok (prepareDownload_ends.returned prepared)
        exact ⟨d, hashed, same.trans checked.2.2.1⟩

end Rehash

/-! ### A file that is not hashed again -/

/-- Whatever is asked for, an empty file is left at the destination. -/
def emptyFileStore (m : Machine) : BlobStore World Place where
  getTo _ dest _ := do
    let spot ← ofExcept (m.locate dest)
    m.call (.create spot)
    Machine.place spot (.file [])

theorem modelName_fileName : IsFileName (str "model") := by decide +kernel

def modelName : FileName := ⟨str "model", modelName_fileName⟩

def modelPlace : Place := ⟨false, [modelName.val]⟩

def modelSpot : Spot := ⟨false, [modelName]⟩

theorem locate_model (sha : Sha256) (host : Host) : (quietMachine sha host).locate modelPlace = .ok modelSpot :=
  locate_ok.mpr ⟨rfl, mapM_singleton_some.mpr ⟨modelName, (quietMachine_sound sha host).ascii modelName (by decide), rfl⟩⟩

/-- Whether a run has returned, and a property of the state that it left. -/
def returnedWith (p : World → Bool) (outcome : Except Raised Unit × World) : Bool :=
  match outcome.1 with
  | .ok () => p outcome.2
  | .error _ => false

theorem of_returnedWith {p : World → Bool} {outcome : Except Raised Unit × World} (returned : returnedWith p outcome = true) :
    ∃ w, outcome = (.ok (), w) ∧ p w = true := by
  obtain ⟨ended, w⟩ := outcome
  cases ended with
  | ok u => exact ⟨w, rfl, returned⟩
  | error e => cases returned

/-- Whether a run has raised, and a property of the state that it left. -/
def raisedWith (p : World → Bool) (outcome : Except Raised Unit × World) : Bool :=
  match outcome.1 with
  | .ok () => false
  | .error _ => p outcome.2

theorem of_raisedWith {p : World → Bool} {outcome : Except Raised Unit × World} (raised : raisedWith p outcome = true) :
    ∃ e w, outcome = (.error e, w) ∧ p w = true := by
  obtain ⟨ended, w⟩ := outcome
  cases ended with
  | ok u => cases raised
  | error e => exact ⟨e, w, rfl, raised⟩

/-- With the final check, the empty file is returned for the digest of another. -/
theorem empty_file_returned : ∃ w, downloadArtifact (quietMachine emptySha plainHost).fileSystem
      (emptyFileStore (quietMachine emptySha plainHost)) emptySha plainHost
      (str "sha256:6e340b9cffb37a989ca544e6bb780a2c78901d3fb33738768511a30617afa01d") (str "file") modelPlace 1 1 true emptyWorld =
        (.ok (), w) ∧
    ¬HashesTo (quietMachine emptySha plainHost).fileSystem modelPlace
      (str "sha256:6e340b9cffb37a989ca544e6bb780a2c78901d3fb33738768511a30617afa01d") w := by
  have run : returnedWith (fun w =>
      match (quietMachine emptySha plainHost).fileSystem.hashArtifact modelPlace w with
      | .ok d => d.digest != (partitionColon (str "sha256:6e340b9cffb37a989ca544e6bb780a2c78901d3fb33738768511a30617afa01d")).2
      | .error _ => false)
      (downloadArtifact (quietMachine emptySha plainHost).fileSystem
        (emptyFileStore (quietMachine emptySha plainHost)) emptySha plainHost
        (str "sha256:6e340b9cffb37a989ca544e6bb780a2c78901d3fb33738768511a30617afa01d") (str "file") modelPlace 1 1 true emptyWorld) =
      true := by
    rw [str_ofList]
    decide +kernel
  obtain ⟨w, run, other⟩ := of_returnedWith run
  refine ⟨w, run, ?_⟩
  intro ⟨d, hashed, same⟩
  rw [hashed] at other
  exact bne_iff_ne.mp other same

/-! ### What is left of a download -/

variable {m : Machine}

/-- A tree at `dest` with the digest, or nothing there; and nothing else but the parents of `dest`. -/
def SafeEnd (m : Machine) (dest : Place) (spot : Spot) (artifactDigest : Str) (before : World)
    (outcome : Except Raised Unit × World) : Prop :=
  OnlyAt spot.path before.tree outcome.2.tree ∧ outcome.2.temporary = none ∧
    match outcome.1 with
    | .ok () => outcome.2.isDir spot = true ∧ HashesTo m.fileSystem dest artifactDigest outcome.2
    | .error _ => outcome.2.find spot = none

/-- The download of a directory ends safely exactly when the final hashing, if it comes to that, does not raise. -/
theorem download_safe_iff (m : Machine) (backend : Backend) (artifactDigest : Str) (dest : Place) (spot : Spot)
    (maxTotalBytes maxFiles : Int) (w : World) (located : m.locate dest = .ok spot) (main : spot.temporary = false)
    (root : w.isDir ⟨false, []⟩ = true) (absent : w.find spot = none) (clean : w.temporary = none) :
    SafeEnd m dest spot artifactDigest w (downloadArtifact m.fileSystem (backend.blobStore m) m.sha m.host artifactDigest
        (str "directory") dest maxTotalBytes maxFiles true w) ↔
      ∀ w', downloadArtifact m.fileSystem (backend.blobStore m) m.sha m.host artifactDigest (str "directory") dest
        maxTotalBytes maxFiles false w = (.ok (), w') → ∃ d, m.hashArtifact dest w' = .ok d := by
  have directory : str "directory" ≠ str "file" := by decide
  have below : spot.path ≠ [] := by
    intro top
    obtain ⟨l, entries, found⟩ := World.isDir_iff.mp root
    have found : w.tree = some (.dir l entries) := found
    rw [World.find_main main, top, found] at absent
    cases absent
  have apart := not_prefix_dropLast below
  rw [World.find_main main] at absent
  rw [downloadArtifact_verified directory]
  rcases (download_ends (backend_confined m backend) located main clean).cases with
    ⟨_, w', run, temporary, middle, l, entries, grown, dir, tree⟩ | ⟨e, w', run, temporary, grown⟩
  · rw [bind_of_ok run, run]
    have free : Node.find spot.path middle = none := grown.find_none apart absent
    have there : w'.find spot = some (.dir l entries) := by
      obtain ⟨l', entries', parent⟩ := dir
      rw [World.find_main main, tree, ← List.dropLast_append_getLast below]
      exact find_graft_entry parent _ _
    have only : OnlyAt spot.path w.tree w'.tree := tree ▸ onlyAt_graft grown free _
    have looked : m.fileSystem.hashArtifact dest w' = m.hashArtifact dest w' := rfl
    rw [verifyRebuilt_run, looked]
    cases rehashed : m.hashArtifact dest w' with
    | error e =>
      refine iff_of_false (fun safe => ?_) fun all => ?_
      · have gone : w'.find spot = none := safe.2.2
        rw [there] at gone
        cases gone
      · obtain ⟨d, same⟩ := all w' rfl
        rw [rehashed] at same
        cases same
    | ok d =>
      refine iff_of_true ?_ fun w'' same => ⟨d, (Prod.mk.inj same).2 ▸ rehashed⟩
      dsimp only
      split
      · rename_i same
        exact ⟨only, temporary, World.isDir_iff.mpr ⟨l, entries, there⟩, d, rehashed, same⟩
      · have removed : m.fileSystem.rmtree dest w' = { w' with tree := middle } := by
          show m.rmtree dest w' = _
          unfold Machine.rmtree
          rw [located]
          dsimp only
          rw [World.put_main main, tree, graft_undo free]
        rw [removed]
        refine ⟨onlyAt_grown grown, temporary, ?_⟩
        show World.find _ spot = none
        rw [World.find_main main]
        exact free
  · rw [bind_of_error run, run]
    refine iff_of_true ⟨onlyAt_grown grown, temporary, ?_⟩ fun w'' same => ?_
    · show w'.find spot = none
      rw [World.find_main main]
      exact grown.find_none apart absent
    · cases (Prod.mk.inj same).1

/-! ### A store with junk, and a disk that fails at the end -/

def emptyDigest : Str := str "e3b0c44298fc1c149afbf4c8996fb92427ae41e4649b934ca495991b7852b855"

theorem emptyDigest_sha256 : IsSha256 emptyDigest := by
  unfold emptyDigest
  rw [str_ofList]
  decide +kernel

theorem emptyDigest_hashes : emptySha.hexdigest [] = emptyDigest := by
  unfold emptySha Sha256.ofTable
  dsimp only
  rw [List.lookup_cons_self]
  rfl

theorem nothing_refused (maxFiles maxTotalBytes : Int) : ¬∃ files, CanonicalImage [] maxFiles maxTotalBytes files := by
  intro ⟨files, image⟩
  obtain ⟨text, head⟩ := manifest_head files
  have none := image.image
  unfold canonicalManifestBytes at none
  rw [head] at none
  cases none

/-- An empty manifest is refused, and nothing is left. -/
theorem empty_manifest_leaves_nothing : SafeEnd (quietMachine emptySha plainHost) modelPlace modelSpot
    (str "sha256:" ++ emptyDigest) emptyWorld
    (downloadArtifact (quietMachine emptySha plainHost).fileSystem
      ((singleBlob emptyDigest []).blobStore (quietMachine emptySha plainHost)) emptySha plainHost
      (str "sha256:" ++ emptyDigest) (str "directory") modelPlace 1 1 true emptyWorld) := by
  have root : emptyWorld.isDir ⟨false, []⟩ = true := rfl
  have absent : emptyWorld.find modelSpot = none := rfl
  have main : modelSpot.temporary = false := rfl
  have clean : emptyWorld.temporary = none := rfl
  refine (download_safe_iff (quietMachine emptySha plainHost) (singleBlob emptyDigest []) (str "sha256:" ++ emptyDigest)
    modelPlace modelSpot 1 1 emptyWorld (locate_model _ _) main root absent clean).mpr fun w returned => ?_
  exact absurd returned (download_refused_ne (quietMachine_sound emptySha plainHost) emptyDigest_sha256 emptyDigest_hashes
    (singleBlob_holds emptyDigest []) (nothing_refused 1 1) (locate_model emptySha plainHost) main clean false w)

/-- A machine where files cannot be read back. -/
def unreadableMachine (sha : Sha256) (host : Host) : Machine where
  sha
  host
  fails _ _ := none
  onDisk := (quietMachine sha host).onDisk
  hex := (quietMachine sha host).hex
  otherSize := 4096
  sees w spot := (w.find spot).map (mapFiles fun content => (content, false))

/-- A store with a directory of one file that holds the byte 0. -/
def zeroByteStore : Backend :=
  .localStore ⟨fun path =>
      if path = blobPath zeroByteDigest then some (.regular zeroByteManifest none)
      else if path = blobPath (zeroByteFile (str "a")).sha256 then some (.regular [0] none)
      else none⟩
    { stream := fun content => ⟨[content], none⟩, whole := singleChunk_whole }

/-- The final hashing raises, and what was built is left at the destination. -/
theorem unreadable_tree_left : emptyWorld.find modelSpot = none ∧
    ¬SafeEnd (unreadableMachine zeroByteSha plainHost) modelPlace modelSpot (str "sha256:" ++ zeroByteDigest) emptyWorld
      (downloadArtifact (unreadableMachine zeroByteSha plainHost).fileSystem
        (zeroByteStore.blobStore (unreadableMachine zeroByteSha plainHost)) zeroByteSha plainHost
        (str "sha256:" ++ zeroByteDigest) (str "directory") modelPlace 1 1 true emptyWorld) := by
  have run : raisedWith (fun w => (w.find modelSpot).isSome)
      (downloadArtifact (unreadableMachine zeroByteSha plainHost).fileSystem
        (zeroByteStore.blobStore (unreadableMachine zeroByteSha plainHost)) zeroByteSha plainHost
        (str "sha256:" ++ zeroByteDigest) (str "directory") modelPlace 1 1 true emptyWorld) = true := by
    unfold zeroByteStore zeroByteManifest zeroByteFile zeroByteDigest zeroByteSha
    simp only [str_append, byteDigest_spelled, manifestDigest_spelled, manifestHead_spelled, manifestTail_spelled]
    decide +kernel
  obtain ⟨e, w, run, left⟩ := of_raisedWith run
  refine ⟨rfl, fun safe => ?_⟩
  rw [run] at safe
  have gone : w.find modelSpot = none := safe.2.2
  rw [gone] at left
  cases left

end ModelGuard.Storage
