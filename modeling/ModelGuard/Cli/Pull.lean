import ModelGuard.Storage.Limits

/-!
# `artifact pull`

The command downloads from the store that its options name. A limit that is not given, or is zero, is the default
one.
-/

namespace ModelGuard.Cli

open Lib Lib.Prog Lib.Node ModelGuard.Hashing ModelGuard.Storage
open Signing (plainHost)

def exitOk : Nat := 0

def exitError : Nat := 1

def exitDenied : Nat := 2

/-- How a command ends: with an exit status, or with an exception that it does not catch. -/
inductive Ended where
  | exit (status : Nat)
  | raised (e : Raised)

structure StoreOptions where
  bucket : Option Str
  keyPrefix : Str
  endpointUrl : Option Str
  region : Option Str
  localStore : Option Str

/-- The stores that options can name. -/
structure Stores where
  /-- What is below a directory, and how its files are read. -/
  localStore : Str → LocalBlobStore × FileReader
  /-- Whether `modelguard.storage.s3` can be imported. -/
  s3Extra : Bool
  /-- `S3BlobStore(bucket, prefix=…, endpoint_url=…, region_name=…)`. -/
  s3 : Str → Str → Option Str → Option Str → Except Raised (Str → World → S3Answer)

/-- `_blob_store`. -/
def Stores.blobStore (stores : Stores) (options : StoreOptions) : Except Raised Backend :=
  match options.bucket, options.localStore with
  | none, some root => .ok (.localStore (stores.localStore root).1 (stores.localStore root).2)
  | some bucket, none =>
    if stores.s3Extra then (stores.s3 bucket options.keyPrefix options.endpointUrl options.region).map .s3
    else .error (.modelGuard .modelGuardError (str "S3 support needs its extra: pip install \"modelguard[s3]\""))
  | _, _ => .error (.modelGuard .modelGuardError (str "Give exactly one of --bucket (S3) or --local-store DIR."))

def defaultMaxTotalBytes : Int := 256 * 1024 ^ 3

def defaultMaxFiles : Int := 100000

/-- `value or default`. -/
def orDefault (value : Option Int) (default : Int) : Int :=
  match value with
  | some v => if v = 0 then default else v
  | none => default

/-- The value of `--type`. -/
def typeText : ArtifactType → Str
  | .file => str "file"
  | .directory => str "directory"

/-- The handlers of the command. -/
def ended : Except Raised Unit → Ended
  | .ok () => .exit exitOk
  | .error (.modelGuard .artifactIntegrityError _) => .exit exitDenied
  | .error (.modelGuard _ _) => .exit exitError
  | .error e => .raised e

section Pull

variable (m : Machine) (stores : Stores) (options : StoreOptions) (digest : Str) (dest : Place) (artifactType : ArtifactType)

/-- `artifact_pull`. -/
def artifactPull (maxTotalBytes maxFiles : Option Int) (w : World) : Ended × World :=
  match stores.blobStore options with
  | .error e => (ended (.error e), w)
  | .ok store =>
    let (outcome, w') := downloadArtifact m.fileSystem (store.blobStore m) m.sha m.host digest (typeText artifactType) dest
      (orDefault maxTotalBytes defaultMaxTotalBytes) (orDefault maxFiles defaultMaxFiles) true w
    (ended outcome, w')

variable {m stores options digest dest artifactType} {maxTotalBytes maxFiles : Option Int} {w w' : World}

theorem ended_ok {outcome : Except Raised Unit} : ended outcome = .exit 0 ↔ outcome = .ok () := by
  unfold ended
  split
  · exact iff_of_true rfl rfl
  · exact iff_of_false nofun nofun
  · exact iff_of_false nofun nofun
  · exact iff_of_false nofun nofun

theorem artifactPull_succeeds : artifactPull m stores options digest dest artifactType maxTotalBytes maxFiles w = (.exit 0, w') ↔
    ∃ store, stores.blobStore options = .ok store ∧
      downloadArtifact m.fileSystem (store.blobStore m) m.sha m.host digest (typeText artifactType) dest
        (orDefault maxTotalBytes defaultMaxTotalBytes) (orDefault maxFiles defaultMaxFiles) true w = (.ok (), w') := by
  unfold artifactPull
  cases stores.blobStore options with
  | error e =>
    dsimp only
    rw [Prod.mk.injEq, ended_ok]
    exact ⟨nofun, nofun⟩
  | ok store =>
    dsimp only
    rw [Prod.mk.injEq, ended_ok, ← Prod.mk.injEq]
    constructor
    · exact fun run => ⟨store, rfl, run⟩
    · intro ⟨_, same, run⟩
      cases same
      exact run

end Pull

/-- A limit that is not zero is the one that is used. -/
theorem orDefault_natCast {n : Nat} (nonzero : n ≠ 0) (default : Int) : orDefault (some n) default = n :=
  if_neg (Int.natCast_eq_zero.not.mpr nonzero)

theorem typeText_eq_file {artifactType : ArtifactType} : typeText artifactType = str "file" ↔ artifactType = .file := by
  cases artifactType with
  | file => exact iff_of_true rfl rfl
  | directory => exact iff_of_false (str_injective.ne (by decide)) nofun

/-- Whatever the store holds, a pull with these limits that succeeds leaves files within them at the destination. -/
def PullsWithin (n k : Nat) (artifactType : ArtifactType) : Prop :=
  ∀ (m : Machine) (stores : Stores) (options : StoreOptions) (digest : Str) (dest : Place) (w w' : World),
    artifactPull m stores options digest dest artifactType (some n) (some k) w = (.exit 0, w') →
      ∀ spot node, m.locate dest = .ok spot → w'.find spot = some node →
        ((node.regularFiles []).map fun file => file.2.length).sum ≤ n ∧
          (artifactType = .directory → (node.regularFiles []).length ≤ k)

theorem pull_within {n k : Nat} {artifactType : ArtifactType} (bytes : n ≠ 0) (files : artifactType = .directory → k ≠ 0) :
    PullsWithin n k artifactType := by
  intro m stores options digest dest w w' run spot node located found
  obtain ⟨store, -, run⟩ := artifactPull_succeeds.mp run
  rw [orDefault_natCast bytes] at run
  obtain ⟨total, count⟩ := (downloadArtifact_limits (Int.natCast_nonneg n)).returned run spot located
  unfold World.weigh at total count
  rw [found] at total count
  refine ⟨Int.ofNat_le.mp total, fun directory => ?_⟩
  have other : typeText artifactType ≠ str "file" := by
    rw [ne_eq, typeText_eq_file, directory]
    exact nofun
  have few := count other
  rw [orDefault_natCast (files directory)] at few
  unfold Node.weigh at few
  dsimp only at few
  rw [List.map_const', List.sum_replicate_nat, Nat.mul_one] at few
  exact Int.ofNat_le.mp few

/-! ### A limit of zero -/

/-- The digests of the byte 0, and of a directory with one file of it. -/
def zeroByteText : ArtifactType → Str
  | .file => str "sha256:" ++ (zeroByteFile (str "a")).sha256
  | .directory => str "sha256:" ++ zeroByteDigest

/-- Every directory is a local store that holds both. -/
def zeroByteStores : Stores where
  localStore _ :=
    (⟨fun path =>
        if path = LocalBlobStore.blobPath zeroByteDigest then some (.regular zeroByteManifest none)
        else if path = LocalBlobStore.blobPath (zeroByteFile (str "a")).sha256 then some (.regular [0] none)
        else none⟩,
      { stream := fun content => ⟨[content], none⟩, whole := singleChunk_whole })
  s3Extra := false
  s3 _ _ _ _ := .error (storeError "A bucket name is required.")

def localOptions : StoreOptions where
  bucket := none
  keyPrefix := []
  endpointUrl := none
  region := none
  localStore := some (str "store")

/-- One file with one byte is at the destination. -/
def oneByte (w : World) : Bool :=
  match w.find modelSpot with
  | some node => ((node.regularFiles []).map fun file => file.2.length) == [1]
  | none => false

def zeroMachine : Machine := quietMachine zeroByteSha plainHost

/-- The one byte arrives where the limits allow for it. -/
theorem zeroByte_file : ∃ w', downloadArtifact zeroMachine.fileSystem (zeroByteStore.blobStore zeroMachine) zeroMachine.sha
    zeroMachine.host (zeroByteText .file) (str "file") modelPlace defaultMaxTotalBytes 1 true emptyWorld = (.ok (), w') ∧
      oneByte w' = true := by
  apply of_returnedWith
  unfold zeroByteText zeroMachine zeroByteStore zeroByteManifest zeroByteFile zeroByteDigest zeroByteSha
  simp only [str_append, byteDigest_spelled, manifestDigest_spelled, manifestHead_spelled, manifestTail_spelled]
  decide +kernel

theorem zeroByte_directory : ∃ w', downloadArtifact zeroMachine.fileSystem (zeroByteStore.blobStore zeroMachine)
    zeroMachine.sha zeroMachine.host (zeroByteText .directory) (str "directory") modelPlace 1 1 true emptyWorld = (.ok (), w') ∧
      oneByte w' = true := by
  apply of_returnedWith
  unfold zeroByteText zeroMachine zeroByteStore zeroByteManifest zeroByteFile zeroByteDigest zeroByteSha
  simp only [str_append, byteDigest_spelled, manifestDigest_spelled, manifestHead_spelled, manifestTail_spelled]
  decide +kernel

theorem oneByte_iff {w : World} : oneByte w = true ↔
    ∃ node, w.find modelSpot = some node ∧ ((node.regularFiles []).map fun file => file.2.length) = [1] := by
  unfold oneByte
  cases w.find modelSpot with
  | none => exact iff_of_false nofun nofun
  | some node =>
    dsimp only
    rw [beq_iff_eq]
    constructor
    · exact fun sizes => ⟨node, rfl, sizes⟩
    · intro ⟨_, same, sizes⟩
      cases same
      exact sizes

theorem one_le_orDefault (n : Nat) {default : Int} (positive : 1 ≤ default) : 1 ≤ orDefault (some n) default := by
  by_cases zero : n = 0
  · subst zero
    exact positive
  · rw [orDefault_natCast zero]
    exact_mod_cast Nat.one_le_iff_ne_zero.mpr zero

/-- A pull of the one byte succeeds with a limit of zero bytes, and for a directory with any limits. -/
theorem zeroByte_pulled {n k : Nat} {artifactType : ArtifactType} (allowed : n = 0 ∨ artifactType = .directory) :
    ∃ w', artifactPull zeroMachine zeroByteStores localOptions (zeroByteText artifactType) modelPlace artifactType
      (some n) (some k) emptyWorld = (.exit 0, w') ∧ oneByte w' = true := by
  have opened : zeroByteStores.blobStore localOptions = .ok zeroByteStore := rfl
  cases artifactType with
  | file =>
    obtain ⟨w', run, left⟩ := zeroByte_file
    refine ⟨w', artifactPull_succeeds.mpr ⟨zeroByteStore, opened, ?_⟩, left⟩
    have zero := allowed.resolve_right nofun
    subst zero
    -- The number of files is not looked at.
    unfold downloadArtifact at run ⊢
    exact run
  | directory =>
    obtain ⟨w', run, left⟩ := zeroByte_directory
    refine ⟨w', artifactPull_succeeds.mpr ⟨zeroByteStore, opened, ?_⟩, left⟩
    have other : str "directory" ≠ str "file" := str_injective.ne (by decide)
    exact downloadArtifact_raise other (one_le_orDefault k (by decide)) (one_le_orDefault n (by decide)) run

/-- The limits of a pull are kept exactly when neither that counts is zero. -/
theorem pull_limits_iff (n k : Nat) (artifactType : ArtifactType) :
    PullsWithin n k artifactType ↔ n ≠ 0 ∧ (artifactType = .directory → k ≠ 0) := by
  constructor
  · intro within
    have kept (allowed : n = 0 ∨ artifactType = .directory) : 1 ≤ n ∧ (artifactType = .directory → 1 ≤ k) := by
      obtain ⟨w', run, left⟩ := zeroByte_pulled (k := k) allowed
      obtain ⟨node, found, sizes⟩ := oneByte_iff.mp left
      obtain ⟨bytes, files⟩ := within _ _ _ _ _ _ _ run modelSpot node (locate_model _ _) found
      have number := congrArg List.length sizes
      rw [List.length_map] at number
      rw [sizes] at bytes
      rw [number] at files
      exact ⟨bytes, files⟩
    refine ⟨fun zero => ?_, fun directory zero => ?_⟩
    · have one := (kept (Or.inl zero)).1
      omega
    · have one := (kept (Or.inr directory)).2 directory
      omega
  · intro ⟨bytes, files⟩
    exact pull_within bytes files

/-- With `--max-total-bytes 0 --max-files 0` a file of one byte is pulled. -/
theorem zero_limits_not_kept : ∃ w', artifactPull zeroMachine zeroByteStores localOptions (zeroByteText .directory) modelPlace
    .directory (some 0) (some 0) emptyWorld = (.exit 0, w') ∧ ¬∀ spot node, zeroMachine.locate modelPlace = .ok spot →
      w'.find spot = some node → ((node.regularFiles []).map fun file => file.2.length).sum ≤ 0 ∧
        (node.regularFiles []).length ≤ 0 := by
  obtain ⟨w', run, left⟩ := @zeroByte_pulled 0 0 .directory (Or.inl rfl)
  refine ⟨w', run, fun within => ?_⟩
  obtain ⟨node, found, sizes⟩ := oneByte_iff.mp left
  have bytes := (within modelSpot node (locate_model _ _) found).1
  rw [sizes] at bytes
  exact absurd bytes (by decide)

end ModelGuard.Cli
