import ModelGuard.Cache.Hasher
import ModelGuard.Hashing.Identity
import ModelGuard.Lib.Entries
import ModelGuard.Sdk.Verify

/-!
# `CachedHasher.hash` on its own

One call while nothing changes, with what can go wrong in it: the file system, the cache file and
pydantic each refuse in their own way, and only some of the refusals are caught.
-/

namespace ModelGuard.Cache

open Lib Lib.Fallible Lib.Node ModelGuard.Hashing ModelGuard.Sdk

variable {α : Type}

/-- What `os.lstat` gives for a regular file. -/
structure StatResult where
  size : Nat
  mtimeNs : Int
  ctimeNs : Int
  ino : Int
  dev : Int
deriving DecidableEq

/-- `_StatModel`. -/
structure StatModel extends StatResult where
  relpath : Str
deriving DecidableEq

/-- `_Entry` as a cache file may hold it. -/
structure StoredEntry where
  artifactType : Str
  files : List FileDigest
  stats : List StatModel
  recordedAtNs : Int
deriving DecidableEq

/-- `_CacheFile`. -/
structure CacheFile where
  schemaVersion : Int
  entries : List (Str × StoredEntry)

def StoredEntry.texts (entry : StoredEntry) : List Str :=
  entry.artifactType :: (entry.files.flatMap fun f => [f.path, f.sha256]) ++ entry.stats.map (·.relpath)

/-- Every `str` that serializing the entries meets. -/
def entryTexts (entries : List (Str × StoredEntry)) : List Str := entries.flatMap fun e => e.1 :: e.2.texts

/-- Where pydantic accepts a `str`. One that is not valid Unicode it refuses when the model is made or when
it is serialized, with a `ValueError`; what it reads from JSON is valid. -/
structure Pydantic where
  constructs : Str → Bool
  serializes : Str → Bool
  validateJson : Bytes → Option CacheFile
  accepts : ∀ s, Scalars s → constructs s = true ∧ serializes s = true
  refuses : ∀ s, ¬Scalars s → constructs s = false ∨ serializes s = false
  loaded : ∀ raw file, validateJson raw = some file → ∀ s ∈ entryTexts file.entries, Scalars s

/-- What the process, its libraries and the files of the artifact give to one call. -/
structure Machine (α : Type) where
  posix : Bool
  uid : Nat
  sha : Sha256
  py : Pydantic
  disk : Disk α
  stat : α → StatResult
  /-- `os.lstat` of an entry of the artifact raises an `OSError`. -/
  lstatFails : RelPath → Bool
  /-- The clock when the age of the files is checked, and when the entry is made. -/
  nowNs : Int
  recordedAtNs : Int

/-- What `os.lstat` finds under a path. -/
inductive Target (α : Type) where
  /-- No path of the operating system: `os.lstat` raises a `ValueError`, and `exists()` is false. -/
  | unencodable
  /-- An `OSError` other than those that `exists()` takes for an answer. -/
  | refused
  | found (node : Option (Node α))

structure ArtifactPath (α : Type) where
  name : FileName
  target : Target α
  /-- `str(path.resolve())`, which raises for a relative path if the working directory is gone. -/
  resolved : Option Str
  distinct : ∀ n, target = .found (some n) → n.Distinct

/-- What leaves `hash` as an exception. -/
inductive HashFailure where
  | hashing (e : HashError)
  | workingDirectory
  | unencodable
  | pydantic
deriving DecidableEq

/-- `hash_artifact(path)`. -/
def hashArtifactAt (m : Machine α) (path : ArtifactPath α) : Except HashFailure ArtifactDigest :=
  match path.target with
  | .unencodable => .error (.hashing .artifactNotFound)
  | .refused => .error (.hashing .osError)
  | .found (some (.dir l entries)) =>
    if path.resolved = none then .error .workingDirectory
    else (hashDirectory m.sha m.disk (.dir l entries)).mapError .hashing
  | .found node => (hashArtifact m.sha m.disk path.name node).mapError .hashing

/-! ### The fingerprint -/

mutual
/-- `os.walk`: the listings from the top down. A directory that cannot be listed is skipped. -/
def osWalk (path : RelPath) : Node α → List (RelPath × List (FileName × Node α))
  | .dir true entries => (path, entries) :: osWalkIn path entries
  | _ => []

def osWalkIn (path : RelPath) : List (FileName × Node α) → List (RelPath × List (FileName × Node α))
  | [] => []
  | (name, n) :: rest => osWalk (path ++ [name]) n ++ osWalkIn path rest
end

/-- Why the walk ends early: `return None`, which an `OSError` comes to as well, or an exception. -/
inductive Stop where
  | uncacheable
  | raised (e : HashFailure)
deriving DecidableEq

/-- `_stat_model`. -/
def statModel (m : Machine α) (relpath : Str) (st : StatResult) : Except HashFailure StatModel :=
  if m.py.constructs relpath then .ok { toStatResult := st, relpath } else .error .pydantic

/-- The loop over `dirnames`. -/
def statDirnames (m : Machine α) (path : RelPath) : List (FileName × Node α) → Except Stop Unit
  | [] => .ok ()
  | (_, .symlink .directory) :: _ => .error .uncacheable
  | (name, .dir ..) :: rest =>
    if m.lstatFails (path ++ [name]) then .error .uncacheable else statDirnames m path rest
  | _ :: rest => statDirnames m path rest

/-- The loop over `filenames`. `os.path.relpath` needs the working directory where `resolve` does. -/
def statFilenames (m : Machine α) (resolved : Option Str) (path : RelPath) :
    List (FileName × Node α) → Except Stop (List StatModel)
  | [] => .ok []
  | (_, .dir ..) :: rest => statFilenames m resolved path rest
  | (_, .symlink .directory) :: rest => statFilenames m resolved path rest
  | (_, .symlink _) :: _ => .error .uncacheable
  | (name, .file a) :: rest => do
    if m.lstatFails (path ++ [name]) || (m.stat a).ino = 0 || resolved = none then throw .uncacheable
    let st ← (statModel m (pathText (path ++ [name])) (m.stat a)).mapError .raised
    let stats ← statFilenames m resolved path rest
    return st :: stats

/-- The loop over `os.walk`. -/
def statListings (m : Machine α) (resolved : Option Str) :
    List (RelPath × List (FileName × Node α)) → Except Stop (List StatModel)
  | [] => .ok []
  | (path, entries) :: rest => do
    statDirnames m path entries
    let stats ← statFilenames m resolved path entries
    let others ← statListings m resolved rest
    return stats ++ others

def sortStats (stats : List StatModel) : List StatModel := stats.insertionSort fun a b => a.relpath ≤ b.relpath

/-- `_capture_fingerprint`: only an `OSError` is caught. -/
def captureFingerprintAt (m : Machine α) (path : ArtifactPath α) :
    Except HashFailure (Option (ArtifactType × List StatModel)) :=
  if m.posix then
    match path.target with
    | .unencodable => .error .unencodable
    | .refused => .ok none
    | .found none => .ok none
    | .found (some (.symlink _)) => .ok none
    | .found (some (.file a)) => do
      let single ← statModel m path.name.val (m.stat a)
      return if single.ino ≠ 0 then some (.file, [single]) else none
    | .found (some (.dir l entries)) =>
      match statListings m path.resolved (osWalk [] (.dir l entries)) with
      | .error .uncacheable => .ok none
      | .error (.raised e) => .error e
      | .ok stats => .ok (if stats.isEmpty then none else some (.directory, sortStats stats))
  else .ok none

/-! ### The cache file -/

def cacheSchemaVersion : Int := 1

def maxCacheFileBytes : Nat := 16 * 1024 * 1024

/-- What `os.lstat` gives for the cache file. -/
structure CacheFileStat where
  regular : Bool
  uid : Nat
  mode : Nat
  size : Nat

/-- A hasher, with the state of its cache directory. An operation that has no result raises an `OSError`. -/
structure CachedHasher where
  lstat : Option CacheFileStat
  readBytes : Option Bytes
  mkdir : Bool
  openExclusive : Bool
  writeAndReplace : Bool

/-- `_load`. -/
def CachedHasher.load (m : Machine α) (self : CachedHasher) : CacheFile :=
  let empty : CacheFile := { schemaVersion := cacheSchemaVersion, entries := [] }
  match self.lstat with
  | none => empty
  | some st =>
    if !st.regular then empty
    else if st.uid ≠ m.uid then empty
    else if st.mode &&& 0o022 ≠ 0 then empty
    else if maxCacheFileBytes < st.size then empty
    else
      match self.readBytes.bind m.py.validateJson with
      | none => empty
      | some loaded => if loaded.schemaVersion ≠ cacheSchemaVersion then empty else loaded

/-- What `_store` serializes: the oldest entries beyond `MAX_ENTRIES` are deleted. -/
def CachedHasher.entriesWith (m : Machine α) (self : CachedHasher) (key : Str) (entry : StoredEntry) :
    List (Str × StoredEntry) :=
  Lib.Entries.evict (·.recordedAtNs) maxEntries (Lib.Entries.set key entry (self.load m).entries)

/-- `_store`: the entries that replace the cache file, or none if an `OSError` was swallowed. The temporary
file is open when the entries are serialized. -/
def CachedHasher.store (m : Machine α) (self : CachedHasher) (key : Str) (entry : StoredEntry) :
    Except HashFailure (Option (List (Str × StoredEntry))) :=
  let entries := self.entriesWith m key entry
  if !self.mkdir || !self.openExclusive then .ok none
  else if (entryTexts entries).all m.py.serializes then .ok (if self.writeAndReplace then some entries else none)
  else .error .pydantic

/-- `_all_older_than_margin`. -/
def allOlder (stats : List StatModel) (nowNs : Int) : Bool :=
  stats.all fun st => max st.mtimeNs st.ctimeNs ≤ nowNs - racyMarginNs

def kindText : ArtifactType → Str
  | .file => str "file"
  | .directory => str "directory"

/-- `_entry_is_consistent`. -/
def storedIsConsistent (entry : StoredEntry) (kind : ArtifactType) (stats : List StatModel) : Bool :=
  entry.artifactType = kindText kind &&
    (entry.files.map fun f => (f.path, f.size)) = stats.map fun st => (st.relpath, st.size)

/-- The digest that a consistent entry gives: its `artifact_type` is that of the fingerprint. -/
def CachedHasher.cached (m : Machine α) (self : CachedHasher) (key : Str) (kind : ArtifactType)
    (stats : List StatModel) : Option ArtifactDigest :=
  match (self.load m).entries.lookup key with
  | none => none
  | some entry =>
    if entry.stats = stats ∧ storedIsConsistent entry kind stats = true then
      (artifactDigestFromFiles m.sha kind entry.files).toOption
    else none

/-- The `_Entry` of a computed digest. Its digests match their pattern. -/
def computedModel (m : Machine α) (computed : ArtifactDigest) (stats : List StatModel) : Except HashFailure StoredEntry :=
  if computed.files.all fun f => m.py.constructs f.path then
    .ok { artifactType := kindText computed.artifactType
          files := computed.files
          stats
          recordedAtNs := m.recordedAtNs }
  else .error .pydantic

/-- `CachedHasher.hash`. -/
def CachedHasher.hash (m : Machine α) (self : CachedHasher) (path : ArtifactPath α) :
    Except HashFailure CachedHashResult := do
  match ← captureFingerprintAt m path with
  | none => return { digest := ← hashArtifactAt m path, fromCache := false }
  | some (kind, stats) =>
    let key ← orRaise .workingDirectory path.resolved
    match self.cached m key kind stats with
    | some digest => return { digest, fromCache := true }
    | none =>
      let computed ← hashArtifactAt m path
      let after ← captureFingerprintAt m path
      if after.map (·.2) = some stats && allOlder stats m.nowNs then
        let entry ← computedModel m computed stats
        let _ ← self.store m key entry
        return { digest := computed, fromCache := false }
      else return { digest := computed, fromCache := false }

/-- `hash` returns where `hash_artifact` returns, and raises its error where it raises. -/
def Transparent (m : Machine α) (self : CachedHasher) (path : ArtifactPath α) : Prop :=
  (∀ d, hashArtifactAt m path = .ok d → ∃ result, self.hash m path = .ok result) ∧
    ∀ e, hashArtifactAt m path = .error e → self.hash m path = .error e

/-! ### The fingerprint of a run

Where nothing is refused, this fingerprint is that of `captureFingerprint`. -/

def Stat.model (st : Stat) : StatModel where
  relpath := st.relpath
  size := st.size
  mtimeNs := st.mtimeNs
  ctimeNs := st.ctimeNs
  ino := st.id.ino
  dev := st.id.dev

/-- The machine shows the file system, and refuses nothing of it. -/
structure Shows {P : Type} (m : Machine FileId) (fs : FileSystem P) : Prop where
  posix : m.posix = true
  stat : ∀ id relpath, { toStatResult := m.stat id, relpath } = (fs.stat relpath id).model
  lstat : ∀ path, m.lstatFails path = false
  names : ∀ s, m.py.constructs s = true

variable {P : Type} {m : Machine FileId} {fs : FileSystem P}

theorem Shows.statModel_eq (shows : Shows m fs) (relpath : Str) (id : FileId) :
    statModel m relpath (m.stat id) = .ok (fs.stat relpath id).model := by
  unfold statModel
  rw [if_pos (shows.names relpath), shows.stat]

theorem Shows.ino_eq (shows : Shows m fs) (id : FileId) : (m.stat id).ino = id.ino :=
  congrArg (·.ino) (shows.stat id [])

theorem statDirnames_eq (shows : Shows m fs) (path : RelPath) (entries : List (FileName × Node FileId)) :
    statDirnames m path entries = if captureDirnames entries then .ok () else .error .uncacheable := by
  induction entries with
  | nil => rfl
  | cons e rest ih =>
    obtain ⟨name, n⟩ := e
    cases n with
    | file id => exact ih
    | symlink t =>
      cases t with
      | directory => rfl
      | file => exact ih
      | missing => exact ih
    | dir l below =>
      unfold statDirnames
      rw [shows.lstat]
      exact ih

theorem statFilenames_eq (shows : Shows m fs) (key : Str) (path : RelPath)
    (entries : List (FileName × Node FileId)) :
    statFilenames m (some key) path entries =
      orRaise .uncacheable ((captureFilenames fs path entries).map (·.map Stat.model)) := by
  induction entries with
  | nil => rfl
  | cons e rest ih =>
    obtain ⟨name, n⟩ := e
    cases n with
    | file id =>
      unfold statFilenames captureFilenames
      rw [shows.lstat, shows.ino_eq, shows.statModel_eq, ih]
      by_cases zero : id.ino = 0
      · rw [if_pos zero, if_pos (by simp [zero])]
        rfl
      · rw [if_neg zero, if_neg (by simp [zero])]
        cases captureFilenames fs path rest <;> rfl
    | symlink t =>
      cases t with
      | directory => exact ih
      | file => rfl
      | missing => rfl
    | dir l below => exact ih

theorem statListings_append (resolved : Option Str) (listings others : List (RelPath × List (FileName × Node FileId))) :
    statListings m resolved (listings ++ others) = (do
      let stats ← statListings m resolved listings
      let more ← statListings m resolved others
      return stats ++ more) := by
  induction listings with
  | nil =>
    show statListings m resolved others = _
    cases statListings m resolved others <;> rfl
  | cons listing rest ih =>
    obtain ⟨path, entries⟩ := listing
    rw [List.cons_append, statListings, statListings, ih]
    cases statDirnames m path entries with
    | error stop => rfl
    | ok u =>
      cases statFilenames m resolved path entries with
      | error stop => rfl
      | ok stats =>
        cases statListings m resolved rest with
        | error stop => rfl
        | ok own =>
          cases statListings m resolved others with
          | error stop => rfl
          | ok more =>
            show Except.ok (stats ++ (own ++ more)) = Except.ok ((stats ++ own) ++ more)
            rw [List.append_assoc]

theorem statListings_walkIn (key : Str) (path : RelPath)
    {entries : List (FileName × Node FileId)}
    (ih : ∀ e ∈ entries, ∀ path, statListings m (some key) (osWalk path e.2) =
      orRaise .uncacheable ((captureWalk fs path e.2).map (·.map Stat.model))) :
    statListings m (some key) (osWalkIn path entries) =
      orRaise .uncacheable ((captureWalkIn fs path entries).map (·.map Stat.model)) := by
  induction entries with
  | nil => rfl
  | cons e rest ihr =>
    unfold osWalkIn captureWalkIn
    rw [statListings_append, ih e List.mem_cons_self, ihr fun e mem => ih e (List.mem_cons_of_mem _ mem)]
    cases captureWalk fs (path ++ [e.1]) e.2 with
    | none => rfl
    | some stats =>
      cases captureWalkIn fs path rest with
      | none => rfl
      | some others => simp [orRaise, bind, Except.bind, pure, Except.pure]

theorem statListings_walk (shows : Shows m fs) (key : Str) (path : RelPath) (n : Node FileId) :
    statListings m (some key) (osWalk path n) =
      orRaise .uncacheable ((captureWalk fs path n).map (·.map Stat.model)) := by
  induction n using entryInduction generalizing path with
  | file id => rfl
  | symlink t => rfl
  | dir l entries ih =>
    cases l with
    | false => rfl
    | true =>
      have below := statListings_walkIn key path fun e mem path => ih e mem path
      unfold osWalk captureWalk statListings
      rw [statDirnames_eq shows, statFilenames_eq shows, below]
      cases captureDirnames entries with
      | false => rfl
      | true =>
        cases captureFilenames fs path entries with
        | none => rfl
        | some stats =>
          cases captureWalkIn fs path entries with
          | none => rfl
          | some others => simp [orRaise, bind, Except.bind, pure, Except.pure]

theorem sortStats_model (stats : List Stat) :
    (stats.insertionSort fun a b => a.relpath ≤ b.relpath).map Stat.model = sortStats (stats.map Stat.model) := by
  apply List.map_insertionSort
  intro a _ b _
  rfl

/-- The two fingerprints agree. -/
theorem captureFingerprintAt_shown (shows : Shows m fs) {nameOf : P → FileName} {p : P} {path : ArtifactPath FileId}
    (name : path.name = nameOf p) (target : path.target = .found (fs.node p)) (key : Str)
    (resolved : path.resolved = some key) :
    captureFingerprintAt m path =
      .ok ((captureFingerprint fs nameOf p).map fun found => (found.1, found.2.map Stat.model)) := by
  unfold captureFingerprintAt captureFingerprint
  rw [if_pos shows.posix, target, resolved, name]
  cases node : fs.node p with
  | none => rfl
  | some n =>
    cases n with
    | symlink t => rfl
    | file id =>
      dsimp only
      rw [shows.statModel_eq]
      by_cases zero : id.ino = 0
      · rw [if_pos zero]
        show Except.ok (if (id.ino : Int) ≠ 0 then _ else _) = _
        rw [if_neg (by simpa using zero)]
        rfl
      · rw [if_neg zero]
        show Except.ok (if (id.ino : Int) ≠ 0 then _ else _) = _
        rw [if_pos (by simpa using zero)]
        rfl
    | dir l entries =>
      dsimp only
      rw [statListings_walk shows]
      cases captureWalk fs [] (.dir l entries) with
      | none => rfl
      | some stats =>
        show Except.ok (if (stats.map Stat.model).isEmpty then _ else _) = _
        cases stats with
        | nil => rfl
        | cons st stats =>
          rw [← sortStats_model]
          rfl

end ModelGuard.Cache
