import ModelGuard.Cache.Fingerprint
import Mathlib.Logic.Function.Basic

/-!
# The caching hasher

Any number of `CachedHasher.hash` calls take their steps in any order between the writes of others. A
step of a call is one access to the file system, the clock or the cache file.
-/

namespace ModelGuard.Cache

open Lib Lib.Fallible Lib.Node ModelGuard.Hashing

variable {P : Type}

def racyMarginNs : Int := 2000000000

def maxEntries : Nat := 128

/-- What stays the same in a run. The file system's timestamps are no coarser than the margin. -/
structure System (P : Type) where
  sha : Sha256
  nameOf : P → FileName
  granularity : Int
  positive : 0 < granularity
  withinMargin : granularity ≤ racyMarginNs

/-! ### The cache file -/

/-- `_Entry`. -/
structure Entry where
  artifactType : ArtifactType
  files : List FileDigest
  stats : List Stat
  recordedAtNs : Int
deriving DecidableEq

/-- The `entries` of the cache file, in the order of the dict. -/
abbrev Entries := List (Str × Entry)

/-- `entries[key] = entry`. -/
def setEntry (key : Str) (entry : Entry) : Entries → Entries
  | [] => [(key, entry)]
  | e :: rest => if e.1 = key then (key, entry) :: rest else e :: setEntry key entry rest

/-- The oldest entries beyond `MAX_ENTRIES` are deleted. -/
def evict (entries : Entries) : Entries :=
  let oldestFirst := entries.insertionSort fun a b => a.2.recordedAtNs ≤ b.2.recordedAtNs
  let old := (oldestFirst.take (entries.length - maxEntries)).map (·.1)
  entries.filter fun e => e.1 ∉ old

/-- `_all_older_than_margin`. -/
def allOlderThanMargin (stats : List Stat) (nowNs : Int) : Bool :=
  stats.all fun st => max st.mtimeNs st.ctimeNs ≤ nowNs - racyMarginNs

/-- `_entry_is_consistent`. -/
def entryIsConsistent (entry : Entry) (kind : ArtifactType) (stats : List Stat) : Bool :=
  entry.artifactType = kind &&
    (entry.files.map fun f => (f.path, f.size)) = stats.map fun st => (st.relpath, st.size)

/-- The digest that the entries give for a fingerprint, if they have one. -/
def lookupDigest (sha : Sha256) (entries : Entries) (key : Str) (kind : ArtifactType) (stats : List Stat) :
    Option ArtifactDigest :=
  match entries.lookup key with
  | none => none
  | some entry =>
    if entry.stats = stats ∧ entryIsConsistent entry kind stats = true then
      (artifactDigestFromFiles sha entry.artifactType entry.files).toOption
    else none

/-! ### Hashing, one access at a time -/

/-- What `hash_artifact` has yet to do. -/
inductive Task where
  | root
  | list (path : RelPath)
  | read (path : RelPath)
deriving DecidableEq

structure Walk where
  kind : ArtifactType
  tasks : List Task
  files : List FileDigest
deriving DecidableEq

def Walk.start : Walk where
  kind := .file
  tasks := [.root]
  files := []

/-- The path of a file in its digest: a single file goes by its name. -/
def fileText (name : FileName) (path : RelPath) : Str := if path = [] then name.val else pathText path

def readTasks (path : RelPath) : List (FileName × Node FileId) → List Task
  | [] => []
  | (_, .dir ..) :: rest => readTasks path rest
  | (_, .symlink .directory) :: rest => readTasks path rest
  | (name, _) :: rest => .read (path ++ [name]) :: readTasks path rest

def listTasks (path : RelPath) : List (FileName × Node FileId) → List Task
  | [] => []
  | (name, .dir ..) :: rest => .list (path ++ [name]) :: listTasks path rest
  | _ :: rest => listTasks path rest

/-- Why a path that was a file when it was listed cannot be read as one. -/
def readError (path : RelPath) : Option (Node FileId) → HashError
  | some (.symlink .missing) => if path = [] then .artifactNotFound else .unsafePath path "symlinked file"
  | some (.symlink _) => .unsafePath path (if path = [] then "artifact root is a symlink" else "symlinked file")
  | _ => if path = [] then .artifactNotFound else .osError

/-- The next access of `hash_artifact`: to the root, to a listing or to a file. -/
def walkStep (sys : System P) (fs : FileSystem P) (p : P) (w : Walk) : Except HashError Walk :=
  match w.tasks with
  | [] => .ok w
  | .root :: rest =>
    match fs.node p with
    | none => .error .artifactNotFound
    | some (.symlink .missing) => .error .artifactNotFound
    | some (.symlink _) => .error (.unsafePath [] "artifact root is a symlink")
    | some (.dir ..) => .ok { w with kind := .directory, tasks := .list [] :: rest }
    | some (.file _) => .ok { w with kind := .file, tasks := .read [] :: rest }
  | .list path :: rest =>
    match (fs.node p).bind (nodeAt path) with
    | some (.dir true entries) => do
      checkDirnames path entries
      return { w with tasks := readTasks path entries ++ listTasks path entries ++ rest }
    | _ => .ok { w with tasks := rest }
  | .read path :: rest =>
    match (fs.node p).bind (nodeAt path) with
    | some (.file id) =>
      .ok { w with
        tasks := rest
        files := w.files ++ [{ path := fileText (sys.nameOf p) path
                               sha256 := sys.sha.hexdigest (fs.content id)
                               size := (fs.content id).length }] }
    | other => .error (readError path other)

/-- The end of `hash_artifact`. -/
def Walk.finish (sha : Sha256) (w : Walk) : Except HashError ArtifactDigest :=
  match w.kind with
  | .file => artifactDigestFromFiles sha .file w.files
  | .directory => if w.files.isEmpty then .error .emptyArtifact else artifactDigestFromFiles sha .directory w.files

/-! ### Calls -/

/-- What a call stores under, if it stores. -/
structure Plan where
  key : Str
  stats : List Stat
deriving DecidableEq

inductive Phase where
  /-- The first fingerprint is taken, the cache not yet consulted. -/
  | waiting (kind : ArtifactType) (stats : List Stat)
  /-- An artifact without a fingerprint is hashed without a plan to store. -/
  | hashing (plan : Option Plan) (walk : Walk)
  | hashed (plan : Plan) (computed : ArtifactDigest)
  /-- The second fingerprint equals the first, the clock is not yet read. -/
  | rechecked (plan : Plan) (computed : ArtifactDigest)
  | storing (plan : Plan) (computed : ArtifactDigest)
  | returned (digest : ArtifactDigest) (fromCache : Bool)
  | raised
deriving DecidableEq

/-- A call of `hash(path)`. `first` is history: the file system at its first fingerprint. -/
structure Call (P : Type) where
  path : P
  first : FileSystem P
  phase : Phase

structure State (P : Type) where
  fs : FileSystem P
  clock : Int
  entries : Entries
  calls : Nat → Option (Call P)

/-- The phase after the first fingerprint. -/
def firstPhase (sys : System P) (fs : FileSystem P) (p : P) : Phase :=
  match captureFingerprint fs sys.nameOf p with
  | some (kind, stats) => .waiting kind stats
  | none => .hashing none .start

/-- The next phase of a call, which sees the entries `loaded`. Storing is the step of the cache file and
is not among these. -/
def nextPhase (sys : System P) (fs : FileSystem P) (clock : Int) (loaded : Entries) (p : P) : Phase → Phase
  | .waiting kind stats =>
    match lookupDigest sys.sha loaded (fs.resolve p) kind stats with
    | some digest => .returned digest true
    | none => .hashing (some { key := fs.resolve p, stats }) .start
  | .hashing plan walk =>
    if walk.tasks = [] then
      match walk.finish sys.sha, plan with
      | .error _, _ => .raised
      | .ok computed, none => .returned computed false
      | .ok computed, some plan => .hashed plan computed
    else
      match walkStep sys fs p walk with
      | .error _ => .raised
      | .ok walk => .hashing plan walk
  | .hashed plan computed =>
    if (captureFingerprint fs sys.nameOf p).map (·.2) = some plan.stats then .rechecked plan computed
    else .returned computed false
  | .rechecked plan computed =>
    if allOlderThanMargin plan.stats clock then .storing plan computed else .returned computed false
  | .storing plan computed => .storing plan computed
  | .returned digest fromCache => .returned digest fromCache
  | .raised => .raised

/-- `_store`, into the entries it loaded. -/
def storeEntry (loaded : Entries) (plan : Plan) (computed : ArtifactDigest) (clock : Int) : Entries :=
  evict (setEntry plan.key
    { artifactType := computed.artifactType, files := computed.files, stats := plan.stats, recordedAtNs := clock } loaded)

/-- `_load`: a cache file that cannot be read or is not trusted counts as empty. -/
def Loads (entries loaded : Entries) : Prop := loaded = entries ∨ loaded = []

def State.put (s : State P) (c : Nat) (call : Call P) : State P :=
  { s with calls := Function.update s.calls c (some call) }

/-! ### Steps -/

/-- A timestamp of the file system. -/
def tickOf (granularity clock : Int) : Int := clock - clock % granularity

/-- What others do: time passes, a file is written, the tree is rearranged. A writer chooses the mtime
that it forges, but not the ctime. -/
inductive Environment (sys : System P) : State P → State P → Prop
  | tick {s : State P} {clock : Int} : s.clock ≤ clock → Environment sys s { s with clock }
  | write {s : State P} (id : FileId) (content : Bytes) (forged : Option Int) :
      Environment sys s { s with
        fs := { s.fs with
          inode := Function.update s.fs.inode id
            { content
              mtimeNs := forged.getD (tickOf sys.granularity s.clock)
              ctimeNs := tickOf sys.granularity s.clock } } }
  | rearrange {s : State P} {fs : FileSystem P} : fs.inode = s.fs.inode → Environment sys s { s with fs }

/-- What the calls do. A call may raise at any point, and a failed write of the cache file is ignored. -/
inductive Progress (sys : System P) : State P → State P → Prop
  | begin {s : State P} {c : Nat} (p : P) : s.calls c = none →
      Progress sys s (s.put c { path := p, first := s.fs, phase := firstPhase sys s.fs p })
  | advance {s : State P} {c : Nat} {call : Call P} {loaded : Entries} : s.calls c = some call →
      Loads s.entries loaded →
      Progress sys s (s.put c { call with phase := nextPhase sys s.fs s.clock loaded call.path call.phase })
  | store {s : State P} {c : Nat} {call : Call P} {loaded : Entries} {plan : Plan} {computed : ArtifactDigest} :
      s.calls c = some call → call.phase = .storing plan computed → Loads s.entries loaded →
      Progress sys s { s.put c { call with phase := .returned computed false } with
        entries := storeEntry loaded plan computed s.clock }
  | storeFails {s : State P} {c : Nat} {call : Call P} {plan : Plan} {computed : ArtifactDigest} :
      s.calls c = some call → call.phase = .storing plan computed →
      Progress sys s (s.put c { call with phase := .returned computed false })
  | fail {s : State P} {c : Nat} {call : Call P} : s.calls c = some call → (∀ d b, call.phase ≠ .returned d b) →
      Progress sys s (s.put c { call with phase := .raised })

/-- No call has begun and nothing is stored. -/
structure Initial (s : State P) : Prop where
  noEntries : s.entries = []
  noCalls : ∀ c, s.calls c = none

/-- The bytes of the files, for a hasher that can read them all. -/
def FileSystem.disk (fs : FileSystem P) : Disk FileId where
  content := fs.content
  readable _ := true

/-- `hash_artifact(p)`, undisturbed. -/
def FileSystem.hashArtifact (sys : System P) (fs : FileSystem P) (p : P) : Except HashError ArtifactDigest :=
  Hashing.hashArtifact sys.sha fs.disk (sys.nameOf p) (fs.node p)

end ModelGuard.Cache
