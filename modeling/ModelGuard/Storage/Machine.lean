import ModelGuard.Hashing.Raised
import ModelGuard.Lib.TreeEdit
import ModelGuard.Storage.Local
import ModelGuard.Storage.Transfer

/-!
# A machine that downloads run on

Its file system is a tree, with a private temporary directory beside it. Any call that asks the operating
system for something may fail; taking away what the process itself made does not. Paths are those that remain
when links are followed.
-/

namespace ModelGuard.Storage

open Lib Lib.Prog Lib.Node ModelGuard.Hashing
open LocalBlobStore (fileExists isADirectory)

/-- A path, by the texts of its components. -/
structure Place where
  temporary : Bool
  names : List Str

/-- A path, by the names that the file system knows. -/
structure Spot where
  temporary : Bool
  path : RelPath

structure World where
  tree : Node.Tree Bytes
  /-- What is in the temporary directory, when there is one. -/
  temporary : Node.Tree Bytes
  /-- How many calls were made. -/
  ticks : Nat

inductive SystemCall where
  | stat (spot : Spot)
  | resolve (spot : Spot)
  | mkdir (spot : Spot)
  | mkdtemp
  | create (spot : Spot)
  | write (spot : Spot)
  | read (spot : Spot)
  | rename (source target : Spot)

namespace World

variable (w : World)

def side : Bool → Node.Tree Bytes
  | true => w.temporary
  | false => w.tree

def setSide (t : Node.Tree Bytes) : Bool → World
  | true => { w with temporary := t }
  | false => { w with tree := t }

def find (spot : Spot) : Node.Tree Bytes := Node.find spot.path (w.side spot.temporary)

def put (spot : Spot) (n : Node.Tree Bytes) : World :=
  w.setSide (graft spot.path n (w.side spot.temporary)) spot.temporary

def tick : World := { w with ticks := w.ticks + 1 }

def isDir (spot : Spot) : Bool :=
  match w.find spot with
  | some (.dir ..) => true
  | _ => false

end World

def Spot.parent (spot : Spot) : Spot := { spot with path := spot.path.dropLast }

def fileNotFound : OsError := ⟨str "FileNotFoundError", str "[Errno 2] No such file or directory"⟩

def notADirectory : OsError := ⟨str "NotADirectoryError", str "[Errno 20] Not a directory"⟩

def notEmpty : OsError := ⟨str "OSError", str "[Errno 39] Directory not empty"⟩

/-- A path with a character that file names cannot hold. -/
def notEncodable : Raised := .external (str "UnicodeEncodeError") (str "surrogates not allowed")

/-- The error of renaming something to what is there, if it cannot be replaced. -/
def renameClash : Node Bytes → Node.Tree Bytes → Option OsError
  | _, none => none
  | .dir .., some (.dir _ []) => none
  | .dir .., some (.dir ..) => some notEmpty
  | .dir .., some _ => some notADirectory
  | _, some (.dir ..) => some isADirectory
  | _, some _ => none

structure Machine where
  sha : Sha256
  host : Host
  fails : SystemCall → World → Option OsError
  /-- The file name that a text stands for. -/
  onDisk : Str → Option FileName
  /-- `uuid.uuid4().hex`, at a time. -/
  hex : Nat → Str
  /-- `st_size` of what is no regular file. -/
  otherSize : Nat
  /-- What the process can list of what is at a path, and the bytes of each file with whether it can read them. -/
  sees : World → Spot → Node.Tree (Bytes × Bool)

namespace Machine

variable (m : Machine)

def call (c : SystemCall) : Prog Raised World Unit := fun w =>
  match m.fails c w with
  | some e => (.error e.raised, w.tick)
  | none => (.ok (), w.tick)

def locate (p : Place) : Except Raised Spot :=
  match p.names.mapM m.onDisk with
  | some path => .ok { temporary := p.temporary, path }
  | none => .error notEncodable

def parent (p : Place) : Place := { p with names := p.names.dropLast }

/-- `path / text`, of a relative text of names that are neither empty nor a dot. -/
def join (p : Place) (text : Str) : Place := { p with names := p.names ++ text.splitOn (cp '/') }

def occupied (p : Place) : Prog Raised World Bool := do
  let spot ← ofExcept (m.locate p)
  m.call (.stat spot)
  observe fun w => (w.find spot).isSome

/-- Something new, in a directory that is there. -/
def place (spot : Spot) (n : Node Bytes) : Prog Raised World Unit := fun w =>
  if (w.find spot).isSome then (.error fileExists.raised, w)
  else if w.isDir spot.parent then (.ok (), w.put spot (some n))
  else (.error fileNotFound.raised, w)

def mkdirAt (spot : Spot) : Prog Raised World Unit := do
  m.call (.mkdir spot)
  place spot (.dir true [])

def mkdir (p : Place) : Prog Raised World Unit := do
  let spot ← ofExcept (m.locate p)
  m.mkdirAt spot

/-- `mkdir(exist_ok=True)`; `error` is for what is there and no directory. -/
def ensureDir (spot : Spot) (error : OsError) : Prog Raised World Unit := fun w =>
  match w.find spot with
  | some (.dir ..) => (.ok (), w)
  | some _ => (.error error.raised, w)
  | none => m.mkdirAt spot w

/-- The directories from `done` down. -/
def mkdirsFrom (temporary : Bool) (done : RelPath) : RelPath → Prog Raised World Unit
  | [] => m.ensureDir { temporary, path := done } fileExists
  | name :: rest => do
    m.ensureDir { temporary, path := done } notADirectory
    mkdirsFrom temporary (done ++ [name]) rest

def mkdirs (p : Place) : Prog Raised World Unit := do
  let spot ← ofExcept (m.locate p)
  m.mkdirsFrom spot.temporary [] spot.path

def uuidHex : Prog Raised World Str := fun w => (.ok (m.hex w.ticks), w.tick)

def resolve (p : Place) : Prog Raised World Place := do
  let spot ← ofExcept (m.locate p)
  m.call (.resolve spot)
  pure p

def isRelativeTo (p root : Place) : Bool := p.temporary == root.temporary && root.names.isPrefixOf p.names

def size (p : Place) : Prog Raised World Nat := do
  let spot ← ofExcept (m.locate p)
  m.call (.stat spot)
  let found ← observe fun w => w.find spot
  match found with
  | none => raise fileNotFound.raised
  | some (.file content) => pure content.length
  | some _ => pure m.otherSize

def readBytes (p : Place) : Prog Raised World Bytes := do
  let spot ← ofExcept (m.locate p)
  m.call (.read spot)
  let found ← observe fun w => w.find spot
  match found with
  | none => raise fileNotFound.raised
  | some (.file content) => pure content
  | some _ => raise isADirectory.raised

/-- `os.rename` and `os.replace`. -/
def move (source target : Spot) : Prog Raised World Unit := fun w =>
  match w.find source with
  | none => (.error fileNotFound.raised, w)
  | some n =>
    match renameClash n (w.find target) with
    | some e => (.error e.raised, w)
    | none =>
      if w.isDir target.parent then (.ok (), (w.put source none).put target (some n))
      else (.error fileNotFound.raised, w)

def rename (p q : Place) : Prog Raised World Unit := do
  let source ← ofExcept (m.locate p)
  let target ← ofExcept (m.locate q)
  m.call (.rename source target)
  move source target

def rmtree (p : Place) (w : World) : World :=
  match m.locate p with
  | .ok spot => w.put spot none
  | .error _ => w

/-- `path.unlink(missing_ok=True)`. -/
def unlink (p : Place) : Prog Raised World Unit := do
  let spot ← ofExcept (m.locate p)
  let found ← observe fun w => w.find spot
  match found with
  | none => pure ()
  | some (.dir ..) => raise isADirectory.raised
  | some _ => update fun w => w.put spot none

def mkdtemp : Prog Raised World Place := do
  m.call .mkdtemp
  update fun w => { w with temporary := some (.dir true []) }
  pure { temporary := true, names := [] }

def cleanup (_ : Place) : Prog Raised World Unit := update fun w => { w with temporary := none }

/-- The bytes of a file, and whether they can be read. -/
def view : Hashing.Disk (Bytes × Bool) where
  content := Prod.fst
  readable := Prod.snd

def hashArtifact (p : Place) (w : World) : Except Raised ArtifactDigest := do
  let spot ← m.locate p
  match spot.path.getLast? with
  | some name =>
    match Hashing.hashArtifact m.sha view name (m.sees w spot) with
    | .ok d => .ok d
    | .error e => .error (raisedBy m.host (pathText spot.path) e)
  | none => .error (raisedBy m.host (str "/") .artifactNotFound)

/-- The calls of a download on this machine. -/
def fileSystem : FileSystem World Place where
  parent := parent
  join := join
  occupied := m.occupied
  mkdirs := m.mkdirs
  mkdir := m.mkdir
  uuidHex := m.uuidHex
  resolve := m.resolve
  isRelativeTo := isRelativeTo
  size := m.size
  rename := m.rename
  rmtree := m.rmtree
  mkdtemp := m.mkdtemp
  cleanup := cleanup
  readBytes := m.readBytes
  hashArtifact := m.hashArtifact

end Machine

end ModelGuard.Storage
