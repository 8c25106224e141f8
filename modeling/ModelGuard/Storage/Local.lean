import ModelGuard.Storage.Io

/-!
# The directory-backed blob store

Files under `<root>/blobs/sha256/<first two hex>/`. Each call is given the operations of it that fail.
-/

namespace ModelGuard.Storage

open Lib Lib.Fallible

/-- A directory below `blobs/sha256`, and a name in it. -/
abbrev BlobPath := Str × Str

/-- What the root of a `LocalBlobStore` holds. -/
structure LocalBlobStore where
  entries : BlobPath → Option Entry

/-- The operations of one `put` that fail. -/
structure PutFaults where
  mkdir : Option OsError
  create : Option OsError
  /-- Copying stops with this much in the temporary file. -/
  copy : Option (OsError × Bytes)
  replace : Option OsError
  unlink : Option OsError
deriving DecidableEq

def PutFaults.none : PutFaults where
  mkdir := Option.none
  create := Option.none
  copy := Option.none
  replace := Option.none
  unlink := Option.none

namespace LocalBlobStore

def empty : LocalBlobStore where
  entries _ := none

/-- `_blob_path`, of a name that `validate_sha256` accepts. -/
def blobPath (sha256 : Str) : BlobPath := (sha256.take 2, sha256)

/-- `.{sha256}.{pid}.part`, beside the blob. -/
def partPath (pid sha256 : Str) : BlobPath :=
  (sha256.take 2, str "." ++ sha256 ++ str "." ++ pid ++ str ".part")

def set (store : LocalBlobStore) (path : BlobPath) (entry : Option Entry) : LocalBlobStore :=
  { store with entries := Function.update store.entries path entry }

/-- The map from names to bytes that the store stands for. -/
def blob (store : LocalBlobStore) (sha256 : Str) : Option Bytes :=
  match store.entries (blobPath sha256) with
  | some (.regular content _) => some content
  | _ => none

/-- `exists`. -/
def «exists» (store : LocalBlobStore) (sha256 : Str) : Except Raised Bool := do
  let sha256 ← validateSha256 sha256
  match store.entries (blobPath sha256) with
  | some (.regular _ _) => return true
  | _ => return false

def fileExists : OsError := ⟨str "FileExistsError", str "[Errno 17] File exists"⟩

def isADirectory : OsError := ⟨str "IsADirectoryError", str "[Errno 21] Is a directory"⟩

def refusedSource : Raised :=
  integrityError "The source file does not hash to the claimed SHA-256 (it may have changed after hashing); nothing was stored."

variable (sha : Sha256) (pid : Str)

/-- The body of the `try` of `put`. -/
def publish (faults : PutFaults) (store : LocalBlobStore) (sha256 : Str) (source : Option Entry) :
    Except Raised Unit × LocalBlobStore :=
  match openRegularNofollow source with
  | .error e => (.error e, store)
  | .ok content =>
    if (store.entries (partPath pid sha256)).isSome then (.error fileExists.raised, store)
    else
      match faults.create, faults.copy with
      | some e, _ => (.error e.raised, store)
      | none, some (e, written) => (.error e.raised, store.set (partPath pid sha256) (some (.regular written none)))
      | none, none =>
        let copied := store.set (partPath pid sha256) (some (.regular content none))
        if sha.hexdigest content ≠ sha256 then (.error refusedSource, copied)
        else
          match faults.replace with
          | some e => (.error e.raised, copied)
          | none =>
            if store.entries (blobPath sha256) = some .directory then (.error isADirectory.raised, copied)
            else
              (.ok (), (copied.set (partPath pid sha256) none).set (blobPath sha256) (some (.regular content none)))

/-- `put`, by a process with the given id. -/
def put (faults : PutFaults) (store : LocalBlobStore) (sha256 : Str) (source : Option Entry) :
    Except Raised Unit × LocalBlobStore :=
  match validateSha256 sha256, faults.mkdir with
  | .error e, _ => (.error e, store)
  | .ok _, some e => (.error e.raised, store)
  | .ok _, none =>
    match publish sha pid faults store sha256 source with
    | (.ok (), next) => (.ok (), next)
    | (.error e, next) =>
      match faults.unlink with
      | some fault => (.error fault.raised, next)
      | none => (.error e, next.set (partPath pid sha256) none)

/-! ### Two kinds of paths -/

theorem blobPath_injective : Function.Injective blobPath := fun _ _ same => congrArg Prod.snd same

/-- A temporary file is at no blob's place: its name starts with a dot. -/
theorem partPath_ne_blobPath (pid sha256 : Str) {name : Str} (valid : IsSha256 name) :
    partPath pid sha256 ≠ blobPath name := by
  intro same
  have names : str "." ++ sha256 ++ str "." ++ pid ++ str ".part" = name := congrArg Prod.snd same
  have first : cp '.' ∈ name := by
    rw [← names]
    simp [str]
  exact absurd (valid.2 _ first) (by decide)

theorem set_other {store : LocalBlobStore} {path other : BlobPath} (ne : other ≠ path) (entry : Option Entry) :
    (store.set path entry).entries other = store.entries other := by
  unfold set
  exact Function.update_of_ne ne entry store.entries

theorem set_same (store : LocalBlobStore) (path : BlobPath) (entry : Option Entry) :
    (store.set path entry).entries path = entry := by
  unfold set
  exact Function.update_self path entry store.entries

/-- Removing a file that was not there before it was written. -/
theorem set_undo {store : LocalBlobStore} {path : BlobPath} (absent : store.entries path = none) (entry : Option Entry) :
    (store.set path entry).set path none = store := by
  have entries : Function.update (Function.update store.entries path entry) path none = store.entries := by
    rw [Function.update_idem, ← absent, Function.update_eq_self]
  unfold set
  rw [entries]

end LocalBlobStore

end ModelGuard.Storage
