import ModelGuard.Storage.Io

/-!
# The S3-compatible blob store

A bucket maps keys to objects. The client library is known by what its requests do and raise.
-/

namespace ModelGuard.Storage

open Lib Lib.Fallible

/-- An error of the client library. -/
inductive BotoError where
  | clientError (code : Str)
  | botoCoreError (className : Str)
deriving DecidableEq

def notFoundCodes : List Str := [str "404", str "NoSuchKey", str "NotFound"]

/-- `_translate`. -/
def translate (action : String) : BotoError → Raised
  | .clientError code =>
    if code ∈ notFoundCodes then .modelGuard .blobNotFoundError (str "Blob not found in the object store.")
    else if code ∈ [str "AccessDenied", str "403", str "Forbidden"] then
      .modelGuard .artifactStoreError (str "S3 " ++ str action ++ str " failed: permission denied (" ++ code ++ str ").")
    else if code = str "NoSuchBucket" then
      .modelGuard .artifactStoreError (str "S3 " ++ str action ++ str " failed: bucket not found (" ++ code ++ str ").")
    else .modelGuard .artifactStoreError (str "S3 " ++ str action ++ str " failed: storage error (" ++ code ++ str ").")
  | .botoCoreError className =>
    .modelGuard .artifactStoreError
      (str "S3 " ++ str action ++ str " failed: could not connect or transfer (" ++ className ++ str ").")

/-- A translated error is never about the content. -/
theorem translate_ne_integrity (action : String) (e : BotoError) (message : Str) :
    translate action e ≠ .modelGuard .artifactIntegrityError message := by
  intro same
  unfold translate at same
  split at same
  · split at same
    · cases same
    · split at same
      · cases same
      · split at same <;> cases same
  · cases same

/-- What became of a request that writes. One that raises may have been carried out all the same. -/
structure Reply where
  raised : Option BotoError
  applied : Bool
  carriedOut : raised = none → applied = true

def Reply.ok : Reply where
  raised := none
  applied := true
  carriedOut _ := rfl

/-- A bucket, seen through the prefix of a store. -/
structure S3BlobStore where
  keyPrefix : Str
  objects : Str → Option Bytes

namespace S3BlobStore

/-- `_key`, of a name that `validate_sha256` accepts. -/
def key (store : S3BlobStore) (sha256 : Str) : Str :=
  store.keyPrefix ++ str "blobs/sha256/" ++ sha256.take 2 ++ str "/" ++ sha256

/-- The map from names to bytes that the store stands for. -/
def blob (store : S3BlobStore) (sha256 : Str) : Option Bytes := store.objects (store.key sha256)

def set (store : S3BlobStore) (key : Str) (object : Option Bytes) : S3BlobStore :=
  { store with objects := Function.update store.objects key object }

/-- A request that sets what is at a key. -/
def request (store : S3BlobStore) (reply : Reply) (key : Str) (object : Option Bytes) : S3BlobStore :=
  if reply.applied then store.set key object else store

def discardedUpload : Raised :=
  integrityError
    "The source file does not hash to the claimed SHA-256 (it may have changed after hashing); the upload was discarded."

variable (sha : Sha256)

/-- `put`, with the replies to `upload_fileobj` and to `delete_object`. -/
def put (upload delete : Reply) (store : S3BlobStore) (sha256 : Str) (source : Option Entry) :
    Except Raised Unit × S3BlobStore :=
  match validateSha256 sha256, openRegularNofollow source with
  | .error e, _ => (.error e, store)
  | .ok _, .error e => (.error e, store)
  | .ok _, .ok content =>
    let uploaded := store.request upload (store.key sha256) (some content)
    match upload.raised with
    | some e => (.error (translate "upload" e), uploaded)
    | none =>
      if sha.hexdigest content ≠ sha256 then
        (.error discardedUpload, uploaded.request delete (store.key sha256) none)
      else (.ok (), uploaded)

/-! ### Keys -/

/-- Names have keys of their own. -/
theorem key_injective (store : S3BlobStore) {name other : Str} (size : name.length = 64) (size' : other.length = 64)
    (same : store.key name = store.key other) : name = other := by
  unfold key at same
  simp only [List.append_assoc, List.append_cancel_left_eq] at same
  have shards : (name.take 2).length = (other.take 2).length := by
    rw [List.length_take, List.length_take, size, size']
  exact List.append_cancel_left (List.append_inj same shards).2

@[simp] theorem key_set (store : S3BlobStore) (path : Str) (object : Option Bytes) :
    (store.set path object).key = store.key := rfl

@[simp] theorem key_request (store : S3BlobStore) (reply : Reply) (path : Str) (object : Option Bytes) :
    (store.request reply path object).key = store.key := by
  unfold request
  split <;> rfl

theorem request_other {store : S3BlobStore} {path other : Str} (ne : other ≠ path) (reply : Reply)
    (object : Option Bytes) : (store.request reply path object).objects other = store.objects other := by
  unfold request
  split
  · unfold set
    exact Function.update_of_ne ne object store.objects
  · rfl

theorem request_same (store : S3BlobStore) (reply : Reply) (path : Str) (object : Option Bytes) :
    (store.request reply path object).objects path = if reply.applied then object else store.objects path := by
  unfold request
  split
  · unfold set
    exact Function.update_self path object store.objects
  · rfl

theorem blob_set_same (store : S3BlobStore) (sha256 : Str) (object : Option Bytes) :
    (store.set (store.key sha256) object).blob sha256 = object := by
  unfold blob set
  exact Function.update_self (store.key sha256) object store.objects

end S3BlobStore

end ModelGuard.Storage
