import ModelGuard.Storage.Machine
import ModelGuard.Storage.S3

/-!
# Fetching a blob

`write_verified`, and `get_to` of the two stores. What arrives is written under a name of its own beside the
destination, and renamed once its digest is the expected one.
-/

namespace ModelGuard.Storage

open Lib Lib.Prog Lib.Node ModelGuard.Hashing

/-- Chunks as they arrive, and the exception that ends them early. -/
structure Stream where
  chunks : List Bytes
  broken : Option Raised

/-- How reading a file goes: in chunks of it, all of it unless an exception ends that. -/
structure FileReader where
  stream : Bytes → Stream
  whole : ∀ content, (stream content).broken = none → (stream content).chunks.flatten = content

theorem singleChunk_whole (content : Bytes) (_ : (⟨[content], none⟩ : Stream).broken = none) :
    (⟨[content], none⟩ : Stream).chunks.flatten = content := by
  simp

def overLimit (maxBytes : Int) : Raised :=
  .modelGuard .artifactIntegrityError (str "Blob exceeds the size limit of " ++ Json.intText maxBytes ++
    str " bytes; download aborted.")

def mismatch : Raised :=
  integrityError ("Downloaded bytes do not match the expected SHA-256; the stored blob was " ++
    "modified or corrupted. Nothing was written.")

/-- `.{name}.{hex}.part`. -/
def partName (name hex : Str) : Str := str "." ++ name ++ str "." ++ hex ++ str ".part"

/-- `dest.with_name(name)`. -/
def Place.withName (p : Place) (name : Str) : Place := { p with names := p.names.dropLast ++ [name] }

namespace Machine

variable (m : Machine)

/-- The loop over the chunks, with what is written so far. -/
def writeChunks (tmp : Spot) (maxBytes : Int) (written : Bytes) : List Bytes → Prog Raised World Bytes
  | [] => pure written
  | chunk :: rest =>
    if maxBytes < (written ++ chunk).length then raise (overLimit maxBytes)
    else do
      m.call (.write tmp)
      update fun w => w.put tmp (some (.file (written ++ chunk)))
      writeChunks tmp maxBytes (written ++ chunk) rest

/-- The body of the `try` of `write_verified`. -/
def writeBody (stream : Stream) (tmp dest : Place) (expected : Str) (maxBytes : Int) : Prog Raised World Unit := do
  let spot ← ofExcept (m.locate tmp)
  m.call (.create spot)
  place spot (.file [])
  let content ← m.writeChunks spot maxBytes [] stream.chunks
  ofExcept (match stream.broken with | some e => .error e | none => .ok ())
  if m.sha.hexdigest content = expected then m.rename tmp dest else raise mismatch

/-- `write_verified`. -/
def writeVerified (stream : Stream) (dest : Place) (expected : Str) (maxBytes : Int) : Prog Raised World Unit := do
  if ← m.occupied dest then raise (storeError "Destination already exists; refusing to overwrite it.")
  else do
    let hex ← m.uuidHex
    let tmp := dest.withName (partName (dest.names.getLast?.getD []) hex)
    onError (m.writeBody stream tmp dest expected maxBytes) fun e => do
      m.unlink tmp
      raise e

end Machine

/-! ### The local store -/

def blobMissing : Raised := .modelGuard .blobNotFoundError (str "Blob not found in the local store.")

/-- `LocalBlobStore.get_to`. -/
def LocalBlobStore.getTo (blobs : LocalBlobStore) (reader : FileReader) (m : Machine) (sha256 : Str) (dest : Place)
    (maxBytes : Int) : Prog Raised World Unit := do
  let name ← ofExcept (validateSha256 sha256)
  let entry := blobs.entries (blobPath name)
  onError (do
      let content ← ofExcept (openRegularNofollow entry)
      m.writeVerified (reader.stream content) dest name maxBytes) fun e =>
    raise (if isStoreError e ∧ entry = none then blobMissing else e)

def LocalBlobStore.blobStore (blobs : LocalBlobStore) (reader : FileReader) (m : Machine) : BlobStore World Place where
  getTo := blobs.getTo reader m

/-! ### The S3 store -/

/-- What one `get_to` is answered. -/
structure S3Answer where
  /-- The `ContentLength` that `head_object` declares. -/
  head : Except BotoError Int
  /-- The body of `get_object`: its chunks, and the error that ends them early. -/
  body : Except BotoError (List Bytes × Option (BotoError ⊕ Raised))
  /-- What `_confirm_bucket` raises. -/
  bucket : Option Raised

/-- The exception that `get_to` raises for an error of the client library. -/
def S3Answer.passedOn (answer : S3Answer) (e : BotoError) : Raised :=
  match translate "download" e, answer.bucket with
  | .modelGuard .blobNotFoundError _, some raised => raised
  | translated, _ => translated

def declaredTooLong (declared maxBytes : Int) : Raised :=
  .modelGuard .artifactIntegrityError (str "Blob is " ++ Json.intText declared ++ str " bytes, over the limit of " ++
    Json.intText maxBytes ++ str "; download refused.")

/-- `S3BlobStore.get_to`. An error of the client library is translated on its way out, past the handler of
`write_verified`. -/
def s3GetTo (answers : Str → World → S3Answer) (m : Machine) (sha256 : Str) (dest : Place) (maxBytes : Int) :
    Prog Raised World Unit := do
  let name ← ofExcept (validateSha256 sha256)
  let answer ← observe (answers name)
  match answer.head, answer.body with
  | .error e, _ => raise (answer.passedOn e)
  | .ok declared, body =>
    if maxBytes < declared then raise (declaredTooLong declared maxBytes)
    else
      match body with
      | .error e => raise (answer.passedOn e)
      | .ok (chunks, broken) =>
        m.writeVerified { chunks, broken := broken.map (Sum.elim answer.passedOn id) } dest name maxBytes

def s3BlobStore (answers : Str → World → S3Answer) (m : Machine) : BlobStore World Place where
  getTo := s3GetTo answers m

end ModelGuard.Storage
