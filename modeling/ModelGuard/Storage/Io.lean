import ModelGuard.Exceptions
import ModelGuard.Hashing.Sha256

/-!
# What blob stores read and refuse

The names of blobs, and the opening of files without following links.
-/

namespace ModelGuard.Storage

open Lib Lib.Fallible

/-- 64 lower-case hexadecimal digits. -/
def IsSha256 (s : Str) : Prop := s.length = 64 ∧ IsHex s

instance (s : Str) : Decidable (IsSha256 s) := inferInstanceAs (Decidable (_ ∧ _))

/-- An exception of the operating system: its class and its text. -/
structure OsError where
  className : Str
  message : Str
deriving DecidableEq

def OsError.raised (e : OsError) : Raised := .external e.className e.message

def storeError (message : String) : Raised := .modelGuard .artifactStoreError (str message)

def integrityError (message : String) : Raised := .modelGuard .artifactIntegrityError (str message)

/-- `isinstance(exc, ArtifactStoreError)`. -/
def isStoreError : Raised → Bool
  | .modelGuard cls _ => cls ∈ [ErrorClass.artifactStoreError, .blobNotFoundError, .artifactIntegrityError]
  | .external _ _ => false

def malformedIdentifier : Raised := storeError "A blob identifier must be exactly 64 lowercase hex characters."

/-- `validate_sha256`. -/
def validateSha256 (value : Str) : Except Raised Str := if IsSha256 value then .ok value else .error malformedIdentifier

theorem validateSha256_ok {value name : Str} : validateSha256 value = .ok name ↔ IsSha256 value ∧ name = value := by
  unfold validateSha256
  split
  · rename_i valid
    exact ⟨fun h => ⟨valid, (Except.ok.inj h).symm⟩, fun h => congrArg Except.ok h.2.symm⟩
  · rename_i invalid
    exact ⟨nofun, fun h => (invalid h.1).elim⟩

/-- What a path leads to, links not followed. -/
inductive Entry where
  /-- A regular file; `denied` is the error when this process cannot open it. -/
  | regular (content : Bytes) (denied : Option OsError)
  | symlink
  | directory
deriving DecidableEq

def cannotOpen (className : Str) : Raised :=
  .modelGuard .artifactStoreError (str "Cannot open source file safely (" ++ className ++ str ").")

/-- `open_regular_nofollow`, with all that can be read through it. A link fails with `ELOOP`. -/
def openRegularNofollow : Option Entry → Except Raised Bytes
  | none => .error (cannotOpen (str "FileNotFoundError"))
  | some .symlink => .error (cannotOpen (str "OSError"))
  | some .directory => .error (storeError "Source is not a regular file.")
  | some (.regular _ (some e)) => .error (cannotOpen e.className)
  | some (.regular content none) => .ok content

theorem openRegularNofollow_ok {entry : Option Entry} {content : Bytes} :
    openRegularNofollow entry = .ok content ↔ entry = some (.regular content none) := by
  constructor
  · intro opened
    unfold openRegularNofollow at opened
    split at opened
    all_goals cases opened
    rfl
  · intro same
    rw [same]
    rfl

end ModelGuard.Storage
