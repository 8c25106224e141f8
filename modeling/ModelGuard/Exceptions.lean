import ModelGuard.Lib.Fallible
import ModelGuard.Lib.FileTree

/-!
# Exceptions and the texts they show

The hierarchy below `ModelGuardError`, as far as the modelled functions raise it. A class
of another package is known by its name only.
-/

namespace ModelGuard

open Lib

inductive ErrorClass where
  | modelGuardError
  | artifactNotFoundError
  | unsafePathError
  | emptyArtifactError
  | signatureInvalidError
  | unsupportedSignatureSchemeError
  | malformedSignatureError
  | signingProviderError
  | policyValidationError
  | unknownRuleError
  | keyNotFoundError
  | invalidKeyError
  | invalidIdentifierError
  | duplicateRegistrationError
  | registryBackendError
  | registryConfigurationError
  | trustConfigurationError
  | artifactStoreError
  /-- `storage.errors.ArtifactNotFoundError`, the other class of that name. -/
  | blobNotFoundError
  | artifactIntegrityError
deriving DecidableEq

/-- `type(exc).__name__`. -/
def ErrorClass.name : ErrorClass → String
  | .modelGuardError => "ModelGuardError"
  | .artifactNotFoundError => "ArtifactNotFoundError"
  | .unsafePathError => "UnsafePathError"
  | .emptyArtifactError => "EmptyArtifactError"
  | .signatureInvalidError => "SignatureInvalidError"
  | .unsupportedSignatureSchemeError => "UnsupportedSignatureSchemeError"
  | .malformedSignatureError => "MalformedSignatureError"
  | .signingProviderError => "SigningProviderError"
  | .policyValidationError => "PolicyValidationError"
  | .unknownRuleError => "UnknownRuleError"
  | .keyNotFoundError => "KeyNotFoundError"
  | .invalidKeyError => "InvalidKeyError"
  | .invalidIdentifierError => "InvalidIdentifierError"
  | .duplicateRegistrationError => "DuplicateRegistrationError"
  | .registryBackendError => "RegistryBackendError"
  | .registryConfigurationError => "RegistryConfigurationError"
  | .trustConfigurationError => "TrustConfigurationError"
  | .artifactStoreError => "ArtifactStoreError"
  | .blobNotFoundError => "ArtifactNotFoundError"
  | .artifactIntegrityError => "ArtifactIntegrityError"

/-- A raised exception, with `str(exc)`. -/
inductive Raised where
  | modelGuard (cls : ErrorClass) (message : Str)
  | external (className message : Str)
deriving DecidableEq

def Raised.className : Raised → Str
  | .modelGuard cls _ => str cls.name
  | .external className _ => className

def Raised.message : Raised → Str
  | .modelGuard _ message => message
  | .external _ message => message

/-- An aware `datetime`: the moment, in microseconds, and the UTC offset it is shown with. Two of them
compare by the moment. -/
structure AwareDatetime where
  moment : Int
  offset : Int
deriving DecidableEq

/-- Texts that the standard library and the operating system make for messages. -/
structure Host where
  repr : Str → Str
  isoformat : AwareDatetime → Str
  /-- The class and the text of the error when the file at a path cannot be read. -/
  osError : Str → Str × Str

namespace Host

def reprOption (host : Host) : Option Str → Str
  | none => str "None"
  | some s => host.repr s

/-- `repr` of a list of strings. -/
def reprList (host : Host) (items : List Str) : Str :=
  str "[" ++ (str ", ").intercalate (items.map host.repr) ++ str "]"

end Host

/-- `try: … except ModelGuardError as exc:`, which keeps `str(exc)`; any other exception passes. -/
def exceptModelGuardError {α : Type} : Except Raised α → Except Raised (Except Str α)
  | .ok a => .ok (.ok a)
  | .error (.modelGuard _ message) => .ok (.error message)
  | .error (.external className message) => .error (.external className message)

theorem exceptModelGuardError_ok {α : Type} {x : Except Raised α} {r : Except Str α}
    (h : exceptModelGuardError x = .ok r) :
    (∃ a, x = .ok a ∧ r = .ok a) ∨ ∃ cls message, x = .error (.modelGuard cls message) ∧ r = .error message := by
  unfold exceptModelGuardError at h
  split at h
  · exact Or.inl ⟨_, rfl, (Except.ok.inj h).symm⟩
  · exact Or.inr ⟨_, _, rfl, (Except.ok.inj h).symm⟩
  · cases h

end ModelGuard
