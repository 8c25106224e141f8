import ModelGuard.Hashing.Sha256

/-!
# The signed payload and its envelope
-/

namespace ModelGuard.Signing

open Lib

def schemaVersionLegacy : Str := str "1"

def schemaVersionBound : Str := str "2"

def signatureTypeEd25519Local : Str := str "ed25519-local"

/-- A member that is left out when it is `None`. -/
def optionalMember (key : String) (value : Option Str) : List (Str × Json SpecialFloat) :=
  (value.map fun s => (str key, Json.str s)).toList

/-- The exact fields that are signed. -/
structure SignaturePayload where
  schemaVersion : Str
  artifactDigest : Str
  mbomDigest : Str
  modelId : Option Str
  version : Option Str
  signerIdentity : Str
  signedAt : Str
  /-- Format version 2 only, as is `keyId`. -/
  signatureAlgorithm : Option Str
  keyId : Option Str
deriving DecidableEq

/-- `model_dump(exclude_none=True)`, with sorted keys. -/
def SignaturePayload.toJson (p : SignaturePayload) : Json SpecialFloat :=
  .obj ((str "artifact_digest", .str p.artifactDigest) :: optionalMember "key_id" p.keyId ++
    (str "mbom_digest", .str p.mbomDigest) :: optionalMember "model_id" p.modelId ++
    (str "schema_version", .str p.schemaVersion) :: optionalMember "signature_algorithm" p.signatureAlgorithm ++
    (str "signed_at", .str p.signedAt) :: (str "signer_identity", .str p.signerIdentity) ::
      optionalMember "version" p.version)

/-- `SignaturePayload.canonical_json`. -/
def SignaturePayload.canonicalJson (p : SignaturePayload) : Bytes := asciiBytes p.toJson.dumps

/-- A payload with its detached signature. The type and the key are not signed. -/
structure SignatureEnvelope where
  signatureType : Str
  payload : SignaturePayload
  /-- Lower-case hexadecimal, as is `publicKey`. -/
  signature : Str
  publicKey : Str
deriving DecidableEq

end ModelGuard.Signing
