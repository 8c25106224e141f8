import ModelGuard.Hashing.Digest
import ModelGuard.Mbom.Models
import ModelGuard.Signing.Schemes

/-!
# Signature verification and tamper detection
-/

namespace ModelGuard.Signing

open Lib Lib.Fallible ModelGuard.Hashing ModelGuard.Mbom

/-- Re-hashing an artifact compared to a signed digest. -/
structure TamperCheckResult where
  currentDigest : Str
  signedDigest : Str
  isMatch : Bool

/-- What a successful verification established. The fingerprint is that of the key bytes that verified. -/
structure SignatureCheck where
  algorithm : Str
  keyFingerprint : Str
  formatVersion : Str
  keyBound : Bool
deriving DecidableEq

/-- The scheme and the key id that a payload commits to, before any key or signature is read. -/
def schemeOf (host : Host) (envelope : SignatureEnvelope) (allowLegacyV1 : Bool) :
    Except Raised (Str × Option Str) :=
  let payload := envelope.payload
  if payload.schemaVersion = schemaVersionLegacy then do
    ensure (allowLegacyV1 = true)
      (unsupported (str ("This is a legacy (format version 1) signature, which this verifier is " ++
        "configured to refuse because it does not commit to the signing key. " ++
        "Re-sign the artifact with ModelGuard 0.7.0 or later.")))
    ensure (payload.signatureAlgorithm = none ∧ payload.keyId = none)
      (invalid (str "A format version 1 payload must not carry signature_algorithm or key_id."))
    ensure (envelope.signatureType = signatureTypeEd25519Local)
      (unsupported (str "Unsupported legacy signature_type " ++ host.repr envelope.signatureType ++ str "; only " ++
        host.repr signatureTypeEd25519Local ++ str " exists for format version 1."))
    return (algorithmEd25519, none)
  else if payload.schemaVersion = schemaVersionBound then
    match payload.signatureAlgorithm, payload.keyId with
    | some algorithm, some keyId => do
      ensure (envelope.signatureType = algorithm)
        (invalid (str "The envelope labels the signature " ++ host.repr envelope.signatureType ++
          str " but the signed payload says " ++ host.repr algorithm ++
          str ". The unsigned label was altered or the envelope was assembled incorrectly."))
      return (algorithm, some keyId)
    | _, _ => throw (invalid (str "A format version 2 payload must carry both signature_algorithm and key_id."))
  else
    throw (unsupported (str "Unsupported signature format version " ++ host.repr payload.schemaVersion ++
      str "; this verifier understands " ++ host.repr schemaVersionLegacy ++ str " and " ++
      host.repr schemaVersionBound ++ str "."))

/-- `sorted(verifiers)`. -/
def supportedAlgorithms (verifiers : Verifiers) : List Str :=
  (verifiers.map (·.1)).insertionSort fun a b => a ≤ b

/-- `verify_envelope_signature`. -/
def verifyEnvelopeSignature (sha : Sha256) (host : Host) (verifiers : Verifiers) (envelope : SignatureEnvelope)
    (allowLegacyV1 : Bool) : Except Raised SignatureCheck := do
  let (algorithm, claimedKeyId) ← schemeOf host envelope allowLegacyV1
  let verifier ← orRaise
    (unsupported (str "Signature algorithm " ++ host.repr algorithm ++
      str " is not supported by this verifier (supported: " ++
      (str ", ").intercalate (supportedAlgorithms verifiers) ++ str ")."))
    (verifiers.lookup algorithm)
  let publicKey ← decodeHexStrict envelope.publicKey "public_key" maxKeyBytes
  let signature ← decodeHexStrict envelope.signature "signature" maxSignatureBytes
  let fingerprint := keyFingerprint sha publicKey
  ensure (claimedKeyId.all (· = fingerprint) = true)
    (invalid (str "The signed payload commits to key_id " ++ host.reprOption claimedKeyId ++
      str " but the envelope carries a public key with fingerprint " ++ host.repr fingerprint ++
      str ". The key was substituted."))
  verifier.verify publicKey signature envelope.payload.canonicalJson
  return { algorithm
           keyFingerprint := fingerprint
           formatVersion := envelope.payload.schemaVersion
           keyBound := claimedKeyId.isSome }

/-- `f"{algorithm}:{digest}"`. -/
def digestRef (digest : Str) : Str := str "sha256:" ++ digest

/-- `check_artifact_digest`, of what the hasher returned. -/
def checkArtifactDigest (current : ArtifactDigest) (envelope : SignatureEnvelope) : TamperCheckResult where
  currentDigest := digestRef current.digest
  signedDigest := envelope.payload.artifactDigest
  isMatch := digestRef current.digest = envelope.payload.artifactDigest

/-- `check_mbom_digest`. -/
def checkMbomDigest (sha : Sha256) (mbom : MLBOM) (envelope : SignatureEnvelope) : Bool :=
  digestRef (sha.hexdigest mbom.canonicalJson) = envelope.payload.mbomDigest

/-- What a successful check rests on: the reported fingerprint is the digest of the decoded key bytes,
and a verifier registered for the reported algorithm accepted them. -/
theorem verifyEnvelopeSignature_ok {sha : Sha256} {host : Host} {verifiers : Verifiers}
    {envelope : SignatureEnvelope} {allowLegacyV1 : Bool} {check : SignatureCheck}
    (h : verifyEnvelopeSignature sha host verifiers envelope allowLegacyV1 = .ok check) :
    ∃ keyBytes signature verifier,
      decodeHexStrict envelope.publicKey "public_key" maxKeyBytes = .ok keyBytes ∧
        check.keyFingerprint = keyFingerprint sha keyBytes ∧
        decodeHexStrict envelope.signature "signature" maxSignatureBytes = .ok signature ∧
        verifiers.lookup check.algorithm = some verifier ∧
        verifier.verify keyBytes signature envelope.payload.canonicalJson = .ok () := by
  unfold verifyEnvelopeSignature at h
  obtain ⟨⟨algorithm, claimed⟩, -, h⟩ := bind_ok.mp h
  obtain ⟨verifier, found, h⟩ := bind_ok.mp h
  obtain ⟨keyBytes, key, h⟩ := bind_ok.mp h
  obtain ⟨signature, signed, h⟩ := bind_ok.mp h
  obtain ⟨_, -, h⟩ := bind_ok.mp h
  obtain ⟨_, accepted, h⟩ := bind_ok.mp h
  have same := pure_ok.mp h
  subst same
  exact ⟨keyBytes, signature, verifier, key, rfl, signed, orRaise_ok.mp found, accepted⟩

end ModelGuard.Signing
