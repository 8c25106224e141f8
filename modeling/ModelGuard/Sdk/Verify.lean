import ModelGuard.Hashing.Raised
import ModelGuard.Registry.Models
import ModelGuard.Signing.TrustConfig
import ModelGuard.Signing.Verifier

/-!
# `ModelGuard.verify`

Expected failures become flags with a reason; what is not a `ModelGuardError`, and whatever the registry
raises, passes through.
-/

namespace ModelGuard.Sdk

open Lib Lib.Fallible ModelGuard.Hashing ModelGuard.Mbom ModelGuard.Registry ModelGuard.Signing

variable {α : Type}

/-- What a path leads to, with its text and its last component. -/
structure Artifact (α : Type) where
  path : Str
  name : FileName
  node : Option (Node α)

structure CachedHashResult where
  digest : ArtifactDigest
  fromCache : Bool
deriving DecidableEq

/-- A cached hasher answers from what it has stored, so its answer is a parameter of the call. -/
inductive Hasher (α : Type) where
  | direct
  | cached (hash : Artifact α → Except Raised CachedHashResult)

/-- `Registry.is_revoked`. -/
abbrev RevocationCheck := Str → Str → Except Raised (Option RevocationRecord)

/-- The configuration of a `ModelGuard`, its trust configurations merged. -/
structure Guard (α : Type) where
  allowLegacySignatures : Bool
  trust : Option TrustConfig
  hasher : Hasher α
  registry : Option RevocationCheck

/-- What the process computes and reads with. -/
structure Env (α : Type) where
  sha : Sha256
  crypto : Cryptography
  host : Host
  disk : Disk α

structure VerificationResult where
  allowed : Bool
  artifactDigest : Str
  signatureValid : Bool
  mbomValid : Bool
  revoked : Bool
  reasons : List Str
  digestMatches : Bool
  signerTrusted : Option Bool
  revocationChecked : Bool
  digestFromCache : Bool
  signatureAlgorithm : Option Str
  signerKeyFingerprint : Option Str
deriving DecidableEq

/-- The local function `_hash`. -/
def hash (env : Env α) (guard : Guard α) (artifact : Artifact α) : Except Raised CachedHashResult :=
  match guard.hasher with
  | .direct =>
    match hashArtifact env.sha env.disk artifact.name artifact.node with
    | .ok digest => .ok { digest, fromCache := false }
    | .error e => .error (raisedBy env.host artifact.path e)
  | .cached hash => hash artifact

def signatureReasons : Except Str SignatureCheck → List Str
  | .ok _ => []
  | .error message => [message]

def mbomReason : Str := str ("The supplied ML-BOM does not match the mbom_digest bound in " ++ "the signature.")

structure DigestFacts where
  isMatch : Bool
  currentDigest : Str
  fromCache : Bool
  reasons : List Str
deriving DecidableEq

/-- The comparison with the signed digest; when hashing failed, the claimed digest is reported. -/
def digestFacts (envelope : SignatureEnvelope) : Except Str CachedHashResult → DigestFacts
  | .ok outcome =>
    let tamper := checkArtifactDigest outcome.digest envelope
    { isMatch := tamper.isMatch
      currentDigest := tamper.currentDigest
      fromCache := outcome.fromCache
      reasons := reasonIf (!tamper.isMatch) (str "Artifact digest mismatch: expected " ++ tamper.signedDigest ++
        str ", got " ++ tamper.currentDigest ++ str ". The artifact may have been modified after signing.") }
  | .error message =>
    { isMatch := false
      currentDigest := envelope.payload.artifactDigest
      fromCache := false
      reasons := [message] }

/-- What is asked of the trust configuration: the key and the algorithm that verified. -/
def trustQuery (envelope : SignatureEnvelope) (check : SignatureCheck) (clock : AwareDatetime) : TrustQuery where
  keyFingerprint := check.keyFingerprint
  algorithm := check.algorithm
  claimedSignerIdentity := some envelope.payload.signerIdentity
  modelId := envelope.payload.modelId
  clock := clock

/-- `signer_trusted` and the reasons it adds: none when the signature did not verify, which gave its own. -/
def trustFacts (host : Host) (trust : Option TrustConfig) (envelope : SignatureEnvelope) (clock : AwareDatetime) :
    Except Str SignatureCheck → Option Bool × List Str
  | .error _ => (trust.map fun _ => false, [])
  | .ok check =>
    match trust with
    | none => (none, [])
    | some config =>
      let evaluation := evaluateTrust host config (trustQuery envelope check clock)
      (some evaluation.trusted, if evaluation.trusted then [] else evaluation.reasons)

def truthy (s : Option Str) : Option Str := s.filter fun s => !s.isEmpty

/-- Whether a registry was consulted, and the revocation it reported. -/
def revocationFacts (guard : Guard α) (payload : SignaturePayload) : Except Raised (Bool × Option RevocationRecord) :=
  match guard.registry, truthy payload.modelId, truthy payload.version with
  | some isRevoked, some modelId, some version => do
    let revocation ← isRevoked modelId version
    return (true, revocation)
  | _, _, _ => .ok (false, none)

def revocationReason (r : RevocationRecord) : Str :=
  str "Model " ++ r.modelId ++ str "@" ++ r.version ++ str " was revoked by " ++ r.revokedBy ++ str ": " ++ r.reason

/-- The conjunction at the end of `verify`, with every fact behind it. -/
def report (signature : Except Str SignatureCheck) (mbomValid : Bool) (digest : DigestFacts)
    (trust : Option Bool × List Str) (revocation : Bool × Option RevocationRecord) : VerificationResult where
  allowed := signature.toOption.isSome && mbomValid && digest.isMatch && trust.1 ≠ some false && revocation.2.isNone
  artifactDigest := digest.currentDigest
  signatureValid := signature.toOption.isSome
  mbomValid := mbomValid
  revoked := revocation.2.isSome
  reasons := signatureReasons signature ++ reasonIf (!mbomValid) mbomReason ++ digest.reasons ++ trust.2 ++
    (revocation.2.map revocationReason).toList
  digestMatches := digest.isMatch
  signerTrusted := trust.1
  revocationChecked := revocation.1
  digestFromCache := digest.fromCache
  signatureAlgorithm := signature.toOption.map (·.algorithm)
  signerKeyFingerprint := signature.toOption.map (·.keyFingerprint)

/-- `ModelGuard.verify`, of what reading and parsing the two files gives. -/
def verify (env : Env α) (guard : Guard α) (clock : AwareDatetime) (artifact : Artifact α)
    (mbomFile : Except Raised MLBOM) (signatureFile : Except Raised SignatureEnvelope) :
    Except Raised VerificationResult := do
  let mbom ← mbomFile
  let envelope ← signatureFile
  let signature ← exceptModelGuardError (verifyEnvelopeSignature env.sha env.host (defaultVerifiers env.crypto)
    envelope guard.allowLegacySignatures)
  let hashed ← exceptModelGuardError (hash env guard artifact)
  let revocation ← revocationFacts guard envelope.payload
  return report signature (checkMbomDigest env.sha mbom envelope) (digestFacts envelope hashed)
    (trustFacts env.host guard.trust envelope clock signature) revocation

/-! ### What a returned result is made of -/

/-- The outcomes that a call which returns has seen. -/
structure Returned (env : Env α) (guard : Guard α) (clock : AwareDatetime) (artifact : Artifact α) (mbom : MLBOM)
    (envelope : SignatureEnvelope) (result : VerificationResult) (signature : Except Str SignatureCheck)
    (hashed : Except Str CachedHashResult) (revocation : Bool × Option RevocationRecord) : Prop where
  verified : exceptModelGuardError (verifyEnvelopeSignature env.sha env.host (defaultVerifiers env.crypto)
    envelope guard.allowLegacySignatures) = .ok signature
  outcome : exceptModelGuardError (hash env guard artifact) = .ok hashed
  consulted : revocationFacts guard envelope.payload = .ok revocation
  reported : result = report signature (checkMbomDigest env.sha mbom envelope) (digestFacts envelope hashed)
    (trustFacts env.host guard.trust envelope clock signature) revocation

theorem verify_returned {env : Env α} {guard : Guard α} {clock : AwareDatetime} {artifact : Artifact α}
    {mbomFile : Except Raised MLBOM} {signatureFile : Except Raised SignatureEnvelope} {result : VerificationResult} :
    verify env guard clock artifact mbomFile signatureFile = .ok result ↔
      ∃ mbom envelope signature hashed revocation, mbomFile = .ok mbom ∧ signatureFile = .ok envelope ∧
        Returned env guard clock artifact mbom envelope result signature hashed revocation := by
  unfold verify
  simp only [bind_ok, pure_ok]
  constructor
  · rintro ⟨mbom, readMbom, envelope, readEnvelope, signature, verified, hashed, outcome, revocation, consulted, same⟩
    exact ⟨mbom, envelope, signature, hashed, revocation, readMbom, readEnvelope, verified, outcome, consulted, same.symm⟩
  · rintro ⟨mbom, envelope, signature, hashed, revocation, readMbom, readEnvelope, r⟩
    exact ⟨mbom, readMbom, envelope, readEnvelope, signature, r.verified, hashed, r.outcome, revocation, r.consulted,
      r.reported.symm⟩

end ModelGuard.Sdk
