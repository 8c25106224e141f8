import ModelGuard.Policy.Engine
import ModelGuard.Scanning.Runner

/-!
# `ModelGuard.check_policy_detailed`

The ML-BOM and the signature file are each read twice: by `verify`, and for the policy.
-/

namespace ModelGuard.Sdk

open Lib Lib.Fallible ModelGuard.Hashing ModelGuard.Mbom ModelGuard.Policy ModelGuard.Scanning ModelGuard.Signing

variable {α : Type}

/-- What reading and parsing the given files gives, each time they are read. -/
structure Files where
  policyMbom : Except Raised MLBOM
  mbom : Except Raised MLBOM
  signature : Except Raised SignatureEnvelope
  policySignature : Except Raised SignatureEnvelope
  policy : Except Raised PolicyDocument

/-- A decision with the evidence it was based on. -/
structure PolicyCheck where
  decision : PolicyDecisionResult
  verification : VerificationResult
  scanReport : ScanReport
deriving DecidableEq

/-- `text.split(":", 1)[-1]`. -/
def afterColon (s : Str) : Str := if s.contains (cp ':') then (s.dropWhile (· ≠ cp ':')).tail else s

/-- `"file" if path.is_file() else "directory"`. -/
def manifestType : Option (Node α) → ArtifactType
  | some (.file _) => .file
  | some (.symlink .file) => .file
  | _ => .directory

def checkPolicyDetailed (env : Env α) (guard : Guard α) (scanners : List (Scanner α)) (clock : AwareDatetime)
    (evaluationId : Str) (artifact : Artifact α) (files : Files) : Except Raised PolicyCheck := do
  let mbom ← files.policyMbom
  let verification ← verify env guard clock artifact files.mbom files.signature
  let envelope ← files.policySignature
  let manifest := Manifest.ofIdentity (manifestType artifact.node) (afterColon verification.artifactDigest)
    envelope.payload.modelId envelope.payload.version
  let scanReport ← runScanners env artifact (some manifest) (some mbom) scanners
    (if verification.digestMatches then some verification.artifactDigest else none)
  let policy ← files.policy
  let context := buildContext manifest mbom verification.signatureValid verification.mbomValid verification.revoked
    verification.digestMatches verification.signerTrusted true (scanReport.count .critical) (scanReport.count .high)
  return { decision := evaluate context policy evaluationId, verification, scanReport }

/-! ### What a returned check is made of -/

variable {env : Env α} {guard : Guard α} {scanners : List (Scanner α)} {clock : AwareDatetime} {evaluationId : Str}
  {artifact : Artifact α} {files : Files} {check : PolicyCheck}

/-- The manifest that the scanners and the rules are given. -/
def policyManifest (artifact : Artifact α) (verification : VerificationResult) (envelope : SignatureEnvelope) : Manifest :=
  Manifest.ofIdentity (manifestType artifact.node) (afterColon verification.artifactDigest) envelope.payload.modelId
    envelope.payload.version

/-- The context that the rules are given. -/
def policyContext (manifest : Manifest) (mbom : MLBOM) (verification : VerificationResult) (scanReport : ScanReport) :
    PolicyEvaluationContext :=
  buildContext manifest mbom verification.signatureValid verification.mbomValid verification.revoked
    verification.digestMatches verification.signerTrusted true (scanReport.count .critical) (scanReport.count .high)

/-- What a call that returns has read and found on its way. -/
structure Checked (env : Env α) (guard : Guard α) (scanners : List (Scanner α)) (clock : AwareDatetime)
    (evaluationId : Str) (artifact : Artifact α) (files : Files) (check : PolicyCheck) (mbom : MLBOM)
    (envelope : SignatureEnvelope) (policy : PolicyDocument) : Prop where
  readMbom : files.policyMbom = .ok mbom
  verified : verify env guard clock artifact files.mbom files.signature = .ok check.verification
  readSignature : files.policySignature = .ok envelope
  scanned : runScanners env artifact (some (policyManifest artifact check.verification envelope)) (some mbom) scanners
    (if check.verification.digestMatches then some check.verification.artifactDigest else none) = .ok check.scanReport
  loaded : files.policy = .ok policy
  evaluated : check.decision = evaluate (policyContext (policyManifest artifact check.verification envelope) mbom
    check.verification check.scanReport) policy evaluationId

theorem checkPolicyDetailed_returned :
    checkPolicyDetailed env guard scanners clock evaluationId artifact files = .ok check ↔
      ∃ mbom envelope policy, Checked env guard scanners clock evaluationId artifact files check mbom envelope policy := by
  unfold checkPolicyDetailed
  simp only [bind_ok, pure_ok]
  constructor
  · rintro ⟨mbom, readMbom, verification, verified, envelope, readSignature, scanReport, scanned, policy, loaded, same⟩
    subst same
    exact ⟨mbom, envelope, policy, readMbom, verified, readSignature, scanned, loaded, rfl⟩
  · rintro ⟨mbom, envelope, policy, c⟩
    refine ⟨mbom, c.readMbom, check.verification, c.verified, envelope, c.readSignature, check.scanReport, c.scanned,
      policy, c.loaded, ?_⟩
    have decided := c.evaluated
    unfold policyContext policyManifest at decided
    rw [← decided]

end ModelGuard.Sdk
