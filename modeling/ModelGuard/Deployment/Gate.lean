import ModelGuard.Deployment.Admission
import ModelGuard.Policy.Results

/-!
# What admission guarantees

An admitted artifact was signed by a trusted key and matches its digest. Whether `verify` also allowed it
then depends on the ML-BOM and on revocation alone, which only the rules of the policy can demand.
-/

namespace ModelGuard.Deployment

open Lib Lib.Fallible ModelGuard.Policy ModelGuard.Registry ModelGuard.Scanning ModelGuard.Sdk ModelGuard.Signing

variable {α : Type}

/-- The facts about a verification that admission establishes under a policy. -/
structure Guaranteed (policy : PolicyDocument) (v : VerificationResult) : Prop where
  signatureValid : v.signatureValid = true
  digestMatches : v.digestMatches = true
  signerTrusted : v.signerTrusted = some true
  allowed : v.allowed = true ↔ v.mbomValid = true ∧ v.revoked = false
  mbom : ∀ config ∈ policy.enabledRule .requireMlBom, config.onFail ≠ .warn → v.mbomValid = true
  revocation : ∀ config ∈ policy.enabledRule .rejectRevokedModels, v.revoked = false

/-! ### The parts -/

/-- Recording a decision never admits anything. -/
theorem finish_admitted {decision : AdmissionDecision} {actor : Str} {auditLog : AuditLog}
    (h : (finish decision actor auditLog).admitted = true) : decision.admitted = true := by
  unfold finish at h
  split at h
  · exact h
  · split at h
    · exact h
    · cases h

theorem objections_nil {check : PolicyCheck} :
    objections check = [] ↔ check.decision.decision.isAllowed = true ∧ check.verification.digestMatches = true ∧
      check.verification.signerTrusted = some true := by
  unfold objections
  rw [List.append_eq_nil_iff, List.append_eq_nil_iff, reasonIf_nil, reasonIf_nil, and_assoc]
  refine and_congr ?_ (and_congr (by simp) (by simp))
  split
  · rename_i allowed
    simp [allowed]
  · rename_i denied
    simp [denied]

/-- The context a policy is evaluated in carries what `verify` found. -/
theorem checkPolicyDetailed_ok {env : Env α} {guard : Guard α} {scanners : List (Scanner α)} {clock : AwareDatetime}
    {evaluationId : Str} {artifact : Artifact α} {files : Files} {check : PolicyCheck}
    (h : checkPolicyDetailed env guard scanners clock evaluationId artifact files = .ok check) :
    verify env guard clock artifact files.mbom files.signature = .ok check.verification ∧
      ∃ policy ctx, files.policy = .ok policy ∧ check.decision = evaluate ctx policy evaluationId ∧
        ctx.mbomValid = check.verification.mbomValid ∧ ctx.revoked = check.verification.revoked := by
  obtain ⟨_, _, policy, c⟩ := checkPolicyDetailed_returned.mp h
  exact ⟨c.verified, policy, _, c.loaded, c.evaluated, rfl, rfl⟩

/-- A trusted signer is one whose signature verified. -/
theorem verify_signed {env : Env α} {guard : Guard α} {clock : AwareDatetime} {artifact : Artifact α}
    {mbomFile : Except Raised Mbom.MLBOM} {signatureFile : Except Raised SignatureEnvelope} {v : VerificationResult}
    (h : verify env guard clock artifact mbomFile signatureFile = .ok v) (trusted : v.signerTrusted = some true) :
    v.signatureValid = true := by
  obtain ⟨_, envelope, signature, _, _, _, _, seen⟩ := verify_returned.mp h
  rw [seen.reported] at trusted ⊢
  cases signature with
  | ok check => rfl
  | error message =>
    have refused : guard.trust.map (fun _ => false) = some true := trusted
    simp at refused

theorem verify_conjunction {env : Env α} {guard : Guard α} {clock : AwareDatetime} {artifact : Artifact α}
    {mbomFile : Except Raised Mbom.MLBOM} {signatureFile : Except Raised SignatureEnvelope} {v : VerificationResult}
    (h : verify env guard clock artifact mbomFile signatureFile = .ok v) :
    v.allowed = true ↔ v.signatureValid = true ∧ v.mbomValid = true ∧ v.digestMatches = true ∧
      v.signerTrusted ≠ some false ∧ v.revoked = false := by
  obtain ⟨_, _, _, _, _, _, _, seen⟩ := verify_returned.mp h
  rw [seen.reported]
  simp [report, and_assoc]

/-! ### The gate -/

/-- Whatever the policy, an admitted artifact carries these guarantees. -/
theorem admit_guarantees {env : Env α} {guard : Guard α} {scanners : List (Scanner α)} {clock : AwareDatetime}
    {correlationId evaluationId : Str} {artifact : Artifact α} {files : Files} {actor : Str} {auditLog : AuditLog}
    (admitted : (admitArtifact env guard scanners clock correlationId evaluationId artifact files actor auditLog).admitted = true) :
    ∃ v policy, verify env guard clock artifact files.mbom files.signature = .ok v ∧ files.policy = .ok policy ∧
      Guaranteed policy v := by
  unfold admitArtifact at admitted
  split at admitted
  · cases finish_admitted admitted
  · split at admitted
    · cases finish_admitted admitted
    · rename_i check checked
      have clear : objections check = [] := List.isEmpty_iff.mp (finish_admitted admitted)
      obtain ⟨decision, digest, trusted⟩ := objections_nil.mp clear
      obtain ⟨verified, policy, ctx, loaded, evaluated, mbomFact, revokedFact⟩ := checkPolicyDetailed_ok checked
      rw [evaluated, evaluate_allowed] at decision
      obtain ⟨-, tolerated⟩ := decision
      have signed := verify_signed verified trusted
      refine ⟨check.verification, policy, verified, loaded, signed, digest, trusted, ?_, ?_, ?_⟩
      · rw [verify_conjunction verified]
        simp [signed, digest, trusted]
      · intro config enabled strict
        have rule : (checkRequireMlBom ctx config).1 = true ∨ (triggered .requireMlBom config).severity ≤ 1 :=
          tolerated (.requireMlBom, checkRequireMlBom) (check_listed .requireMlBom) config enabled
        rw [triggered_mild, requireMlBom_fst, mbomFact] at rule
        exact rule.resolve_right fun mild => strict mild.2
      · intro config enabled
        have rule : (checkRejectRevokedModels ctx config).1 = true ∨ (triggered .rejectRevokedModels config).severity ≤ 1 :=
          tolerated (.rejectRevokedModels, checkRejectRevokedModels) (check_listed .rejectRevokedModels) config enabled
        rw [triggered_mild, rejectRevokedModels_fst, revokedFact] at rule
        simpa using rule.resolve_right fun mild => mild.1 rfl

/-! ### A policy without rules -/

/-- `PERMISSIVE_POLICY` of the tests. -/
def permissivePolicy : PolicyDocument where
  version := str "1"
  name := str "permissive"
  rules := []

def legacyFiles : Files where
  policyMbom := .ok legacyMbom
  mbom := .ok legacyMbom
  signature := .ok legacyEnvelope
  policySignature := .ok legacyEnvelope
  policy := .ok permissivePolicy

def legacyRevocation : RevocationRecord where
  modelId := str "legacy-fixture"
  version := str "0.6.0"
  revokedBy := str "security"
  reason := str "poisoned weights"
  revokedAt := str "2026-10-01T00:00:00+00:00"

def admitLegacy (revocation : Option RevocationRecord) : AdmissionDecision :=
  admitArtifact legacyEnv (legacyGuard fun _ _ => .ok revocation) [] legacyClock (str "deployment") (str "evaluation")
    legacyArtifact legacyFiles (str "deploy-bot") none

theorem admitLegacy_admitted (revocation : Option RevocationRecord) : (admitLegacy revocation).admitted = true := by
  have checked : ∃ check, checkPolicyDetailed legacyEnv (legacyGuard fun _ _ => .ok revocation) [] legacyClock
      (str "evaluation") legacyArtifact legacyFiles = .ok check ∧ objections check = [] := by
    unfold checkPolicyDetailed
    refine ⟨_, bind_ok.mpr ⟨legacyMbom, rfl, bind_ok.mpr ⟨legacyResult revocation, verify_legacy rfl,
      bind_ok.mpr ⟨legacyEnvelope, rfl, bind_ok.mpr ⟨_, rfl, bind_ok.mpr ⟨permissivePolicy, rfl, rfl⟩⟩⟩⟩⟩, ?_⟩
    refine objections_nil.mpr ⟨evaluate_allowed.mpr ⟨by simp [buildContext, legacyResult], ?_⟩, rfl, rfl⟩
    intro rule _ config enabled
    cases enabled
  obtain ⟨check, checked, clear⟩ := checked
  unfold admitLegacy admitArtifact
  rw [if_neg (by simp [legacyGuard]), checked]
  exact List.isEmpty_iff.mpr clear

theorem admit_guarantees_legacy :
    ∃ v policy, verify legacyEnv (legacyGuard fun _ _ => .ok none) legacyClock legacyArtifact legacyFiles.mbom
        legacyFiles.signature = .ok v ∧ legacyFiles.policy = .ok policy ∧ Guaranteed policy v :=
  admit_guarantees (admitLegacy_admitted none)

/-- A revoked model passes a policy that does not ask about revocation. -/
theorem revoked_model_is_admitted :
    (admitLegacy (some legacyRevocation)).admitted = true ∧
      verify legacyEnv (legacyGuard fun _ _ => .ok (some legacyRevocation)) legacyClock legacyArtifact
        legacyFiles.mbom legacyFiles.signature = .ok (legacyResult (some legacyRevocation)) ∧
      (legacyResult (some legacyRevocation)).allowed = false :=
  ⟨admitLegacy_admitted _, verify_legacy rfl, rfl⟩

end ModelGuard.Deployment
