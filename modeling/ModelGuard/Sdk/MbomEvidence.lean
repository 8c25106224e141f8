import ModelGuard.Mbom.Canonical
import ModelGuard.Policy.Results
import ModelGuard.Sdk.Allowed
import ModelGuard.Sdk.PolicyCheck

/-!
# What the rules about the ML-BOM look at

They look at the ML-BOM that was read for the policy. Whether the signature covers an ML-BOM is found by
`verify`, on a reading of its own, and only `require_ml_bom` asks for it.
-/

namespace ModelGuard.Sdk

open Lib Lib.Fallible ModelGuard.Mbom ModelGuard.Policy ModelGuard.Scanning ModelGuard.Signing

variable {α : Type} {env : Env α} {guard : Guard α} {scanners : List (Scanner α)} {clock : AwareDatetime}
  {evaluationId : Str} {artifact : Artifact α} {files : Files} {check : PolicyCheck} {mbom : MLBOM}
  {envelope : SignatureEnvelope} {policy : PolicyDocument}

/-- The rules that ask for a declaration, with what an ML-BOM must declare. -/
def declarationRules : List (RuleName × (MLBOM → Bool)) :=
  [(.requireLicense, fun mbom => mbom.modelguard.license.isSome),
    (.requireKnownLineage, fun mbom => !mbom.modelguard.parentModels.isEmpty)]

theorem declarationRule_passed (c : Checked env guard scanners clock evaluationId artifact files check mbom envelope policy)
    {rule : RuleName × (MLBOM → Bool)} (listed : rule ∈ declarationRules) :
    ReportsPassed check.decision rule.1 ↔ (policy.enabledRule rule.1).isSome = true ∧ rule.2 mbom = true := by
  rw [c.evaluated]
  rcases List.mem_cons.mp listed with license | rest
  · subst license
    refine (reportsPassed_iff (.requireLicense, checkRequireLicense) (check_listed .requireLicense)).trans ?_
    simp [requireLicense_fst, policyContext, policyManifest, Manifest.ofIdentity, buildContext,
      Option.isSome_iff_exists]
  · have lineage := List.mem_singleton.mp rest
    subst lineage
    refine (reportsPassed_iff (.requireKnownLineage, checkRequireKnownLineage) (check_listed .requireKnownLineage)).trans ?_
    simp [requireKnownLineage_fst, policyContext, policyManifest, Manifest.ofIdentity, buildContext,
      Option.isSome_iff_exists]

theorem requireMlBom_passed (c : Checked env guard scanners clock evaluationId artifact files check mbom envelope policy) :
    ReportsPassed check.decision .requireMlBom ↔
      (policy.enabledRule .requireMlBom).isSome = true ∧ check.verification.mbomValid = true := by
  rw [c.evaluated]
  refine (reportsPassed_iff (.requireMlBom, checkRequireMlBom) (check_listed .requireMlBom)).trans ?_
  simp [requireMlBom_fst, policyContext, buildContext, Option.isSome_iff_exists]

/-- What the two flags of a verification say about the files that `verify` read. -/
theorem verify_flags {mbomFile : Except Raised MLBOM} {signatureFile : Except Raised SignatureEnvelope}
    {v : VerificationResult} (h : verify env guard clock artifact mbomFile signatureFile = .ok v) :
    ∃ mbom envelope, mbomFile = .ok mbom ∧ signatureFile = .ok envelope ∧
      v.mbomValid = checkMbomDigest env.sha mbom envelope ∧
      (v.signatureValid = true → ∃ signature, verifyEnvelopeSignature env.sha env.host (defaultVerifiers env.crypto)
        envelope guard.allowLegacySignatures = .ok signature) := by
  obtain ⟨mbom, envelope, signature, hashed, revocation, readMbom, readEnvelope, r⟩ := verify_returned.mp h
  refine ⟨mbom, envelope, readMbom, readEnvelope, by rw [r.reported]; rfl, ?_⟩
  intro valid
  rw [r.reported] at valid
  cases signature with
  | error message => cases valid
  | ok signature =>
    rcases exceptModelGuardError_ok r.verified with ⟨found, verified, -⟩ | ⟨_, _, -, refused⟩
    · exact ⟨found, verified⟩
    · cases refused

/-- A declaration that counted is one of the verified ML-BOM, unless the policy saw it in another reading. -/
theorem declaration_counted_is_signed_iff
    (checked : checkPolicyDetailed env guard scanners clock evaluationId artifact files = .ok check)
    (mbomValid : check.verification.mbomValid = true) (signatureValid : check.verification.signatureValid = true)
    {rule : RuleName × (MLBOM → Bool)} (listed : rule ∈ declarationRules) :
    ∃ policyMbom mbom envelope policy signature, files.policyMbom = .ok policyMbom ∧ files.mbom = .ok mbom ∧
      files.signature = .ok envelope ∧ files.policy = .ok policy ∧
      checkMbomDigest env.sha mbom envelope = true ∧
      verifyEnvelopeSignature env.sha env.host (defaultVerifiers env.crypto) envelope guard.allowLegacySignatures =
        .ok signature ∧
      ((ReportsPassed check.decision rule.1 → rule.2 mbom = true) ↔
        ((policy.enabledRule rule.1).isSome = true → rule.2 policyMbom = true → rule.2 mbom = true)) := by
  obtain ⟨policyMbom, _, policy, c⟩ := checkPolicyDetailed_returned.mp checked
  obtain ⟨mbom, envelope, readMbom, readEnvelope, covers, verifies⟩ := verify_flags c.verified
  obtain ⟨signature, verified⟩ := verifies signatureValid
  refine ⟨policyMbom, mbom, envelope, policy, signature, c.readMbom, readMbom, readEnvelope, c.loaded,
    covers.symm.trans mbomValid, verified, ?_⟩
  rw [declarationRule_passed c listed, and_imp]

/-- Coverage by the signature is the matter of `require_ml_bom`, and of no other rule. -/
theorem declaration_counted_under_require_ml_bom
    (checked : checkPolicyDetailed env guard scanners clock evaluationId artifact files = .ok check)
    (sameMbom : files.policyMbom = files.mbom) (sameSignature : files.policySignature = files.signature)
    {rule : RuleName × (MLBOM → Bool)} (listed : rule ∈ declarationRules)
    (passed : ReportsPassed check.decision rule.1) :
    ∃ mbom envelope policy, files.mbom = .ok mbom ∧ files.signature = .ok envelope ∧ files.policySignature = .ok envelope ∧
      files.policy = .ok policy ∧ rule.2 mbom = true ∧
      check.verification.mbomValid = checkMbomDigest env.sha mbom envelope ∧
      ∀ config ∈ policy.enabledRule .requireMlBom,
        (ReportsPassed check.decision .requireMlBom ↔ check.verification.mbomValid = true) ∧
        (config.onFail ≠ .warn → check.decision.decision.isAllowed = true → check.verification.mbomValid = true) := by
  obtain ⟨policyMbom, _, policy, c⟩ := checkPolicyDetailed_returned.mp checked
  obtain ⟨mbom, envelope, readMbom, readEnvelope, covers, -⟩ := verify_flags c.verified
  have same : policyMbom = mbom := Except.ok.inj (c.readMbom.symm.trans (sameMbom.trans readMbom))
  subst same
  refine ⟨policyMbom, envelope, policy, readMbom, readEnvelope, sameSignature.trans readEnvelope, c.loaded,
    ((declarationRule_passed c listed).mp passed).2, covers, ?_⟩
  intro config enabled
  have on : policy.enabledRule .requireMlBom = some config := enabled
  refine ⟨by simp [requireMlBom_passed c, on], ?_⟩
  intro strict allowed
  rw [c.evaluated, evaluate_allowed] at allowed
  have tolerated : (checkRequireMlBom _ config).1 = true ∨ (triggered .requireMlBom config).severity ≤ 1 :=
    allowed.2 (.requireMlBom, checkRequireMlBom) (check_listed .requireMlBom) config enabled
  rw [triggered_mild, requireMlBom_fst] at tolerated
  exact tolerated.resolve_right fun mild => strict mild.2

/-! ### An ML-BOM that the signature does not cover -/

/-- The fixture's ML-BOM with a parent model added after signing. -/
def forgedMbom : MLBOM :=
  { legacyMbom with
    modelguard := { legacyMbom.modelguard with parentModels := [{ value := str "base", evidence := .declared }] } }

def lineagePolicy : PolicyDocument where
  version := str "1"
  name := str "known lineage"
  rules := [(str "require_known_lineage", { enabled := true, onFail := .deny, maxCount := 0 })]

def licensePolicy : PolicyDocument where
  version := str "1"
  name := str "licensed"
  rules := [(str "require_license", { enabled := true, onFail := .deny, maxCount := 0 }),
    (str "require_ml_bom", { enabled := true, onFail := .deny, maxCount := 0 })]

/-- The first reading, for the policy, and the second, by `verify`, may see different files. -/
def evidenceFiles (policyMbom mbom : MLBOM) (policy : PolicyDocument) : Files where
  policyMbom := .ok policyMbom
  mbom := .ok mbom
  signature := .ok legacyEnvelope
  policySignature := .ok legacyEnvelope
  policy := .ok policy

theorem evidence_checked (policyMbom : MLBOM) (policy : PolicyDocument) {mbom : MLBOM}
    {verification : VerificationResult}
    (verified : verify legacyEnv (legacyGuard fun _ _ => .ok none) legacyClock legacyArtifact (.ok mbom)
      (.ok legacyEnvelope) = .ok verification) (current : verification.digestMatches = true) :
    ∃ check : PolicyCheck, check.verification = verification ∧
      Checked legacyEnv (legacyGuard fun _ _ => .ok none) [] legacyClock (str "evaluation") legacyArtifact
        (evidenceFiles policyMbom mbom policy) check policyMbom legacyEnvelope policy := by
  have scanned : ∃ report, runScanners legacyEnv legacyArtifact
      (some (policyManifest legacyArtifact verification legacyEnvelope)) (some policyMbom) []
      (if verification.digestMatches then some verification.artifactDigest else none) = .ok report := by
    rw [current]
    exact ⟨_, rfl⟩
  obtain ⟨scanReport, scanned⟩ := scanned
  exact ⟨⟨evaluate (policyContext (policyManifest legacyArtifact verification legacyEnvelope) policyMbom verification
    scanReport) policy (str "evaluation"), verification, scanReport⟩, rfl, rfl, verified, rfl, scanned, rfl, rfl⟩

theorem legacySha_injective : Function.Injective legacySha.hexdigest := by
  apply ofTable_injective
  · unfold legacyTable
    simp only [List.forall_mem_cons, List.not_mem_nil, false_implies, implies_true, and_true]
    unfold legacyFingerprint
    rw [str_ofList, str_ofList, str_ofList, str_ofList, str_ofList]
    decide +kernel
  · unfold legacyTable
    simp only [List.map_cons, List.map_nil]
    unfold legacyFingerprint
    rw [str_ofList, str_ofList, str_ofList, str_ofList, str_ofList]
    decide +kernel

/-- The signed digest is not that of a document with a parent. -/
theorem forged_uncovered : checkMbomDigest legacySha forgedMbom legacyEnvelope = false := by
  have other : forgedMbom.canonicalJson ≠ legacyMbom.canonicalJson := by
    intro same
    have parents := congrArg (fun m : MLBOM => m.modelguard.parentModels.length) (MLBOM.canonicalJson_inj same)
    exact absurd parents (by decide)
  have committed : digestRef (legacySha.hexdigest legacyMbom.canonicalJson) = legacyEnvelope.payload.mbomDigest :=
    of_decide_eq_true legacy_mbom
  apply decide_eq_false
  intro covered
  rw [← committed] at covered
  exact other (legacySha_injective (List.append_cancel_left covered))

/-- Everything but the ML-BOM is in order. -/
theorem verify_forged :
    ∃ verification : VerificationResult, verify legacyEnv (legacyGuard fun _ _ => .ok none) legacyClock legacyArtifact
        (.ok forgedMbom) (.ok legacyEnvelope) = .ok verification ∧
      verification.mbomValid = false ∧ verification.digestMatches = true := by
  exact ⟨_, verify_returned.mpr ⟨_, _, _, _, _, rfl, rfl, legacy_returned rfl forged_uncovered⟩, rfl, rfl⟩

theorem lineage_listed : (RuleName.requireKnownLineage, fun mbom : MLBOM => !mbom.modelguard.parentModels.isEmpty) ∈
    declarationRules :=
  List.mem_cons_of_mem _ List.mem_cons_self

theorem license_listed : (RuleName.requireLicense, fun mbom : MLBOM => mbom.modelguard.license.isSome) ∈
    declarationRules :=
  List.mem_cons_self

theorem lineage_enabled : (lineagePolicy.enabledRule .requireKnownLineage).isSome = true := by decide

theorem license_enabled : (licensePolicy.enabledRule .requireLicense).isSome = true := by decide

theorem declaration_counted_is_signed_iff_lineage :
    ∃ check : PolicyCheck, check.verification = legacyResult none ∧
      ∃ policyMbom mbom envelope policy signature,
        (evidenceFiles legacyMbom legacyMbom lineagePolicy).policyMbom = .ok policyMbom ∧
        (evidenceFiles legacyMbom legacyMbom lineagePolicy).mbom = .ok mbom ∧
        (evidenceFiles legacyMbom legacyMbom lineagePolicy).signature = .ok envelope ∧
        (evidenceFiles legacyMbom legacyMbom lineagePolicy).policy = .ok policy ∧
        checkMbomDigest legacyEnv.sha mbom envelope = true ∧
        verifyEnvelopeSignature legacyEnv.sha legacyEnv.host (defaultVerifiers legacyEnv.crypto) envelope true =
          .ok signature ∧
        ((ReportsPassed check.decision .requireKnownLineage → (!mbom.modelguard.parentModels.isEmpty) = true) ↔
          ((policy.enabledRule .requireKnownLineage).isSome = true →
            (!policyMbom.modelguard.parentModels.isEmpty) = true → (!mbom.modelguard.parentModels.isEmpty) = true)) := by
  obtain ⟨check, result, c⟩ := evidence_checked legacyMbom lineagePolicy (verify_legacy rfl) rfl
  exact ⟨check, result, declaration_counted_is_signed_iff (checkPolicyDetailed_returned.mpr ⟨_, _, _, c⟩)
    (by rw [result]; rfl) (by rw [result]; rfl) lineage_listed⟩

/-- The parent that the rule saw is not in the ML-BOM that was verified. -/
theorem swapped_mbom_passes_lineage :
    ∃ check, checkPolicyDetailed legacyEnv (legacyGuard fun _ _ => .ok none) [] legacyClock (str "evaluation")
        legacyArtifact (evidenceFiles forgedMbom legacyMbom lineagePolicy) = .ok check ∧
      check.verification.mbomValid = true ∧ check.verification.signatureValid = true ∧
      checkMbomDigest legacyEnv.sha legacyMbom legacyEnvelope = true ∧
      ReportsPassed check.decision .requireKnownLineage ∧ legacyMbom.modelguard.parentModels = [] := by
  obtain ⟨check, result, c⟩ := evidence_checked forgedMbom lineagePolicy (verify_legacy rfl) rfl
  refine ⟨check, checkPolicyDetailed_returned.mpr ⟨_, _, _, c⟩, by rw [result]; rfl, by rw [result]; rfl, legacy_mbom,
    ?_, rfl⟩
  exact (declarationRule_passed c lineage_listed).mpr ⟨lineage_enabled, rfl⟩

theorem declaration_counted_under_require_ml_bom_license :
    ∃ check : PolicyCheck, check.verification = legacyResult none ∧
      ∃ mbom envelope policy, (evidenceFiles legacyMbom legacyMbom licensePolicy).mbom = .ok mbom ∧
        (evidenceFiles legacyMbom legacyMbom licensePolicy).signature = .ok envelope ∧
        (evidenceFiles legacyMbom legacyMbom licensePolicy).policySignature = .ok envelope ∧
        (evidenceFiles legacyMbom legacyMbom licensePolicy).policy = .ok policy ∧ mbom.modelguard.license.isSome = true ∧
        check.verification.mbomValid = checkMbomDigest legacyEnv.sha mbom envelope ∧
        ∀ config ∈ policy.enabledRule .requireMlBom,
          (ReportsPassed check.decision .requireMlBom ↔ check.verification.mbomValid = true) ∧
          (config.onFail ≠ .warn → check.decision.decision.isAllowed = true → check.verification.mbomValid = true) := by
  obtain ⟨check, result, c⟩ := evidence_checked legacyMbom licensePolicy (verify_legacy rfl) rfl
  have passed := (declarationRule_passed c license_listed).mpr ⟨license_enabled, rfl⟩
  exact ⟨check, result, declaration_counted_under_require_ml_bom (checkPolicyDetailed_returned.mpr ⟨_, _, _, c⟩) rfl rfl
    license_listed passed⟩

/-- A parent added after signing satisfies the rule, where the policy does not also ask for a matching ML-BOM. -/
theorem forged_mbom_passes_lineage :
    ∃ check, checkPolicyDetailed legacyEnv (legacyGuard fun _ _ => .ok none) [] legacyClock (str "evaluation")
        legacyArtifact (evidenceFiles forgedMbom forgedMbom lineagePolicy) = .ok check ∧
      ReportsPassed check.decision .requireKnownLineage ∧ check.verification.mbomValid = false := by
  obtain ⟨verification, verified, invalid, current⟩ := verify_forged
  obtain ⟨check, result, c⟩ := evidence_checked forgedMbom lineagePolicy verified current
  refine ⟨check, checkPolicyDetailed_returned.mpr ⟨_, _, _, c⟩, ?_, by rw [result, invalid]⟩
  exact (declarationRule_passed c lineage_listed).mpr ⟨lineage_enabled, rfl⟩

end ModelGuard.Sdk
