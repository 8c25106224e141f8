import ModelGuard.Lib.Json
import ModelGuard.Manifest.Models
import ModelGuard.Mbom.Models
import ModelGuard.Policy.Models

/-!
# Policy evaluation

`evaluate` is a pure function of the context and the policy. The loop over the rules keeps the results
so far and the worst decision triggered so far.
-/

namespace ModelGuard.Policy

open Lib ModelGuard.Mbom

/-- Everything a rule may look at. -/
structure PolicyEvaluationContext where
  subject : Str
  signatureValid : Bool
  mbomValid : Bool
  revoked : Bool
  hasLicense : Bool
  hasDeclaredLineage : Bool
  scanPerformed : Bool
  criticalFindingCount : Int
  highFindingCount : Int
  /-- `none` means not evaluated. -/
  artifactDigestMatches : Option Bool
  /-- `none` means that no trust roots were configured. -/
  signerTrusted : Option Bool

/-- `x or default`, of an optional text. -/
def textOr (s : Option Str) (default : String) : Str := (s.filter fun s => !s.isEmpty).getD (str default)

/-- `build_context`, of what `verify` and a scan have established. -/
def buildContext (manifest : Manifest) (mbom : MLBOM) (signatureValid mbomValid revoked digestMatches : Bool)
    (signerTrusted : Option Bool) (scanPerformed : Bool) (critical high : Nat) : PolicyEvaluationContext where
  subject := textOr manifest.modelId "unknown" ++ str "@" ++ textOr manifest.version "unknown"
  signatureValid := signatureValid
  mbomValid := mbomValid
  revoked := revoked
  hasLicense := manifest.license.any (fun s => !s.isEmpty) || mbom.modelguard.license.isSome
  hasDeclaredLineage := !mbom.modelguard.parentModels.isEmpty
  scanPerformed := scanPerformed
  criticalFindingCount := critical
  highFindingCount := high
  artifactDigestMatches := some digestMatches
  signerTrusted := signerTrusted

/-! ### The rules -/

/-- A rule that asks for one fact. -/
def factCheck (holds : Bool) (found missing : String) : Bool × Str :=
  if holds then (true, str found) else (false, str missing)

/-- A rule that bounds a number of findings, and fails where no scan was performed. -/
def countCheck (rule severity : String) (performed : Bool) (count : Int) (config : RuleConfig) : Bool × Str :=
  let limit := Json.natText config.maxCount
  let found := Json.intText count ++ str (" " ++ severity ++ " finding(s) found, ")
  if !performed then
    (false, str (rule ++ " is enabled but no scan was performed. Expected: a scan report to check finding " ++
      "counts against. Suggested action: ensure ModelGuard.check_policy() (which always scans) is used, or " ++
      "otherwise pass scan_performed=True with real finding counts to build_context()."))
  else if count ≤ config.maxCount then
    (true, found ++ str "within the configured limit of " ++ limit ++ str ".")
  else
    (false, found ++ str "exceeding the configured limit of " ++ limit ++ str ". Expected: at most " ++ limit ++
      str (" " ++ severity ++ " findings. Suggested action: run `modelguard scan` and remediate the reported " ++
        "findings before re-registering or deploying."))

def checkRequireValidSignature (ctx : PolicyEvaluationContext) (_ : RuleConfig) : Bool × Str :=
  factCheck ctx.signatureValid "A valid signature was found."
    ("No valid signature was found. Expected: a signature verifiable against a known public key. Suggested " ++
      "action: sign the artifact with `modelguard sign` before registering or deploying it.")

/-- Nothing configured is a failure of its own, not trust. -/
def checkRequireTrustedSigner (ctx : PolicyEvaluationContext) (_ : RuleConfig) : Bool × Str :=
  match ctx.signerTrusted with
  | none =>
    (false, str ("require_trusted_signer is enabled but no trusted signer keys were configured. Expected: at " ++
      "least one trusted key fingerprint. Suggested action: pass --trusted-fingerprint (CLI) or " ++
      "trusted_key_fingerprints=[...] (SDK); compute a fingerprint with `modelguard fingerprint " ++
      "<public-key-file>`."))
  | some trusted =>
    factCheck trusted "The artifact was signed by a trusted key."
      ("The signing key is not in the configured trusted set. Expected: a signature made by one of the " ++
        "trusted key fingerprints. Suggested action: verify the signer out-of-band, then add its fingerprint " ++
        "to the trusted set, or obtain the artifact from a trusted publisher.")

def checkRequireMlBom (ctx : PolicyEvaluationContext) (_ : RuleConfig) : Bool × Str :=
  factCheck ctx.mbomValid "A matching ML-BOM was supplied."
    ("No valid ML-BOM was supplied, or it does not match the signed digest. Expected: an ML-BOM generated with " ++
      "`modelguard mbom generate` and bound to this artifact's signature. Suggested action: regenerate and " ++
      "re-sign.")

def checkRequireKnownLineage (ctx : PolicyEvaluationContext) (_ : RuleConfig) : Bool × Str :=
  factCheck ctx.hasDeclaredLineage "The ML-BOM declares at least one parent model."
    ("The ML-BOM does not declare any parent model. Expected: at least one parent_models entry. Suggested " ++
      "action: regenerate the ML-BOM with DeclaredProvenance(parent_models=[...]).")

def checkRequireLicense (ctx : PolicyEvaluationContext) (_ : RuleConfig) : Bool × Str :=
  factCheck ctx.hasLicense "A license is declared."
    ("No license is declared on the manifest or ML-BOM. Expected: a license identifier. Suggested action: " ++
      "re-run `modelguard manifest --license ...`.")

def checkRejectRevokedModels (ctx : PolicyEvaluationContext) (_ : RuleConfig) : Bool × Str :=
  factCheck (!ctx.revoked) "The model is not revoked." "The model has been revoked."

def checkMaxCriticalFindings (ctx : PolicyEvaluationContext) (config : RuleConfig) : Bool × Str :=
  countCheck "max_critical_findings" "CRITICAL" ctx.scanPerformed ctx.criticalFindingCount config

def checkMaxHighFindings (ctx : PolicyEvaluationContext) (config : RuleConfig) : Bool × Str :=
  countCheck "max_high_findings" "HIGH" ctx.scanPerformed ctx.highFindingCount config

/-- `_RULE_CHECKS`, in the order of the loop. -/
def ruleChecks : List (RuleName × (PolicyEvaluationContext → RuleConfig → Bool × Str)) :=
  [(.requireValidSignature, checkRequireValidSignature), (.requireTrustedSigner, checkRequireTrustedSigner),
    (.requireMlBom, checkRequireMlBom), (.requireKnownLineage, checkRequireKnownLineage),
    (.requireLicense, checkRequireLicense), (.rejectRevokedModels, checkRejectRevokedModels),
    (.maxCriticalFindings, checkMaxCriticalFindings), (.maxHighFindings, checkMaxHighFindings)]

/-- The check of a rule. -/
def RuleName.check : RuleName → PolicyEvaluationContext → RuleConfig → Bool × Str
  | .requireValidSignature => checkRequireValidSignature
  | .requireTrustedSigner => checkRequireTrustedSigner
  | .requireMlBom => checkRequireMlBom
  | .requireKnownLineage => checkRequireKnownLineage
  | .requireLicense => checkRequireLicense
  | .rejectRevokedModels => checkRejectRevokedModels
  | .maxCriticalFindings => checkMaxCriticalFindings
  | .maxHighFindings => checkMaxHighFindings

theorem check_listed (name : RuleName) : (name, name.check) ∈ ruleChecks := by
  cases name with
  | requireValidSignature => exact List.mem_of_getElem? (i := 0) rfl
  | requireTrustedSigner => exact List.mem_of_getElem? (i := 1) rfl
  | requireMlBom => exact List.mem_of_getElem? (i := 2) rfl
  | requireKnownLineage => exact List.mem_of_getElem? (i := 3) rfl
  | requireLicense => exact List.mem_of_getElem? (i := 4) rfl
  | rejectRevokedModels => exact List.mem_of_getElem? (i := 5) rfl
  | maxCriticalFindings => exact List.mem_of_getElem? (i := 6) rfl
  | maxHighFindings => exact List.mem_of_getElem? (i := 7) rfl

/-! ### The loop -/

/-- The decision a failed rule triggers: a revocation is never softened. -/
def triggered (name : RuleName) (config : RuleConfig) : Decision :=
  if name = .rejectRevokedModels then .revoked else config.onFail.decision

/-- Results so far, and the decision so far. -/
abbrev Evaluation := List RuleResult × Decision

def evaluateRule (ctx : PolicyEvaluationContext) (policy : PolicyDocument) (state : Evaluation)
    (rule : RuleName × (PolicyEvaluationContext → RuleConfig → Bool × Str)) : Evaluation :=
  match policy.enabledRule rule.1 with
  | none =>
    (state.1 ++ [{ rule := str rule.1.value
                   enabled := false
                   passed := true
                   action := none
                   message := str "not configured" }], state.2)
  | some config =>
    let outcome := rule.2 ctx config
    (state.1 ++ [{ rule := str rule.1.value
                   enabled := true
                   passed := outcome.1
                   action := some config.onFail
                   message := outcome.2 }],
      if outcome.1 then state.2
      else if state.2.severity < (triggered rule.1 config).severity then triggered rule.1 config
      else state.2)

/-- The unconditional integrity gate. -/
def integrityGate (ctx : PolicyEvaluationContext) : Evaluation :=
  if ctx.artifactDigestMatches = some false then
    ([{ rule := str "artifact_integrity"
        enabled := true
        passed := false
        action := some .deny
        message := str ("The artifact on disk does not match the digest bound in the signature: it may have been " ++
          "modified after signing, or the wrong signature/ML-BOM was supplied. This check is unconditional and " ++
          "cannot be disabled by policy. Suggested action: re-obtain the artifact from a trusted source, or " ++
          "re-sign it if the change was intentional.") }], .deny)
  else ([], .allow)

/-- `evaluate`, with the identifier it draws. -/
def evaluate (ctx : PolicyEvaluationContext) (policy : PolicyDocument) (evaluationId : Str) : PolicyDecisionResult :=
  let outcome := ruleChecks.foldl (evaluateRule ctx policy) (integrityGate ctx)
  { decision := outcome.2
    policyName := policy.name
    policyVersion := policy.version
    subject := ctx.subject
    ruleResults := outcome.1
    evaluationId := evaluationId }

/-! ### What an allowing decision rests on -/

variable {ctx : PolicyEvaluationContext} {policy : PolicyDocument}

/-- A rule that is off, that passed, or whose failure is only a warning. -/
def Tolerated (ctx : PolicyEvaluationContext) (policy : PolicyDocument)
    (rule : RuleName × (PolicyEvaluationContext → RuleConfig → Bool × Str)) : Prop :=
  ∀ config ∈ policy.enabledRule rule.1, (rule.2 ctx config).1 = true ∨ (triggered rule.1 config).severity ≤ 1

/-- A rule that is on, and fails with a decision of at least this severity. -/
def Triggers (ctx : PolicyEvaluationContext) (policy : PolicyDocument) (level : Nat)
    (rule : RuleName × (PolicyEvaluationContext → RuleConfig → Bool × Str)) : Prop :=
  ∃ config ∈ policy.enabledRule rule.1, (rule.2 ctx config).1 = false ∧ level ≤ (triggered rule.1 config).severity

/-- One round reaches a severity exactly when it was reached before, or when its rule triggers it. -/
theorem le_evaluateRule_severity {level : Nat} {state : Evaluation}
    {rule : RuleName × (PolicyEvaluationContext → RuleConfig → Bool × Str)} :
    level ≤ (evaluateRule ctx policy state rule).2.severity ↔
      level ≤ state.2.severity ∨ Triggers ctx policy level rule := by
  unfold evaluateRule Triggers
  cases found : policy.enabledRule rule.1 with
  | none => simp
  | some config =>
    simp only [Option.mem_def, Option.some.injEq, exists_eq_left']
    split
    · rename_i passed
      simp [passed]
    · rename_i failed
      simp only [Bool.not_eq_true] at failed
      simp only [failed, true_and]
      split
      · omega
      · omega

theorem le_foldl_severity {level : Nat}
    {rules : List (RuleName × (PolicyEvaluationContext → RuleConfig → Bool × Str))} {state : Evaluation} :
    level ≤ (rules.foldl (evaluateRule ctx policy) state).2.severity ↔
      level ≤ state.2.severity ∨ ∃ rule ∈ rules, Triggers ctx policy level rule := by
  induction rules generalizing state with
  | nil => simp
  | cons rule rules ih =>
    rw [List.foldl_cons, ih, le_evaluateRule_severity, or_assoc]
    simp only [List.mem_cons, exists_eq_or_imp]

/-- A decision is the worst of what the gate and the rules trigger. -/
theorem le_evaluate_severity {level : Nat} {id : Str} :
    level ≤ (evaluate ctx policy id).decision.severity ↔
      level ≤ (integrityGate ctx).2.severity ∨ ∃ rule ∈ ruleChecks, Triggers ctx policy level rule := by
  unfold evaluate
  exact le_foldl_severity

theorem not_triggers {rule : RuleName × (PolicyEvaluationContext → RuleConfig → Bool × Str)} :
    ¬ Triggers ctx policy 2 rule ↔ Tolerated ctx policy rule := by
  unfold Triggers Tolerated
  push Not
  refine forall₂_congr fun config _ => ?_
  rw [or_iff_not_imp_left, Bool.not_eq_true]
  exact imp_congr_right fun _ => by omega

/-- A policy allows exactly when the digest was not found to differ and every rule is tolerated. -/
theorem evaluate_allowed {id : Str} :
    (evaluate ctx policy id).decision.isAllowed = true ↔
      ctx.artifactDigestMatches ≠ some false ∧ ∀ rule ∈ ruleChecks, Tolerated ctx policy rule := by
  have severity := @le_evaluate_severity ctx policy 2 id
  rw [Decision.isAllowed_iff, ← not_lt, ← Nat.succ_le_iff, severity, not_or]
  apply and_congr
  · unfold integrityGate
    split
    · rename_i differs
      simp [differs, Decision.severity]
    · rename_i same
      simp [same, Decision.severity]
  · push Not
    exact forall₂_congr fun _ _ => not_triggers

end ModelGuard.Policy
