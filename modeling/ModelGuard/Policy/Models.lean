import ModelGuard.Lib.Text

/-!
# Policies and decisions
-/

namespace ModelGuard.Policy

open Lib

/-- Every rule that can be evaluated. -/
inductive RuleName where
  | requireValidSignature
  | requireTrustedSigner
  | requireMlBom
  | requireKnownLineage
  | requireLicense
  | rejectRevokedModels
  | maxCriticalFindings
  | maxHighFindings
deriving DecidableEq

def RuleName.value : RuleName → String
  | .requireValidSignature => "require_valid_signature"
  | .requireTrustedSigner => "require_trusted_signer"
  | .requireMlBom => "require_ml_bom"
  | .requireKnownLineage => "require_known_lineage"
  | .requireLicense => "require_license"
  | .rejectRevokedModels => "reject_revoked_models"
  | .maxCriticalFindings => "max_critical_findings"
  | .maxHighFindings => "max_high_findings"

/-- What happens when a rule fails. -/
inductive RuleAction where
  | warn
  | review
  | quarantine
  | deny
deriving DecidableEq

/-- A policy decision, from least to most severe. -/
inductive Decision where
  | allow
  | allowWithWarnings
  | reviewRequired
  | quarantine
  | deny
  | revoked
deriving DecidableEq

namespace Decision

def value : Decision → String
  | .allow => "ALLOW"
  | .allowWithWarnings => "ALLOW_WITH_WARNINGS"
  | .reviewRequired => "REVIEW_REQUIRED"
  | .quarantine => "QUARANTINE"
  | .deny => "DENY"
  | .revoked => "REVOKED"

def severity : Decision → Nat
  | .allow => 0
  | .allowWithWarnings => 1
  | .reviewRequired => 2
  | .quarantine => 3
  | .deny => 4
  | .revoked => 5

def isAllowed (d : Decision) : Bool := d = .allow || d = .allowWithWarnings

theorem isAllowed_iff {d : Decision} : d.isAllowed = true ↔ d.severity ≤ 1 := by
  cases d <;> decide

end Decision

/-- `ACTION_TO_DECISION`. -/
def RuleAction.decision : RuleAction → Decision
  | .warn => .allowWithWarnings
  | .review => .reviewRequired
  | .quarantine => .quarantine
  | .deny => .deny

structure RuleConfig where
  enabled : Bool
  onFail : RuleAction
  /-- Only read by the rules that count findings. -/
  maxCount : Nat
deriving DecidableEq

structure PolicyDocument where
  version : Str
  name : Str
  rules : List (Str × RuleConfig)
deriving DecidableEq

/-- The configuration of a rule that the policy has and enables. -/
def PolicyDocument.enabledRule (policy : PolicyDocument) (name : RuleName) : Option RuleConfig :=
  (policy.rules.lookup (str name.value)).filter (·.enabled)

structure RuleResult where
  rule : Str
  enabled : Bool
  passed : Bool
  action : Option RuleAction
  message : Str
deriving DecidableEq

structure PolicyDecisionResult where
  decision : Decision
  policyName : Str
  policyVersion : Str
  subject : Str
  ruleResults : List RuleResult
  evaluationId : Str
deriving DecidableEq

/-- The `failed_rules` property. -/
def PolicyDecisionResult.failedRules (r : PolicyDecisionResult) : List RuleResult :=
  r.ruleResults.filter fun r => r.enabled && !r.passed

end ModelGuard.Policy
