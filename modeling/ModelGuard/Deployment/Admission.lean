import ModelGuard.Sdk.Allowed
import ModelGuard.Sdk.PolicyCheck

/-!
# The deployment gate

`admit` turns every failure into a refusal. Whatever the policy enables, it asks for a matching digest and
a trusted signer; the ML-BOM and revocation reach it through the policy's rules.
-/

namespace ModelGuard.Deployment

open Lib Lib.Fallible ModelGuard.Policy ModelGuard.Registry ModelGuard.Scanning ModelGuard.Sdk ModelGuard.Signing

variable {α : Type}

structure AdmissionDecision where
  admitted : Bool
  reasons : List Str
  correlationId : Str
  decision : Option Decision
  subject : Option Str
  artifactDigest : Option Str
  evaluationId : Option Str
  revocationChecked : Bool
  digestFromCache : Bool
  audited : Bool
  error : Option Str
deriving DecidableEq

/-- One audit record of type `deployment.admission`. -/
structure AuditEvent where
  actor : Str
  subject : Str
  artifactDigest : Option Str
  success : Bool
  reason : Str
  correlationId : Str

/-- `LocalAuditLog(path).record`, where an audit log was requested. -/
abbrev AuditLog := Option (AuditEvent → Except Raised Unit)

/-- The fields that every decision starts from. -/
def undecided (correlationId : Str) : AdmissionDecision where
  admitted := false
  reasons := []
  correlationId := correlationId
  decision := none
  subject := none
  artifactDigest := none
  evaluationId := none
  revocationChecked := false
  digestFromCache := false
  audited := false
  error := none

def auditEvent (decision : AdmissionDecision) (actor : Str) : AuditEvent where
  actor := actor
  subject := textOr decision.subject "unknown"
  artifactDigest := decision.artifactDigest
  success := decision.admitted
  reason := if decision.reasons.isEmpty then str "admitted" else ((str "; ").intercalate decision.reasons).take 500
  correlationId := decision.correlationId

/-- `_finish`: a decision that cannot be recorded is not accepted. -/
def finish (decision : AdmissionDecision) (actor : Str) (auditLog : AuditLog) : AdmissionDecision :=
  match auditLog with
  | none => decision
  | some record =>
    match record (auditEvent decision actor) with
    | .ok () => { decision with audited := true }
    | .error e =>
      { decision with
        admitted := false
        reasons := decision.reasons ++ [str "The admission decision could not be written to the audit log (" ++
          e.className ++ str "); refusing to admit an unauditable deployment."]
        audited := false
        error := some e.className }

/-- The reasons against admitting what was checked. -/
def objections (check : PolicyCheck) : List Str :=
  (if check.decision.decision.isAllowed then []
    else (str "Policy decision was " ++ str check.decision.decision.value ++ str ".") ::
      check.decision.failedRules.map fun r => r.rule ++ str ": " ++ r.message) ++
  reasonIf (!check.verification.digestMatches) (str "The artifact does not match the digest bound in its signature.") ++
  reasonIf (check.verification.signerTrusted ≠ some true) (str "The artifact was not signed by a trusted key.")

/-- The decision on a check that returned. -/
def admissionOf (check : PolicyCheck) (correlationId : Str) : AdmissionDecision :=
  { undecided correlationId with
    admitted := (objections check).isEmpty
    reasons := objections check
    decision := some check.decision.decision
    subject := some check.decision.subject
    artifactDigest := if check.verification.digestMatches then some check.verification.artifactDigest else none
    evaluationId := some check.decision.evaluationId
    revocationChecked := check.verification.revocationChecked
    digestFromCache := check.verification.digestFromCache }

def noTrustRoots : Str :=
  str ("No trusted signer keys are configured. Admission requires an explicit trust root: construct " ++
    "ModelGuard(trusted_key_fingerprints=[...]) or ModelGuard(trust_config=...).")

/-- `admit`, with the identifiers it draws. -/
def admitArtifact (env : Env α) (guard : Guard α) (scanners : List (Scanner α)) (clock : AwareDatetime)
    (correlationId evaluationId : Str) (artifact : Artifact α) (files : Files) (actor : Str) (auditLog : AuditLog) :
    AdmissionDecision :=
  if guard.trust.isNone then
    finish { undecided correlationId with reasons := [noTrustRoots] } actor auditLog
  else
    match checkPolicyDetailed env guard scanners clock evaluationId artifact files with
    | .error e =>
      finish
        { undecided correlationId with
          reasons := [str "Admission check failed with " ++ e.className ++ str ": " ++ e.message]
          error := some e.className }
        actor auditLog
    | .ok check => finish (admissionOf check correlationId) actor auditLog

end ModelGuard.Deployment
