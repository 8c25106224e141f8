import ModelGuard.Deployment.Gate
import ModelGuard.Hashing.Identity
import ModelGuard.Scanning.Patterns
import ModelGuard.Scanning.Reported
import ModelGuard.Sdk.ScanEvidence

/-!
# What an admitted artifact does not hold

Where admission hashes the artifact itself, the scanners open the files whose digests the signed digest is made
of, and no others.
-/

namespace ModelGuard.Deployment

open Lib Lib.Fallible Lib.Node ModelGuard.Hashing ModelGuard.Mbom ModelGuard.Policy ModelGuard.Scanning ModelGuard.Sdk
  ModelGuard.Signing

variable {α : Type}

/-- The files that a scan opens are those that the signed digest covers. -/
structure Covered (env : Env α) (artifact : Artifact α) (envelope : SignatureEnvelope) (d : ArtifactDigest) : Prop where
  hashed : hashArtifact env.sha env.disk artifact.name artifact.node = .ok d
  signed : digestRef d.digest = envelope.payload.artifactDigest
  listed : d.files.Perm ((openedFiles artifact).map (fileDigest env.sha env.disk))
  followed : unfollowed artifact = []

/-- The findings of a scan are within the bounds that the policy enforces. -/
structure Screened (unicode : Unicode) (disk : Disk α) (artifact : Artifact α) (policy : PolicyDocument) : Prop where
  critical : ∀ config ∈ policy.enabledRule .maxCriticalFindings, config.onFail ≠ .warn →
    leakCount unicode.word disk artifact .critical ≤ config.maxCount
  high : ∀ config ∈ policy.enabledRule .maxHighFindings, config.onFail ≠ .warn →
    leakCount unicode.word disk artifact .high + pickleNamedCount unicode.lower artifact ≤ config.maxCount

/-- No file is read as text that holds a private key or an access key. -/
def NoKeys (unicode : Unicode) (disk : Disk α) (artifact : Artifact α) : Prop :=
  ∀ e ∈ openedFiles artifact, ∀ text ∈ textOf disk e.2,
    ¬HasToken unicode.word [str "AKIA"] isKeyIdChar 16 16 text ∧ ¬HasPrivateKeyHeader text

/-! ### The files that are hashed -/

theorem hashArtifact_covers {sha : Sha256} {disk : Disk α} {artifact : Artifact α} {d : ArtifactDigest}
    (hashed : hashArtifact sha disk artifact.name artifact.node = .ok d) :
    d.files.Perm ((openedFiles artifact).map (fileDigest sha disk)) ∧ unfollowed artifact = [] := by
  unfold openedFiles unfollowed
  cases found : artifact.node with
  | none =>
    rw [found] at hashed
    cases hashed
  | some n =>
    rw [found] at hashed
    cases n with
    | file a =>
      obtain ⟨-, same⟩ := hashFile_ok.mp hashed
      subst same
      exact ⟨List.Perm.refl _, rfl⟩
    | symlink t => cases t <;> cases hashed
    | dir l entries =>
      have hashed : hashDirectory sha disk (.dir l entries) = .ok d := hashed
      unfold hashDirectory at hashed
      obtain ⟨files, walked, made⟩ := bind_ok.mp hashed
      obtain ⟨clean, perm⟩ := walk_ok walked
      have made : directoryDigest sha files = d := by
        cases none : files.isEmpty with
        | true =>
          rw [none] at made
          cases made
        | false =>
          rw [none] at made
          exact Except.ok.inj made
      rw [← made]
      refine ⟨(sortFiles_perm files).trans perm, symlinks_nil (everywhere_mono ?_ clean) []⟩
      intro n hashable
      cases n with
      | file a => rfl
      | symlink t => cases hashable
      | dir l entries => rfl

/-! ### The rules that bound the findings -/

variable {unicode : Unicode} {env : Env α} {guard : Guard α} {clock : AwareDatetime} {correlationId evaluationId : Str}
  {artifact : Artifact α} {files : Files} {actor : Str} {auditLog : AuditLog} {check : PolicyCheck} {mbom : MLBOM}
  {envelope : SignatureEnvelope} {policy : PolicyDocument} {scanners : List (Scanner α)}

theorem admitted_checked
    (admitted : (admitArtifact env guard scanners clock correlationId evaluationId artifact files actor auditLog).admitted = true) :
    ∃ check mbom envelope policy, Checked env guard scanners clock evaluationId artifact files check mbom envelope policy ∧
      objections check = [] := by
  unfold admitArtifact at admitted
  split at admitted
  · cases finish_admitted admitted
  · split at admitted
    · cases finish_admitted admitted
    · rename_i check checked
      obtain ⟨mbom, envelope, policy, c⟩ := checkPolicyDetailed_returned.mp checked
      exact ⟨check, mbom, envelope, policy, c, List.isEmpty_iff.mp (finish_admitted admitted)⟩

/-- A bound that is enforced holds of the report. -/
theorem bound_enforced (c : Checked env guard scanners clock evaluationId artifact files check mbom envelope policy)
    (allowed : check.decision.decision.isAllowed = true) {rule : RuleName × Severity} (counts : rule ∈ countRules)
    {config : RuleConfig} (enabled : config ∈ policy.enabledRule rule.1) (strict : config.onFail ≠ .warn) :
    check.scanReport.count rule.2 ≤ config.maxCount := by
  rw [c.evaluated, evaluate_allowed] at allowed
  obtain ⟨-, tolerated⟩ := allowed
  rcases List.mem_cons.mp counts with critical | rest
  · subst critical
    have rule := tolerated (.maxCriticalFindings, checkMaxCriticalFindings) (check_listed .maxCriticalFindings) config enabled
    rw [triggered_mild] at rule
    exact Int.ofNat_le.mp (countCheck_fst.mp (rule.resolve_right fun mild => strict mild.2)).2
  · have high := List.mem_singleton.mp rest
    subst high
    have rule := tolerated (.maxHighFindings, checkMaxHighFindings) (check_listed .maxHighFindings) config enabled
    rw [triggered_mild] at rule
    exact Int.ofNat_le.mp (countCheck_fst.mp (rule.resolve_right fun mild => strict mild.2)).2

/-- The critical patterns are those of keys. -/
theorem critical_leak_iff {disk : Disk α} :
    leakCount unicode.word disk artifact .critical = 0 ↔ NoKeys unicode disk artifact := by
  unfold NoKeys
  rw [leakCount_eq_zero]
  refine forall₂_congr fun e _ => ?_
  simp only [secretPatterns, List.forall_mem_cons, List.not_mem_nil, false_implies, implies_true, and_true]
  constructor
  · rintro ⟨access, key, -, -⟩ text read
    exact ⟨fun held => access rfl ⟨text, read, awsAccessKeyId_occurs.mpr held⟩,
      fun held => key rfl ⟨text, read, pemPrivateKey_occurs.mpr held⟩⟩
  · intro none
    refine ⟨?_, ?_, ?_, ?_⟩
    · rintro - ⟨text, read, found⟩
      exact (none text read).1 (awsAccessKeyId_occurs.mp found)
    · rintro - ⟨text, read, found⟩
      exact (none text read).2 (pemPrivateKey_occurs.mp found)
    · intro other
      cases other
    · intro other
      cases other

theorem verified_covered (direct : guard.hasher = .direct) {v : VerificationResult}
    (verified : verify env guard clock artifact files.mbom files.signature = .ok v) (digestMatches : v.digestMatches = true) :
    ∃ envelope d, files.signature = .ok envelope ∧ Covered env artifact envelope d := by
  obtain ⟨_, envelope, signature, outcome, revocation, -, readSignature, seen⟩ := verify_returned.mp verified
  rw [seen.reported] at digestMatches
  have covers : (digestFacts envelope outcome).isMatch = true := digestMatches
  cases outcome with
  | error message => cases covers
  | ok hashed =>
    have hashes := seen.outcome
    unfold Sdk.hash at hashes
    rw [direct] at hashes
    cases found : hashArtifact env.sha env.disk artifact.name artifact.node with
    | error e =>
      rw [found] at hashes
      rcases exceptModelGuardError_ok hashes with ⟨_, wrong, -⟩ | ⟨_, _, -, wrong⟩
      · cases wrong
      · cases wrong
    | ok d =>
      rw [found] at hashes
      have same : hashed.digest = d := congrArg CachedHashResult.digest (Except.ok.inj (Except.ok.inj hashes)).symm
      obtain ⟨listed, followed⟩ := hashArtifact_covers found
      refine ⟨envelope, d, readSignature, found, ?_, listed, followed⟩
      rw [← same]
      exact of_decide_eq_true covers

/-- An artifact that is admitted holds no more than the policy lets it hold, in the files that were signed. -/
theorem admitted_screened (direct : guard.hasher = .direct)
    (admitted : (admitArtifact env guard (defaultScanners (shippedScans unicode env)) clock correlationId evaluationId artifact
      files actor auditLog).admitted = true) :
    ∃ envelope policy d, files.signature = .ok envelope ∧ files.policy = .ok policy ∧ Covered env artifact envelope d ∧
      Screened unicode env.disk artifact policy ∧
      ∀ config ∈ policy.enabledRule .maxCriticalFindings, config.onFail ≠ .warn → config.maxCount = 0 →
        NoKeys unicode env.disk artifact := by
  obtain ⟨check, mbom, _, policy, c, clear⟩ := admitted_checked admitted
  obtain ⟨allowed, digestMatches, -⟩ := objections_nil.mp clear
  obtain ⟨envelope, d, readSignature, covered⟩ := verified_covered direct c.verified digestMatches
  have exact := shipped_scan_exact c.scanned
  have screened : Screened unicode env.disk artifact policy := by
    constructor
    · intro config enabled strict
      have bounded := @bound_enforced _ _ _ _ _ _ _ _ _ _ _ _ c allowed (.maxCriticalFindings, .critical) List.mem_cons_self _ enabled strict
      rwa [exact.critical] at bounded
    · intro config enabled strict
      have bounded := @bound_enforced _ _ _ _ _ _ _ _ _ _ _ _ c allowed (.maxHighFindings, .high)
        (List.mem_cons_of_mem _ List.mem_cons_self) _ enabled strict
      rwa [exact.high] at bounded
  refine ⟨envelope, policy, d, readSignature, c.loaded, covered, screened, ?_⟩
  intro config enabled strict none
  have bounded := screened.critical config enabled strict
  rw [none] at bounded
  exact critical_leak_iff.mp (Nat.le_zero.mp bounded)

/-! ### The legacy fixture under a policy that counts -/

/-- The gate with the scanners that ship, over `scannedFiles`. -/
def admitScanned : AdmissionDecision :=
  admitArtifact legacyEnv (legacyGuard fun _ _ => .ok none) (defaultScanners (shippedScans asciiUnicode legacyEnv)) legacyClock
    (str "deployment") (str "evaluation") legacyArtifact scannedFiles (str "deploy-bot") none

theorem legacy_noCritical : leakCount asciiUnicode.word legacyDisk legacyArtifact .critical = 0 := by decide +kernel

theorem admitScanned_admitted : admitScanned.admitted = true := by
  have scanned : ∃ report, runScanners legacyEnv legacyArtifact (some legacyManifest) (some legacyMbom)
      (defaultScanners (shippedScans asciiUnicode legacyEnv)) (some (legacyResult none).artifactDigest) = .ok report := ⟨_, rfl⟩
  obtain ⟨report, scanned⟩ := scanned
  have quiet : report.count .critical = 0 := (shipped_scan_exact scanned).critical.trans legacy_noCritical
  have checked : checkPolicyDetailed legacyEnv (legacyGuard fun _ _ => .ok none)
      (defaultScanners (shippedScans asciiUnicode legacyEnv)) legacyClock (str "evaluation") legacyArtifact scannedFiles =
        .ok ⟨evaluate (policyContext legacyManifest legacyMbom (legacyResult none) report) noCriticalFindings
          (str "evaluation"), legacyResult none, report⟩ :=
    checkPolicyDetailed_returned.mpr ⟨_, _, _, rfl, verify_legacy rfl, rfl, scanned, rfl, rfl⟩
  unfold admitScanned admitArtifact
  rw [if_neg (by simp [legacyGuard]), checked]
  refine List.isEmpty_iff.mpr (objections_nil.mpr ⟨evaluate_allowed.mpr ⟨by simp [policyContext, buildContext, legacyResult], ?_⟩, rfl, rfl⟩)
  intro rule mem config enabled
  have only : rule.1 = .maxCriticalFindings := by
    cases name : rule.1 with
    | maxCriticalFindings => rfl
    | _ =>
      rw [name] at enabled
      cases enabled
  have same : rule = (.maxCriticalFindings, checkMaxCriticalFindings) := by
    simp only [ruleChecks, List.mem_cons, List.not_mem_nil, or_false] at mem
    rcases mem with own | own | own | own | own | own | own | own
    all_goals
      subst own
      first | rfl | cases only
  subst same
  refine .inl (countCheck_fst.mpr ⟨rfl, ?_⟩)
  show (report.count .critical : Int) ≤ config.maxCount
  rw [quiet]
  exact Int.natCast_nonneg _

theorem admitted_screened_legacy :
    ∃ envelope policy d, scannedFiles.signature = .ok envelope ∧ scannedFiles.policy = .ok policy ∧
      Covered legacyEnv legacyArtifact envelope d ∧ Screened asciiUnicode legacyEnv.disk legacyArtifact policy ∧
      ∀ config ∈ policy.enabledRule .maxCriticalFindings, config.onFail ≠ .warn → config.maxCount = 0 →
        NoKeys asciiUnicode legacyEnv.disk legacyArtifact :=
  admitted_screened rfl admitScanned_admitted

end ModelGuard.Deployment
