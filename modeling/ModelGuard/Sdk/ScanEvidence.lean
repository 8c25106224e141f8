import ModelGuard.Policy.Results
import ModelGuard.Sdk.Allowed
import ModelGuard.Sdk.PolicyCheck

/-!
# What a count rule knows about the scan

A scanner that raises contributes no finding, and the context says only that a scan was performed. So a
count rule fails on what the other scanners found, or not at all.
-/

namespace ModelGuard.Sdk

open Lib Lib.Fallible ModelGuard.Mbom ModelGuard.Policy ModelGuard.Scanning ModelGuard.Signing

variable {α : Type} {env : Env α} {guard : Guard α} {scanners : List (Scanner α)} {scans : DefaultScans α}
  {clock : AwareDatetime} {evaluationId : Str} {artifact : Artifact α} {files : Files} {check : PolicyCheck}
  {mbom : MLBOM} {envelope : SignatureEnvelope} {policy : PolicyDocument}

/-- The rules that bound a number of findings, with the severity they count. -/
def countRules : List (RuleName × Severity) := [(.maxCriticalFindings, .critical), (.maxHighFindings, .high)]

/-- The manifest and the ML-BOM of a call are those that every scanner is given. -/
def SomeScannerRaises (scanners : List (Scanner α)) (artifact : Artifact α) (manifest : Manifest) (mbom : MLBOM) : Prop :=
  ∃ scanner ∈ scanners, scanner.Raises artifact (some manifest) (some mbom)

def countFound (scanners : List (Scanner α)) (artifact : Artifact α) (manifest : Manifest) (mbom : MLBOM)
    (severity : Severity) : Nat :=
  ((foundBy scanners artifact (some manifest) (some mbom)).filter (·.severity = severity)).length

/-- Some scanner has the status `error`. -/
def ScannerErrored (report : ScanReport) : Prop := ∃ name, report.scannerStatuses.lookup name = some .error

theorem scannerErrored_iff (c : Checked env guard (defaultScanners scans) clock evaluationId artifact files check mbom envelope policy) :
    ScannerErrored check.scanReport ↔
      SomeScannerRaises (defaultScanners scans) artifact (policyManifest artifact check.verification envelope) mbom := by
  unfold ScannerErrored SomeScannerRaises
  simp only [runScanners_status (defaultScanners_distinct scans) c.scanned]
  constructor
  · rintro ⟨_, scanner, member, -, raised⟩
    exact ⟨scanner, member, raised⟩
  · rintro ⟨scanner, member, raised⟩
    exact ⟨scanner.name, scanner, member, rfl, raised⟩

/-- A count rule compares its bound with what the scanners that returned have found. -/
theorem countRule_passed (c : Checked env guard scanners clock evaluationId artifact files check mbom envelope policy)
    (rule : RuleName × Severity) (counts : rule ∈ countRules) :
    ReportsPassed check.decision rule.1 ↔ ∃ config ∈ policy.enabledRule rule.1,
      countFound scanners artifact (policyManifest artifact check.verification envelope) mbom rule.2 ≤ config.maxCount := by
  have found : ∀ severity, check.scanReport.count severity =
      countFound scanners artifact (policyManifest artifact check.verification envelope) mbom severity := by
    intro severity
    unfold ScanReport.count countFound
    rw [runScanners_findings c.scanned]
  rw [c.evaluated]
  rcases List.mem_cons.mp counts with critical | rest
  · subst critical
    refine (reportsPassed_iff (.maxCriticalFindings, checkMaxCriticalFindings) (check_listed .maxCriticalFindings)).trans ?_
    simp [checkMaxCriticalFindings, countCheck_fst, policyContext, buildContext, found]
  · have high := List.mem_singleton.mp rest
    subst high
    refine (reportsPassed_iff (.maxHighFindings, checkMaxHighFindings) (check_listed .maxHighFindings)).trans ?_
    simp [checkMaxHighFindings, countCheck_fst, policyContext, buildContext, found]

/-- An errored scan keeps the count rules from passing only where no scanner raises, or where the scanners
that returned already exceed every enabled bound. -/
theorem errored_scan_fails_count_rules_iff
    (checked : checkPolicyDetailed env guard (defaultScanners scans) clock evaluationId artifact files = .ok check) :
    ∃ mbom envelope policy,
      Checked env guard (defaultScanners scans) clock evaluationId artifact files check mbom envelope policy ∧
        ((ScannerErrored check.scanReport → ∀ rule ∈ countRules, ¬ ReportsPassed check.decision rule.1) ↔
          (SomeScannerRaises (defaultScanners scans) artifact (policyManifest artifact check.verification envelope) mbom →
            ∀ rule ∈ countRules, ∀ config ∈ policy.enabledRule rule.1, config.maxCount <
              countFound (defaultScanners scans) artifact (policyManifest artifact check.verification envelope) mbom
                rule.2)) := by
  obtain ⟨mbom, envelope, policy, c⟩ := checkPolicyDetailed_returned.mp checked
  refine ⟨mbom, envelope, policy, c, ?_⟩
  rw [scannerErrored_iff c]
  refine imp_congr_right fun _ => forall₂_congr fun rule counts => ?_
  rw [countRule_passed c rule counts]
  push Not
  exact Iff.rfl

/-! ### A scanner that crashes on every artifact -/

/-- A scanner that cannot read its input. -/
def unreadable : DefaultScans LegacyFile where
  unsafeSerialization := fun artifact _ _ => .error (.external (str "PermissionError") artifact.path)
  secrets := fun _ _ _ => .ok []
  metadataCompleteness := fun _ _ _ => .ok []

def noCriticalFindings : PolicyDocument where
  version := str "1"
  name := str "no critical findings"
  rules := [(str "max_critical_findings", { enabled := true, onFail := .deny, maxCount := 0 })]

def scannedFiles : Files where
  policyMbom := .ok legacyMbom
  mbom := .ok legacyMbom
  signature := .ok legacyEnvelope
  policySignature := .ok legacyEnvelope
  policy := .ok noCriticalFindings

/-- The manifest that the scanners are given. -/
def legacyManifest : Manifest := policyManifest legacyArtifact (legacyResult none) legacyEnvelope

theorem unreadable_checked :
    ∃ check, Checked legacyEnv (legacyGuard fun _ _ => .ok none) (defaultScanners unreadable) legacyClock
      (str "evaluation") legacyArtifact scannedFiles check legacyMbom legacyEnvelope noCriticalFindings := by
  have scanned : ∃ report, runScanners legacyEnv legacyArtifact (some legacyManifest) (some legacyMbom)
      (defaultScanners unreadable) (some (legacyResult none).artifactDigest) = .ok report := ⟨_, rfl⟩
  obtain ⟨scanReport, scanned⟩ := scanned
  exact ⟨⟨evaluate (policyContext legacyManifest legacyMbom (legacyResult none) scanReport) noCriticalFindings
    (str "evaluation"), legacyResult none, scanReport⟩, rfl, verify_legacy rfl, rfl, scanned, rfl, rfl⟩

theorem errored_scan_fails_count_rules_iff_unreadable :
    ∃ check, ∃ mbom envelope policy,
      Checked legacyEnv (legacyGuard fun _ _ => .ok none) (defaultScanners unreadable) legacyClock (str "evaluation")
        legacyArtifact scannedFiles check mbom envelope policy ∧
        ((ScannerErrored check.scanReport → ∀ rule ∈ countRules, ¬ ReportsPassed check.decision rule.1) ↔
          (SomeScannerRaises (defaultScanners unreadable) legacyArtifact
              (policyManifest legacyArtifact check.verification envelope) mbom →
            ∀ rule ∈ countRules, ∀ config ∈ policy.enabledRule rule.1, config.maxCount <
              countFound (defaultScanners unreadable) legacyArtifact
                (policyManifest legacyArtifact check.verification envelope) mbom rule.2)) := by
  obtain ⟨check, c⟩ := unreadable_checked
  exact ⟨check, errored_scan_fails_count_rules_iff (checkPolicyDetailed_returned.mpr ⟨_, _, _, c⟩)⟩

/-- The scanner crashes, and the rule passes on zero findings. -/
theorem crashed_scanner_passes_count_rule :
    ∃ check, checkPolicyDetailed legacyEnv (legacyGuard fun _ _ => .ok none) (defaultScanners unreadable) legacyClock
        (str "evaluation") legacyArtifact scannedFiles = .ok check ∧ ScannerErrored check.scanReport ∧
      ReportsPassed check.decision .maxCriticalFindings := by
  obtain ⟨check, c⟩ := unreadable_checked
  refine ⟨check, checkPolicyDetailed_returned.mpr ⟨_, _, _, c⟩, (scannerErrored_iff c).mpr ?_, ?_⟩
  · exact ⟨_, List.mem_cons_self, _, rfl⟩
  · have counted := countRule_passed c (.maxCriticalFindings, .critical) List.mem_cons_self
    exact counted.mpr ⟨{ enabled := true, onFail := .deny, maxCount := 0 }, by decide, Nat.le_refl 0⟩

end ModelGuard.Sdk
