import ModelGuard.Policy.Results
import ModelGuard.Scanning.Runner

/-!
# A more severe scan

Both count rules count the findings of exactly one severity. So a finding that is raised from HIGH to
CRITICAL leaves one count for the other, and only the sum of the two follows the report.
-/

namespace ModelGuard.Scanning

variable {r r' : ScanReport}

def Severity.rank : Severity → Nat
  | .info => 0
  | .low => 1
  | .medium => 2
  | .high => 3
  | .critical => 4

/-- `r'` is `r` with findings added and severities raised. -/
def MoreSevere (r r' : ScanReport) : Prop :=
  ∃ raised, List.Forall₂ (fun f g => f.severity.rank ≤ g.severity.rank) r.findings raised ∧
    raised.Subperm r'.findings

/-- How many findings are at least this severe. -/
def countAtLeast (level : Nat) (findings : List Finding) : Nat :=
  findings.countP fun f => decide (level ≤ f.severity.rank)

theorem countAtLeast_raised {level : Nat} {findings raised : List Finding}
    (h : List.Forall₂ (fun f g => f.severity.rank ≤ g.severity.rank) findings raised) :
    countAtLeast level findings ≤ countAtLeast level raised := by
  unfold countAtLeast
  induction h with
  | nil => exact Nat.le_refl _
  | @cons f g findings raised up _ ih =>
    rw [List.countP_cons, List.countP_cons]
    by_cases reached : level ≤ f.severity.rank
    · have still : level ≤ g.severity.rank := Nat.le_trans reached up
      simp only [reached, still, decide_true, if_true]
      omega
    · simp only [reached, decide_false, Bool.false_eq_true, if_false]
      omega

theorem MoreSevere.countAtLeast_le (h : MoreSevere r r') (level : Nat) :
    countAtLeast level r.findings ≤ countAtLeast level r'.findings := by
  obtain ⟨raised, up, sub⟩ := h
  exact Nat.le_trans (countAtLeast_raised up) (sub.countP_le _)

theorem count_eq {report : ScanReport} {severity : Severity} :
    report.count severity = report.findings.countP (·.severity = severity) := by
  unfold ScanReport.count
  exact List.countP_eq_length_filter.symm

theorem count_critical {report : ScanReport} : report.count .critical = countAtLeast 4 report.findings := by
  rw [count_eq]
  unfold countAtLeast
  apply List.countP_congr
  intro f _
  cases f.severity <;> decide

theorem count_high {report : ScanReport} :
    report.count .high + report.count .critical = countAtLeast 3 report.findings := by
  rw [count_eq, count_eq]
  unfold countAtLeast
  induction report.findings with
  | nil => rfl
  | cons f findings ih =>
    rw [List.countP_cons, List.countP_cons, List.countP_cons, ← ih]
    cases f.severity <;> simp [Severity.rank] <;> omega

end ModelGuard.Scanning

namespace ModelGuard.Policy

open Lib ModelGuard.Scanning

variable {ctx : PolicyEvaluationContext} {policy : PolicyDocument} {r r' : ScanReport} {level : Nat}

/-- The other facts, with the counts of a report. -/
def PolicyEvaluationContext.withCounts (ctx : PolicyEvaluationContext) (report : ScanReport) : PolicyEvaluationContext :=
  { ctx with
    criticalFindingCount := report.count .critical
    highFindingCount := report.count .high }

theorem high_passed {report : ScanReport} {config : RuleConfig} :
    (checkMaxHighFindings (ctx.withCounts report) config).1 = true ↔
      ctx.scanPerformed = true ∧ report.count .high ≤ config.maxCount := by
  unfold checkMaxHighFindings
  rw [countCheck_fst]
  exact and_congr_right fun _ => Nat.cast_le

/-- No rule but the one that counts HIGH findings passes because the report got worse. -/
theorem failure_kept (worse : MoreSevere r r') {config : RuleConfig}
    {rule : RuleName × (PolicyEvaluationContext → RuleConfig → Bool × Str)} (listed : rule ∈ ruleChecks)
    (other : rule.1 ≠ .maxHighFindings) (failed : (rule.2 (ctx.withCounts r) config).1 = false) :
    (rule.2 (ctx.withCounts r') config).1 = false := by
  have more := worse.countAtLeast_le 4
  rw [← count_critical, ← count_critical] at more
  simp only [ruleChecks, List.mem_cons, List.not_mem_nil, or_false] at listed
  obtain same | same | same | same | same | same | same | same := listed
  case inr.inr.inr.inr.inr.inr.inl =>
    subst same
    unfold checkMaxCriticalFindings at failed ⊢
    rw [Bool.eq_false_iff, ne_eq, countCheck_fst] at failed ⊢
    intro passed
    apply failed
    exact ⟨passed.1, Int.le_trans (Int.ofNat_le.mpr more) passed.2⟩
  case inr.inr.inr.inr.inr.inr.inr =>
    subst same
    exact absurd rfl other
  all_goals
    subst same
    exact failed

theorem triggers_kept (worse : MoreSevere r r')
    {rule : RuleName × (PolicyEvaluationContext → RuleConfig → Bool × Str)} (listed : rule ∈ ruleChecks)
    (other : rule.1 ≠ .maxHighFindings) (h : Triggers (ctx.withCounts r) policy level rule) :
    Triggers (ctx.withCounts r') policy level rule := by
  obtain ⟨config, on, failed, severe⟩ := h
  exact ⟨config, on, failure_kept worse listed other failed, severe⟩

/-- What the rule that counts HIGH findings triggered with `r` is matched with `r'`. -/
def HighMatched (ctx : PolicyEvaluationContext) (policy : PolicyDocument) (r r' : ScanReport) : Prop :=
  ∀ config ∈ policy.enabledRule .maxHighFindings, ctx.scanPerformed = true → config.maxCount < r.count .high →
    r'.count .high ≤ config.maxCount →
      config.onFail.decision.severity ≤ (integrityGate ctx).2.severity ∨
        ∃ rule ∈ ruleChecks, Triggers (ctx.withCounts r') policy config.onFail.decision.severity rule

/-- The HIGH rule that failed with `r` either still fails with `r'`, or is matched. -/
theorem triggers_high (matched : HighMatched ctx policy r r')
    (h : Triggers (ctx.withCounts r) policy level (.maxHighFindings, checkMaxHighFindings)) :
    level ≤ (integrityGate ctx).2.severity ∨ ∃ rule ∈ ruleChecks, Triggers (ctx.withCounts r') policy level rule := by
  obtain ⟨config, on, failed, severe⟩ := h
  have severe : level ≤ config.onFail.decision.severity := severe
  by_cases passes : (checkMaxHighFindings (ctx.withCounts r') config).1 = true
  · have within := high_passed.mp passes
    have beyond : config.maxCount < r.count .high := by
      apply Nat.not_le.mp
      intro le
      exact absurd (high_passed.mpr ⟨within.1, le⟩) (Bool.eq_false_iff.mp failed)
    obtain gate | ⟨rule, listed, config', on', failed', severe'⟩ := matched config on within.1 beyond within.2
    · exact .inl (Nat.le_trans severe gate)
    · exact .inr ⟨rule, listed, config', on', failed', Nat.le_trans severe severe'⟩
  · have failing : (checkMaxHighFindings (ctx.withCounts r') config).1 = false := Bool.eq_false_iff.mpr passes
    exact .inr ⟨(.maxHighFindings, checkMaxHighFindings), check_listed .maxHighFindings, config, on, failing, severe⟩

theorem severity_le_of_matched (worse : MoreSevere r r') (matched : HighMatched ctx policy r r') (id id' : Str) :
    (evaluate (ctx.withCounts r) policy id).decision.severity ≤
      (evaluate (ctx.withCounts r') policy id').decision.severity := by
  rw [le_evaluate_severity]
  obtain gate | ⟨rule, listed, triggers⟩ := le_evaluate_severity.mp
    (Nat.le_refl (evaluate (ctx.withCounts r) policy id).decision.severity)
  · exact .inl gate
  · by_cases high : rule.1 = .maxHighFindings
    · have highListed : (RuleName.maxHighFindings, checkMaxHighFindings) ∈ ruleChecks :=
        check_listed .maxHighFindings
      have same := ruleChecks_unique listed highListed high
      subst same
      exact triggers_high matched triggers
    · exact .inr ⟨rule, listed, triggers_kept worse listed high triggers⟩

/-- While the count of HIGH findings does not drop, a worse report is never decided more mildly. -/
theorem severity_le_of_count (worse : MoreSevere r r') (kept : r.count .high ≤ r'.count .high) (id id' : Str) :
    (evaluate (ctx.withCounts r) policy id).decision.severity ≤
      (evaluate (ctx.withCounts r') policy id').decision.severity := by
  apply severity_le_of_matched worse
  intro config _ _ beyond within
  exact absurd (Nat.le_trans kept within) (Nat.not_le.mpr beyond)

/-- A worse report is decided more mildly exactly when HIGH findings that were over the bound became CRITICAL
and nothing else that fails is as severe. -/
theorem more_severe_scan_iff (worse : MoreSevere r r') (id id' : Str) :
    (evaluate (ctx.withCounts r) policy id).decision.severity ≤
        (evaluate (ctx.withCounts r') policy id').decision.severity ↔ HighMatched ctx policy r r' := by
  constructor
  · intro kept config on _ beyond _
    have failed : (checkMaxHighFindings (ctx.withCounts r) config).1 = false := by
      rw [Bool.eq_false_iff, ne_eq, high_passed]
      intro passed
      exact absurd passed.2 (Nat.not_le.mpr beyond)
    have reached : config.onFail.decision.severity ≤ (evaluate (ctx.withCounts r) policy id).decision.severity := by
      rw [le_evaluate_severity]
      exact .inr ⟨(.maxHighFindings, checkMaxHighFindings), check_listed .maxHighFindings, config, on, failed, Nat.le_refl _⟩
    exact le_evaluate_severity.mp (Nat.le_trans reached kept)
  · intro matched
    exact severity_le_of_matched worse matched id id'

/-! ### One HIGH finding that becomes CRITICAL -/

def reportOf (severity : Severity) : ScanReport where
  artifactDigest := str "sha256:00"
  scannerStatuses := [(str "unsafe_serialization", .ok)]
  scannerErrors := []
  findings := [⟨severity⟩]

def noHighFindings : PolicyDocument where
  version := str "1"
  name := str "no high findings"
  rules := [(str "max_high_findings", { enabled := true, onFail := .deny, maxCount := 0 })]

def scannedContext : PolicyEvaluationContext where
  subject := str "m@1"
  signatureValid := true
  mbomValid := true
  revoked := false
  hasLicense := true
  hasDeclaredLineage := true
  scanPerformed := true
  criticalFindingCount := 0
  highFindingCount := 0
  artifactDigestMatches := some true
  signerTrusted := some true

theorem raised_moreSevere : MoreSevere (reportOf .high) (reportOf .critical) :=
  ⟨[⟨.critical⟩], .cons (by decide) .nil, List.Subperm.refl _⟩

theorem more_severe_scan_iff_raised :
    (evaluate (scannedContext.withCounts (reportOf .high)) noHighFindings []).decision.severity ≤
        (evaluate (scannedContext.withCounts (reportOf .critical)) noHighFindings []).decision.severity ↔
      HighMatched scannedContext noHighFindings (reportOf .high) (reportOf .critical) :=
  more_severe_scan_iff raised_moreSevere [] []

/-- The policy denies the report with the HIGH finding and allows the one with the CRITICAL finding. -/
theorem raised_finding_decided_more_mildly :
    ¬ ∀ (ctx : PolicyEvaluationContext) (policy : PolicyDocument) (r r' : ScanReport) (id id' : Str),
      r.artifactDigest = r'.artifactDigest → MoreSevere r r' →
        (evaluate (ctx.withCounts r) policy id).decision.severity ≤
          (evaluate (ctx.withCounts r') policy id').decision.severity := by
  intro claimed
  have kept := claimed scannedContext noHighFindings (reportOf .high) (reportOf .critical) [] [] rfl raised_moreSevere
  have denied : (evaluate (scannedContext.withCounts (reportOf .high)) noHighFindings []).decision.severity = 4 := by
    decide +kernel
  have allowed : (evaluate (scannedContext.withCounts (reportOf .critical)) noHighFindings []).decision.severity = 0 := by
    decide +kernel
  rw [denied, allowed] at kept
  exact absurd kept (by decide)

end ModelGuard.Policy
