import ModelGuard.Policy.Results

/-!
# A decision is the worst of what is triggered

What each rule asks for is said here without its check. The decision, the failed rules and how both follow a
change of the facts or of the policy are read from that.
-/

namespace ModelGuard.Policy

open Lib

variable {ctx ctx' : PolicyEvaluationContext} {policy policy' : PolicyDocument}

/-- The fact that the rule asks for does not hold. -/
def Fails (ctx : PolicyEvaluationContext) (config : RuleConfig) : RuleName → Prop
  | .requireValidSignature => ctx.signatureValid = false
  | .requireTrustedSigner => ctx.signerTrusted ≠ some true
  | .requireMlBom => ctx.mbomValid = false
  | .requireKnownLineage => ctx.hasDeclaredLineage = false
  | .requireLicense => ctx.hasLicense = false
  | .rejectRevokedModels => ctx.revoked = true
  | .maxCriticalFindings => ctx.scanPerformed = false ∨ config.maxCount < ctx.criticalFindingCount
  | .maxHighFindings => ctx.scanPerformed = false ∨ config.maxCount < ctx.highFindingCount

instance (ctx : PolicyEvaluationContext) (config : RuleConfig) (name : RuleName) : Decidable (Fails ctx config name) := by
  cases name <;> unfold Fails <;> infer_instance

/-- The rule is enabled, and fails. -/
def FailsIn (ctx : PolicyEvaluationContext) (policy : PolicyDocument) (name : RuleName) : Bool :=
  (policy.enabledRule name).any fun config => Fails ctx config name

/-- `KNOWN_RULE_NAMES`, in the order of the loop. -/
def ruleNames : List RuleName :=
  [.requireValidSignature, .requireTrustedSigner, .requireMlBom, .requireKnownLineage, .requireLicense,
    .rejectRevokedModels, .maxCriticalFindings, .maxHighFindings]

/-- DENY for an artifact that is not the signed one, REVOKED for a revoked model, and for every other rule what the
policy says. -/
def triggeredSeverities (ctx : PolicyEvaluationContext) (policy : PolicyDocument) : List Nat :=
  (if ctx.artifactDigestMatches = some false then [Decision.deny.severity] else []) ++
    ruleNames.flatMap fun name => ((policy.enabledRule name).filter fun config => Fails ctx config name).toList.map
      fun config => if name = .rejectRevokedModels then Decision.revoked.severity else config.onFail.decision.severity

/-- The names of what is triggered. -/
def triggeredNames (ctx : PolicyEvaluationContext) (policy : PolicyDocument) : List Str :=
  (if ctx.artifactDigestMatches = some false then [str "artifact_integrity"] else []) ++
    (ruleNames.filter (FailsIn ctx policy)).map fun name => str name.value

/-- No fact is better, and no count is smaller. -/
structure NoBetter (ctx ctx' : PolicyEvaluationContext) : Prop where
  signatureValid : ctx'.signatureValid = true → ctx.signatureValid = true
  mbomValid : ctx'.mbomValid = true → ctx.mbomValid = true
  revoked : ctx.revoked = true → ctx'.revoked = true
  hasLicense : ctx'.hasLicense = true → ctx.hasLicense = true
  hasDeclaredLineage : ctx'.hasDeclaredLineage = true → ctx.hasDeclaredLineage = true
  scanPerformed : ctx'.scanPerformed = true → ctx.scanPerformed = true
  criticalFindingCount : ctx.criticalFindingCount ≤ ctx'.criticalFindingCount
  highFindingCount : ctx.highFindingCount ≤ ctx'.highFindingCount
  artifactDigestMatches : ctx.artifactDigestMatches = some false → ctx'.artifactDigestMatches = some false
  signerTrusted : ctx'.signerTrusted = some true → ctx.signerTrusted = some true

/-- Every rule that is enabled stays so, with an action at least as severe and a bound no larger. -/
def NoWeaker (policy policy' : PolicyDocument) : Prop :=
  ∀ name, ∀ config ∈ policy.enabledRule name, ∃ config' ∈ policy'.enabledRule name,
    config.onFail.decision.severity ≤ config'.onFail.decision.severity ∧ config'.maxCount ≤ config.maxCount

/-! ### The checks decide it -/

theorem trustedSigner_fails (config : RuleConfig) :
    (checkRequireTrustedSigner ctx config).1 = false ↔ ctx.signerTrusted ≠ some true := by
  unfold checkRequireTrustedSigner
  split
  · rename_i unconfigured
    simp [unconfigured]
  · rename_i trusted known
    rw [factCheck_fst, known]
    cases trusted <;> simp

theorem check_fails (name : RuleName) (config : RuleConfig) : (name.check ctx config).1 = false ↔ Fails ctx config name := by
  have fact (holds : Bool) (found missing : String) : (factCheck holds found missing).1 = false ↔ holds = false := by
    rw [factCheck_fst]
  have count (rule severity : String) (performed : Bool) (count : Int) :
      (countCheck rule severity performed count config).1 = false ↔ performed = false ∨ config.maxCount < count := by
    rw [Bool.eq_false_iff, ne_eq, countCheck_fst, not_and_or, Bool.not_eq_true, Int.not_le]
  cases name with
  | requireValidSignature => exact fact _ _ _
  | requireTrustedSigner => exact trustedSigner_fails config
  | requireMlBom => exact fact _ _ _
  | requireKnownLineage => exact fact _ _ _
  | requireLicense => exact fact _ _ _
  | rejectRevokedModels =>
    unfold RuleName.check checkRejectRevokedModels Fails
    rw [fact, Bool.not_eq_false']
  | maxCriticalFindings => exact count _ _ _ _
  | maxHighFindings => exact count _ _ _ _

theorem ruleChecks_eq : ruleChecks = ruleNames.map fun name => (name, name.check) := rfl

theorem mem_ruleNames (name : RuleName) : name ∈ ruleNames := by cases name <;> decide

theorem triggers_iff {level : Nat} {name : RuleName} : Triggers ctx policy level (name, name.check) ↔
    ∃ config ∈ policy.enabledRule name, Fails ctx config name ∧ level ≤ (triggered name config).severity := by
  unfold Triggers
  simp only [check_fails]

theorem le_evaluate_severity_iff {level : Nat} {id : Str} :
    level ≤ (evaluate ctx policy id).decision.severity ↔ level ≤ (integrityGate ctx).2.severity ∨
      ∃ name, ∃ config ∈ policy.enabledRule name, Fails ctx config name ∧ level ≤ (triggered name config).severity := by
  rw [le_evaluate_severity, ruleChecks_eq]
  refine or_congr_right ?_
  constructor
  · rintro ⟨rule, listed, triggers⟩
    obtain ⟨name, -, same⟩ := List.mem_map.mp listed
    subst same
    exact ⟨name, triggers_iff.mp triggers⟩
  · rintro ⟨name, triggers⟩
    exact ⟨_, List.mem_map_of_mem (mem_ruleNames name), triggers_iff.mpr triggers⟩

/-- A rule that fails with more than a warning is enough. -/
theorem not_allowed_of_fails {id : Str} {name : RuleName} {config : RuleConfig} (enabled : config ∈ policy.enabledRule name)
    (fails : Fails ctx config name) (strict : 2 ≤ (triggered name config).severity) :
    (evaluate ctx policy id).decision.isAllowed = false := by
  have severe : 2 ≤ (evaluate ctx policy id).decision.severity :=
    le_evaluate_severity_iff.mpr (.inr ⟨name, config, enabled, fails, strict⟩)
  rw [Bool.eq_false_iff]
  intro allowed
  exact absurd (Decision.isAllowed_iff.mp allowed) (Nat.not_le.mpr severe)

theorem le_foldr_max {level : Nat} {l : List Nat} : level ≤ l.foldr max 0 ↔ level = 0 ∨ ∃ n ∈ l, level ≤ n := by
  induction l with
  | nil => simp
  | cons n l ih =>
    rw [List.foldr_cons, le_max_iff, ih]
    simp only [List.mem_cons, exists_eq_or_imp]
    tauto

theorem integrityGate_severity :
    (integrityGate ctx).2.severity = if ctx.artifactDigestMatches = some false then Decision.deny.severity else 0 := by
  unfold integrityGate
  split <;> rfl

theorem severity_eq (id : Str) :
    (evaluate ctx policy id).decision.severity = (triggeredSeverities ctx policy).foldr max 0 := by
  apply eq_of_forall_le_iff
  intro level
  rw [le_evaluate_severity_iff, le_foldr_max, integrityGate_severity]
  have action (name : RuleName) (config : RuleConfig) : (triggered name config).severity =
      if name = .rejectRevokedModels then Decision.revoked.severity else config.onFail.decision.severity := by
    unfold triggered
    split <;> rfl
  have rules : (∃ n ∈ ruleNames.flatMap fun name => ((policy.enabledRule name).filter fun config =>
        Fails ctx config name).toList.map fun config =>
          if name = .rejectRevokedModels then Decision.revoked.severity else config.onFail.decision.severity, level ≤ n) ↔
      ∃ name, ∃ config ∈ policy.enabledRule name, Fails ctx config name ∧ level ≤ (triggered name config).severity := by
    simp only [List.mem_flatMap, List.mem_map, Option.mem_toList, Option.filter_eq_some_iff, decide_eq_true_eq, action]
    constructor
    · rintro ⟨n, ⟨name, -, config, ⟨on, fails⟩, same⟩, le⟩
      exact ⟨name, config, on, fails, same ▸ le⟩
    · rintro ⟨name, config, on, fails, le⟩
      exact ⟨_, ⟨name, mem_ruleNames name, config, ⟨on, fails⟩, rfl⟩, le⟩
  unfold triggeredSeverities
  simp only [List.mem_append, or_and_right, exists_or, rules]
  split
  · simp only [List.mem_singleton, exists_eq_left]
    constructor
    · rintro (gate | rule)
      · exact .inr (.inl gate)
      · exact .inr (.inr rule)
    · rintro (zero | gate | rule)
      · exact .inl (zero ▸ Nat.zero_le _)
      · exact .inl gate
      · exact .inr rule
  · simp only [List.not_mem_nil, false_and, exists_false, false_or, Nat.le_zero]

/-! ### The rules that failed -/

theorem ruleResult_failed (name : RuleName) :
    ((ruleResult ctx policy (name, name.check)).enabled && !(ruleResult ctx policy (name, name.check)).passed) =
      FailsIn ctx policy name := by
  unfold ruleResult FailsIn
  cases policy.enabledRule name with
  | none => rfl
  | some config =>
    have fails : (name.check ctx config).1 = false ↔ Fails ctx config name := check_fails name config
    simp only [Option.any_some, Bool.true_and]
    rw [Bool.eq_iff_iff, Bool.not_eq_true', fails, decide_eq_true_eq]

theorem ruleResult_rule (name : RuleName) : (ruleResult ctx policy (name, name.check)).rule = str name.value := by
  unfold ruleResult
  cases policy.enabledRule name with
  | none => rfl
  | some config => rfl

theorem failedRules_eq (id : Str) :
    (evaluate ctx policy id).failedRules.map (·.rule) = triggeredNames ctx policy := by
  have gate : ((integrityGate ctx).1.filter fun r => r.enabled && !r.passed).map (·.rule) =
      if ctx.artifactDigestMatches = some false then [str "artifact_integrity"] else [] := by
    unfold integrityGate
    split <;> rfl
  have rules (names : List RuleName) :
      ((names.map fun name => ruleResult ctx policy (name, name.check)).filter fun r => r.enabled && !r.passed).map
        (·.rule) = (names.filter (FailsIn ctx policy)).map fun name => str name.value := by
    rw [List.filter_map, List.map_map]
    have same : ((fun r : RuleResult => r.enabled && !r.passed) ∘ fun name => ruleResult ctx policy (name, name.check)) =
        FailsIn ctx policy := funext fun name => ruleResult_failed name
    rw [same]
    exact List.map_congr_left fun name _ => ruleResult_rule name
  unfold PolicyDecisionResult.failedRules triggeredNames
  rw [evaluate_results, List.filter_append, List.map_append, gate, ruleChecks_eq, List.map_map]
  congr 1
  exact rules ruleNames

theorem severity_zero {d : Decision} : d = .allow ↔ d.severity ≤ 0 := by cases d <;> decide

theorem allow_iff (id : Str) : (evaluate ctx policy id).decision = .allow ↔ (evaluate ctx policy id).failedRules = [] := by
  have names : (evaluate ctx policy id).failedRules.map (·.rule) = triggeredNames ctx policy := failedRules_eq id
  have empty : (evaluate ctx policy id).failedRules = [] ↔ triggeredNames ctx policy = [] := by
    rw [← names, List.map_eq_nil_iff]
  have severe (name : RuleName) (config : RuleConfig) : 1 ≤ (triggered name config).severity := by
    unfold triggered
    split
    · decide
    · cases config.onFail <;> decide
  rw [empty, severity_zero, ← not_lt, ← Nat.succ_le_iff, le_evaluate_severity_iff, integrityGate_severity]
  unfold triggeredNames
  rw [List.append_eq_nil_iff, List.map_eq_nil_iff, List.filter_eq_nil_iff, not_or]
  apply and_congr
  · split <;> simp [Decision.severity]
  · constructor
    · intro quiet name _ fails
      unfold FailsIn at fails
      cases on : policy.enabledRule name with
      | none =>
        rw [on] at fails
        cases fails
      | some config =>
        rw [on] at fails
        exact quiet ⟨name, config, on, of_decide_eq_true fails, severe name config⟩
    · rintro none ⟨name, config, on, fails, -⟩
      apply none name (mem_ruleNames name)
      unfold FailsIn
      rw [Option.mem_def.mp on]
      exact decide_eq_true fails

/-! ### Worse facts and stronger policies -/

theorem Fails.worse (h : NoBetter ctx ctx') {config config' : RuleConfig} (bound : config'.maxCount ≤ config.maxCount)
    {name : RuleName} (fails : Fails ctx config name) : Fails ctx' config' name := by
  have lost {a b : Bool} (kept : b = true → a = true) (gone : a = false) : b = false := by
    cases b with
    | false => rfl
    | true => exact absurd (kept rfl) (by rw [gone]; decide)
  have more {count count' : Int} (le : count ≤ count')
      (fails : ctx.scanPerformed = false ∨ config.maxCount < count) :
      ctx'.scanPerformed = false ∨ config'.maxCount < count' := by
    rcases fails with unscanned | beyond
    · exact .inl (lost h.scanPerformed unscanned)
    · exact .inr (by omega)
  cases name with
  | requireValidSignature => exact lost h.signatureValid fails
  | requireTrustedSigner => exact fun trusted => fails (h.signerTrusted trusted)
  | requireMlBom => exact lost h.mbomValid fails
  | requireKnownLineage => exact lost h.hasDeclaredLineage fails
  | requireLicense => exact lost h.hasLicense fails
  | rejectRevokedModels => exact h.revoked fails
  | maxCriticalFindings => exact more h.criticalFindingCount fails
  | maxHighFindings => exact more h.highFindingCount fails

theorem severity_mono (worse : NoBetter ctx ctx') (stricter : NoWeaker policy policy') (id id' : Str) :
    (evaluate ctx policy id).decision.severity ≤ (evaluate ctx' policy' id').decision.severity := by
  rw [le_evaluate_severity_iff]
  rcases le_evaluate_severity_iff.mp (Nat.le_refl (evaluate ctx policy id).decision.severity) with
    gate | ⟨name, config, on, fails, severe⟩
  · left
    rw [integrityGate_severity] at gate ⊢
    split at gate
    · rename_i differs
      rwa [if_pos (worse.artifactDigestMatches differs)]
    · exact Nat.le_trans gate (Nat.zero_le _)
  · right
    obtain ⟨config', on', action, bound⟩ := stricter name config on
    refine ⟨name, config', on', fails.worse worse bound, Nat.le_trans severe ?_⟩
    unfold triggered
    split
    · exact Nat.le_refl _
    · exact action

/-- A decision is exactly the worst of what is triggered, it lists exactly that, and it only gets worse with worse
facts and a stronger policy. -/
theorem evaluate_worst (ctx : PolicyEvaluationContext) (policy : PolicyDocument) (id : Str) :
    (evaluate ctx policy id).decision.severity = (triggeredSeverities ctx policy).foldr max 0 ∧
      (evaluate ctx policy id).failedRules.map (·.rule) = triggeredNames ctx policy ∧
      ((evaluate ctx policy id).decision = .allow ↔ (evaluate ctx policy id).failedRules = []) ∧
      ∀ ctx' policy' id', NoBetter ctx ctx' → NoWeaker policy policy' →
        (evaluate ctx policy id).decision.severity ≤ (evaluate ctx' policy' id').decision.severity :=
  ⟨severity_eq id, failedRules_eq id, allow_iff id, fun _ _ id' worse stricter => severity_mono worse stricter id id'⟩

end ModelGuard.Policy
