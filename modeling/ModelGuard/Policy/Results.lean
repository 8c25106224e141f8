import ModelGuard.Policy.Engine

/-!
# What a decision reports about its rules

Each rule leaves one result, whatever the rules before it did.
-/

namespace ModelGuard.Policy

open Lib

variable {ctx : PolicyEvaluationContext} {policy : PolicyDocument}

/-- The result one round of the loop appends. -/
def ruleResult (ctx : PolicyEvaluationContext) (policy : PolicyDocument)
    (rule : RuleName × (PolicyEvaluationContext → RuleConfig → Bool × Str)) : RuleResult :=
  match policy.enabledRule rule.1 with
  | none =>
    { rule := str rule.1.value
      enabled := false
      passed := true
      action := none
      message := str "not configured" }
  | some config =>
    { rule := str rule.1.value
      enabled := true
      passed := (rule.2 ctx config).1
      action := some config.onFail
      message := (rule.2 ctx config).2 }

theorem evaluateRule_results {state : Evaluation}
    {rule : RuleName × (PolicyEvaluationContext → RuleConfig → Bool × Str)} :
    (evaluateRule ctx policy state rule).1 = state.1 ++ [ruleResult ctx policy rule] := by
  unfold evaluateRule ruleResult
  cases policy.enabledRule rule.1 with
  | none => rfl
  | some config => rfl

theorem foldl_results {rules : List (RuleName × (PolicyEvaluationContext → RuleConfig → Bool × Str))}
    {state : Evaluation} :
    (rules.foldl (evaluateRule ctx policy) state).1 = state.1 ++ rules.map (ruleResult ctx policy) := by
  induction rules generalizing state with
  | nil => simp
  | cons rule rules ih =>
    rw [List.foldl_cons, ih, evaluateRule_results, List.append_assoc]
    rfl

theorem evaluate_results {id : Str} :
    (evaluate ctx policy id).ruleResults = (integrityGate ctx).1 ++ ruleChecks.map (ruleResult ctx policy) := by
  unfold evaluate
  exact foldl_results

theorem integrityGate_failed {result : RuleResult} (h : result ∈ (integrityGate ctx).1) : result.passed = false := by
  unfold integrityGate at h
  split at h
  · have same := List.mem_singleton.mp h
    subst same
    rfl
  · cases h

theorem RuleName.value_injective : Function.Injective RuleName.value := by
  intro a b same
  cases a <;> cases b <;> first | rfl | exact absurd same (by decide)

/-- The decision says that the rule was enabled and that it passed. -/
def ReportsPassed (decision : PolicyDecisionResult) (name : RuleName) : Prop :=
  ∃ result ∈ decision.ruleResults, result.rule = str name.value ∧ result.enabled = true ∧ result.passed = true

theorem ruleChecks_unique {a b : RuleName × (PolicyEvaluationContext → RuleConfig → Bool × Str)}
    (ha : a ∈ ruleChecks) (hb : b ∈ ruleChecks) (same : a.1 = b.1) : a = b := by
  have names : (ruleChecks.map Prod.fst).Nodup := by decide
  exact List.inj_on_of_nodup_map names ha hb same

theorem reportsPassed_iff {id : Str} (rule : RuleName × (PolicyEvaluationContext → RuleConfig → Bool × Str))
    (listed : rule ∈ ruleChecks) :
    ReportsPassed (evaluate ctx policy id) rule.1 ↔ ∃ config ∈ policy.enabledRule rule.1, (rule.2 ctx config).1 = true := by
  unfold ReportsPassed
  rw [evaluate_results]
  constructor
  · rintro ⟨result, member, name, enabled, passed⟩
    rcases List.mem_append.mp member with gate | round
    · rw [integrityGate_failed gate] at passed
      cases passed
    · obtain ⟨other, otherListed, made⟩ := List.mem_map.mp round
      subst made
      unfold ruleResult at name enabled passed
      split at name
      · rename_i off
        rw [off] at enabled
        cases enabled
      · rename_i config on
        have same := ruleChecks_unique otherListed listed (RuleName.value_injective (str_injective name))
        subst same
        rw [on] at passed
        exact ⟨config, on, passed⟩
  · rintro ⟨config, on, passed⟩
    have on : policy.enabledRule rule.1 = some config := on
    refine ⟨ruleResult ctx policy rule, List.mem_append_right _ (List.mem_map_of_mem listed), ?_⟩
    unfold ruleResult
    rw [on]
    exact ⟨rfl, rfl, passed⟩

/-! ### The rules one by one -/

theorem triggered_mild {name : RuleName} {config : RuleConfig} :
    (triggered name config).severity ≤ 1 ↔ name ≠ .rejectRevokedModels ∧ config.onFail = .warn := by
  unfold triggered
  split
  · rename_i revocation
    simp [revocation, Decision.severity]
  · rename_i other
    cases action : config.onFail <;> simp [other, RuleAction.decision, Decision.severity]

theorem factCheck_fst (holds : Bool) (found missing : String) : (factCheck holds found missing).1 = holds := by
  unfold factCheck
  cases holds <;> rfl

section Facts

variable {config : RuleConfig}

theorem requireMlBom_fst : (checkRequireMlBom ctx config).1 = ctx.mbomValid := factCheck_fst _ _ _

theorem requireKnownLineage_fst : (checkRequireKnownLineage ctx config).1 = ctx.hasDeclaredLineage := factCheck_fst _ _ _

theorem requireLicense_fst : (checkRequireLicense ctx config).1 = ctx.hasLicense := factCheck_fst _ _ _

theorem rejectRevokedModels_fst : (checkRejectRevokedModels ctx config).1 = !ctx.revoked := factCheck_fst _ _ _

end Facts

theorem countCheck_fst {rule severity : String} {performed : Bool} {count : Int} {config : RuleConfig} :
    (countCheck rule severity performed count config).1 = true ↔ performed = true ∧ count ≤ config.maxCount := by
  unfold countCheck
  cases performed with
  | false => simp
  | true =>
    simp only [Bool.not_true, Bool.false_eq_true, ↓reduceIte, true_and]
    split
    · rename_i within
      simp [within]
    · rename_i beyond
      simp [beyond]

end ModelGuard.Policy
