import ModelGuard.Deployment.Withdrawn
import ModelGuard.Registry.Lasting

/-!
# Deployments after a model is revoked

The revocation is a row of the registry that other clients write to at the same time. A check that reaches the
registry reports it, and one that does not reach it reports nothing.
-/

namespace ModelGuard.Deployment

open Lib Lib.Fallible ModelGuard.Cli ModelGuard.Mbom ModelGuard.Policy ModelGuard.Registry ModelGuard.Registry.System
  ModelGuard.Scanning ModelGuard.Sdk ModelGuard.Signing

variable {α F : Type}

/-- The registry says that the version is revoked, or says nothing. -/
def Refuses (isRevoked : RevocationCheck) (modelId version : Str) : Prop :=
  (∃ record, isRevoked modelId version = .ok (some record)) ∨ ∃ e, isRevoked modelId version = .error e

/-- The version that the signature is about. -/
structure Names (envelope : SignatureEnvelope) (modelId version : Str) : Prop where
  model : envelope.payload.modelId = some modelId
  versioned : envelope.payload.version = some version
  named : modelId ≠ [] ∧ version ≠ []

section Guard

variable {env : Env α} {guard : Guard α} {isRevoked : RevocationCheck} {modelId version : Str} {clock : AwareDatetime}
  {correlationId evaluationId : Str} {artifact : Artifact α} {files : Files} {envelope : SignatureEnvelope}
  {mbomFile : Except Raised MLBOM} {policy : PolicyDocument}

theorem Refuses.reported (refuses : Refuses isRevoked modelId version) (registry : guard.registry = some isRevoked)
    (names : Names envelope modelId version) {v : VerificationResult}
    (verified : verify env guard clock artifact mbomFile (.ok envelope) = .ok v) : v.revoked = true ∧ v.allowed = false := by
  obtain ⟨_, _, _, _, revocation, -, read, seen⟩ := verify_returned.mp verified
  cases read
  have consulted := seen.consulted
  unfold revocationFacts at consulted
  rw [registry, truthy_some.mpr ⟨names.model, names.named.1⟩, truthy_some.mpr ⟨names.versioned, names.named.2⟩] at consulted
  dsimp only at consulted
  obtain ⟨found, answered, facts⟩ := bind_ok.mp consulted
  have facts := pure_ok.mp facts
  rcases refuses with ⟨record, revoked⟩ | ⟨e, raised⟩
  · have same := Except.ok.inj (revoked.symm.trans answered)
    have revoked : v.revoked = true := by
      rw [seen.reported, ← facts, ← same]
      rfl
    refine ⟨revoked, Bool.eq_false_iff.mpr fun allowed => ?_⟩
    have clear := ((verify_conjunction verified).mp allowed).2.2.2.2
    rw [revoked] at clear
    cases clear
  · rw [raised] at answered
    cases answered

/-- Whatever the policy says should happen on a failure. -/
theorem Refuses.decided (refuses : Refuses isRevoked modelId version) (registry : guard.registry = some isRevoked)
    (signed : files.signature = .ok envelope) (names : Names envelope modelId version) {scanners : List (Scanner α)}
    {check : PolicyCheck} (checked : checkPolicyDetailed env guard scanners clock evaluationId artifact files = .ok check)
    (loaded : files.policy = .ok policy) (enabled : (policy.enabledRule .rejectRevokedModels).isSome = true) :
    check.decision.decision = .revoked := by
  obtain ⟨_, _, _, c⟩ := checkPolicyDetailed_returned.mp checked
  have same := Except.ok.inj (c.loaded.symm.trans loaded)
  subst same
  have verified := c.verified
  rw [signed] at verified
  obtain ⟨config, on⟩ := Option.isSome_iff_exists.mp enabled
  have worst : 5 ≤ check.decision.decision.severity := by
    rw [c.evaluated]
    refine le_evaluate_severity_iff.mpr (.inr ⟨.rejectRevokedModels, config, on, ?_, Nat.le_refl 5⟩)
    exact (refuses.reported registry names verified).1
  cases decision : check.decision.decision with
  | revoked => rfl
  | _ =>
    rw [decision] at worst
    exact absurd worst (by decide)

theorem Refuses.not_admitted (refuses : Refuses isRevoked modelId version) (registry : guard.registry = some isRevoked)
    (signed : files.signature = .ok envelope) (names : Names envelope modelId version) (loaded : files.policy = .ok policy)
    (enabled : (policy.enabledRule .rejectRevokedModels).isSome = true) (scanners : List (Scanner α)) (actor : Str)
    (auditLog : AuditLog) :
    (admitArtifact env guard scanners clock correlationId evaluationId artifact files actor auditLog).admitted = false := by
  rw [Bool.eq_false_iff]
  intro admitted
  obtain ⟨check, mbom, own, policy', c, clear⟩ := admitted_checked admitted
  have checked := checkPolicyDetailed_returned.mpr ⟨mbom, own, policy', c⟩
  have allowed := (objections_nil.mp clear).1
  rw [refuses.decided registry signed names checked loaded enabled] at allowed
  cases allowed

end Guard

theorem makeGuard_registry {process : Process F} {arguments : GuardArguments α} {guard : Guard α} {name : Str}
    {isRevoked : RevocationCheck} (made : makeGuard process arguments = .ok guard)
    (asked : arguments.registryDsnEnv = some name)
    (connects : process.postgresRegistry (process.environ name) = .ok isRevoked) : guard.registry = some isRevoked := by
  unfold makeGuard at made
  obtain ⟨_, -, made⟩ := bind_ok.mp made
  obtain ⟨registry, named, made⟩ := bind_ok.mp made
  rw [asked] at named
  unfold registryFromEnv at named
  obtain ⟨_, -, named⟩ := bind_ok.mp named
  obtain ⟨_, -, named⟩ := bind_ok.mp named
  rw [connects] at named
  have same : some isRevoked = registry := Except.ok.inj named
  subst same
  unfold constructGuard at made
  obtain ⟨_, -, made⟩ := bind_ok.mp made
  obtain ⟨_, -, made⟩ := bind_ok.mp made
  rw [← pure_ok.mp made]
  rfl

theorem valid_named {nfc : Str → Str} {s : Str} (valid : Valid nfc s) : s ≠ [] := by
  intro none
  subst none
  cases valid

/-- Once a `revoke` has returned, and while no `unrevoke` about the version does, in any interleaving with other
clients, `verify` and a policy that rejects revoked models refuse it, and no such policy admits it. -/
theorem revocation_stops_deployments {C : Type} [DecidableEq C] {registryEnv : RegistryEnv} {calls : C → RevocationCall}
    {s t : System C} (run : Run registryEnv calls start s) (later : Run registryEnv calls s t) {modelId version : Str} {c : C}
    (returns : Returns s t c) (revokes : (calls c).Revokes modelId version)
    (spared : ∀ d, Returns s t d → ¬(calls d).Unrevokes modelId version) {isRevoked : RevocationCheck}
    (answers : isRevoked modelId version = t.database.isRevoked registryEnv modelId version ∨
      ∃ e, isRevoked modelId version = .error e)
    (env : Env α) (artifact : Artifact α) {files : Files} {envelope : SignatureEnvelope} (signed : files.signature = .ok envelope)
    (model : envelope.payload.modelId = some modelId) (versioned : envelope.payload.version = some version) :
    (∀ (process : Process F) arguments name clock status, arguments.registryDsnEnv = some name →
        process.postgresRegistry (process.environ name) = .ok isRevoked →
        verifyCommand process arguments env clock artifact files.mbom files.signature = .exit status →
          status = exitDenied ∨ status = exitError) ∧
      ∀ policy, files.policy = .ok policy → (policy.enabledRule .rejectRevokedModels).isSome = true →
        (∀ (process : Process F) arguments name scanners clock evaluationId status, arguments.registryDsnEnv = some name →
          process.postgresRegistry (process.environ name) = .ok isRevoked →
          policyCheckCommand process arguments env scanners clock evaluationId artifact files = .exit status →
            status = exitRevoked ∨ status = exitError) ∧
        ∀ guard, guard.registry = some isRevoked → ∀ scanners clock correlationId evaluationId actor auditLog,
          (admitArtifact env guard scanners clock correlationId evaluationId artifact files actor auditLog).admitted = false := by
  have consistent := consistent_run (run.trans later)
  have revoked : Revoked t modelId version := (revoked_iff run later spared).mpr (.inr ⟨c, returns, revokes⟩)
  have names : Names envelope modelId version := by
    obtain ⟨row, last, -⟩ := revoked
    unfold lastEvent at last
    rw [consistent.serial.ascending] at last
    obtain ⟨mem, about⟩ := List.mem_filter.mp (List.mem_of_getLast? last)
    obtain ⟨sameModel, sameVersion⟩ := of_decide_eq_true about
    obtain ⟨valid, valid'⟩ := (consistent.admitted row mem).1
    exact ⟨model, versioned, sameModel ▸ valid_named valid, sameVersion ▸ valid_named valid'⟩
  have refuses : Refuses isRevoked modelId version := by
    rcases answers with same | raises
    · unfold Refuses
      rw [same]
      exact .inl ((isRevoked_iff t.database consistent.serial consistent.admitted modelId version).mpr revoked)
    · exact .inr raises
  refine ⟨?_, fun policy loaded enabled => ⟨?_, ?_⟩⟩
  · intro process arguments name clock status asked connects ended
    rcases exiting_status ended with outcome | failed
    · obtain ⟨guard, made, outcome⟩ := bind_ok.mp outcome
      obtain ⟨result, verified, found⟩ := bind_ok.mp outcome
      rw [signed] at verified
      rw [(refuses.reported (makeGuard_registry made asked connects) names verified).2] at found
      exact .inl (pure_ok.mp found).symm
    · exact .inr failed
  · intro process arguments name scanners clock evaluationId status asked connects ended
    rcases exiting_status ended with outcome | failed
    · obtain ⟨guard, made, outcome⟩ := bind_ok.mp outcome
      obtain ⟨check, checked, found⟩ := bind_ok.mp outcome
      rw [refuses.decided (makeGuard_registry made asked connects) signed names checked loaded enabled] at found
      exact .inl (pure_ok.mp found).symm
    · exact .inr failed
  · intro guard registry scanners clock correlationId evaluationId actor auditLog
    exact refuses.not_admitted registry signed names loaded enabled scanners actor auditLog

/-! ### The sample revocation -/

/-- The legacy signature, if it were about the version that is revoked. -/
def sampleEnvelope : SignatureEnvelope :=
  { legacyEnvelope with payload := { legacyPayload with modelId := some (str "m"), version := some (str "1") } }

def sampleFiles : Files := { legacyFiles with signature := .ok sampleEnvelope }

theorem sample_model_not_verified : ∃ t : System Unit, t.phase () = .returned ∧
    ∀ (process : Process AwareDatetime) arguments name clock status, arguments.registryDsnEnv = some name →
      process.postgresRegistry (process.environ name) = .ok (t.database.isRevoked (sampleEnv sampleSha)) →
      verifyCommand process arguments legacyEnv clock legacyArtifact sampleFiles.mbom sampleFiles.signature = .exit status →
        status = exitDenied ∨ status = exitError := by
  obtain ⟨t, run, returned⟩ := sample_run
  have returns : Returns (System.start : System Unit) t () := ⟨nofun, returned⟩
  have stops := @revocation_stops_deployments LegacyFile AwareDatetime Unit _ _ _ _ _ .refl run (str "m") (str "1") () returns
    ⟨rfl, rfl⟩ (fun _ _ => id) _ (.inl rfl) legacyEnv legacyArtifact sampleFiles sampleEnvelope rfl rfl rfl
  exact ⟨t, returned, stops.1⟩

end ModelGuard.Deployment
