import ModelGuard.Cli.Commands
import ModelGuard.Cli.Trust
import ModelGuard.Deployment.Scanned
import ModelGuard.Policy.Worst

/-!
# Deployments after a key is withdrawn

`modelguard trust` changes a file, and every later check reads it again. What the file no longer trusts no check
accepts, whatever other trust is configured beside it.
-/

namespace ModelGuard.Deployment

open Lib Lib.Fallible ModelGuard.Cli ModelGuard.Mbom ModelGuard.Policy ModelGuard.Scanning ModelGuard.Sdk
  ModelGuard.Signing

variable {α F : Type}

/-- The public key that the signature file carries has this fingerprint. -/
def CarriesKey (sha : Sha256) (K : Str) (envelope : SignatureEnvelope) : Prop :=
  ∃ keyBytes, decodeHexStrict envelope.publicKey "public_key" maxKeyBytes = .ok keyBytes ∧ keyFingerprint sha keyBytes = K

/-- Trust is configured, and not for this key. -/
def Bars (guard : Guard α) (K : Str) : Prop :=
  ∃ config, guard.trust = some config ∧
    ∀ host query, query.keyFingerprint = K → (evaluateTrust host config query).trusted = false

/-! ### A guard that bars the key -/

section Guard

variable {env : Env α} {guard : Guard α} {K : Str} {clock : AwareDatetime} {correlationId evaluationId : Str}
  {artifact : Artifact α} {files : Files} {envelope : SignatureEnvelope} {mbomFile : Except Raised MLBOM}

theorem Bars.untrusted (bars : Bars guard K) (carries : CarriesKey env.sha K envelope) {v : VerificationResult}
    (verified : verify env guard clock artifact mbomFile (.ok envelope) = .ok v) :
    v.signerTrusted = some false ∧ v.allowed = false := by
  obtain ⟨config, configured, untrusted⟩ := bars
  obtain ⟨keyBytes, decoded, fingerprint⟩ := carries
  obtain ⟨_, _, signature, _, _, -, read, seen⟩ := verify_returned.mp verified
  cases read
  have trust : v.signerTrusted = some false := by
    rw [seen.reported]
    show (trustFacts env.host guard.trust envelope clock signature).1 = some false
    rw [configured]
    cases signature with
    | error message => rfl
    | ok check =>
      rcases exceptModelGuardError_ok seen.verified with ⟨_, accepted, same⟩ | ⟨_, _, _, wrong⟩
      · cases same
        obtain ⟨keyBytes', -, -, decoded', fingerprint', -⟩ := verifyEnvelopeSignature_ok accepted
        have same := Except.ok.inj (decoded.symm.trans decoded')
        subst same
        exact congrArg some (untrusted _ _ (fingerprint'.trans fingerprint))
      · cases wrong
  refine ⟨trust, ?_⟩
  rw [Bool.eq_false_iff]
  intro allowed
  exact ((verify_conjunction verified).mp allowed).2.2.2.1 trust

theorem Bars.not_admitted (bars : Bars guard K) (signed : files.signature = .ok envelope)
    (carries : CarriesKey env.sha K envelope) (scanners : List (Scanner α)) (actor : Str) (auditLog : AuditLog) :
    (admitArtifact env guard scanners clock correlationId evaluationId artifact files actor auditLog).admitted = false := by
  rw [Bool.eq_false_iff]
  intro admitted
  obtain ⟨check, _, _, _, c, clear⟩ := admitted_checked admitted
  have verified := c.verified
  rw [signed] at verified
  have trusted := (objections_nil.mp clear).2.2
  rw [(bars.untrusted carries verified).1] at trusted
  cases trusted

/-- A policy that asks for a trusted signer refuses it too. -/
theorem Bars.not_allowed (bars : Bars guard K) (signed : files.signature = .ok envelope)
    (carries : CarriesKey env.sha K envelope) {scanners : List (Scanner α)} {check : PolicyCheck}
    (checked : checkPolicyDetailed env guard scanners clock evaluationId artifact files = .ok check)
    {policy : PolicyDocument} (loaded : files.policy = .ok policy) {config : RuleConfig}
    (enabled : config ∈ policy.enabledRule .requireTrustedSigner) (strict : config.onFail ≠ .warn) :
    check.decision.decision.isAllowed = false := by
  obtain ⟨_, _, _, c⟩ := checkPolicyDetailed_returned.mp checked
  have verified := c.verified
  rw [signed] at verified
  have same := Except.ok.inj (c.loaded.symm.trans loaded)
  subst same
  rw [c.evaluated]
  refine not_allowed_of_fails enabled ?_ (Nat.le_of_not_lt fun mild => strict (triggered_mild.mp (Nat.le_of_lt_succ mild)).2)
  show check.verification.signerTrusted ≠ some true
  rw [(bars.untrusted carries verified).1]
  exact nofun

end Guard

/-! ### What the options configure -/

section Options

variable {fileEnv : TrustFileEnv F} {K : Str} {guard : Guard α}

theorem constructGuard_trust {env : TrustEnv F} {options : GuardOptions α} {config : TrustConfig}
    (made : constructGuard env options = .ok guard) (given : options.trustConfig = some config) :
    ∃ configs merged, config ∈ configs ∧ mergeTrustConfigs configs = .ok merged ∧ guard.trust = some merged := by
  unfold constructGuard at made
  obtain ⟨minimal, -, made⟩ := bind_ok.mp made
  obtain ⟨trust, merges, made⟩ := bind_ok.mp made
  have same := pure_ok.mp made
  subst same
  have listed : config ∈ minimal ++ options.trustConfig.toList := by simp [given]
  unfold mergedTrust at merges
  rw [if_neg fun none => List.ne_nil_of_mem listed (List.isEmpty_iff.mp none)] at merges
  cases merged : mergeTrustConfigs (minimal ++ options.trustConfig.toList) with
  | error e =>
    rw [merged] at merges
    cases merges
  | ok config' =>
    rw [merged] at merges
    exact ⟨_, config', listed, merged, (Except.ok.inj merges).symm⟩

/-- Fingerprints that are given beside a configuration do not make up for it. -/
theorem constructGuard_bars {env : TrustEnv F} {options : GuardOptions α} {config : TrustConfig}
    (made : constructGuard env options = .ok guard) (given : options.trustConfig = some config)
    (distrusts : Distrusts config K) : Bars guard K := by
  obtain ⟨configs, merged, listed, merges, configured⟩ := constructGuard_trust made given
  obtain ⟨key, mem, named, inactive⟩ := distrusts
  refine ⟨merged, configured, fun host query asked => Bool.eq_false_iff.mpr fun trusted => ?_⟩
  obtain ⟨other, listed', trusted'⟩ := (merged_trusted_iff merges host query).mp trusted
  have own := sources_agree merges host listed listed' mem (named.trans asked.symm) trusted'
  obtain ⟨found, foundMem, trusts⟩ := evaluateTrust_trusted.mp own
  have same := entry_unique foundMem mem (trusts.fingerprint.trans (asked.trans named.symm))
  exact inactive (same ▸ trusts.active)

theorem makeGuard_bars {process : Process F} {arguments : GuardArguments α} {path : Str} {read : Except Str Bytes}
    (made : makeGuard process arguments = .ok guard) (given : arguments.trustConfig = some (path, read))
    (distrusts : ∀ config, loadTrustConfigFile process.trustEnv path read = .ok config → Distrusts config K) : Bars guard K := by
  unfold makeGuard at made
  obtain ⟨loaded, loads, made⟩ := bind_ok.mp made
  obtain ⟨registry, -, made⟩ := bind_ok.mp made
  rw [given] at loads
  unfold loadTrustConfig at loads
  dsimp only at loads
  cases file : loadTrustConfigFile process.trustEnv path read with
  | error e =>
    rw [file] at loads
    cases loads
  | ok config =>
    rw [file] at loads
    have same := Except.ok.inj loads
    exact constructGuard_bars made same.symm (distrusts config file)

/-- Reading a file that is distrusting gives a configuration that is, if any. -/
theorem read_distrusts {file : Option Bytes} (distrusted : DistrustedFile fileEnv K file) {path : Str}
    {read : Except Str Bytes} (current : ∀ bytes, read = .ok bytes → file = some bytes) {config : TrustConfig}
    (loaded : loadTrustConfigFile fileEnv path read = .ok config) : Distrusts config K := by
  obtain ⟨bytes, present, holds⟩ := distrusted
  cases read with
  | error strerror => cases loaded
  | ok content =>
    have same := Option.some.inj (present.symm.trans (current content rfl))
    subst same
    exact holds path config loaded

end Options

theorem exiting_zero {outcome : Except Raised Nat} (ended : exiting outcome = .exit 0) : outcome = .ok 0 :=
  (exiting_status ended).resolve_right nofun

theorem decisionExitCode_zero {decision : Decision} : decisionExitCode decision = 0 ↔ decision.isAllowed = true := by
  cases decision <;> decide

noncomputable def rotatedProcess : Process AwareDatetime where
  trustEnv := rotatedEnv
  environ _ := []
  postgresExtra := false
  postgresRegistry _ := .error (.external (str "ImportError") [])

theorem legacy_carriesKey : CarriesKey legacyEnv.sha rotatedKeyId legacyEnvelope := by
  have fingerprint : keyFingerprint legacySha (fromHex legacyEnvelope.publicKey) = legacyFingerprint :=
    ofTable_of_mem _ (by decide) (.tail _ (.tail _ (.tail _ (.tail _ (.head _)))))
  exact ⟨_, legacy_publicKey.1, fingerprint⟩

/-- The configuration with the fingerprint beside it. -/
noncomputable def rotatedArguments : GuardArguments LegacyFile where
  storageRoot := none
  registryDsnEnv := none
  cacheDir := none
  trustedFingerprints := [rotatedKeyId]
  trustConfig := some (str "trust.yaml", .ok (asciiBytes ((rotatedConfig .revoked).yamlText rotatedEnv)))
  rejectLegacySignatures := false

end ModelGuard.Deployment
