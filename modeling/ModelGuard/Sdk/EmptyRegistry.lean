import ModelGuard.Registry.LocalLog
import ModelGuard.Sdk.Allowed

/-!
# Verification with a registry that knows of no revocation

The registry checks the names it is asked about, and `verify` lets its exceptions pass.
-/

namespace ModelGuard.Sdk

open Lib Lib.Fallible ModelGuard.Mbom ModelGuard.Registry ModelGuard.Signing

variable {α : Type}

/-- The same exception, or results that differ in `revocation_checked` at most. -/
def SameButChecked (a b : Except Raised VerificationResult) : Prop :=
  (∃ e, a = .error e ∧ b = .error e) ∨
    ∃ r s, a = .ok r ∧ b = .ok s ∧ r = { s with revocationChecked := r.revocationChecked }

/-- The same `ModelGuard` with another registry, or with none. -/
def Guard.withRegistry (guard : Guard α) (registry : Option RevocationCheck) : Guard α := { guard with registry }

/-- What `verify` finds out before it turns to the registry. -/
def integrityFacts (env : Env α) (guard : Guard α) (artifact : Artifact α) (envelope : SignatureEnvelope) :
    Except Raised (Except Str SignatureCheck × Except Str CachedHashResult) := do
  let signature ← exceptModelGuardError (verifyEnvelopeSignature env.sha env.host (defaultVerifiers env.crypto)
    envelope guard.allowLegacySignatures)
  let hashed ← exceptModelGuardError (hash env guard artifact)
  return (signature, hashed)

/-- Where a registry is asked at all, it accepts both names. -/
def NamesAccepted (nfc : Str → Str) (payload : SignaturePayload) : Prop :=
  ∀ modelId ∈ truthy payload.modelId, ∀ version ∈ truthy payload.version, Valid nfc modelId ∧ Valid nfc version

variable {env : Env α} {guard : Guard α} {clock : AwareDatetime} {artifact : Artifact α} {mbom : MLBOM}
  {envelope : SignatureEnvelope} {registry : Option RevocationCheck}

theorem verify_error {e : Raised} (raised : integrityFacts env guard artifact envelope = .error e) :
    verify env (guard.withRegistry registry) clock artifact (.ok mbom) (.ok envelope) = .error e := by
  unfold integrityFacts at raised
  unfold verify
  show (exceptModelGuardError (verifyEnvelopeSignature env.sha env.host (defaultVerifiers env.crypto) envelope
    guard.allowLegacySignatures) >>= _) = _
  cases verified : exceptModelGuardError (verifyEnvelopeSignature env.sha env.host (defaultVerifiers env.crypto) envelope
    guard.allowLegacySignatures) with
  | error other =>
    rw [verified] at raised
    rw [show other = e from Except.error.inj raised]
    rfl
  | ok signature =>
    rw [verified] at raised
    show (exceptModelGuardError (hash env guard artifact) >>= _) = _
    cases outcome : exceptModelGuardError (hash env guard artifact) with
    | error other =>
      rw [outcome] at raised
      rw [show other = e from Except.error.inj raised]
      rfl
    | ok hashed =>
      rw [outcome] at raised
      cases raised

theorem verify_facts {signature : Except Str SignatureCheck} {hashed : Except Str CachedHashResult}
    (found : integrityFacts env guard artifact envelope = .ok (signature, hashed)) :
    verify env (guard.withRegistry registry) clock artifact (.ok mbom) (.ok envelope) =
      (revocationFacts (guard.withRegistry registry) envelope.payload >>= fun revocation =>
        .ok (report signature (checkMbomDigest env.sha mbom envelope) (digestFacts envelope hashed)
          (trustFacts env.host guard.trust envelope clock signature) revocation)) := by
  unfold integrityFacts at found
  simp only [bind_ok, pure_ok, Prod.mk.injEq] at found
  obtain ⟨_, verified, _, outcome, rfl, rfl⟩ := found
  unfold verify
  show (exceptModelGuardError (verifyEnvelopeSignature env.sha env.host (defaultVerifiers env.crypto) envelope
    guard.allowLegacySignatures) >>= _) = _
  rw [verified]
  show (exceptModelGuardError (hash env guard artifact) >>= _) = _
  rw [outcome]
  rfl

/-- With or without a revocation check, a report without a revocation says the same of everything else. -/
theorem report_checked (signature : Except Str SignatureCheck) (mbomValid : Bool) (digest : DigestFacts)
    (trust : Option Bool × List Str) (checked : Bool) :
    report signature mbomValid digest trust (checked, none) =
      { report signature mbomValid digest trust (false, none) with revocationChecked := checked } := rfl

theorem isRevoked_empty {regEnv : RegistryEnv} {store : LocalStore}
    (empty : Audit.readAllEntries (F := SpecialFloat) store.revocationLog = .ok []) {modelId version : Str}
    (valid : Valid regEnv.nfc modelId ∧ Valid regEnv.nfc version) :
    LocalStore.isRevoked regEnv store modelId version = .ok none := by
  have checked : validateNames regEnv.nfc regEnv.host modelId version = .ok () := validateNames_ok.mpr valid
  unfold LocalStore.isRevoked
  rw [checked, empty]
  rfl

theorem isRevoked_invalid (regEnv : RegistryEnv) (store : LocalStore) {modelId version : Str}
    (invalid : ¬(Valid regEnv.nfc modelId ∧ Valid regEnv.nfc version)) :
    ∃ e, LocalStore.isRevoked regEnv store modelId version = .error e := by
  obtain ⟨message, raised⟩ := validateNames_invalid regEnv.host invalid
  exact ⟨_, by unfold LocalStore.isRevoked; rw [raised]; rfl⟩

theorem revocationFacts_untold (guard : Guard α) {payload : SignaturePayload}
    (untold : truthy payload.modelId = none ∨ truthy payload.version = none) :
    revocationFacts guard payload = .ok (false, none) := by
  unfold revocationFacts
  split
  · rename_i modelId version
    rcases untold with none | none
    · rw [none] at modelId
      cases modelId
    · rw [none] at version
      cases version
  · rfl

theorem revocationFacts_told {isRevoked : RevocationCheck} {payload : SignaturePayload} {modelId version : Str}
    (model : truthy payload.modelId = some modelId) (release : truthy payload.version = some version) :
    revocationFacts (guard.withRegistry (some isRevoked)) payload =
      (isRevoked modelId version >>= fun revocation => .ok (true, revocation)) := by
  unfold revocationFacts
  rw [model, release]
  rfl

/-- A file registry without revocation events leaves `verify` as it is but for `revocation_checked`, exactly when
it accepts the signed names, or the check of the signature or of the digest already raises. -/
theorem empty_registry_changes_nothing_iff (env : Env α) (regEnv : RegistryEnv) (store : LocalStore)
    (empty : Audit.readAllEntries (F := SpecialFloat) store.revocationLog = .ok []) (guard : Guard α)
    (clock : AwareDatetime) (artifact : Artifact α) (mbom : MLBOM) (envelope : SignatureEnvelope) :
    SameButChecked
      (verify env (guard.withRegistry (some (LocalStore.isRevoked regEnv store))) clock artifact (.ok mbom) (.ok envelope))
      (verify env (guard.withRegistry none) clock artifact (.ok mbom) (.ok envelope)) ↔
    (∃ e, integrityFacts env guard artifact envelope = .error e) ∨ NamesAccepted regEnv.nfc envelope.payload := by
  cases found : integrityFacts env guard artifact envelope with
  | error e =>
    rw [verify_error found, verify_error found]
    exact ⟨fun _ => Or.inl ⟨e, rfl⟩, fun _ => Or.inl ⟨e, rfl, rfl⟩⟩
  | ok facts =>
    obtain ⟨signature, hashed⟩ := facts
    rw [verify_facts found, verify_facts found]
    have without : revocationFacts (guard.withRegistry none) envelope.payload = .ok (false, none) := rfl
    rw [without]
    cases model : truthy envelope.payload.modelId with
    | none =>
      rw [revocationFacts_untold _ (Or.inl model)]
      refine ⟨fun _ => Or.inr fun modelId told => ?_, fun _ => Or.inr ⟨_, _, rfl, rfl, rfl⟩⟩
      rw [model] at told
      cases told
    | some modelId =>
      cases release : truthy envelope.payload.version with
      | none =>
        rw [revocationFacts_untold _ (Or.inr release)]
        refine ⟨fun _ => Or.inr fun _ _ version told => ?_, fun _ => Or.inr ⟨_, _, rfl, rfl, rfl⟩⟩
        rw [release] at told
        cases told
      | some version =>
        rw [revocationFacts_told model release]
        have accepted : NamesAccepted regEnv.nfc envelope.payload ↔ Valid regEnv.nfc modelId ∧ Valid regEnv.nfc version := by
          unfold NamesAccepted
          rw [model, release]
          simp
        rw [accepted]
        by_cases valid : Valid regEnv.nfc modelId ∧ Valid regEnv.nfc version
        · rw [isRevoked_empty empty valid]
          exact ⟨fun _ => Or.inr valid, fun _ => Or.inr ⟨_, _, rfl, rfl, report_checked _ _ _ _ true⟩⟩
        · obtain ⟨e, raised⟩ := isRevoked_invalid regEnv store valid
          rw [raised]
          constructor
          · rintro (⟨_, _, same⟩ | ⟨_, _, same, _⟩) <;> cases same
          · rintro (⟨_, same⟩ | names)
            · cases same
            · exact (valid names).elim

/-- An artifact that is not there: its hash is refused with an error that `verify` reports. -/
def missingArtifact : Artifact LegacyFile := { legacyArtifact with node := none }

/-- An envelope for a model of the given name, with a public key that is no text of octets. -/
def namedEnvelope (modelId : Str) : SignatureEnvelope :=
  { legacyEnvelope with payload := { legacyPayload with modelId := some modelId }, publicKey := str "0" }

theorem empty_registry_changes_nothing_sample :
    SameButChecked
      (verify legacyEnv ((legacyGuard fun _ _ => .ok none).withRegistry
        (some (LocalStore.isRevoked (sampleEnv legacySha) .empty))) legacyClock missingArtifact (.ok legacyMbom)
        (.ok legacyEnvelope))
      (verify legacyEnv ((legacyGuard fun _ _ => .ok none).withRegistry none) legacyClock missingArtifact (.ok legacyMbom)
        (.ok legacyEnvelope)) := by
  refine (empty_registry_changes_nothing_iff legacyEnv (sampleEnv legacySha) .empty rfl (legacyGuard fun _ _ => .ok none)
    legacyClock missingArtifact legacyMbom legacyEnvelope).mpr (Or.inr ?_)
  intro modelId model version release
  have names : modelId = str "legacy-fixture" ∧ version = str "0.6.0" := by
    constructor
    · exact (Option.some.inj model).symm
    · exact (Option.some.inj release).symm
  rw [names.1, names.2]
  decide

/-- `verify` of an envelope for `org/model` returns without a registry and raises with an empty one. -/
theorem empty_registry_refuses_a_name :
    ¬SameButChecked
      (verify legacyEnv ((legacyGuard fun _ _ => .ok none).withRegistry
        (some (LocalStore.isRevoked (sampleEnv legacySha) .empty))) legacyClock missingArtifact (.ok legacyMbom)
        (.ok (namedEnvelope (str "org/model"))))
      (verify legacyEnv ((legacyGuard fun _ _ => .ok none).withRegistry none) legacyClock missingArtifact (.ok legacyMbom)
        (.ok (namedEnvelope (str "org/model")))) := by
  have settled : ∀ x : Except Raised SignatureCheck, (∃ cls message, x = .error (.modelGuard cls message)) →
      ∃ message, exceptModelGuardError x = .ok (.error message) := by
    rintro _ ⟨cls, message, rfl⟩
    exact ⟨message, rfl⟩
  have refused : ∃ cls message, verifyEnvelopeSignature legacyEnv.sha legacyEnv.host (defaultVerifiers legacyEnv.crypto)
      (namedEnvelope (str "org/model")) true = .error (.modelGuard cls message) := by
    exact ⟨.signatureInvalidError, str "public_key" ++ str " is not canonical lowercase hexadecimal.", by decide +kernel⟩
  obtain ⟨message, verified⟩ := settled _ refused
  have found : ∃ hashed, integrityFacts legacyEnv (legacyGuard fun _ _ => .ok none) missingArtifact
      (namedEnvelope (str "org/model")) = .ok (.error message, hashed) := by
    refine ⟨_, bind_ok.mpr ⟨_, verified, bind_ok.mpr ⟨_, rfl, rfl⟩⟩⟩
  obtain ⟨hashed, found⟩ := found
  rw [verify_facts found, verify_facts found]
  have invalid : ¬(Valid (sampleEnv legacySha).nfc (str "org/model") ∧ Valid (sampleEnv legacySha).nfc (str "0.6.0")) := by
    decide
  obtain ⟨e, raised⟩ := isRevoked_invalid (sampleEnv legacySha) .empty invalid
  have told : revocationFacts ((legacyGuard fun _ _ => .ok none).withRegistry
      (some (LocalStore.isRevoked (sampleEnv legacySha) .empty))) (namedEnvelope (str "org/model")).payload = .error e := by
    rw [revocationFacts_told rfl rfl, raised]
    rfl
  rw [told]
  rintro (⟨_, _, same⟩ | ⟨_, _, same, _⟩) <;> cases same

end ModelGuard.Sdk
