import ModelGuard.Sdk.Verify

/-!
# What `allowed` means

The conditions are those of the parts: the signature check, the two digests, the trust configuration
and the registry.
-/

namespace ModelGuard.Sdk

open Lib Lib.Fallible ModelGuard.Hashing ModelGuard.Mbom ModelGuard.Registry ModelGuard.Signing

variable {α : Type}

/-- The conditions for an allowed result, of a check that the key bytes passed. -/
structure Verified (env : Env α) (guard : Guard α) (clock : AwareDatetime) (artifact : Artifact α) (mbom : MLBOM)
    (envelope : SignatureEnvelope) (check : SignatureCheck) (keyBytes : Bytes) : Prop where
  signature : verifyEnvelopeSignature env.sha env.host (defaultVerifiers env.crypto) envelope
    guard.allowLegacySignatures = .ok check
  key : decodeHexStrict envelope.publicKey "public_key" maxKeyBytes = .ok keyBytes
  mbom : digestRef (env.sha.hexdigest mbom.canonicalJson) = envelope.payload.mbomDigest
  artifact : ∃ outcome, hash env guard artifact = .ok outcome ∧
    digestRef outcome.digest.digest = envelope.payload.artifactDigest
  trust : ∀ config ∈ guard.trust, ∃ key ∈ config.keys, Trusts key
    { keyFingerprint := env.sha.hexdigest keyBytes
      algorithm := check.algorithm
      claimedSignerIdentity := some envelope.payload.signerIdentity
      modelId := envelope.payload.modelId
      clock := clock }
  registry : ∀ isRevoked ∈ guard.registry, ∀ modelId ∈ envelope.payload.modelId, ∀ version ∈ envelope.payload.version,
    modelId ≠ [] → version ≠ [] → isRevoked modelId version = .ok none

/-! ### The parts -/

theorem truthy_some {s : Option Str} {t : Str} : truthy s = some t ↔ s = some t ∧ t ≠ [] := by
  unfold truthy
  simp

theorem truthy_none {s : Option Str} : truthy s = none ↔ ∀ t ∈ s, t = [] := by
  unfold truthy
  simp

theorem digestFacts_match {envelope : SignatureEnvelope} {hashed : Except Str CachedHashResult} :
    (digestFacts envelope hashed).isMatch = true ↔
      ∃ outcome, hashed = .ok outcome ∧ digestRef outcome.digest.digest = envelope.payload.artifactDigest := by
  cases hashed with
  | error message => simp [digestFacts]
  | ok outcome => simp [digestFacts, checkArtifactDigest]

theorem digestFacts_reasons {envelope : SignatureEnvelope} {hashed : Except Str CachedHashResult} :
    (digestFacts envelope hashed).reasons = [] ↔ (digestFacts envelope hashed).isMatch = true := by
  cases hashed with
  | error message => simp [digestFacts]
  | ok outcome => simp [digestFacts, reasonIf_nil]

theorem trustFacts_ok {host : Host} {trust : Option TrustConfig} {envelope : SignatureEnvelope} {clock : AwareDatetime}
    {check : SignatureCheck} :
    (trustFacts host trust envelope clock (.ok check)).1 ≠ some false ↔
      ∀ config ∈ trust, ∃ key ∈ config.keys, Trusts key (trustQuery envelope check clock) := by
  cases trust with
  | none => simp [trustFacts]
  | some config =>
    show some (evaluateTrust host config _).trusted ≠ some false ↔ _
    rw [ne_eq, Option.some_inj, Bool.not_eq_false, evaluateTrust_trusted]
    simp

theorem trustFacts_reasons {host : Host} {trust : Option TrustConfig} {envelope : SignatureEnvelope}
    {clock : AwareDatetime} {check : SignatureCheck} :
    (trustFacts host trust envelope clock (.ok check)).2 = [] ↔
      (trustFacts host trust envelope clock (.ok check)).1 ≠ some false := by
  cases trust with
  | none => simp [trustFacts]
  | some config =>
    unfold trustFacts
    have reasons := evaluateTrust_reasons host config (trustQuery envelope check clock)
    cases trusted : (evaluateTrust host config (trustQuery envelope check clock)).trusted with
    | true => simp [trusted]
    | false => simpa [trusted] using reasons

theorem revocationFacts_none {guard : Guard α} {payload : SignaturePayload} {facts : Bool × Option RevocationRecord}
    (h : revocationFacts guard payload = .ok facts) :
    facts.2 = none ↔ ∀ isRevoked ∈ guard.registry, ∀ modelId ∈ payload.modelId, ∀ version ∈ payload.version,
      modelId ≠ [] → version ≠ [] → isRevoked modelId version = .ok none := by
  unfold revocationFacts at h
  split at h
  · rename_i isRevoked modelId version registry hasModel hasVersion
    obtain ⟨model, modelText⟩ := truthy_some.mp hasModel
    obtain ⟨versioned, versionText⟩ := truthy_some.mp hasVersion
    obtain ⟨revocation, asked, h⟩ := bind_ok.mp h
    have same := pure_ok.mp h
    subst same
    constructor
    · intro clear check inRegistry m inModel v inVersion _ _
      rw [registry] at inRegistry
      rw [model] at inModel
      rw [versioned] at inVersion
      cases inRegistry
      cases inModel
      cases inVersion
      exact asked.trans (congrArg Except.ok clear)
    · intro clear
      exact Except.ok.inj (asked.symm.trans (clear _ registry _ model _ versioned modelText versionText))
  · rename_i unconsulted
    have same := Except.ok.inj h
    subst same
    refine ⟨fun _ => ?_, fun _ => rfl⟩
    intro isRevoked inRegistry modelId inModel version inVersion modelText versionText
    exact (unconsulted isRevoked modelId version inRegistry (truthy_some.mpr ⟨inModel, modelText⟩)
      (truthy_some.mpr ⟨inVersion, versionText⟩)).elim

theorem hashed_ok {x : Except Raised CachedHashResult} {hashed : Except Str CachedHashResult}
    {outcome : CachedHashResult} (h : exceptModelGuardError x = .ok hashed) : hashed = .ok outcome ↔ x = .ok outcome := by
  rcases exceptModelGuardError_ok h with ⟨a, same, caught⟩ | ⟨cls, message, same, caught⟩
  · rw [same, caught, Except.ok.injEq, Except.ok.injEq]
  · rw [same, caught]
    exact ⟨nofun, nofun⟩

/-! ### The whole -/

/-- Of a signature that did not verify. -/
theorem report_unsigned (message : Str) (mbomValid : Bool) (digest : DigestFacts) (trust : Option Bool × List Str)
    (revocation : Bool × Option RevocationRecord) :
    (report (.error message) mbomValid digest trust revocation).allowed = false ∧
      (report (.error message) mbomValid digest trust revocation).reasons ≠ [] := by
  constructor
  · rfl
  · simp [report, signatureReasons]

/-- Of a signature that verified: nothing is wrong, or some part is and says so. -/
theorem report_signed {check : SignatureCheck} {mbomValid : Bool} {digest : DigestFacts}
    {trust : Option Bool × List Str} {revocation : Bool × Option RevocationRecord} :
    (report (.ok check) mbomValid digest trust revocation).allowed = true ↔
      mbomValid = true ∧ digest.isMatch = true ∧ trust.1 ≠ some false ∧ revocation.2 = none := by
  unfold report
  simp [Except.toOption, and_assoc]

theorem report_signed_reasons {check : SignatureCheck} {mbomValid : Bool} {digest : DigestFacts}
    {trust : Option Bool × List Str} {revocation : Bool × Option RevocationRecord} :
    (report (.ok check) mbomValid digest trust revocation).reasons = [] ↔
      mbomValid = true ∧ digest.reasons = [] ∧ trust.2 = [] ∧ revocation.2 = none := by
  unfold report
  simp [signatureReasons, reasonIf_nil]

/-- `verify` allows exactly what satisfies every condition, and gives a reason exactly when it does not. -/
theorem verify_allowed_iff {env : Env α} {guard : Guard α} {clock : AwareDatetime} {artifact : Artifact α}
    {mbom : MLBOM} {envelope : SignatureEnvelope} {result : VerificationResult}
    (returned : verify env guard clock artifact (.ok mbom) (.ok envelope) = .ok result) :
    (result.allowed = true ↔ ∃ check keyBytes, Verified env guard clock artifact mbom envelope check keyBytes) ∧
      (result.reasons = [] ↔ result.allowed = true) := by
  obtain ⟨_, _, signature, hashed, revocation, sameMbom, sameEnvelope, seen⟩ := verify_returned.mp returned
  cases sameMbom
  cases sameEnvelope
  obtain ⟨verified, outcome, consulted, reported⟩ := seen
  subst reported
  rcases exceptModelGuardError_ok verified with ⟨check, accepted, same⟩ | ⟨cls, message, refused, same⟩
  · subst same
    obtain ⟨keyBytes, -, -, key, fingerprint, -⟩ := verifyEnvelopeSignature_ok accepted
    constructor
    · rw [report_signed, digestFacts_match, trustFacts_ok, revocationFacts_none consulted]
      constructor
      · rintro ⟨mbomValid, ⟨hash, hashing, same⟩, trust, registry⟩
        refine ⟨check, keyBytes, accepted, key, of_decide_eq_true mbomValid, ?_, ?_, registry⟩
        · exact ⟨hash, (hashed_ok outcome).mp hashing, same⟩
        · unfold trustQuery at trust
          rwa [fingerprint] at trust
      · rintro ⟨check', keyBytes', v⟩
        have sameCheck := Except.ok.inj (accepted.symm.trans v.signature)
        have sameKey := Except.ok.inj (key.symm.trans v.key)
        subst sameCheck sameKey
        obtain ⟨hash, hashing, same⟩ := v.artifact
        refine ⟨decide_eq_true v.mbom, ⟨hash, (hashed_ok outcome).mpr hashing, same⟩, ?_, v.registry⟩
        unfold trustQuery
        rw [fingerprint]
        exact v.trust
    · rw [report_signed, report_signed_reasons, digestFacts_reasons, trustFacts_reasons]
  · subst same
    obtain ⟨denied, explained⟩ := report_unsigned message (checkMbomDigest env.sha mbom envelope)
      (digestFacts envelope hashed) (trustFacts env.host guard.trust envelope clock (.error message)) revocation
    rw [denied]
    refine ⟨⟨nofun, ?_⟩, ⟨fun silent => (explained silent).elim, nofun⟩⟩
    rintro ⟨check, keyBytes, v⟩
    cases refused.symm.trans v.signature

/-! ### The signature that release 0.6.0 made

The files of `tests/fixtures/legacy_signature_0_6_0`, trusted for models named `legacy-*`. -/

inductive LegacyFile where
  | config
  | weights

def legacyDisk : Disk LegacyFile where
  content
    | .config => asciiBytes (str "\x7b\"note\": \"legacy 0.6.0 fixture\"\x7d\n")
    | .weights => (List.replicate 8 (asciiBytes (str "legacy-fixture-weights\n"))).flatten
  readable _ := true

theorem legacyName_fileName : IsFileName (str "model") := by decide

def legacyArtifact : Artifact LegacyFile where
  path := str "model"
  name := ⟨str "model", legacyName_fileName⟩
  node := some (.dir true [(⟨str "weights.bin", by decide⟩, .file .weights),
    (⟨str "config.json", by decide⟩, .file .config)])

def legacyDigests : List FileDigest :=
  [{ path := str "config.json", sha256 := str "8532d8ac2f201450c3da1833b0a45e7fcaf8be510a14fc0cbd60e23dda531742", size := 33 },
    { path := str "weights.bin", sha256 := str "83e904855cf685a9a3e6895da40f95cbf5980ea27ea36ff1bae24ff83c1ae1c0", size := 184 }]

def legacyPayload : SignaturePayload where
  schemaVersion := schemaVersionLegacy
  artifactDigest := str "sha256:9e78ba6a622117442bb538115f0597956793a5e29083b06e3ba2d9b64169e7a2"
  mbomDigest := str "sha256:138697a315174a21ec74f34b274583371244dbe8ba2abd1b8947be596cb3547d"
  modelId := some (str "legacy-fixture")
  version := some (str "0.6.0")
  signerIdentity := str "fixture@modelguard.invalid"
  signedAt := str "2026-09-20T14:31:59.683851+00:00"
  signatureAlgorithm := none
  keyId := none

def legacyEnvelope : SignatureEnvelope where
  signatureType := signatureTypeEd25519Local
  payload := legacyPayload
  signature := str ("14d58e40150df79ef3c890cdc652980ee8babe16837419edd4254bbba8edb7d2" ++
    "6fa49ec9f719317e2209323995fc2cf437369dc79d214bc954dfd77a2da1fc01")
  publicKey := str "a2877776e905719bd83a39e64eb032236c5a4b5664a40e9877c3a9583534bbe3"

def legacyMbom : MLBOM where
  bomFormat := str "CycloneDX"
  specVersion := str "1.6"
  schemaVersion := str "1"
  serialNumber := str "urn:uuid:5d35a324-dfa3-4ee9-b0cf-ddec387e4d65"
  version := 1
  metadata :=
    { timestamp := str "2026-09-20T14:31:59.683747+00:00"
      toolName := str "modelguard"
      toolVersion := str "0.6.0" }
  components := [{ type := str "machine-learning-model", name := str "model", version := some (str "0.6.0") }]
  modelguard :=
    { artifactDigest := legacyPayload.artifactDigest
      artifactType := str "directory"
      parentModels := []
      datasetReferences := []
      trainingCodeCommit := none
      framework := none
      license := some { value := str "Apache-2.0", evidence := .declared }
      trustStatus := str "unknown" }

def legacyFingerprint : Str := str "d744e1989bf0e5cf237c73cae73da03a7a3421e583bbfeeeb889d7cc1eab75fc"

/-- The digests of what the fixture's files and texts hold. -/
def legacyTable : List (Bytes × Str) :=
  [(legacyDisk.content .config, str "8532d8ac2f201450c3da1833b0a45e7fcaf8be510a14fc0cbd60e23dda531742"),
    (legacyDisk.content .weights, str "83e904855cf685a9a3e6895da40f95cbf5980ea27ea36ff1bae24ff83c1ae1c0"),
    (canonicalManifestBytes legacyDigests, str "9e78ba6a622117442bb538115f0597956793a5e29083b06e3ba2d9b64169e7a2"),
    (legacyMbom.canonicalJson, str "138697a315174a21ec74f34b274583371244dbe8ba2abd1b8947be596cb3547d"),
    (fromHex legacyEnvelope.publicKey, legacyFingerprint)]

theorem legacyTable_hex : ∀ e ∈ legacyTable, IsHex e.2 := by
  unfold legacyTable
  simp only [List.forall_mem_cons, List.not_mem_nil, false_implies, implies_true, and_true]
  unfold legacyFingerprint
  rw [str_ofList, str_ofList, str_ofList, str_ofList, str_ofList]
  decide +kernel

def legacySha : Sha256 := .ofTable legacyTable legacyTable_hex

def legacyEnv : Env LegacyFile where
  sha := legacySha
  crypto :=
    { ed25519 := fun key signature message =>
        if key = fromHex legacyEnvelope.publicKey ∧ signature = fromHex legacyEnvelope.signature ∧
          message = legacyPayload.canonicalJson then .valid else .invalidSignature
      ecdsaP256 := fun _ _ _ => .invalidSignature }
  host := { repr := id, isoformat := fun _ => [], osError := fun path => (str "OSError", path) }
  disk := legacyDisk

def legacyKey : TrustedKeyEntry where
  keyId := legacyFingerprint
  algorithm := some algorithmEd25519
  status := .active
  notBefore := none
  notAfter := some { moment := 1800000000000000, offset := 0 }
  signerIdentity := none
  scopeModelIdPatterns := [str "legacy-*"]
  label := none
  keyIdValid := by decide
  algorithmValid := by decide
  windowValid := nofun
  identityValid := noLine_valid
  labelValid := noLine_valid
  scopeValid := by decide

def legacyGuard (registry : RevocationCheck) : Guard LegacyFile where
  allowLegacySignatures := true
  trust := some { version := str "1", keys := [legacyKey], unique := List.nodup_singleton _ }
  hasher := .direct
  registry := some registry

def legacyClock : AwareDatetime where
  moment := 1790000000000000
  offset := 0

def legacyCheck : SignatureCheck where
  algorithm := algorithmEd25519
  keyFingerprint := legacyFingerprint
  formatVersion := schemaVersionLegacy
  keyBound := false

def legacyHash : CachedHashResult where
  digest :=
    { artifactType := .directory
      digest := str "9e78ba6a622117442bb538115f0597956793a5e29083b06e3ba2d9b64169e7a2"
      files := legacyDigests }
  fromCache := false

/-- All is well but for the revocation that the registry reports, if any. -/
def legacyResult (revocation : Option RevocationRecord) : VerificationResult where
  allowed := revocation.isNone
  artifactDigest := legacyPayload.artifactDigest
  signatureValid := true
  mbomValid := true
  revoked := revocation.isSome
  reasons := (revocation.map revocationReason).toList
  digestMatches := true
  signerTrusted := some true
  revocationChecked := true
  digestFromCache := false
  signatureAlgorithm := some algorithmEd25519
  signerKeyFingerprint := some legacyFingerprint

/-- The key that the envelope carries, decoded. -/
theorem legacy_publicKey :
    decodeHexStrict legacyEnvelope.publicKey "public_key" maxKeyBytes = .ok (fromHex legacyEnvelope.publicKey) ∧
      (fromHex legacyEnvelope.publicKey).length = ed25519PublicKeyLen := by
  unfold legacyEnvelope
  rw [str_ofList]
  decide +kernel

theorem legacy_signatureBytes :
    decodeHexStrict legacyEnvelope.signature "signature" maxSignatureBytes = .ok (fromHex legacyEnvelope.signature) ∧
      (fromHex legacyEnvelope.signature).length = ed25519SignatureLen := by
  unfold legacyEnvelope
  rw [str_append, str_ofList, str_ofList]
  decide +kernel

theorem legacy_signature :
    verifyEnvelopeSignature legacySha legacyEnv.host (defaultVerifiers legacyEnv.crypto) legacyEnvelope true =
      .ok legacyCheck := by
  have scheme : schemeOf legacyEnv.host legacyEnvelope true = .ok (algorithmEd25519, none) := by decide +kernel
  have fingerprint : keyFingerprint legacySha (fromHex legacyEnvelope.publicKey) = legacyFingerprint :=
    ofTable_of_mem _ (by decide +kernel) (.tail _ (.tail _ (.tail _ (.tail _ (.head _)))))
  have genuine : legacyEnv.crypto.ed25519 (fromHex legacyEnvelope.publicKey) (fromHex legacyEnvelope.signature)
      legacyPayload.canonicalJson = .valid := by
    simp only [legacyEnv, and_self, if_true]
  have accepted : (ed25519Verifier legacyEnv.crypto).verify (fromHex legacyEnvelope.publicKey)
      (fromHex legacyEnvelope.signature) legacyPayload.canonicalJson = .ok () := by
    apply bind_ok.mpr ⟨(), ensure_ok.mpr legacy_publicKey.2, ?_⟩
    apply bind_ok.mpr ⟨(), ensure_ok.mpr legacy_signatureBytes.2, ?_⟩
    rw [genuine]
    rfl
  apply bind_ok.mpr ⟨_, scheme, ?_⟩
  apply bind_ok.mpr ⟨_, orRaise_ok.mpr rfl, ?_⟩
  apply bind_ok.mpr ⟨_, legacy_publicKey.1, ?_⟩
  apply bind_ok.mpr ⟨_, legacy_signatureBytes.1, ?_⟩
  apply bind_ok.mpr ⟨(), ensure_ok.mpr rfl, ?_⟩
  apply bind_ok.mpr ⟨(), accepted, ?_⟩
  rw [fingerprint]
  rfl

theorem legacy_hash (registry : RevocationCheck) :
    hash legacyEnv (legacyGuard registry) legacyArtifact = .ok legacyHash := by
  have direct : (legacyGuard registry).hasher = .direct := rfl
  have hashed : hashArtifact legacyEnv.sha legacyEnv.disk legacyArtifact.name legacyArtifact.node =
      .ok legacyHash.digest := by
    show hashArtifact legacySha legacyDisk _ _ = _
    simp only [legacySha, legacyTable, legacyHash, legacyDigests,
      (str_ofList _ : str "8532d8ac2f201450c3da1833b0a45e7fcaf8be510a14fc0cbd60e23dda531742" = _),
      (str_ofList _ : str "83e904855cf685a9a3e6895da40f95cbf5980ea27ea36ff1bae24ff83c1ae1c0" = _),
      (str_ofList _ : str "9e78ba6a622117442bb538115f0597956793a5e29083b06e3ba2d9b64169e7a2" = _)]
    decide +kernel
  unfold hash
  rw [direct]
  dsimp only
  rw [hashed]
  rfl

theorem legacy_mbom : checkMbomDigest legacySha legacyMbom legacyEnvelope = true := by
  have digest : legacySha.hexdigest legacyMbom.canonicalJson =
      str "138697a315174a21ec74f34b274583371244dbe8ba2abd1b8947be596cb3547d" :=
    ofTable_of_mem _ (by decide +kernel) (.tail _ (.tail _ (.tail _ (.head _))))
  have committed : digestRef (str "138697a315174a21ec74f34b274583371244dbe8ba2abd1b8947be596cb3547d") =
      legacyPayload.mbomDigest := by
    show _ = str _
    rw [str_ofList, str_ofList]
    decide +kernel
  unfold checkMbomDigest
  rw [digest, committed]
  exact decide_eq_true rfl

theorem legacy_trust :
    trustFacts legacyEnv.host (legacyGuard fun _ _ => .ok none).trust legacyEnvelope legacyClock (.ok legacyCheck) =
      (some true, []) := by decide +kernel

theorem legacy_digest : digestFacts legacyEnvelope (.ok legacyHash) =
    { isMatch := true, currentDigest := legacyPayload.artifactDigest, fromCache := false, reasons := [] } := by
  have same : digestRef legacyHash.digest.digest = legacyPayload.artifactDigest := by
    show digestRef (str _) = str _
    rw [str_ofList, str_ofList]
    decide +kernel
  have current : checkArtifactDigest legacyHash.digest legacyEnvelope =
      { currentDigest := legacyPayload.artifactDigest, signedDigest := legacyPayload.artifactDigest, isMatch := true } := by
    unfold checkArtifactDigest
    rw [same]
    exact congrArg (TamperCheckResult.mk _ _) (decide_eq_true rfl)
  unfold digestFacts
  dsimp only
  rw [current]
  rfl

/-- Whatever ML-BOM is supplied, everything else is in order. -/
theorem legacy_returned {registry : RevocationCheck} {revocation : Option RevocationRecord} {mbom : MLBOM}
    {mbomValid : Bool} (asked : registry (str "legacy-fixture") (str "0.6.0") = .ok revocation)
    (covered : checkMbomDigest legacySha mbom legacyEnvelope = mbomValid) :
    Returned legacyEnv (legacyGuard registry) legacyClock legacyArtifact mbom legacyEnvelope
      (report (.ok legacyCheck) mbomValid
        { isMatch := true, currentDigest := legacyPayload.artifactDigest, fromCache := false, reasons := [] }
        (some true, []) (true, revocation)) (.ok legacyCheck) (.ok legacyHash) (true, revocation) := by
  have consulted : revocationFacts (legacyGuard registry) legacyPayload = .ok (true, revocation) := by
    show (registry (str "legacy-fixture") (str "0.6.0") >>= fun r => Except.ok (true, r)) = _
    rw [asked]
    rfl
  have hashed : exceptModelGuardError (hash legacyEnv (legacyGuard registry) legacyArtifact) = .ok (.ok legacyHash) := by
    rw [legacy_hash]
    rfl
  refine ⟨congrArg exceptModelGuardError legacy_signature, hashed, consulted, ?_⟩
  have trust := legacy_trust
  unfold legacyGuard at trust ⊢
  rw [show legacyEnv.sha = legacySha from rfl, covered, legacy_digest, trust]

theorem verify_legacy {registry : RevocationCheck} {revocation : Option RevocationRecord}
    (asked : registry (str "legacy-fixture") (str "0.6.0") = .ok revocation) :
    verify legacyEnv (legacyGuard registry) legacyClock legacyArtifact (.ok legacyMbom) (.ok legacyEnvelope) =
      .ok (legacyResult revocation) := by
  rw [verify_returned.mpr ⟨_, _, _, _, _, rfl, rfl, legacy_returned asked legacy_mbom⟩]
  cases revocation <;> rfl

theorem verify_allowed_iff_legacy :
    ((legacyResult none).allowed = true ↔ ∃ check keyBytes, Verified legacyEnv (legacyGuard fun _ _ => .ok none)
        legacyClock legacyArtifact legacyMbom legacyEnvelope check keyBytes) ∧
      ((legacyResult none).reasons = [] ↔ (legacyResult none).allowed = true) :=
  verify_allowed_iff (verify_legacy rfl)

end ModelGuard.Sdk
