import ModelGuard.Mbom.File
import ModelGuard.Mbom.Generator
import ModelGuard.Sdk.Allowed

/-!
# Verifying what was signed, from its files

The signer checks its envelope in memory, the verifier reads it from a bounded file.
-/

namespace ModelGuard.Sdk

open Lib Lib.Fallible Lib.Json ModelGuard.Hashing ModelGuard.Mbom ModelGuard.Registry ModelGuard.Signing

/-- The signatures that the provider makes verify under its own public key. -/
def Honest (verifiers : Verifiers) (provider : SignerProvider) : Prop :=
  ∀ algorithm publicKey message signature, provider.algorithm = .value algorithm → provider.publicKey = .value publicKey →
    provider.sign message = .value signature →
      ∃ verifier, verifiers.lookup algorithm = some verifier ∧ verifier.verify publicKey signature message = .ok ()

/-! ### The size of the signature file -/

/-- The octets of the file, from what was signed and what the provider answered. -/
def signedSize (sha : Sha256) (host : Host) (clock : AwareDatetime) (manifest : Manifest) (mbom : MLBOM)
    (algorithm identity : Str) (publicKey signature : Bytes) : Nat :=
  279 + 2 * quotedSize algorithm + quotedSize (manifestRef manifest) + quotedSize (digestRef (sha.hexdigest mbom.canonicalJson)) +
    nullableSize manifest.modelId + nullableSize manifest.version + quotedSize identity + quotedSize (host.isoformat clock) +
    quotedSize (keyFingerprint sha publicKey) + 2 * signature.length + 2 * publicKey.length

theorem signedSize_eq {sha : Sha256} {host : Host} {clock : AwareDatetime} {manifest : Manifest} {mbom : MLBOM}
    {algorithm identity : Str} {publicKey signature : Bytes} {a r d m v i t k n l : Nat} (algorithmSize : quotedSize algorithm = a)
    (refSize : quotedSize (manifestRef manifest) = r)
    (digestSize : quotedSize (digestRef (sha.hexdigest mbom.canonicalJson)) = d)
    (modelSize : nullableSize manifest.modelId = m) (versionSize : nullableSize manifest.version = v)
    (identitySize : quotedSize identity = i) (momentSize : quotedSize (host.isoformat clock) = t)
    (keyIdSize : quotedSize (keyFingerprint sha publicKey) = k) (signatureSize : signature.length = n)
    (keySize : publicKey.length = l) :
    signedSize sha host clock manifest mbom algorithm identity publicKey signature =
      279 + 2 * a + r + d + m + v + i + t + k + 2 * n + 2 * l := by
  unfold signedSize
  rw [algorithmSize, refSize, digestSize, modelSize, versionSize, identitySize, momentSize, keyIdSize, signatureSize, keySize]

theorem length_le_signedSize (sha : Sha256) (host : Host) (clock : AwareDatetime) (manifest : Manifest) (mbom : MLBOM)
    (algorithm identity : Str) (publicKey signature : Bytes) :
    identity.length ≤ signedSize sha host clock manifest mbom algorithm identity publicKey signature := by
  have quoted := length_le_quotedSize identity
  unfold signedSize
  omega

theorem isUnescaped_hex {c : CodePoint} (hex : isHexDigit c = true) : isUnescaped c = true := by
  have range := isHexDigit_iff.mp hex
  have quote : c ≠ cp '"' := by
    rintro rfl
    revert hex
    decide
  have backslash : c ≠ cp '\\' := by
    rintro rfl
    revert hex
    decide
  simp only [isUnescaped, Bool.and_eq_true, decide_eq_true_eq]
  exact ⟨⟨⟨by omega, by omega⟩, quote⟩, backslash⟩

theorem quotedSize_hexText (data : Bytes) : quotedSize (hexText data) = 2 * data.length + 2 := by
  rw [quotedSize_unescaped fun c mem => isUnescaped_hex (hexText_hex data c mem), length_hexText]

theorem fileSize_sealed (sha : Sha256) (host : Host) (clock : AwareDatetime) (manifest : Manifest) (mbom : MLBOM)
    (algorithm identity : Str) (publicKey signature : Bytes) :
    (sealPayload algorithm (boundPayload sha host clock manifest mbom algorithm identity publicKey) signature
      publicKey).fileSize = signedSize sha host clock manifest mbom algorithm identity publicKey signature := by
  have version : quotedSize schemaVersionBound = 3 := by decide +kernel
  unfold SignatureEnvelope.fileSize SignaturePayload.textSize signedSize sealPayload boundPayload
  simp only [version, quotedSize_hexText, nullableSize, Option.elim_some]
  omega

/-! ### The verifier accepts what the signer returned -/

section

variable {sha : Sha256} {host : Host} {signedAt : AwareDatetime} {manifest : Manifest} {mbom : MLBOM} {verifiers : Verifiers}
  {provider : SignerProvider} {envelope : SignatureEnvelope} {algorithm identity : Str} {publicKey signature : Bytes}

theorem sealed_encodable
    (signed : Signed sha host signedAt manifest mbom verifiers provider envelope algorithm identity publicKey signature) :
    Signing.Encodable envelope.texts := by
  have own := signed.encodable
  have named : algorithm ∈ (boundPayload sha host signedAt manifest mbom algorithm identity publicKey).texts := by
    simp [SignaturePayload.texts, boundPayload]
  rw [signed.made]
  intro s mem
  rcases List.mem_append.mp mem with mem | mem
  · simp only [List.mem_cons, List.not_mem_nil, or_false] at mem
    rcases mem with rfl | rfl | rfl
    · exact own _ named
    · exact (hexText_hex signature).scalars
    · exact (hexText_hex publicKey).scalars
  · exact own s mem

/-- What a verification of the new envelope reports. -/
def sealedCheck (sha : Sha256) (algorithm : Str) (publicKey : Bytes) : SignatureCheck where
  algorithm := algorithm
  keyFingerprint := keyFingerprint sha publicKey
  formatVersion := schemaVersionBound
  keyBound := true

/-- Any registry of verifiers in which the algorithm accepts the signature accepts the envelope. -/
theorem verifyEnvelopeSignature_sealed {registered : Verifiers} {verifier : SignatureVerifier} (allowLegacyV1 : Bool)
    (keySize : publicKey.length ≤ maxKeyBytes) (signatureSize : signature.length ≤ maxSignatureBytes)
    (found : registered.lookup algorithm = some verifier)
    (accepted : verifier.verify publicKey signature
      (boundPayload sha host signedAt manifest mbom algorithm identity publicKey).canonicalJson = .ok ()) :
    verifyEnvelopeSignature sha host registered
        (sealPayload algorithm (boundPayload sha host signedAt manifest mbom algorithm identity publicKey) signature publicKey)
        allowLegacyV1 =
      .ok (sealedCheck sha algorithm publicKey) := by
  have other : schemaVersionBound ≠ schemaVersionLegacy := by decide
  have scheme : schemeOf host
      (sealPayload algorithm (boundPayload sha host signedAt manifest mbom algorithm identity publicKey) signature publicKey)
      allowLegacyV1 = .ok (algorithm, some (keyFingerprint sha publicKey)) := by
    unfold schemeOf sealPayload boundPayload
    dsimp only
    rw [if_neg other, if_pos rfl]
    exact bind_ok.mpr ⟨(), ensure_ok.mpr rfl, rfl⟩
  apply bind_ok.mpr ⟨_, scheme, ?_⟩
  apply bind_ok.mpr ⟨verifier, orRaise_ok.mpr found, ?_⟩
  apply bind_ok.mpr ⟨publicKey, decodeHexStrict_ok.mpr ⟨rfl, keySize⟩, ?_⟩
  apply bind_ok.mpr ⟨signature, decodeHexStrict_ok.mpr ⟨rfl, signatureSize⟩, ?_⟩
  apply bind_ok.mpr ⟨(), ensure_ok.mpr (by simp), ?_⟩
  exact bind_ok.mpr ⟨(), accepted, rfl⟩

/-- What the provider answers to a message. -/
structure Answers (provider : SignerProvider) (message : Bytes) (algorithm identity : Str) (publicKey signature : Bytes) :
    Prop where
  algorithm : provider.algorithm = .value algorithm
  identity : provider.identity = .value identity
  publicKey : provider.publicKey = .value publicKey
  signature : provider.sign message = .value signature

theorem signed_of_answers
    (returned : signWithProvider sha host signedAt manifest mbom verifiers provider = .ok envelope)
    (answers : Answers provider (boundPayload sha host signedAt manifest mbom algorithm identity publicKey).canonicalJson
      algorithm identity publicKey signature) :
    Signed sha host signedAt manifest mbom verifiers provider envelope algorithm identity publicKey signature := by
  obtain ⟨algorithm', identity', publicKey', signature', signed⟩ := signWithProvider_ok.mp returned
  have sameAlgorithm := Answer.value.inj (signed.algorithmSaid.symm.trans answers.algorithm)
  have sameIdentity := Answer.value.inj (signed.identitySaid.symm.trans answers.identity)
  have sameKey := Answer.value.inj (signed.keySaid.symm.trans answers.publicKey)
  subst sameAlgorithm sameIdentity sameKey
  have sameSignature := Answer.value.inj (signed.answered.symm.trans answers.signature)
  subst sameSignature
  exact signed

end

/-! ### The written files -/

/-- What the libraries make of a text that is not as it should be, and the path that messages name. -/
structure Reading where
  coerce : Json SpecialFloat → Option Int
  explain : Str → Str
  problems : Json SpecialFloat → Str
  signaturePath : Str

/-- Both files hold what `to_json` gives, in UTF-8. -/
structure Written (mbom : MLBOM) (envelope : SignatureEnvelope) (mbomFile signatureFile : Bytes) : Prop where
  mbom : mbom.fileBytes = some mbomFile
  signature : envelope.fileBytes = some signatureFile

section

variable {α : Type} (reading : Reading) (env : Env α) (guard : Guard α) (clock : AwareDatetime) (artifact : Artifact α)

/-- `verify` of the files. -/
def verifyFiles (mbomFile signatureFile : Bytes) : Except Raised VerificationResult :=
  verify env guard clock artifact (loadMbom reading.coerce reading.explain (.ok mbomFile))
    (loadEnvelope reading.problems reading.signaturePath (.ok signatureFile))

/-- Verifying the written files finds the signature, the ML-BOM and the artifact in order. -/
def FilesVerify (mbom : MLBOM) (envelope : SignatureEnvelope) : Prop :=
  ∃ mbomFile signatureFile result, Written mbom envelope mbomFile signatureFile ∧
    verifyFiles reading env guard clock artifact mbomFile signatureFile = .ok result ∧
      result.signatureValid = true ∧ result.mbomValid = true ∧ result.digestMatches = true

/-- `load_envelope` takes the written signature file. -/
def FileLoads (envelope : SignatureEnvelope) : Prop :=
  ∃ signatureFile loaded, envelope.fileBytes = some signatureFile ∧
    loadEnvelope reading.problems reading.signaturePath (.ok signatureFile) = .ok loaded

variable {reading env guard clock artifact} {signedAt : AwareDatetime} {manifest : Manifest} {mbom : MLBOM}
  {verifiers : Verifiers} {provider : SignerProvider} {envelope : SignatureEnvelope} {algorithm identity : Str}
  {publicKey signature : Bytes}

theorem written_exists {sha : Sha256} {host : Host}
    (signed : Signed sha host signedAt manifest mbom verifiers provider envelope algorithm identity publicKey signature) :
    ∃ mbomFile signatureFile, Written mbom envelope mbomFile signatureFile :=
  ⟨_, _, mbom.fileBytes_eq, SignatureEnvelope.fileBytes_eq (sealed_encodable signed)⟩

theorem fileLoads_iff {sha : Sha256} {host : Host}
    (signed : Signed sha host signedAt manifest mbom verifiers provider envelope algorithm identity publicKey signature) :
    FileLoads reading envelope ↔
      signedSize sha host signedAt manifest mbom algorithm identity publicKey signature ≤ maxEnvelopeBytes := by
  have size : envelope.fileSize = signedSize sha host signedAt manifest mbom algorithm identity publicKey signature := by
    rw [signed.made, fileSize_sealed]
  rw [← size]
  constructor
  · rintro ⟨signatureFile, loaded, written, read⟩
    exact ((loadEnvelope_written (sealed_encodable signed) written).mp read).1
  · intro small
    obtain ⟨_, signatureFile, written⟩ := written_exists signed
    exact ⟨signatureFile, envelope, written.signature,
      (loadEnvelope_written (sealed_encodable signed) written.signature).mpr ⟨small, rfl⟩⟩

/-- What verifying the files of a returned envelope reports, once the file is small enough. -/
theorem verifyFiles_written (reading : Reading) (clock : AwareDatetime) {outcome : CachedHashResult} {revocation : Bool × Option RevocationRecord}
    {mbomFile signatureFile : Bytes}
    (signed : Signed env.sha env.host signedAt manifest mbom verifiers provider envelope algorithm identity publicKey signature)
    (honest : Honest (defaultVerifiers env.crypto) provider) (written : Written mbom envelope mbomFile signatureFile)
    (small : envelope.fileSize ≤ maxEnvelopeBytes) (hashed : hash env guard artifact = .ok outcome)
    (consulted : revocationFacts guard envelope.payload = .ok revocation) :
    verifyFiles reading env guard clock artifact mbomFile signatureFile =
      .ok (report (.ok (sealedCheck env.sha algorithm publicKey)) true (digestFacts envelope (.ok outcome))
        (trustFacts env.host guard.trust envelope clock (.ok (sealedCheck env.sha algorithm publicKey))) revocation) := by
  obtain ⟨verifier, found, accepted⟩ :=
    honest algorithm publicKey _ signature signed.algorithmSaid signed.keySaid signed.answered
  have checked := verifyEnvelopeSignature_sealed guard.allowLegacySignatures signed.keySize.2 signed.signatureSize.2 found
    accepted
  rw [← signed.made] at checked
  have covered : checkMbomDigest env.sha mbom.join envelope = true := by
    unfold checkMbomDigest
    rw [mbom.canonicalJson_join, signed.made]
    exact decide_eq_true rfl
  have returned : Returned env guard clock artifact mbom.join envelope _ _ _ revocation :=
    ⟨congrArg exceptModelGuardError checked, congrArg exceptModelGuardError hashed, consulted, rfl⟩
  rw [covered] at returned
  exact verify_returned.mpr ⟨mbom.join, envelope, _, _, revocation, loadMbom_written signed.digits written.mbom,
    (loadEnvelope_written (sealed_encodable signed) written.signature).mpr ⟨small, rfl⟩, returned⟩

end

/-! ### The fixture of release 0.6.0, signed anew

The key pair is the first test vector of Ed25519. -/

/-- The ML-BOM of one file of the fixture. -/
def otherMbom : MLBOM :=
  { legacyMbom with
    components := [{ type := str "machine-learning-model", name := str "config.json", version := some (str "0.6.0") }]
    modelguard :=
      { artifactDigest := str "sha256:8532d8ac2f201450c3da1833b0a45e7fcaf8be510a14fc0cbd60e23dda531742"
        artifactType := str "file"
        parentModels := []
        datasetReferences := []
        trainingCodeCommit := none
        framework := none
        license := some { value := str "MIT", evidence := .declared }
        trustStatus := str "unknown" } }

def releaseKey : Bytes := fromHex (str "d75a980182b10ab7d54bfed3c964073a0ee172f3daa62325af021a68f707511a")

def releaseTable : List (Bytes × Str) :=
  legacyTable ++
    [(releaseKey, str "21fe31dfa154a261626bf854046fd2271b7bed4b6abe45aa58877ef47f9721b9"),
      (otherMbom.canonicalJson, str "fa432f5797ca02e2a095426fdcccfc30ae714222471b7652132f66cf38235fa1")]

theorem releaseTable_hex : ∀ e ∈ releaseTable, IsHex e.2 := by
  unfold releaseTable
  rw [List.forall_mem_append]
  refine ⟨legacyTable_hex, ?_⟩
  rw [str_ofList, str_ofList]
  decide +kernel

def releaseSha : Sha256 := .ofTable releaseTable releaseTable_hex

def releaseHost : Host :=
  { legacyEnv.host with isoformat := fun _ => str "2026-09-20T14:31:59.683851+00:00" }

def releaseManifest : Manifest :=
  .ofIdentity .directory (str "9e78ba6a622117442bb538115f0597956793a5e29083b06e3ba2d9b64169e7a2")
    (some (str "legacy-fixture")) (some (str "0.6.0"))

/-- What is signed for an identity. -/
def releasePayload (mbom : MLBOM) (identity : Str) : SignaturePayload :=
  boundPayload releaseSha releaseHost legacyClock releaseManifest mbom algorithmEd25519 identity releaseKey

/-- A provider that has signed one message. -/
def releaseProvider (identity : Str) (message signature : Bytes) : SignerProvider where
  algorithm := .value algorithmEd25519
  identity := .value identity
  publicKey := .value releaseKey
  sign m := if m = message then .value signature else .raised (.external (str "RuntimeError") (str "not signed"))

def releaseEnv (message signature : Bytes) : Env LegacyFile where
  sha := releaseSha
  crypto :=
    { ed25519 := fun key s m =>
        if key = releaseKey ∧ s = signature ∧ m = message then .valid else .invalidSignature
      ecdsaP256 := fun _ _ _ => .invalidSignature }
  host := releaseHost
  disk := legacyDisk

def releaseGuard : Guard LegacyFile where
  allowLegacySignatures := true
  trust := none
  hasher := .direct
  registry := none

theorem releaseKey_length : releaseKey.length = ed25519PublicKeyLen := by
  unfold releaseKey
  rw [str_ofList]
  decide +kernel

theorem release_accepted {message signature : Bytes} (size : signature.length = ed25519SignatureLen) :
    (ed25519Verifier (releaseEnv message signature).crypto).verify releaseKey signature message = .ok () := by
  have genuine : (releaseEnv message signature).crypto.ed25519 releaseKey signature message = .valid := by
    simp only [releaseEnv, and_self, if_true]
  apply bind_ok.mpr ⟨(), ensure_ok.mpr releaseKey_length, ?_⟩
  apply bind_ok.mpr ⟨(), ensure_ok.mpr size, ?_⟩
  rw [genuine]
  rfl

theorem release_honest {identity : Str} {message signature : Bytes} (size : signature.length = ed25519SignatureLen) :
    Honest (defaultVerifiers (releaseEnv message signature).crypto) (releaseProvider identity message signature) := by
  intro algorithm publicKey m s said keySaid answered
  cases said
  cases keySaid
  unfold releaseProvider at answered
  dsimp only at answered
  split at answered
  · rename_i same
    cases answered
    subst same
    exact ⟨_, rfl, release_accepted size⟩
  · cases answered

theorem release_sign (identity : Str) (message signature : Bytes) :
    (releaseProvider identity message signature).sign message = .value signature :=
  if_pos rfl

theorem release_signed {mbom : MLBOM} {identity : Str} {signature : Bytes}
    (digits : mbom.version.natAbs < 10 ^ maxStrDigits) (named : identity ≠ []) (scalars : Scalars identity)
    (size : signature.length = ed25519SignatureLen) :
    Signed releaseSha releaseHost legacyClock releaseManifest mbom
      (defaultVerifiers (releaseEnv (releasePayload mbom identity).canonicalJson signature).crypto)
      (releaseProvider identity (releasePayload mbom identity).canonicalJson signature)
      (sealPayload algorithmEd25519 (releasePayload mbom identity) signature releaseKey) algorithmEd25519 identity releaseKey
      signature where
  algorithmSaid := rfl
  identitySaid := rfl
  keySaid := rfl
  registered := rfl
  named := named
  keySize := by rw [releaseKey_length]; decide
  digits := digits
  encodable := by
    unfold SignaturePayload.texts boundPayload Signing.Encodable
    simp only [List.forall_mem_append, List.forall_mem_cons, List.not_mem_nil, false_implies, implies_true, and_true,
      Option.mem_toList, Option.some.injEq, forall_eq', releaseManifest, Manifest.ofIdentity, manifestRef, releaseHost,
      digestRef, keyFingerprint, scalars_append, scalars_str, scalars, schemaVersionBound, algorithmEd25519, true_and]
    exact ⟨(releaseSha.hex _).scalars, (releaseSha.hex _).scalars⟩
  answered := release_sign identity _ signature
  signatureSize := by rw [size]; decide
  made := rfl
  verified := by
    refine ⟨_, verifyEnvelopeSignature_sealed false ?_ ?_ rfl (release_accepted size)⟩
    · rw [releaseKey_length]
      decide
    · rw [size]
      decide

theorem release_hash (message signature : Bytes) : hash (releaseEnv message signature) releaseGuard legacyArtifact = .ok legacyHash := by
  have direct : releaseGuard.hasher = .direct := rfl
  have hashed : hashArtifact (releaseEnv message signature).sha (releaseEnv message signature).disk legacyArtifact.name
      legacyArtifact.node = .ok legacyHash.digest := by
    show hashArtifact releaseSha legacyDisk _ _ = _
    simp only [releaseSha, releaseTable, releaseKey, legacyTable, legacyHash, legacyDigests,
      (str_ofList _ : str "8532d8ac2f201450c3da1833b0a45e7fcaf8be510a14fc0cbd60e23dda531742" = _),
      (str_ofList _ : str "83e904855cf685a9a3e6895da40f95cbf5980ea27ea36ff1bae24ff83c1ae1c0" = _),
      (str_ofList _ : str "9e78ba6a622117442bb538115f0597956793a5e29083b06e3ba2d9b64169e7a2" = _)]
    decide +kernel
  unfold hash
  rw [direct]
  dsimp only
  rw [hashed]
  rfl

theorem releaseTable_apart : (releaseTable.map (·.1)).Nodup := by
  unfold releaseTable releaseKey
  rw [str_ofList]
  decide +kernel

theorem release_fingerprint : keyFingerprint releaseSha releaseKey =
    str "21fe31dfa154a261626bf854046fd2271b7bed4b6abe45aa58877ef47f9721b9" :=
  ofTable_of_mem _ releaseTable_apart (List.mem_append_right _ (.head _))

theorem release_mbomDigest : releaseSha.hexdigest legacyMbom.canonicalJson =
    str "138697a315174a21ec74f34b274583371244dbe8ba2abd1b8947be596cb3547d" :=
  ofTable_of_mem _ releaseTable_apart (List.mem_append_left _ (.tail _ (.tail _ (.tail _ (.head _)))))

def releaseReading : Reading where
  coerce _ := none
  explain := id
  problems _ := []
  signaturePath := str "model.modelguard.sig.json"

def releaseIdentity : Str := str "fixture@modelguard.invalid"

def releaseSignature : Bytes :=
  fromHex (str ("3ab79658093f5e1de52479abfb426bf9f24a485334d7deae4d2aabb2fc99eeac" ++
    "fe5df240c6aa4172a71c4b9edb1a1f3807e2227c7fe66179d720839722e18906"))

theorem releaseSignature_length : releaseSignature.length = ed25519SignatureLen := by
  unfold releaseSignature
  rw [str_append, str_ofList, str_ofList]
  decide +kernel

theorem release_digits : legacyMbom.version.natAbs < 10 ^ maxStrDigits :=
  Nat.one_lt_pow (by decide) (by decide)

theorem release_ref : digestRef legacyHash.digest.digest = manifestRef releaseManifest := rfl

/-- The artifact of the fixture has the digest that the manifest states. -/
theorem release_hashes (message signature : Bytes) : ∃ outcome,
    hash (releaseEnv message signature) releaseGuard legacyArtifact = .ok outcome ∧
      digestRef outcome.digest.digest = manifestRef releaseManifest :=
  ⟨legacyHash, release_hash message signature, release_ref⟩

theorem release_small {mbom : MLBOM} {signature : Bytes}
    (digestSize : quotedSize (digestRef (releaseSha.hexdigest mbom.canonicalJson)) = 73)
    (size : signature.length = ed25519SignatureLen) :
    signedSize releaseSha releaseHost legacyClock releaseManifest mbom algorithmEd25519 releaseIdentity releaseKey signature ≤
      maxEnvelopeBytes := by
  have ref : quotedSize (manifestRef releaseManifest) = 73 := by
    unfold releaseManifest Manifest.ofIdentity manifestRef
    rw [str_ofList]
    decide +kernel
  have moment : quotedSize (releaseHost.isoformat legacyClock) = 34 := by
    show quotedSize (str _) = 34
    rw [str_ofList]
    decide +kernel
  have key : quotedSize (keyFingerprint releaseSha releaseKey) = 66 := by
    rw [release_fingerprint, str_ofList]
    decide +kernel
  have identity : quotedSize releaseIdentity = 28 := by
    unfold releaseIdentity
    rw [str_ofList]
    decide +kernel
  have model : nullableSize releaseManifest.modelId = 16 := by decide +kernel
  have version : nullableSize releaseManifest.version = 7 := by decide +kernel
  have algorithm : quotedSize algorithmEd25519 = 9 := by decide +kernel
  rw [signedSize_eq algorithm ref digestSize model version identity moment key size releaseKey_length]
  decide

theorem release_digestSize : quotedSize (digestRef (releaseSha.hexdigest legacyMbom.canonicalJson)) = 73 := by
  rw [release_mbomDigest, str_ofList]
  decide +kernel

def longIdentity : Str := List.replicate 70000 (cp 'a')

def longSignature : Bytes :=
  fromHex (str ("7a8ec109f7219a0e26a8414e4acfc5b61c2a83ef775557fb3e903aec20d34cb1" ++
    "f2f24e21e139d834b6f899aeaf4ec807ba51ce85e512ecf7659da72c3040a40e"))

theorem longSignature_length : longSignature.length = ed25519SignatureLen := by
  unfold longSignature
  rw [str_append, str_ofList, str_ofList]
  decide +kernel

theorem longIdentity_named : longIdentity ≠ [] ∧ Scalars longIdentity := by
  unfold longIdentity
  constructor
  · intro none
    have length := congrArg List.length none
    rw [List.length_replicate] at length
    cases length
  · intro c mem
    rw [(List.mem_replicate.mp mem).2]
    decide

end ModelGuard.Sdk
