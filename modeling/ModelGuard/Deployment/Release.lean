import ModelGuard.Cli.Commands
import ModelGuard.Cli.Sign
import ModelGuard.Deployment.Withdrawn
import ModelGuard.Sdk.SignedFiles
import ModelGuard.Storage.RoundTrip

/-!
# From `sign` and `push` to `pull` and `verify`

A directory that was signed and pushed at one place is pulled at another, and its files are verified there: only the
limits of the readers and the configuration of the verifier decide.
-/

namespace ModelGuard.Deployment

open Lib Lib.Fallible Lib.Node ModelGuard.Cli ModelGuard.Hashing ModelGuard.Mbom ModelGuard.Registry ModelGuard.Sdk
  ModelGuard.Signing ModelGuard.Storage

variable {α F : Type}

/-- What is pushed. -/
def sourceOf (env : Env α) (artifact : Artifact α) : Source α where
  text := artifact.path
  name := artifact.name
  disk := env.disk
  root := artifact.node

/-- The process that verifies what was pulled. -/
def pulledEnv (m : Machine) (crypto : Cryptography) : Env (Bytes × Bool) where
  sha := m.sha
  crypto := crypto
  host := m.host
  disk := Machine.view

/-- What is at the spot once the pull has ended. -/
def pulledArtifact (m : Machine) (path : Str) (name : FileName) (spot : Spot) (w : World) : Artifact (Bytes × Bool) where
  path := path
  name := name
  node := m.sees w spot

/-- What a trust configuration is asked about a signature with the key pair. -/
def keyQuery (sha : Sha256) (manifest : Manifest) (keypair : LocalKeyPair) (clock : AwareDatetime) : TrustQuery where
  keyFingerprint := keyFingerprint sha keypair.publicKey
  algorithm := algorithmEd25519
  claimedSignerIdentity := some keypair.identity
  modelId := manifest.modelId
  clock := clock

/-- The registry, if any, reports no revocation of the model that a payload names. -/
def Clear (registry : Option RevocationCheck) (modelId version : Option Str) : Prop :=
  ∀ isRevoked ∈ registry, ∀ m ∈ modelId, ∀ v ∈ version, m ≠ [] → v ≠ [] → isRevoked m v = .ok none

theorem makeGuard_direct {process : Process F} {arguments : GuardArguments α} {guard : Guard α}
    (made : makeGuard process arguments = .ok guard) (uncached : arguments.cacheDir = none) : guard.hasher = .direct := by
  unfold makeGuard constructGuard at made
  obtain ⟨_, -, made⟩ := bind_ok.mp made
  obtain ⟨_, -, made⟩ := bind_ok.mp made
  obtain ⟨_, -, made⟩ := bind_ok.mp made
  obtain ⟨_, -, made⟩ := bind_ok.mp made
  rw [← pure_ok.mp made, uncached]
  rfl

theorem verifyCommand_zero {process : Process F} {arguments : GuardArguments α} {env : Env α} {clock : AwareDatetime}
    {artifact : Artifact α} {mbomFile : Except Raised MLBOM} {signatureFile : Except Raised SignatureEnvelope} :
    verifyCommand process arguments env clock artifact mbomFile signatureFile = .exit 0 ↔
      ∃ guard result, makeGuard process arguments = .ok guard ∧
        verify env guard clock artifact mbomFile signatureFile = .ok result ∧ result.allowed = true := by
  constructor
  · intro ended
    obtain ⟨guard, made, outcome⟩ := bind_ok.mp (exiting_zero ended)
    obtain ⟨result, verified, status⟩ := bind_ok.mp outcome
    refine ⟨guard, result, made, verified, ?_⟩
    by_contra denied
    rw [if_neg denied] at status
    cases pure_ok.mp status
  · rintro ⟨guard, result, made, verified, allowed⟩
    have outcome : (do
        let guard ← makeGuard process arguments
        let result ← verify env guard clock artifact mbomFile signatureFile
        return if result.allowed then exitOk else exitDenied) = .ok exitOk := by
      apply bind_ok.mpr ⟨guard, made, ?_⟩
      apply bind_ok.mpr ⟨result, verified, ?_⟩
      rw [if_pos allowed]
      rfl
    unfold verifyCommand
    rw [outcome]
    rfl

/-! ### The trust roots of a command -/

/-- Some entry of the configuration trusts the key. -/
def ConfigTrusts (config : TrustConfig) (query : TrustQuery) : Prop := ∃ key ∈ config.keys, Trusts key query

/-- No signer is asked for, the fingerprint is among those on the command line, or the file has an entry that trusts it. -/
def TrustedBy (process : Process F) (arguments : GuardArguments α) (query : TrustQuery) : Prop :=
  (arguments.trustedFingerprints = [] ∧ arguments.trustConfig = none) ∨
    (∃ raw ∈ arguments.trustedFingerprints, normalize process.trustEnv.toTrustEnv raw = query.keyFingerprint) ∨
      ∃ path read config, arguments.trustConfig = some (path, read) ∧
        loadTrustConfigFile process.trustEnv path read = .ok config ∧ ConfigTrusts config query

theorem mergedTrust_trusts {env : TrustEnv F} {configs : List TrustConfig} {trust : Option TrustConfig}
    (merges : mergedTrust configs = .ok trust) (query : TrustQuery) :
    (∀ config ∈ trust, ConfigTrusts config query) ↔ configs = [] ∨ ∃ config ∈ configs, ConfigTrusts config query := by
  unfold mergedTrust at merges
  split at merges
  · rename_i none
    have same := Except.ok.inj merges
    subst same
    exact iff_of_true nofun (.inl (List.isEmpty_iff.mp none))
  · rename_i given
    have some : configs ≠ [] := fun none => given (List.isEmpty_iff.mpr none)
    cases merged : mergeTrustConfigs configs with
    | error e =>
      rw [merged] at merges
      cases merges
    | ok config =>
      rw [merged] at merges
      have same := Except.ok.inj merges
      subst same
      have agree := merged_trusted_iff merged env.host query
      simp only [evaluateTrust_trusted] at agree
      constructor
      · exact fun all => .inr (agree.mp (all config rfl))
      · rintro (none | trusting) _ ⟨⟩
        · exact (some none).elim
        · exact agree.mpr trusting

/-- What the fingerprints on the command line make. -/
theorem minimal_trusts {env : TrustEnv F} {fingerprints : List Str} {minimal : List TrustConfig}
    (built : (if fingerprints.isEmpty then none else some fingerprints : Option (List Str)).toList.mapM
      (buildMinimalTrustConfig env) = .ok minimal) (query : TrustQuery) :
    (minimal = [] ↔ fingerprints = []) ∧
      ((∃ config ∈ minimal, ConfigTrusts config query) ↔
        ∃ raw ∈ fingerprints, normalize env raw = query.keyFingerprint) := by
  by_cases none : fingerprints = []
  · subst none
    have same := mapM_ok_nil.mp built
    subst same
    exact ⟨iff_of_true rfl rfl, by simp⟩
  · rw [if_neg fun empty => none (List.isEmpty_iff.mp empty)] at built
    obtain ⟨config, rest, made, last, same⟩ := mapM_ok_cons.mp built
    have empty := mapM_ok_nil.mp last
    subst empty same
    refine ⟨iff_of_false (List.cons_ne_nil _ _) none, ?_⟩
    rw [← buildMinimal_trusted_iff made env.host query, evaluateTrust_trusted]
    simp only [List.mem_singleton, exists_eq_left]
    rfl

/-- The configurations of a guard, merged, trust what one of its roots does. -/
theorem makeGuard_trusts_iff {process : Process F} {arguments : GuardArguments α} {guard : Guard α}
    (made : makeGuard process arguments = .ok guard) (query : TrustQuery) :
    (∀ config ∈ guard.trust, ConfigTrusts config query) ↔ TrustedBy process arguments query := by
  unfold makeGuard at made
  obtain ⟨loaded, loads, made⟩ := bind_ok.mp made
  obtain ⟨registry, -, made⟩ := bind_ok.mp made
  unfold constructGuard at made
  obtain ⟨minimal, built, made⟩ := bind_ok.mp made
  obtain ⟨trust, merges, made⟩ := bind_ok.mp made
  have same := pure_ok.mp made
  subst same
  obtain ⟨none, trusts⟩ := minimal_trusts built query
  refine (@mergedTrust_trusts _ process.trustEnv.toTrustEnv _ _ merges query).trans ?_
  unfold TrustedBy
  rw [← none, ← trusts]
  cases given : arguments.trustConfig with
  | none =>
    rw [given] at loads
    have unread := Except.ok.inj loads
    subst unread
    simp
  | some file =>
    obtain ⟨path, read⟩ := file
    rw [given] at loads
    unfold loadTrustConfig at loads
    dsimp only at loads
    cases outcome : loadTrustConfigFile process.trustEnv path read with
    | error e =>
      rw [outcome] at loads
      cases loads
    | ok config =>
      rw [outcome] at loads
      have read := Except.ok.inj loads
      subst read
      constructor
      · rintro (never | ⟨own, mem, trusting⟩)
        · cases (List.append_eq_nil_iff.mp never).2
        · rcases List.mem_append.mp mem with first | second
          · exact .inr (.inl ⟨own, first, trusting⟩)
          · cases List.mem_singleton.mp second
            exact .inr (.inr ⟨path, _, config, rfl, outcome, trusting⟩)
      · rintro (⟨-, never⟩ | ⟨own, mem, trusting⟩ | ⟨_, _, own, ⟨⟩, again, trusting⟩)
        · cases never
        · exact .inr ⟨own, List.mem_append_left _ mem, trusting⟩
        · cases outcome.symm.trans again
          exact .inr ⟨config, List.mem_append_right _ (List.mem_singleton_self _), trusting⟩

/-! ### A signature that passed passes elsewhere -/

theorem schemeOf_elsewhere {host : Host} {envelope : SignatureEnvelope} {scheme : Str × Option Str}
    (found : schemeOf host envelope false = .ok scheme) (other : Host) (allowLegacyV1 : Bool) :
    schemeOf other envelope allowLegacyV1 = .ok scheme := by
  unfold schemeOf at found ⊢
  dsimp only at found ⊢
  split at found
  · obtain ⟨_, refused, -⟩ := bind_ok.mp found
    cases ensure_ok.mp refused
  · rename_i legacy
    rw [if_neg legacy]
    split at found
    · rename_i bound
      rw [if_pos bound]
      split at found
      · obtain ⟨_, labelled, found⟩ := bind_ok.mp found
        exact bind_ok.mpr ⟨(), ensure_ok.mpr (ensure_ok.mp labelled), found⟩
      · cases found
    · cases found

/-- Only the texts of errors depend on the process. -/
theorem verifyEnvelopeSignature_elsewhere {sha : Sha256} {host : Host} {verifiers : Verifiers} {envelope : SignatureEnvelope}
    {check : SignatureCheck} (verified : verifyEnvelopeSignature sha host verifiers envelope false = .ok check) (other : Host)
    (allowLegacyV1 : Bool) : verifyEnvelopeSignature sha other verifiers envelope allowLegacyV1 = .ok check := by
  unfold verifyEnvelopeSignature at verified
  obtain ⟨scheme, found, verified⟩ := bind_ok.mp verified
  obtain ⟨verifier, registered, verified⟩ := bind_ok.mp verified
  obtain ⟨publicKey, key, verified⟩ := bind_ok.mp verified
  obtain ⟨signature, read, verified⟩ := bind_ok.mp verified
  obtain ⟨_, committed, verified⟩ := bind_ok.mp verified
  apply bind_ok.mpr ⟨scheme, schemeOf_elsewhere found other allowLegacyV1, ?_⟩
  apply bind_ok.mpr ⟨verifier, orRaise_ok.mpr (orRaise_ok.mp registered), ?_⟩
  apply bind_ok.mpr ⟨publicKey, key, ?_⟩
  apply bind_ok.mpr ⟨signature, read, ?_⟩
  exact bind_ok.mpr ⟨(), ensure_ok.mpr (ensure_ok.mp committed), verified⟩

/-- A registry that reports no revocation of the model has answered. -/
theorem revocationFacts_clear {guard : Guard α} {payload : SignaturePayload}
    (clear : Clear guard.registry payload.modelId payload.version) : ∃ facts, revocationFacts guard payload = .ok facts := by
  unfold revocationFacts
  split
  · rename_i isRevoked modelId version registry hasModel hasVersion
    obtain ⟨model, modelText⟩ := truthy_some.mp hasModel
    obtain ⟨versioned, versionText⟩ := truthy_some.mp hasVersion
    exact ⟨_, bind_ok.mpr ⟨none, clear _ registry _ model _ versioned modelText versionText, rfl⟩⟩
  · exact ⟨_, rfl⟩

section Verify

variable {publisher : Env α} {sign : PrivateKey → Bytes → Bytes} {signedAt clock : AwareDatetime} {manifest : Manifest}
  {mbom : MLBOM} {keypair : LocalKeyPair} {envelope : SignatureEnvelope} {signature : Bytes}

/-- Wherever the same digests and the same cryptography are computed, a signed envelope passes. -/
theorem signed_passes
    (signed : Signed publisher.sha publisher.host signedAt manifest mbom (defaultVerifiers publisher.crypto)
      (localEd25519Signer sign keypair) envelope algorithmEd25519 keypair.identity keypair.publicKey signature) (host : Host)
    (allowLegacyV1 : Bool) :
    verifyEnvelopeSignature publisher.sha host (defaultVerifiers publisher.crypto) envelope allowLegacyV1 =
      .ok (sealedCheck publisher.sha algorithmEd25519 keypair.publicKey) := by
  obtain ⟨check, verified⟩ := signed.verified
  have elsewhere := verifyEnvelopeSignature_elsewhere verified host allowLegacyV1
  rw [elsewhere]
  have made := signed.made
  obtain ⟨claimed, _, rests⟩ := verifyEnvelopeSignature_accepted verified
  obtain ⟨key, own, verifier, keyRead, -, signatureRead, found, accepted⟩ := verifyEnvelopeSignature_ok verified
  have sameKey : hexText keypair.publicKey = hexText key := by
    rw [← (decodeHexStrict_ok.mp keyRead).1, made]
    rfl
  have sameSignature : hexText signature = hexText own := by
    rw [← (decodeHexStrict_ok.mp signatureRead).1, made]
    rfl
  have named : check.algorithm = algorithmEd25519 := by
    cases rests.scheme with
    | legacy _ names _ => exact names
    | bound _ _ _ _ labelled =>
      rw [← labelled, made]
      rfl
  rw [named] at found
  rw [← hexText_injective sameKey, ← hexText_injective sameSignature, made] at accepted
  rw [made] at verified
  exact verified.symm.trans
    (verifyEnvelopeSignature_sealed false signed.keySize.2 signed.signatureSize.2 found accepted)

/-- What `verify` makes of the written files of a signed artifact that is on disk. -/
theorem files_allowed_iff {m : Machine} {reading : Reading} {guard : Guard (Bytes × Bool)} {artifact : Artifact (Bytes × Bool)}
    {mbomFile signatureFile : Bytes} {outcome : CachedHashResult} (same : publisher.sha = m.sha)
    (signed : Signed publisher.sha publisher.host signedAt manifest mbom (defaultVerifiers publisher.crypto)
      (localEd25519Signer sign keypair) envelope algorithmEd25519 keypair.identity keypair.publicKey signature)
    (written : Written mbom envelope mbomFile signatureFile)
    (hashes : Sdk.hash (pulledEnv m publisher.crypto) guard artifact = .ok outcome)
    (names : digestRef outcome.digest.digest = manifestRef manifest) :
    (∃ result, verifyFiles reading (pulledEnv m publisher.crypto) guard clock artifact mbomFile signatureFile = .ok result ∧
        result.allowed = true) ↔
      envelope.fileSize ≤ maxEnvelopeBytes ∧ Clear guard.registry manifest.modelId manifest.version ∧
        ∀ config ∈ guard.trust, ConfigTrusts config (keyQuery m.sha manifest keypair clock) := by
  have passes := signed_passes signed m.host guard.allowLegacySignatures
  rw [same] at passes
  have payload : envelope.payload = boundPayload m.sha publisher.host signedAt manifest mbom algorithmEd25519 keypair.identity
      keypair.publicKey := by
    rw [signed.made, ← same]
    rfl
  have covered : checkMbomDigest m.sha mbom.join envelope = true := by
    unfold checkMbomDigest
    rw [mbom.canonicalJson_join, payload]
    exact decide_eq_true rfl
  have isMatch : (digestFacts envelope (.ok outcome)).isMatch = true :=
    digestFacts_match.mpr ⟨outcome, rfl, names.trans (congrArg SignaturePayload.artifactDigest payload).symm⟩
  have trusts : (trustFacts m.host guard.trust envelope clock (.ok (sealedCheck m.sha algorithmEd25519 keypair.publicKey))).1 ≠
      some false ↔ ∀ config ∈ guard.trust, ConfigTrusts config (keyQuery m.sha manifest keypair clock) := by
    rw [trustFacts_ok]
    unfold trustQuery
    rw [payload]
    rfl
  have loads : loadMbom reading.coerce reading.explain (.ok mbomFile) = .ok mbom.join :=
    loadMbom_written signed.digits written.mbom
  constructor
  · rintro ⟨result, verified, allowed⟩
    obtain ⟨read, loaded, checked, hashed, revocation, readMbom, readSignature, seen⟩ := verify_returned.mp verified
    obtain ⟨small, sameEnvelope⟩ := (loadEnvelope_written (sealed_encodable signed) written.signature).mp readSignature
    subst sameEnvelope
    have sameCheck : checked = .ok (sealedCheck m.sha algorithmEd25519 keypair.publicKey) := by
      have seenCheck : exceptModelGuardError (verifyEnvelopeSignature m.sha m.host (defaultVerifiers publisher.crypto) loaded
          guard.allowLegacySignatures) = .ok checked := seen.verified
      rw [passes] at seenCheck
      exact (Except.ok.inj seenCheck).symm
    rw [seen.reported, sameCheck, report_signed] at allowed
    obtain ⟨-, -, trusted, clear⟩ := allowed
    have consulted := (revocationFacts_none seen.consulted).mp clear
    rw [payload] at consulted
    exact ⟨small, consulted, trusts.mp trusted⟩
  · rintro ⟨small, clear, trusting⟩
    have asked : Clear guard.registry envelope.payload.modelId envelope.payload.version := by
      rw [payload]
      exact clear
    obtain ⟨revocation, consulted⟩ := revocationFacts_clear asked
    have unrevoked : revocation.2 = none := (revocationFacts_none consulted).mpr asked
    have readSignature : loadEnvelope reading.problems reading.signaturePath (.ok signatureFile) = .ok envelope :=
      (loadEnvelope_written (sealed_encodable signed) written.signature).mpr ⟨small, rfl⟩
    have returned : Returned (pulledEnv m publisher.crypto) guard clock artifact mbom.join envelope _ _ _ revocation :=
      ⟨congrArg exceptModelGuardError passes, congrArg exceptModelGuardError hashes, consulted, rfl⟩
    refine ⟨_, verify_returned.mpr ⟨mbom.join, envelope, _, _, revocation, loads, readSignature, returned⟩, ?_⟩
    exact report_signed.mpr ⟨covered, isMatch, trusts.mpr trusting, unrevoked⟩

end Verify

/-! ### The whole way -/

/-- What `sign` has signed and an upload has put into a store is pulled and verified somewhere else exactly within the
limits of the pull and of the signature file, by a verifier that trusts the key and hears of no revocation. -/
theorem released_model_verifies_iff (publisher : Env α) (sign : PrivateKey → Bytes → Bytes) (signedAt : AwareDatetime)
    (artifact : Artifact α) (manifest : Manifest) (mbom : MLBOM) (keypair : LocalKeyPair) (envelope : SignatureEnvelope)
    (signed : signCommand publisher sign signedAt artifact (.ok manifest) (.ok mbom) (.ok keypair) = .ok envelope)
    (l : Bool) (entries : List (FileName × Node α)) (root : artifact.node = some (.dir l entries)) (uploader : Machine)
    (uploads : uploader.sha = publisher.sha) (pid : Str) (faults : UploadFaults) (store next : LocalBlobStore)
    (sealed : Sealed publisher.sha store) (digest : ArtifactDigest)
    (pushed : uploadArtifact uploader pid faults (sourceOf publisher artifact) store = (.ok digest, next))
    (mbomFile signatureFile : Bytes) (written : Written mbom envelope mbomFile signatureFile) (m : Machine)
    (faithful : m.Faithful) (same : publisher.sha = m.sha) (injective : Function.Injective m.sha.hexdigest)
    (ordinary : Ordinary m (.dir l entries)) (reader : FileReader) (unbroken : ∀ raw, (reader.stream raw).broken = none)
    (stores : Stores) (options : StoreOptions) (serves : stores.blobStore options = .ok (.localStore next reader))
    (dest : Place) (spot : Spot) (w : World) (vacant : Vacant m dest spot w) (maxTotalBytes maxFiles : Option Int)
    (process : Process F) (arguments : GuardArguments (Bytes × Bool)) (uncached : arguments.cacheDir = none)
    (reading : Reading) (clock : AwareDatetime) (path : Str) (name : FileName) :
    (∃ w', artifactPull m stores options (str "sha256:" ++ digest.digest) dest digest.artifactType maxTotalBytes maxFiles w =
          (.exit 0, w') ∧
        verifyCommand process arguments (pulledEnv m publisher.crypto) clock (pulledArtifact m path name spot w')
          (loadMbom reading.coerce reading.explain (.ok mbomFile))
          (loadEnvelope reading.problems reading.signaturePath (.ok signatureFile)) = .exit 0) ↔
      Portable (orDefault maxFiles defaultMaxFiles) (orDefault maxTotalBytes defaultMaxTotalBytes) digest.files ∧
        envelope.fileSize ≤ maxEnvelopeBytes ∧
          (∃ guard, makeGuard process arguments = .ok guard ∧ Clear guard.registry manifest.modelId manifest.version) ∧
            TrustedBy process arguments (keyQuery m.sha manifest keypair clock) := by
  obtain ⟨current, signature, hashes, names, made⟩ := signCommand_ok.mp signed
  obtain ⟨stocked, uploaded⟩ := stocked_of_uploaded (uploads.trans same) injective unbroken
    (show (sourceOf publisher artifact).root = _ from root) ordinary (same ▸ sealed) pushed
  subst uploaded
  -- The digest that was signed is that of the upload.
  have own : current = directoryDigest m.sha (seenFiles m.sha publisher.disk (.dir l entries)) := by
    have walked := Cli.hashed_ok.mp hashes
    rw [root, same] at walked
    exact ((hashDirectory_ok m.sha publisher.disk ordinary.distinct).mp walked).2.2
  subst own
  have verified (guard : Guard (Bytes × Bool)) (configured : makeGuard process arguments = .ok guard) (w' : World)
      (n : Node Bytes) (found : w'.find spot = some n) (filled : Filled (shownFiles publisher.disk (.dir l entries)) n) :
      (∃ result, verifyFiles reading (pulledEnv m publisher.crypto) guard clock (pulledArtifact m path name spot w') mbomFile
          signatureFile = .ok result ∧ result.allowed = true) ↔
        envelope.fileSize ≤ maxEnvelopeBytes ∧ Clear guard.registry manifest.modelId manifest.version ∧
        ∀ config ∈ guard.trust, ConfigTrusts config (keyQuery m.sha manifest keypair clock) := by
    have hashing : Sdk.hash (pulledEnv m publisher.crypto) guard (pulledArtifact m path name spot w') =
        .ok { digest := directoryDigest m.sha (seenFiles m.sha publisher.disk (.dir l entries)), fromCache := false } := by
      have rehashed := @hash_filled _ m.sha publisher.disk _ n ordinary.distinct stocked.clean stocked.nonempty
        (filled.congr fun _ => List.mem_reverse.symm) name
      unfold Sdk.hash pulledArtifact pulledEnv
      rw [makeGuard_direct configured uncached, faithful.sees, found]
      dsimp only [Option.map_some]
      rw [rehashed]
    exact files_allowed_iff same made written hashing names
  constructor
  · rintro ⟨w', pulled, ended⟩
    obtain ⟨served, serving, run⟩ := artifactPull_succeeds.mp pulled
    cases serves.symm.trans serving
    have portable : Portable (orDefault maxFiles defaultMaxFiles) (orDefault maxTotalBytes defaultMaxTotalBytes)
        (directoryDigest m.sha (seenFiles m.sha publisher.disk (.dir l entries))).files := by
      by_contra refused
      obtain ⟨e, other, failed, -⟩ := stocked.refused faithful ordinary vacant refused true
      cases (congrArg Prod.fst run).symm.trans (congrArg Prod.fst failed)
    obtain ⟨last, n, restored, found, filled, -⟩ := stocked.returns faithful ordinary vacant portable true
    cases (congrArg Prod.snd run).symm.trans (congrArg Prod.snd restored)
    obtain ⟨guard, result, configured, checked, allowed⟩ := verifyCommand_zero.mp ended
    obtain ⟨small, clear, trusting⟩ := (verified guard configured w' n found filled).mp ⟨result, checked, allowed⟩
    exact ⟨portable, small, ⟨guard, configured, clear⟩, (makeGuard_trusts_iff configured _).mp trusting⟩
  · rintro ⟨portable, small, ⟨guard, configured, clear⟩, trusting⟩
    obtain ⟨w', n, restored, found, filled, -⟩ := stocked.returns faithful ordinary vacant portable true
    obtain ⟨result, checked, allowed⟩ := (verified guard configured w' n found filled).mpr
      ⟨small, clear, (makeGuard_trusts_iff configured _).mpr trusting⟩
    exact ⟨w', artifactPull_succeeds.mpr ⟨_, serves, restored⟩, verifyCommand_zero.mpr ⟨guard, result, configured, checked, allowed⟩⟩

/-! ### One release

The directory with one file, signed with the first test vector of Ed25519. -/

def treeArtifact : Artifact Unit where
  path := str "model"
  name := modelName
  node := some listableTree

def treeDeclared : DeclaredMetadata :=
  { DeclaredMetadata.empty with
    modelId := some (str "resnet"), version := some (str "1.0"), license := some (str "MIT") }

def treeManifest : Manifest :=
  manifestOf { artifactType := .directory, digest := zeroByteDigest, files := [zeroByteFile (str "a")] } modelName
    treeDeclared

def treeMbom : MLBOM :=
  generateMbom (str "00000000-0000-4000-8000-000000000001") (str "2026-01-02T03:04:05+00:00") treeManifest none

/-- SHA-256 of what is hashed on the way. -/
def treeTable : List (Bytes × Str) :=
  [([0], str "6e340b9cffb37a989ca544e6bb780a2c78901d3fb33738768511a30617afa01d"), (zeroByteManifest, zeroByteDigest),
    (releaseKey, str "21fe31dfa154a261626bf854046fd2271b7bed4b6abe45aa58877ef47f9721b9"),
    (treeMbom.canonicalJson, str "1e1a2c15b368945458ed03ee587c1e106193ac592e7789c9bcbb2abca0cca8c3")]

theorem treeTable_hex : ∀ e ∈ treeTable, IsHex e.2 := by
  unfold treeTable zeroByteDigest
  simp only [List.forall_mem_cons, List.not_mem_nil, false_implies, implies_true, and_true]
  rw [str_ofList, str_ofList, str_ofList, str_ofList]
  decide

def treeSha : Sha256 := .ofTable treeTable treeTable_hex

theorem treeSha_injective : Function.Injective treeSha.hexdigest :=
  ofTable_injective _
    (by
      unfold treeTable zeroByteDigest
      simp only [List.forall_mem_cons, List.not_mem_nil, false_implies, implies_true, and_true]
      rw [str_ofList, str_ofList, str_ofList, str_ofList]
      decide)
    (by
      unfold treeTable zeroByteDigest
      simp only [List.map_cons, List.map_nil]
      rw [str_ofList, str_ofList, str_ofList, str_ofList]
      decide)

theorem privateKey_length :
    (fromHex (str "9d61b19deffd5a60ba844af492ec2cc44449c5697b326919703bac031cae7f60")).length = 32 := by
  rw [str_ofList]
  decide

def treeKeypair : LocalKeyPair where
  identity := releaseIdentity
  privateKey := ⟨_, privateKey_length⟩
  publicKey := releaseKey

def treePayload : SignaturePayload :=
  boundPayload treeSha releaseHost legacyClock treeManifest treeMbom algorithmEd25519 releaseIdentity releaseKey

def treeSignature : Bytes :=
  fromHex (str ("84e5c9657014724c57f3d23cfe12912249f9af5524df441adcd615af8191208e" ++
    "47e9c55cdd7e0fb84252738f7c0f349cab9a81262fd7b5a79acc1f76ce68830f"))

def treePublisher : Env Unit where
  sha := treeSha
  crypto :=
    { ed25519 := fun key s m =>
        if key = releaseKey ∧ s = treeSignature ∧ m = treePayload.canonicalJson then .valid else .invalidSignature
      ecdsaP256 := fun _ _ _ => .invalidSignature }
  host := releaseHost
  disk := zeroDisk

/-- Trusts the key by its fingerprint, and asks a registry without revocations. -/
def treeArguments : GuardArguments (Bytes × Bool) where
  storageRoot := some fun _ _ => .ok none
  registryDsnEnv := none
  cacheDir := none
  trustedFingerprints := [str "21fe31dfa154a261626bf854046fd2271b7bed4b6abe45aa58877ef47f9721b9"]
  trustConfig := none
  rejectLegacySignatures := true

theorem treeTable_apart : (treeTable.map (·.1)).Nodup := by
  unfold treeTable releaseKey
  rw [str_ofList, str_ofList, str_ofList, str_ofList]
  decide

theorem tree_files : seenFiles treeSha zeroDisk listableTree = [zeroByteFile (str "a")] := by
  have byte : treeSha.hexdigest [0] = (zeroByteFile (str "a")).sha256 :=
    ofTable_of_mem treeTable_hex treeTable_apart (.head _)
  have file : fileDigest treeSha zeroDisk ([fileA], ()) = zeroByteFile (str "a") :=
    FileDigest.mk.injEq .. ▸ ⟨rfl, byte, rfl⟩
  exact congrArg (fun f => [f]) file

theorem tree_digest : directoryDigest treeSha (seenFiles treeSha zeroDisk listableTree) =
    { artifactType := .directory, digest := zeroByteDigest, files := [zeroByteFile (str "a")] } := by
  have manifest : treeSha.hexdigest (canonicalManifestBytes [zeroByteFile (str "a")]) = zeroByteDigest :=
    ofTable_of_mem treeTable_hex treeTable_apart (.tail _ (.head _))
  rw [tree_files]
  unfold directoryDigest
  rw [manifest]
  rfl

theorem tree_hashed : Cli.hashed treePublisher treeArtifact =
    .ok { artifactType := .directory, digest := zeroByteDigest, files := [zeroByteFile (str "a")] } := by
  refine Cli.hashed_ok.mpr ?_
  have walked : hashDirectory treeSha zeroDisk listableTree =
      .ok (directoryDigest treeSha (seenFiles treeSha zeroDisk listableTree)) :=
    (hashDirectory_ok treeSha zeroDisk (listableTree_ordinary treeSha plainHost).distinct).mpr ⟨rfl, List.cons_ne_nil _ _, rfl⟩
  rw [tree_digest] at walked
  exact walked

theorem tree_texts : Signing.Encodable treeManifest.texts := by
  have texts : treeManifest.texts =
      [str "1", str "sha256", zeroByteDigest, str "resnet", str "model", str "1.0", str "MIT"] := rfl
  rw [texts]
  unfold Signing.Encodable zeroByteDigest
  simp only [List.forall_mem_cons, List.not_mem_nil, false_implies, implies_true, scalars_str, and_self]

theorem tree_built : buildManifest (Cli.hashed treePublisher treeArtifact) modelName (some treeDeclared) none =
    .ok treeManifest := by
  rw [tree_hashed]
  apply bind_ok.mpr ⟨_, rfl, ?_⟩
  apply bind_ok.mpr ⟨(), ensure_ok.mpr ?_, ?_⟩
  · show Signing.Encodable [str "a", (zeroByteFile (str "a")).sha256]
    unfold Signing.Encodable zeroByteFile
    simp only [List.forall_mem_cons, List.not_mem_nil, false_implies, implies_true, scalars_str, and_self]
  · exact bind_ok.mpr ⟨(), ensure_ok.mpr tree_texts, rfl⟩

theorem treeSignature_length : treeSignature.length = ed25519SignatureLen := by
  unfold treeSignature
  rw [str_append, str_ofList, str_ofList]
  decide

theorem tree_fingerprint : keyFingerprint treeSha releaseKey =
    str "21fe31dfa154a261626bf854046fd2271b7bed4b6abe45aa58877ef47f9721b9" :=
  ofTable_of_mem treeTable_hex treeTable_apart (.tail _ (.tail _ (.head _)))

theorem tree_accepted :
    (ed25519Verifier treePublisher.crypto).verify releaseKey treeSignature treePayload.canonicalJson = .ok () := by
  have genuine : treePublisher.crypto.ed25519 releaseKey treeSignature treePayload.canonicalJson = .valid := by
    simp only [treePublisher, and_self, if_true]
  apply bind_ok.mpr ⟨(), ensure_ok.mpr releaseKey_length, ?_⟩
  apply bind_ok.mpr ⟨(), ensure_ok.mpr treeSignature_length, ?_⟩
  rw [genuine]
  rfl

def treeEnvelope : SignatureEnvelope := sealPayload algorithmEd25519 treePayload treeSignature releaseKey

theorem tree_signed : Signed treeSha releaseHost legacyClock treeManifest treeMbom (defaultVerifiers treePublisher.crypto)
    (localEd25519Signer (fun _ _ => treeSignature) treeKeypair) treeEnvelope algorithmEd25519 releaseIdentity releaseKey
    treeSignature where
  algorithmSaid := rfl
  identitySaid := rfl
  keySaid := rfl
  registered := rfl
  named := by decide
  keySize := by rw [releaseKey_length]; decide
  digits := Nat.one_lt_pow (by decide) (by decide)
  encodable := by
    unfold SignaturePayload.texts boundPayload Signing.Encodable
    simp only [List.forall_mem_append, List.forall_mem_cons, List.not_mem_nil, false_implies, implies_true, and_true,
      Option.mem_toList, Option.some.injEq, forall_eq', treeManifest, treeDeclared, manifestOf, manifestRef, releaseHost, releaseIdentity,
      digestRef, keyFingerprint, scalars_append, scalars_str, schemaVersionBound, algorithmEd25519, true_and, zeroByteDigest]
    exact ⟨(treeSha.hex _).scalars, (treeSha.hex _).scalars⟩
  answered := rfl
  signatureSize := by rw [treeSignature_length]; decide
  made := rfl
  verified := by
    refine ⟨_, verifyEnvelopeSignature_sealed false ?_ ?_ rfl tree_accepted⟩
    · rw [releaseKey_length]
      decide
    · rw [treeSignature_length]
      decide

theorem tree_small : treeEnvelope.fileSize ≤ maxEnvelopeBytes := by
  have ref : Json.quotedSize (manifestRef treeManifest) = 73 := by
    unfold treeManifest manifestOf manifestRef zeroByteDigest
    rw [str_ofList]
    decide
  have digest : Json.quotedSize (digestRef (treeSha.hexdigest treeMbom.canonicalJson)) = 73 := by
    have hashes : treeSha.hexdigest treeMbom.canonicalJson =
        str "1e1a2c15b368945458ed03ee587c1e106193ac592e7789c9bcbb2abca0cca8c3" :=
      ofTable_of_mem treeTable_hex treeTable_apart (.tail _ (.tail _ (.tail _ (.head _))))
    rw [hashes, str_ofList]
    decide
  have moment : Json.quotedSize (releaseHost.isoformat legacyClock) = 34 := by
    show Json.quotedSize (str _) = 34
    rw [str_ofList]
    decide
  have key : Json.quotedSize (keyFingerprint treeSha releaseKey) = 66 := by
    rw [tree_fingerprint, str_ofList]
    decide
  have identity : Json.quotedSize releaseIdentity = 28 := by
    unfold releaseIdentity
    rw [str_ofList]
    decide
  have model : nullableSize treeManifest.modelId = 8 := by decide
  have version : nullableSize treeManifest.version = 5 := by decide
  have algorithm : Json.quotedSize algorithmEd25519 = 9 := by decide
  unfold treeEnvelope treePayload
  rw [fileSize_sealed, signedSize_eq algorithm ref digest model version identity moment key treeSignature_length
    releaseKey_length]
  decide

theorem tree_guarded : ∃ guard, makeGuard rotatedProcess treeArguments = .ok guard ∧
    Clear guard.registry treeManifest.modelId treeManifest.version := by
  have returned : (makeGuard rotatedProcess treeArguments).isOk = true := by decide
  cases made : makeGuard rotatedProcess treeArguments with
  | error e =>
    rw [made] at returned
    cases returned
  | ok guard =>
    refine ⟨guard, rfl, ?_⟩
    unfold makeGuard constructGuard at made
    obtain ⟨_, -, made⟩ := bind_ok.mp made
    obtain ⟨registry, unasked, made⟩ := bind_ok.mp made
    obtain ⟨_, -, made⟩ := bind_ok.mp made
    obtain ⟨_, -, made⟩ := bind_ok.mp made
    cases Except.ok.inj unasked
    rw [← pure_ok.mp made]
    intro isRevoked asked modelId _ version _ _ _
    cases asked
    rfl

def treeStores (store : LocalBlobStore) : Stores where
  localStore _ := (store, ⟨fun content => ⟨[content], none⟩, singleChunk_whole⟩)
  s3Extra := false
  s3 _ _ _ _ := .error (.external (str "ImportError") [])

def treeOptions : StoreOptions where
  bucket := none
  keyPrefix := []
  endpointUrl := none
  region := none
  localStore := some (str "store")

theorem tree_uploaded : ∃ digest next, uploadArtifact (quietMachine treeSha plainHost) (str "1") .none
    (sourceOf treePublisher treeArtifact) .empty = (.ok digest, next) := by
  have returned : (uploadArtifact (quietMachine treeSha plainHost) (str "1") .none (sourceOf treePublisher treeArtifact)
      .empty).1.isOk = true := by
    unfold treeSha treeTable zeroByteManifest zeroByteFile zeroByteDigest
    simp only [byteDigest_spelled, manifestDigest_spelled]
    decide
  cases run : uploadArtifact (quietMachine treeSha plainHost) (str "1") .none (sourceOf treePublisher treeArtifact) .empty with
  | mk outcome next =>
    rw [run] at returned
    cases outcome with
    | ok digest => exact ⟨digest, next, rfl⟩
    | error e => cases returned

theorem tree_released : ∃ digest next mbomFile signatureFile w',
    buildManifest (Cli.hashed treePublisher treeArtifact) modelName (some treeDeclared) none = .ok treeManifest ∧
      signCommand treePublisher (fun _ _ => treeSignature) legacyClock treeArtifact (.ok treeManifest) (.ok treeMbom)
        (.ok treeKeypair) = .ok treeEnvelope ∧
      uploadArtifact (quietMachine treeSha plainHost) (str "1") .none (sourceOf treePublisher treeArtifact) .empty =
        (.ok digest, next) ∧
      Written treeMbom treeEnvelope mbomFile signatureFile ∧
      artifactPull (quietMachine treeSha plainHost) (treeStores next) treeOptions (str "sha256:" ++ digest.digest) modelPlace
        digest.artifactType (some 1) (some 1) emptyWorld = (.exit 0, w') ∧
      verifyCommand rotatedProcess treeArguments (pulledEnv (quietMachine treeSha plainHost) treePublisher.crypto) legacyClock
          (pulledArtifact (quietMachine treeSha plainHost) (str "model") modelName modelSpot w')
          (loadMbom releaseReading.coerce releaseReading.explain (.ok mbomFile))
          (loadEnvelope releaseReading.problems releaseReading.signaturePath (.ok signatureFile)) = .exit 0 := by
  have signed : signCommand treePublisher (fun _ _ => treeSignature) legacyClock treeArtifact (.ok treeManifest) (.ok treeMbom)
      (.ok treeKeypair) = .ok treeEnvelope := by
    rw [signCommand_built tree_built]
    exact signWithProvider_ok.mpr ⟨_, _, _, _, tree_signed⟩
  obtain ⟨digest, next, pushed⟩ := tree_uploaded
  obtain ⟨mbomFile, signatureFile, written⟩ := written_exists tree_signed
  have portable : Portable 1 1 digest.files := by
    obtain ⟨-, same⟩ := @stocked_of_uploaded _ _ (quietMachine treeSha plainHost) rfl treeSha_injective
      ⟨fun content => ⟨[content], none⟩, singleChunk_whole⟩ (fun _ => rfl) _ _ _ true _ rfl (listableTree_ordinary _ _) _ _
      (sealed_empty _) _ pushed
    rw [same]
    show Portable 1 1 (directoryDigest treeSha (seenFiles treeSha zeroDisk listableTree)).files
    rw [tree_digest]
    exact zeroByteFile_portable
  have trusted : TrustedBy rotatedProcess treeArguments (keyQuery treeSha treeManifest treeKeypair legacyClock) := by
    refine .inr (.inl ⟨_, List.mem_singleton_self _, ?_⟩)
    rw [show (keyQuery treeSha treeManifest treeKeypair legacyClock).keyFingerprint = _ from tree_fingerprint]
    decide
  obtain ⟨w', pulled, verified⟩ := (released_model_verifies_iff treePublisher (fun _ _ => treeSignature) legacyClock treeArtifact
    treeManifest treeMbom treeKeypair treeEnvelope signed true _ rfl (quietMachine treeSha plainHost) rfl (str "1") .none
    .empty next (sealed_empty _) digest pushed mbomFile signatureFile written (quietMachine treeSha plainHost)
    (quietMachine_faithful _ _) rfl treeSha_injective (listableTree_ordinary _ _) _ (fun _ => rfl) (treeStores next)
    treeOptions rfl modelPlace modelSpot emptyWorld (modelPlace_vacant _ _) (some 1) (some 1) rotatedProcess treeArguments rfl
    releaseReading legacyClock (str "model") modelName).mpr ⟨portable, tree_small, tree_guarded, trusted⟩
  exact ⟨digest, next, mbomFile, signatureFile, w', tree_built, signed, pushed, written, pulled, verified⟩

end ModelGuard.Deployment
