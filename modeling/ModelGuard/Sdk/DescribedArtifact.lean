import ModelGuard.Sdk.SignedFiles

/-!
# The ML-BOM and the artifact

Nothing compares the digest that an ML-BOM names with the one that is signed beside it. What was named when the two
were signed is what an allowed result finds on disk.
-/

namespace ModelGuard.Sdk

open Lib Lib.Fallible Lib.Json ModelGuard.Hashing ModelGuard.Mbom ModelGuard.Registry ModelGuard.Signing

section

variable {α : Type}

theorem report_allowed_match {signature : Except Str SignatureCheck} {mbomValid : Bool} {digest : DigestFacts}
    {trust : Option Bool × List Str} {revocation : Bool × Option RevocationRecord}
    (allowed : (report signature mbomValid digest trust revocation).allowed = true) : digest.isMatch = true := by
  cases signature with
  | error message => cases allowed
  | ok check => exact (report_signed.mp allowed).2.1

theorem join_names {mbom : MLBOM} {manifest : Manifest} (scalars : Scalars (manifestRef manifest))
    (named : mbom.modelguard.artifactDigest = manifestRef manifest) :
    mbom.join.modelguard.artifactDigest = manifestRef manifest := by
  show joinText mbom.modelguard.artifactDigest = _
  rw [named, joinText_of_joined (joined_of_scalars scalars)]

/-- An allowed result is about the artifact that was signed; the ML-BOM is the one that was signed with it. -/
theorem allowed_on_disk {reading : Reading} {env : Env α} {guard : Guard α} {signedAt clock : AwareDatetime}
    {artifact : Artifact α} {sha : Sha256} {host : Host} {manifest : Manifest} {mbom : MLBOM} {verifiers : Verifiers}
    {provider : SignerProvider} {envelope : SignatureEnvelope} {mbomFile signatureFile : Bytes} {result : VerificationResult}
    (returned : signWithProvider sha host signedAt manifest mbom verifiers provider = .ok envelope)
    (written : Written mbom envelope mbomFile signatureFile)
    (verified : verifyFiles reading env guard clock artifact mbomFile signatureFile = .ok result)
    (allowed : result.allowed = true) :
    ∃ outcome, loadMbom reading.coerce reading.explain (.ok mbomFile) = .ok mbom.join ∧
      hash env guard artifact = .ok outcome ∧ manifestRef manifest = digestRef outcome.digest.digest ∧
        envelope.payload.artifactDigest = digestRef outcome.digest.digest ∧ Scalars (manifestRef manifest) := by
  obtain ⟨algorithm, identity, publicKey, signature, signed⟩ := signWithProvider_ok.mp returned
  obtain ⟨_, loaded, checked, hashed, revocation, -, read, seen⟩ := verify_returned.mp verified
  have same := ((loadEnvelope_written (sealed_encodable signed) written.signature).mp read).2
  subst same
  rw [seen.reported] at allowed
  obtain ⟨outcome, hashing, matching⟩ := digestFacts_match.mp (report_allowed_match allowed)
  have payload : loaded.payload = boundPayload sha host signedAt manifest mbom algorithm identity publicKey := by
    rw [signed.made]
    rfl
  have ref : manifestRef manifest = digestRef outcome.digest.digest := by
    rw [matching, payload]
    rfl
  have scalars : Scalars (manifestRef manifest) := signed.encodable _ (by simp [SignaturePayload.texts, boundPayload])
  exact ⟨outcome, loadMbom_written signed.digits written.mbom, (hashed_ok seen.outcome).mp hashing, ref, matching.symm,
    scalars⟩

/-- An ML-BOM that named the digest of the manifest when it was signed names what is on disk when it is allowed. -/
theorem allowed_mbom_describes (reading : Reading) (env : Env α) (guard : Guard α) (signedAt clock : AwareDatetime)
    (artifact : Artifact α) (sha : Sha256) (host : Host) (manifest : Manifest) (mbom : MLBOM) (verifiers : Verifiers)
    (provider : SignerProvider) (envelope : SignatureEnvelope) (mbomFile signatureFile : Bytes) (result : VerificationResult)
    (returned : signWithProvider sha host signedAt manifest mbom verifiers provider = .ok envelope)
    (named : mbom.modelguard.artifactDigest = manifestRef manifest) (written : Written mbom envelope mbomFile signatureFile)
    (verified : verifyFiles reading env guard clock artifact mbomFile signatureFile = .ok result)
    (allowed : result.allowed = true) :
    ∃ supplied outcome, loadMbom reading.coerce reading.explain (.ok mbomFile) = .ok supplied ∧
      hash env guard artifact = .ok outcome ∧
        supplied.modelguard.artifactDigest = digestRef outcome.digest.digest ∧
          envelope.payload.artifactDigest = digestRef outcome.digest.digest := by
  obtain ⟨outcome, read, hashed, ref, signedDigest, scalars⟩ := allowed_on_disk returned written verified allowed
  exact ⟨mbom.join, outcome, read, hashed, (join_names scalars named).trans ref, signedDigest⟩

/-- So does every ML-BOM that was generated from the manifest. -/
theorem generated_mbom_describes {reading : Reading} {env : Env α} {guard : Guard α} {signedAt clock : AwareDatetime}
    {artifact : Artifact α} {sha : Sha256} {host : Host} {manifest : Manifest} {verifiers : Verifiers}
    {provider : SignerProvider} {envelope : SignatureEnvelope} {mbomFile signatureFile : Bytes} {result : VerificationResult}
    {serial timestamp : Str} {provenance : Option DeclaredProvenance}
    (returned : signWithProvider sha host signedAt manifest (generateMbom serial timestamp manifest provenance) verifiers
      provider = .ok envelope)
    (written : Written (generateMbom serial timestamp manifest provenance) envelope mbomFile signatureFile)
    (verified : verifyFiles reading env guard clock artifact mbomFile signatureFile = .ok result)
    (allowed : result.allowed = true) :
    ∃ supplied outcome, loadMbom reading.coerce reading.explain (.ok mbomFile) = .ok supplied ∧
      hash env guard artifact = .ok outcome ∧ supplied.modelguard.artifactDigest = digestRef outcome.digest.digest := by
  obtain ⟨outcome, read, hashed, ref, -, scalars⟩ := allowed_on_disk returned written verified allowed
  exact ⟨_, outcome, read, hashed, (join_names scalars (generateMbom_describes ..)).trans ref⟩

end

/-- The files of the release, with whatever ML-BOM it was signed, are allowed. -/
theorem release_allowed {mbom : MLBOM} {signature : Bytes} (digits : mbom.version.natAbs < 10 ^ maxStrDigits)
    (digestSize : quotedSize (digestRef (releaseSha.hexdigest mbom.canonicalJson)) = 73)
    (size : signature.length = ed25519SignatureLen) :
    ∃ mbomFile signatureFile result,
      Written mbom (sealPayload algorithmEd25519 (releasePayload mbom releaseIdentity) signature releaseKey) mbomFile
        signatureFile ∧
      verifyFiles releaseReading (releaseEnv (releasePayload mbom releaseIdentity).canonicalJson signature) releaseGuard
        legacyClock legacyArtifact mbomFile signatureFile = .ok result ∧
      result.allowed = true ∧ result.artifactDigest = manifestRef releaseManifest := by
  have named : releaseIdentity ≠ [] := by decide
  have signed := release_signed digits named (scalars_str _) size
  obtain ⟨mbomFile, signatureFile, written⟩ := written_exists signed
  have small : (sealPayload algorithmEd25519 (releasePayload mbom releaseIdentity) signature releaseKey).fileSize ≤
      maxEnvelopeBytes := by
    unfold releasePayload
    rw [fileSize_sealed]
    exact release_small digestSize size
  have consulted : revocationFacts releaseGuard (releasePayload mbom releaseIdentity) = .ok (false, none) := rfl
  have verified := verifyFiles_written releaseReading legacyClock signed (release_honest size) written small
    (release_hash _ _) consulted
  refine ⟨mbomFile, signatureFile, _, written, verified, ?_, release_ref⟩
  exact report_signed.mpr ⟨rfl, digestFacts_match.mpr ⟨legacyHash, rfl, release_ref⟩, nofun, rfl⟩

theorem release_mbom_describes :
    ∃ mbomFile signatureFile result supplied outcome,
      Written legacyMbom (sealPayload algorithmEd25519 (releasePayload legacyMbom releaseIdentity) releaseSignature releaseKey)
        mbomFile signatureFile ∧
      verifyFiles releaseReading (releaseEnv (releasePayload legacyMbom releaseIdentity).canonicalJson releaseSignature)
        releaseGuard legacyClock legacyArtifact mbomFile signatureFile = .ok result ∧
      result.allowed = true ∧
      loadMbom releaseReading.coerce releaseReading.explain (.ok mbomFile) = .ok supplied ∧
      hash (releaseEnv (releasePayload legacyMbom releaseIdentity).canonicalJson releaseSignature) releaseGuard
        legacyArtifact = .ok outcome ∧
      supplied.modelguard.artifactDigest = digestRef outcome.digest.digest := by
  have named : releaseIdentity ≠ [] := by decide
  have signed := release_signed release_digits named (scalars_str _) releaseSignature_length
  obtain ⟨mbomFile, signatureFile, result, written, verified, allowed, -⟩ :=
    release_allowed release_digits release_digestSize releaseSignature_length
  obtain ⟨supplied, outcome, read, hashed, describes, -⟩ := allowed_mbom_describes _ _ _ _ _ _ _ _ _ _ _ _ _ _ _ _
    (signWithProvider_ok.mpr ⟨_, _, _, _, signed⟩) rfl written verified allowed
  exact ⟨mbomFile, signatureFile, result, supplied, outcome, written, verified, allowed, read, hashed, describes⟩

/-! The ML-BOM of one file, signed with the manifest of the directory. -/

def otherSignature : Bytes :=
  fromHex (str ("8c25ac362a2ccb16304e3ccda68438b74f6b462f52cdc84a536e9e156eb9e92c" ++
    "384fb8c14a4f5145edf5a834f29dc42e98e7284a1225456699852412ee24660e"))

theorem otherSignature_length : otherSignature.length = ed25519SignatureLen := by
  unfold otherSignature
  rw [str_append, str_ofList, str_ofList]
  decide +kernel

theorem other_digestSize : quotedSize (digestRef (releaseSha.hexdigest otherMbom.canonicalJson)) = 73 := by
  have digest : releaseSha.hexdigest otherMbom.canonicalJson =
      str "fa432f5797ca02e2a095426fdcccfc30ae714222471b7652132f66cf38235fa1" :=
    ofTable_of_mem _ releaseTable_apart (List.mem_append_right _ (.tail _ (.head _)))
  rw [digest, str_ofList]
  decide +kernel

/-- Signed by an honest provider and allowed, the ML-BOM names another artifact. -/
theorem other_mbom_allowed :
    signWithProvider releaseSha releaseHost legacyClock releaseManifest otherMbom
        (defaultVerifiers (releaseEnv (releasePayload otherMbom releaseIdentity).canonicalJson otherSignature).crypto)
        (releaseProvider releaseIdentity (releasePayload otherMbom releaseIdentity).canonicalJson otherSignature) =
      .ok (sealPayload algorithmEd25519 (releasePayload otherMbom releaseIdentity) otherSignature releaseKey) ∧
    ∃ mbomFile signatureFile result supplied,
      Written otherMbom (sealPayload algorithmEd25519 (releasePayload otherMbom releaseIdentity) otherSignature releaseKey)
        mbomFile signatureFile ∧
      verifyFiles releaseReading (releaseEnv (releasePayload otherMbom releaseIdentity).canonicalJson otherSignature)
        releaseGuard legacyClock legacyArtifact mbomFile signatureFile = .ok result ∧
      result.allowed = true ∧
      loadMbom releaseReading.coerce releaseReading.explain (.ok mbomFile) = .ok supplied ∧
      supplied.modelguard.artifactDigest ≠ result.artifactDigest := by
  have named : releaseIdentity ≠ [] := by decide
  have digits : otherMbom.version.natAbs < 10 ^ maxStrDigits := release_digits
  have signed := release_signed digits named (scalars_str _) otherSignature_length
  refine ⟨signWithProvider_ok.mpr ⟨_, _, _, _, signed⟩, ?_⟩
  obtain ⟨mbomFile, signatureFile, result, written, verified, allowed, onDisk⟩ :=
    release_allowed digits other_digestSize otherSignature_length
  refine ⟨mbomFile, signatureFile, result, _, written, verified, allowed, loadMbom_written digits written.mbom, ?_⟩
  rw [onDisk]
  show joinText (Lib.str _) ≠ Lib.str _ ++ Lib.str _ ++ Lib.str _
  rw [joinText_of_joined (joined_of_scalars (scalars_str _)), ← str_append, ← str_append]
  exact fun same => absurd (str_injective same) (by decide)

end ModelGuard.Sdk
