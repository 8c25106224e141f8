import ModelGuard.Manifest.Builder
import ModelGuard.Sdk.Verify
import ModelGuard.Signing.Keys

/-!
# `sign`

A manifest is signed only while it names the artifact that is on disk.
-/

namespace ModelGuard.Cli

open Lib Lib.Fallible ModelGuard.Hashing ModelGuard.Mbom ModelGuard.Sdk ModelGuard.Signing

variable {α : Type}

/-- `LocalEd25519Signer`; `sign` is that of the cryptographic library. -/
def localEd25519Signer (sign : PrivateKey → Bytes → Bytes) (keypair : LocalKeyPair) : SignerProvider where
  algorithm := .value algorithmEd25519
  identity := .value keypair.identity
  publicKey := .value keypair.publicKey
  sign message := .value (sign keypair.privateKey message)

/-- `hash_artifact`. -/
def hashed (env : Env α) (artifact : Artifact α) : Except Raised ArtifactDigest :=
  match hashArtifact env.sha env.disk artifact.name artifact.node with
  | .ok digest => .ok digest
  | .error e => .error (raisedBy env.host artifact.path e)

def staleManifest : Raised :=
  .modelGuard .modelGuardError (str ("Manifest digest does not match the artifact on disk. " ++
    "Re-run \x60modelguard manifest\x60 before signing."))

/-- `modelguard sign`, of what reading the manifest, the ML-BOM and the key gives. The envelope is what it writes. -/
def signCommand (env : Env α) (sign : PrivateKey → Bytes → Bytes) (signedAt : AwareDatetime) (artifact : Artifact α)
    (manifestFile : Except Raised Manifest) (mbomFile : Except Raised MLBOM) (keyFile : Except Raised LocalKeyPair) :
    Except Raised SignatureEnvelope := do
  let manifest ← manifestFile
  let mbom ← mbomFile
  let keypair ← keyFile
  let current ← hashed env artifact
  ensure (digestRef current.digest = manifestRef manifest) staleManifest
  signWithProvider env.sha env.host signedAt manifest mbom (defaultVerifiers env.crypto) (localEd25519Signer sign keypair)

theorem hashed_ok {env : Env α} {artifact : Artifact α} {digest : ArtifactDigest} :
    hashed env artifact = .ok digest ↔ hashArtifact env.sha env.disk artifact.name artifact.node = .ok digest := by
  unfold hashed
  cases hashArtifact env.sha env.disk artifact.name artifact.node with
  | ok d =>
    dsimp only
    rw [Except.ok.injEq, Except.ok.injEq]
  | error e => exact iff_of_false nofun nofun

variable {env : Env α} {sign : PrivateKey → Bytes → Bytes} {signedAt : AwareDatetime} {artifact : Artifact α}
  {manifest : Manifest} {mbom : MLBOM} {keypair : LocalKeyPair} {envelope : SignatureEnvelope}

/-- What was signed is the digest of the artifact, with the key pair. -/
theorem signCommand_ok :
    signCommand env sign signedAt artifact (.ok manifest) (.ok mbom) (.ok keypair) = .ok envelope ↔
      ∃ current signature, hashed env artifact = .ok current ∧ digestRef current.digest = manifestRef manifest ∧
        Signed env.sha env.host signedAt manifest mbom (defaultVerifiers env.crypto) (localEd25519Signer sign keypair) envelope
          algorithmEd25519 keypair.identity keypair.publicKey signature := by
  constructor
  · intro returned
    obtain ⟨_, sameManifest, returned⟩ := bind_ok.mp returned
    obtain ⟨_, sameMbom, returned⟩ := bind_ok.mp returned
    obtain ⟨_, sameKey, returned⟩ := bind_ok.mp returned
    cases sameManifest
    cases sameMbom
    cases sameKey
    obtain ⟨current, hashes, returned⟩ := bind_ok.mp returned
    obtain ⟨_, fresh, returned⟩ := bind_ok.mp returned
    obtain ⟨algorithm, identity, publicKey, signature, signed⟩ := signWithProvider_ok.mp returned
    cases signed.algorithmSaid
    cases signed.identitySaid
    cases signed.keySaid
    exact ⟨current, signature, hashes, ensure_ok.mp fresh, signed⟩
  · rintro ⟨current, signature, hashes, fresh, signed⟩
    apply bind_ok.mpr ⟨manifest, rfl, ?_⟩
    apply bind_ok.mpr ⟨mbom, rfl, ?_⟩
    apply bind_ok.mpr ⟨keypair, rfl, ?_⟩
    apply bind_ok.mpr ⟨current, hashes, ?_⟩
    exact bind_ok.mpr ⟨(), ensure_ok.mpr fresh, signWithProvider_ok.mpr ⟨_, _, _, signature, signed⟩⟩

/-- The manifest that was just built is never stale. -/
theorem signCommand_built {metadata : Option DeclaredMetadata}
    (built : buildManifest (hashed env artifact) artifact.name metadata none = .ok manifest) :
    signCommand env sign signedAt artifact (.ok manifest) (.ok mbom) (.ok keypair) =
      signWithProvider env.sha env.host signedAt manifest mbom (defaultVerifiers env.crypto)
        (localEd25519Signer sign keypair) := by
  obtain ⟨digest, hashes, -, names, -⟩ := buildManifest_ok built
  unfold signCommand
  rw [show hashed env artifact = .ok digest from hashes]
  show (ensure (digestRef digest.digest = manifestRef manifest) staleManifest >>= fun _ => _) = _
  rw [show ensure (digestRef digest.digest = manifestRef manifest) staleManifest = .ok () from ensure_ok.mpr names.symm]
  rfl

end ModelGuard.Cli
