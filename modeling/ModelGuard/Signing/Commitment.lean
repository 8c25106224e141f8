import ModelGuard.Signing.Canonical
import ModelGuard.Signing.Verifier

/-!
# What the signed bytes commit to

The canonical bytes of a payload decide the format version and the algorithm of every envelope that
verifies with them, and in version 2 the key.
-/

namespace ModelGuard.Signing

open Lib Lib.Fallible Lib.Json

/-! ### Schemes -/

/-- The format version of an envelope with what it implies for the scheme and the committed key. -/
inductive Scheme (envelope : SignatureEnvelope) (algorithm : Str) (claimed : Option Str) : Prop
  | legacy : envelope.payload.schemaVersion = schemaVersionLegacy → algorithm = algorithmEd25519 → claimed = none →
      Scheme envelope algorithm claimed
  | bound {keyId : Str} : envelope.payload.schemaVersion = schemaVersionBound →
      envelope.payload.signatureAlgorithm = some algorithm → envelope.payload.keyId = some keyId →
      claimed = some keyId → envelope.signatureType = algorithm → Scheme envelope algorithm claimed

theorem schemeOf_ok {host : Host} {envelope : SignatureEnvelope} {allowLegacyV1 : Bool} {scheme : Str × Option Str}
    (h : schemeOf host envelope allowLegacyV1 = .ok scheme) : Scheme envelope scheme.1 scheme.2 := by
  unfold schemeOf at h
  dsimp only at h
  split at h
  · rename_i legacy
    obtain ⟨_, -, h⟩ := bind_ok.mp h
    obtain ⟨_, -, h⟩ := bind_ok.mp h
    obtain ⟨_, -, h⟩ := bind_ok.mp h
    have same := pure_ok.mp h
    subst same
    exact .legacy legacy rfl rfl
  · split at h
    · rename_i bound
      split at h
      · rename_i algorithm keyId hasAlgorithm hasKey
        obtain ⟨_, label, h⟩ := bind_ok.mp h
        have same := pure_ok.mp h
        subst same
        exact .bound bound hasAlgorithm hasKey rfl (ensure_ok.mp label)
      · cases h
    · cases h

/-- A check that succeeded, with the key bytes behind the reported fingerprint. -/
structure Accepted (sha : Sha256) (verifiers : Verifiers) (envelope : SignatureEnvelope) (check : SignatureCheck)
    (claimed : Option Str) (keyBytes : Bytes) : Prop where
  scheme : Scheme envelope check.algorithm claimed
  registered : ∃ verifier, verifiers.lookup check.algorithm = some verifier
  spelling : hexText keyBytes = envelope.publicKey
  fingerprint : check.keyFingerprint = keyFingerprint sha keyBytes
  committed : ∀ keyId ∈ claimed, keyId = keyFingerprint sha keyBytes
  version : check.formatVersion = envelope.payload.schemaVersion

theorem verifyEnvelopeSignature_accepted {sha : Sha256} {host : Host} {verifiers : Verifiers}
    {envelope : SignatureEnvelope} {allowLegacyV1 : Bool} {check : SignatureCheck}
    (h : verifyEnvelopeSignature sha host verifiers envelope allowLegacyV1 = .ok check) :
    ∃ claimed keyBytes, Accepted sha verifiers envelope check claimed keyBytes := by
  unfold verifyEnvelopeSignature at h
  obtain ⟨⟨algorithm, claimed⟩, scheme, h⟩ := bind_ok.mp h
  obtain ⟨verifier, found, h⟩ := bind_ok.mp h
  obtain ⟨keyBytes, key, h⟩ := bind_ok.mp h
  obtain ⟨signature, -, h⟩ := bind_ok.mp h
  obtain ⟨_, committed, h⟩ := bind_ok.mp h
  obtain ⟨_, -, h⟩ := bind_ok.mp h
  have same := pure_ok.mp h
  subst same
  refine ⟨claimed, keyBytes, schemeOf_ok scheme, ⟨verifier, orRaise_ok.mp found⟩, (decodeHexStrict_ok.mp key).1.symm, rfl, ?_, rfl⟩
  intro keyId mem
  have all := ensure_ok.mp committed
  rw [Option.mem_def.mp mem] at all
  exact of_decide_eq_true all

/-! ### Two envelopes with the same signed bytes -/

theorem joinText_version {s : Str} (h : s = schemaVersionLegacy ∨ s = schemaVersionBound) : joinText s = s := by
  rcases h with h | h <;> subst h <;> rfl

theorem Scheme.version {envelope : SignatureEnvelope} {algorithm : Str} {claimed : Option Str}
    (h : Scheme envelope algorithm claimed) :
    envelope.payload.schemaVersion = schemaVersionLegacy ∨ envelope.payload.schemaVersion = schemaVersionBound := by
  cases h with
  | legacy version => exact Or.inl version
  | bound version => exact Or.inr version

theorem versions_differ : schemaVersionLegacy ≠ schemaVersionBound := by decide

/-- What two accepted envelopes have in common when the bytes that were signed are the same. -/
structure SameCommitment (a b : SignatureEnvelope) (checkA checkB : SignatureCheck) : Prop where
  formatVersion : checkA.formatVersion = checkB.formatVersion
  algorithm : checkA.algorithm = checkB.algorithm
  legacy : checkA.formatVersion = schemaVersionLegacy → checkA.algorithm = algorithmEd25519
  publicKey : checkA.formatVersion = schemaVersionBound → a.publicKey = b.publicKey
  signatureType : checkA.formatVersion = schemaVersionBound → a.signatureType = b.signatureType
  keyFingerprint : checkA.formatVersion = schemaVersionBound → checkA.keyFingerprint = checkB.keyFingerprint

/-- Equal signed bytes fix the version and the scheme, and in version 2 the key, under any registry whose
names JSON tells apart. -/
theorem signed_bytes_fix_scheme_and_key {sha : Sha256} (injective : Function.Injective sha.hexdigest)
    {verifiers : Verifiers} (names : ∀ v ∈ verifiers, Json.Joined v.1) {hostA hostB : Host}
    {a b : SignatureEnvelope} {allowA allowB : Bool} {checkA checkB : SignatureCheck}
    (acceptsA : verifyEnvelopeSignature sha hostA verifiers a allowA = .ok checkA)
    (acceptsB : verifyEnvelopeSignature sha hostB verifiers b allowB = .ok checkB)
    (bytes : a.payload.canonicalJson = b.payload.canonicalJson) : SameCommitment a b checkA checkB := by
  obtain ⟨claimedA, keyA, atA⟩ := verifyEnvelopeSignature_accepted acceptsA
  obtain ⟨claimedB, keyB, atB⟩ := verifyEnvelopeSignature_accepted acceptsB
  have joined := SignaturePayload.canonicalJson_inj bytes
  have version : a.payload.schemaVersion = b.payload.schemaVersion := by
    have same : joinText a.payload.schemaVersion = joinText b.payload.schemaVersion :=
      congrArg SignaturePayload.schemaVersion joined
    rwa [joinText_version atA.scheme.version, joinText_version atB.scheme.version] at same
  have formatVersion : checkA.formatVersion = checkB.formatVersion := by rw [atA.version, atB.version, version]
  obtain ⟨verifierA, registeredA⟩ := atA.registered
  obtain ⟨verifierB, registeredB⟩ := atB.registered
  have nameA : joinText checkA.algorithm = checkA.algorithm := joinText_of_joined (names _ (Dict.mem_of_lookup registeredA))
  have nameB : joinText checkB.algorithm = checkB.algorithm := joinText_of_joined (names _ (Dict.mem_of_lookup registeredB))
  have sameOption {x y : Option Str} (h : x.map joinText = y.map joinText) {s t : Str} (hx : x = some s) (hy : y = some t) :
      joinText s = joinText t := by
    subst hx hy
    exact Option.some.inj h
  cases atA.scheme with
  | legacy legacyA algorithmA claimsA =>
    cases atB.scheme with
    | legacy legacyB algorithmB claimsB =>
      have notBound : checkA.formatVersion ≠ schemaVersionBound := by
        rw [atA.version, legacyA]
        exact versions_differ
      exact ⟨formatVersion, algorithmA.trans algorithmB.symm, fun _ => algorithmA, fun h => (notBound h).elim,
        fun h => (notBound h).elim, fun h => (notBound h).elim⟩
    | bound boundB => exact (versions_differ (legacyA.symm.trans (version.trans boundB))).elim
  | bound boundA algorithmA keyIdA claimsA typeA =>
    cases atB.scheme with
    | legacy legacyB => exact (versions_differ (legacyB.symm.trans (version.symm.trans boundA))).elim
    | bound boundB algorithmB keyIdB claimsB typeB =>
      have algorithm : checkA.algorithm = checkB.algorithm := by
        rw [← nameA, ← nameB]
        exact sameOption (congrArg SignaturePayload.signatureAlgorithm joined) algorithmA algorithmB
      have hexText : joinText (keyFingerprint sha keyA) = joinText (keyFingerprint sha keyB) := by
        have ids := sameOption (congrArg SignaturePayload.keyId joined) keyIdA keyIdB
        rwa [atA.committed _ claimsA, atB.committed _ claimsB] at ids
      have digests : keyFingerprint sha keyA = keyFingerprint sha keyB := by
        have plain (data : Bytes) : joinText (keyFingerprint sha data) = keyFingerprint sha data :=
          joinText_of_joined (joined_of_scalars (sha.hex data).scalars)
        rwa [plain, plain] at hexText
      have keys : keyA = keyB := injective digests
      have notLegacy : checkA.formatVersion ≠ schemaVersionLegacy := by
        rw [atA.version, boundA]
        exact versions_differ.symm
      refine ⟨formatVersion, algorithm, fun h => (notLegacy h).elim, fun _ => ?_, fun _ => ?_, fun _ => ?_⟩
      · rw [← atA.spelling, ← atB.spelling, keys]
      · rw [typeA, typeB, algorithm]
      · rw [atA.fingerprint, atB.fingerprint, keys]

/-! ### A registry with two names for one JSON text -/

def emptySha : Sha256 :=
  .ofTable [([], str "e3b0c44298fc1c149afbf4c8996fb92427ae41e4649b934ca495991b7852b855")] (by decide +kernel)

theorem emptySha_injective : Function.Injective emptySha.hexdigest :=
  ofTable_injective _ (by decide +kernel) (List.nodup_singleton _)

def plainHost : Host where
  repr s := s
  isoformat _ := []
  osError _ := ([], [])

/-- Accepts any signature under the given names. -/
def lenientVerifiers (names : List Str) : Verifiers :=
  names.map fun name => (name, { algorithm := name, verify := fun _ _ _ => .ok () })

def shortPayload (algorithm : Str) : SignaturePayload where
  schemaVersion := schemaVersionBound
  artifactDigest := str "sha256:0"
  mbomDigest := str "sha256:0"
  modelId := none
  version := none
  signerIdentity := str "alice"
  signedAt := str "2026-01-01"
  signatureAlgorithm := some algorithm
  keyId := some (emptySha.hexdigest [])

def shortEnvelope (algorithm signature : Str) : SignatureEnvelope where
  signatureType := algorithm
  payload := shortPayload algorithm
  signature := signature
  publicKey := []

theorem shortEnvelope_payload (algorithm signature : Str) :
    (shortEnvelope algorithm signature).payload = shortPayload algorithm := rfl

def shortCheck (algorithm : Str) : SignatureCheck where
  algorithm := algorithm
  keyFingerprint := emptySha.hexdigest []
  formatVersion := schemaVersionBound
  keyBound := true

/-- Two signatures over one payload. -/
theorem two_signatures_share_key :
    SameCommitment (shortEnvelope algorithmEd25519 (str "00")) (shortEnvelope algorithmEd25519 (str "01"))
      (shortCheck algorithmEd25519) (shortCheck algorithmEd25519) := by
  have names : ∀ v ∈ lenientVerifiers [algorithmEd25519], Json.Joined v.1 := by
    intro v mem
    rw [List.mem_singleton.mp mem]
    exact joined_str "ed25519"
  have first : verifyEnvelopeSignature emptySha plainHost (lenientVerifiers [algorithmEd25519])
      (shortEnvelope algorithmEd25519 (str "00")) true = .ok (shortCheck algorithmEd25519) := by decide +kernel
  have second : verifyEnvelopeSignature emptySha plainHost (lenientVerifiers [algorithmEd25519])
      (shortEnvelope algorithmEd25519 (str "01")) false = .ok (shortCheck algorithmEd25519) := by decide +kernel
  refine signed_bytes_fix_scheme_and_key emptySha_injective names first second ?_
  rw [shortEnvelope_payload, shortEnvelope_payload]

theorem face_payloads_share_text : (shortPayload face).canonicalJson = (shortPayload splitFace).canonicalJson := by
  have joined : (shortPayload face).join = (shortPayload splitFace).join := by
    simp only [SignaturePayload.join, shortPayload, Option.map_some, joinText_face]
  rw [← SignaturePayload.canonicalJson_join, joined, SignaturePayload.canonicalJson_join]

/-- The same signed bytes verify as two algorithms. -/
theorem split_name_shares_signed_bytes :
    ∃ (sha : Sha256) (host : Host) (verifiers : Verifiers) (a b : SignatureEnvelope) (checkA checkB : SignatureCheck),
      Function.Injective sha.hexdigest ∧ verifyEnvelopeSignature sha host verifiers a false = .ok checkA ∧
        verifyEnvelopeSignature sha host verifiers b false = .ok checkB ∧
        a.payload.canonicalJson = b.payload.canonicalJson ∧ checkA.algorithm ≠ checkB.algorithm :=
  ⟨emptySha, plainHost, lenientVerifiers [face, splitFace], shortEnvelope face [], shortEnvelope splitFace [],
    shortCheck face, shortCheck splitFace, emptySha_injective, by decide +kernel, by decide +kernel,
    face_payloads_share_text, by decide⟩

end ModelGuard.Signing
