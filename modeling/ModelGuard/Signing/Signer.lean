import ModelGuard.Lib.JsonBytes
import ModelGuard.Manifest.Models
import ModelGuard.Signing.Verifier

/-!
# Signing with a provider

A provider is known by what its members answer. Nothing it says is believed: the envelope is verified before it is
returned.
-/

namespace ModelGuard.Signing

open Lib Lib.Fallible Lib.Json ModelGuard.Mbom

def signingProviderError (message : Str) : Raised := .modelGuard .signingProviderError message

/-- A value of the declared type, a value of another type as `repr` shows it, or an exception. -/
inductive Answer (α : Type) where
  | value (a : α)
  | other (shown : Str)
  | raised (e : Raised)

/-- The members of a `SignerProvider`. -/
structure SignerProvider where
  algorithm : Answer Str
  identity : Answer Str
  publicKey : Answer Bytes
  sign : Bytes → Answer Bytes

variable {α : Type}

/-- `_provider_call`: of a foreign exception only the class is shown. -/
def providerCall : Answer α → Except Raised (Except Str α)
  | .value a => .ok (.ok a)
  | .other shown => .ok (.error shown)
  | .raised (.external className _) =>
    .error (signingProviderError (str "The signing provider failed (" ++ className ++ str "); no signature was produced."))
  | .raised e => .error e

/-- What is left of an answer after a check of its type and of its value. -/
def usable (p : α → Prop) [DecidablePred p] (e : Raised) : Except Str α → Except Raised α
  | .ok a => if p a then .ok a else .error e
  | .error _ => .error e

/-- Every string of the payload. -/
def SignaturePayload.texts (p : SignaturePayload) : List Str :=
  [p.schemaVersion, p.artifactDigest, p.mbomDigest, p.signerIdentity, p.signedAt] ++ p.modelId.toList ++
    p.version.toList ++ p.signatureAlgorithm.toList ++ p.keyId.toList

/-- UTF-8 has every character, so pydantic takes the strings. -/
def Encodable (texts : List Str) : Prop := ∀ s ∈ texts, Scalars s

instance (texts : List Str) : Decidable (Encodable texts) :=
  decidable_of_iff (texts.all fun s => s.all fun c => !isSurrogate c) (by simp [Encodable, Scalars])

section

variable (sha : Sha256) (host : Host) (clock : AwareDatetime) (manifest : Manifest) (mbom : MLBOM)

/-- `f"{manifest.algorithm}:{manifest.digest}"`. -/
def manifestRef : Str := manifest.algorithm ++ str ":" ++ manifest.digest

/-- The payload of format version 2. -/
def boundPayload (algorithm identity : Str) (publicKey : Bytes) : SignaturePayload where
  schemaVersion := schemaVersionBound
  artifactDigest := manifestRef manifest
  mbomDigest := digestRef (sha.hexdigest mbom.canonicalJson)
  modelId := manifest.modelId
  version := manifest.version
  signerIdentity := identity
  signedAt := host.isoformat clock
  signatureAlgorithm := some algorithm
  keyId := some (keyFingerprint sha publicKey)

def sealPayload (algorithm : Str) (payload : SignaturePayload) (signature publicKey : Bytes) : SignatureEnvelope where
  signatureType := algorithm
  payload := payload
  signature := hexText signature
  publicKey := hexText publicKey

def refusal (shown : Str) : Raised :=
  unsupported (str "Refusing to sign with algorithm " ++ shown ++ str (": it is not a registered scheme " ++
    "this process can verify."))

def unusableSignature : Raised := signingProviderError (str "The signing provider returned an unusable signature.")

def unverifiedSignature : Raised :=
  signingProviderError (str ("The signing provider returned a signature that does not verify against its own " ++
    "public key, so no envelope was produced. The provider may be misconfigured (for " ++
    "example a key alias that now points at a different key)."))

/-- Only an algorithm that this process can also verify. -/
def registeredAlgorithm (verifiers : Verifiers) : Except Str Str → Except Raised Str
  | .ok algorithm => if (verifiers.lookup algorithm).isSome then .ok algorithm else .error (refusal (host.repr algorithm))
  | .error shown => .error (refusal shown)

/-- The handler around the verification of the new envelope. -/
def settleCheck : Except Raised SignatureCheck → Except Raised Unit
  | .ok _ => .ok ()
  | .error (.modelGuard _ _) => .error unverifiedSignature
  | .error e => .error e

/-- `int` makes no text of a number of more digits, so `canonical_json` raises. -/
def tooManyDigits : Raised :=
  .external (str "ValueError") (str ("Exceeds the limit (4300 digits) for integer string conversion; " ++
    "use sys.set_int_max_str_digits() to increase the limit"))

/-- `sign_with_provider`. -/
def signWithProvider (verifiers : Verifiers) (provider : SignerProvider) : Except Raised SignatureEnvelope := do
  let algorithm ← providerCall provider.algorithm
  let algorithm ← registeredAlgorithm host verifiers algorithm
  let identity ← providerCall provider.identity
  let publicKey ← providerCall provider.publicKey
  let identity ← usable (· ≠ [])
    (signingProviderError (str "The signing provider returned an empty or invalid identity.")) identity
  let publicKey ← usable (fun key => 0 < key.length ∧ key.length ≤ maxKeyBytes)
    (signingProviderError (str "The signing provider returned an unusable public key.")) publicKey
  ensure (mbom.version.natAbs < 10 ^ maxStrDigits) tooManyDigits
  let payload := boundPayload sha host clock manifest mbom algorithm identity publicKey
  ensure (Encodable payload.texts) (.external (str "ValidationError") (str "SignaturePayload"))
  let signature ← providerCall (provider.sign payload.canonicalJson)
  let signature ← usable (fun signature => 0 < signature.length ∧ signature.length ≤ maxSignatureBytes) unusableSignature
    signature
  let envelope := sealPayload algorithm payload signature publicKey
  settleCheck (verifyEnvelopeSignature sha host verifiers envelope false)
  return envelope

end

/-! ### What a returned envelope is made of -/

/-- What the provider answered on the way, and that nothing was refused. -/
structure Signed (sha : Sha256) (host : Host) (clock : AwareDatetime) (manifest : Manifest) (mbom : MLBOM)
    (verifiers : Verifiers) (provider : SignerProvider) (envelope : SignatureEnvelope) (algorithm identity : Str)
    (publicKey signature : Bytes) : Prop where
  algorithmSaid : provider.algorithm = .value algorithm
  identitySaid : provider.identity = .value identity
  keySaid : provider.publicKey = .value publicKey
  registered : (verifiers.lookup algorithm).isSome = true
  named : identity ≠ []
  keySize : 0 < publicKey.length ∧ publicKey.length ≤ maxKeyBytes
  digits : mbom.version.natAbs < 10 ^ maxStrDigits
  encodable : Encodable (boundPayload sha host clock manifest mbom algorithm identity publicKey).texts
  answered : provider.sign (boundPayload sha host clock manifest mbom algorithm identity publicKey).canonicalJson =
    .value signature
  signatureSize : 0 < signature.length ∧ signature.length ≤ maxSignatureBytes
  made : envelope = sealPayload algorithm (boundPayload sha host clock manifest mbom algorithm identity publicKey)
    signature publicKey
  verified : ∃ check, verifyEnvelopeSignature sha host verifiers envelope false = .ok check

theorem providerCall_value {a : α} : providerCall (.value a) = .ok (.ok a) := rfl

theorem providerCall_ok {answer : Answer α} {r : Except Str α} :
    providerCall answer = .ok r ↔ (∃ a, answer = .value a ∧ r = .ok a) ∨ ∃ shown, answer = .other shown ∧ r = .error shown := by
  match answer with
  | .value a => simp [providerCall, eq_comm]
  | .other shown => simp [providerCall, eq_comm]
  | .raised (.modelGuard _ _) => simp [providerCall]
  | .raised (.external _ _) => simp [providerCall]

theorem usable_ok {p : α → Prop} [DecidablePred p] {e : Raised} {r : Except Str α} {a : α} :
    usable p e r = .ok a ↔ r = .ok a ∧ p a := by
  cases r with
  | error shown => simp [usable]
  | ok b =>
    unfold usable
    dsimp only
    by_cases holds : p b
    · rw [if_pos holds]
      rw [Except.ok.injEq, Except.ok.injEq]
      exact ⟨fun same => ⟨same, same ▸ holds⟩, And.left⟩
    · rw [if_neg holds]
      refine ⟨nofun, fun ⟨same, other⟩ => ?_⟩
      cases same
      exact (holds other).elim

theorem usable_raises {p : α → Prop} [DecidablePred p] {e : Raised} {r : Except Str α} {P : Raised → Prop}
    (refused : P e) : RaisesOnly P (usable p e r) := by
  unfold usable
  split
  · split
    · exact raisesOnly_ok
    · exact raisesOnly_error.mpr refused
  · exact raisesOnly_error.mpr refused

/-- A call whose answer was used has returned a value of the declared type. -/
theorem used_answer {p : α → Prop} [DecidablePred p] {e : Raised} {answer : Answer α} {r : Except Str α} {a : α}
    (called : providerCall answer = .ok r) (used : usable p e r = .ok a) : answer = .value a ∧ p a := by
  obtain ⟨same, holds⟩ := usable_ok.mp used
  rcases providerCall_ok.mp called with ⟨b, said, value⟩ | ⟨shown, -, other⟩
  · rw [same] at value
    exact ⟨said.trans (congrArg Answer.value (Except.ok.inj value).symm), holds⟩
  · rw [same] at other
    cases other

theorem registeredAlgorithm_ok {host : Host} {verifiers : Verifiers} {r : Except Str Str} {algorithm : Str} :
    registeredAlgorithm host verifiers r = .ok algorithm ↔ r = .ok algorithm ∧ (verifiers.lookup algorithm).isSome = true := by
  cases r with
  | error shown => simp [registeredAlgorithm]
  | ok b =>
    unfold registeredAlgorithm
    dsimp only
    by_cases known : (verifiers.lookup b).isSome = true
    · rw [if_pos known]
      rw [Except.ok.injEq, Except.ok.injEq]
      exact ⟨fun same => ⟨same, same ▸ known⟩, And.left⟩
    · rw [if_neg known]
      refine ⟨nofun, fun ⟨same, other⟩ => ?_⟩
      cases same
      exact (known other).elim

theorem settleCheck_ok {r : Except Raised SignatureCheck} : settleCheck r = .ok () ↔ ∃ check, r = .ok check := by
  match r with
  | .ok check => exact ⟨fun _ => ⟨check, rfl⟩, fun _ => rfl⟩
  | .error (.modelGuard _ _) => exact ⟨nofun, nofun⟩
  | .error (.external _ _) => exact ⟨nofun, nofun⟩

variable {sha : Sha256} {host : Host} {clock : AwareDatetime} {manifest : Manifest} {mbom : MLBOM} {verifiers : Verifiers}
  {provider : SignerProvider} {envelope : SignatureEnvelope}

theorem signWithProvider_ok :
    signWithProvider sha host clock manifest mbom verifiers provider = .ok envelope ↔
      ∃ algorithm identity publicKey signature,
        Signed sha host clock manifest mbom verifiers provider envelope algorithm identity publicKey signature := by
  unfold signWithProvider
  constructor
  · intro signed
    obtain ⟨answer, called, signed⟩ := bind_ok.mp signed
    obtain ⟨algorithm, registered, signed⟩ := bind_ok.mp signed
    obtain ⟨identityAnswer, identityCalled, signed⟩ := bind_ok.mp signed
    obtain ⟨keyAnswer, keyCalled, signed⟩ := bind_ok.mp signed
    obtain ⟨identity, identityUsed, signed⟩ := bind_ok.mp signed
    obtain ⟨publicKey, keyUsed, signed⟩ := bind_ok.mp signed
    obtain ⟨_, digits, signed⟩ := bind_ok.mp signed
    obtain ⟨_, encodable, signed⟩ := bind_ok.mp signed
    obtain ⟨signatureAnswer, signatureCalled, signed⟩ := bind_ok.mp signed
    obtain ⟨signature, signatureUsed, signed⟩ := bind_ok.mp signed
    obtain ⟨_, verified, signed⟩ := bind_ok.mp signed
    have made := pure_ok.mp signed
    rw [made] at verified
    obtain ⟨said, known⟩ := registeredAlgorithm_ok.mp registered
    obtain ⟨identitySaid, named⟩ := used_answer identityCalled identityUsed
    obtain ⟨keySaid, keySize⟩ := used_answer keyCalled keyUsed
    obtain ⟨answered, signatureSize⟩ := used_answer signatureCalled signatureUsed
    refine ⟨algorithm, identity, publicKey, signature, ?_, identitySaid, keySaid, known, named, keySize, ensure_ok.mp digits,
      ensure_ok.mp encodable, answered, signatureSize, made.symm, settleCheck_ok.mp verified⟩
    rcases providerCall_ok.mp called with ⟨b, same, value⟩ | ⟨shown, -, other⟩
    · rw [said] at value
      exact same.trans (congrArg Answer.value (Except.ok.inj value).symm)
    · rw [said] at other
      cases other
  · rintro ⟨algorithm, identity, publicKey, signature, s⟩
    have verified := s.verified
    rw [s.made] at verified ⊢
    rw [s.algorithmSaid, s.identitySaid, s.keySaid]
    apply bind_ok.mpr ⟨_, providerCall_value, ?_⟩
    apply bind_ok.mpr ⟨algorithm, registeredAlgorithm_ok.mpr ⟨rfl, s.registered⟩, ?_⟩
    apply bind_ok.mpr ⟨_, providerCall_value, ?_⟩
    apply bind_ok.mpr ⟨_, providerCall_value, ?_⟩
    apply bind_ok.mpr ⟨identity, usable_ok.mpr ⟨rfl, s.named⟩, ?_⟩
    apply bind_ok.mpr ⟨publicKey, usable_ok.mpr ⟨rfl, s.keySize⟩, ?_⟩
    apply bind_ok.mpr ⟨(), ensure_ok.mpr s.digits, ?_⟩
    apply bind_ok.mpr ⟨(), ensure_ok.mpr s.encodable, ?_⟩
    rw [s.answered]
    apply bind_ok.mpr ⟨_, providerCall_value, ?_⟩
    apply bind_ok.mpr ⟨signature, usable_ok.mpr ⟨rfl, s.signatureSize⟩, ?_⟩
    exact bind_ok.mpr ⟨(), settleCheck_ok.mpr verified, rfl⟩

end ModelGuard.Signing
