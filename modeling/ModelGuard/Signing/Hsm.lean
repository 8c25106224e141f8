import ModelGuard.Lib.Der
import ModelGuard.Signing.Signer

/-!
# The PKCS#11 provider

A token signs a digest and returns `r || s`; the provider returns the DER form that the scheme has on the wire.
-/

namespace ModelGuard.Signing

open Lib Lib.Fallible Lib.Der ModelGuard.Mbom

/-- `_RAW_SIGNATURE_BYTES`. -/
def rawSignatureBytes : Nat := 64

/-- An open session: the identity, the public key that was read, and the private key that stays on the token. -/
structure Pkcs11SignerProvider where
  identity : Str
  publicKeyCache : Bytes
  /-- `private_key.sign(digest, mechanism=Mechanism.ECDSA)`. -/
  privateKey : Bytes → Except Raised Bytes

/-- `hashlib.sha256(message).digest()`. -/
def digestOf (sha : Sha256) (message : Bytes) : Bytes := fromHex (sha.hexdigest message)

/-- The handlers around the token's answer. -/
def settleToken : Except Raised Bytes → Except Raised Bytes
  | .ok rawSignature => .ok rawSignature
  | .error (.modelGuard .signingProviderError message) => .error (signingProviderError message)
  | .error e => .error (signingProviderError (str "PKCS#11 Sign failed (" ++ e.className ++ str ")."))

/-- `Pkcs11SignerProvider.sign`; `encode_dss_signature` is a parameter. -/
def Pkcs11SignerProvider.sign (encodeDssSignature : Nat → Nat → Bytes) (sha : Sha256) (provider : Pkcs11SignerProvider)
    (message : Bytes) : Except Raised Bytes := do
  let rawSignature ← settleToken (provider.privateKey (digestOf sha message))
  ensure (rawSignature.length = rawSignatureBytes)
    (signingProviderError (str "PKCS#11 returned a " ++ Json.natText rawSignature.length ++ str "-byte signature; expected " ++
      Json.natText rawSignatureBytes ++ str " (r || s for P-256)."))
  let r := natOfBytes (rawSignature.take 32)
  let s := natOfBytes (rawSignature.drop 32)
  return encodeDssSignature r s

def Pkcs11SignerProvider.signer (encodeDssSignature : Nat → Nat → Bytes) (sha : Sha256) (provider : Pkcs11SignerProvider) :
    SignerProvider where
  algorithm := .value algorithmEcdsaP256Sha256
  identity := .value provider.identity
  publicKey := .value provider.publicKeyCache
  sign message :=
    match provider.sign encodeDssSignature sha message with
    | .ok signature => .value signature
    | .error e => .raised e

/-! ### The DER form -/

def sequenceTag : UInt8 := 0x30

def integerTag : UInt8 := 0x02

/-- The SEQUENCE of two INTEGERs of the given contents. -/
def dssSequence (a b : Bytes) : Bytes := tlv sequenceTag (tlv integerTag a ++ tlv integerTag b)

/-- `encode_dss_signature` makes the SEQUENCE of the two numbers. -/
def EncodesDss (encodeDssSignature : Nat → Nat → Bytes) : Prop :=
  ∀ r s : Nat, ∃ a b, IsInteger a r ∧ IsInteger b s ∧ encodeDssSignature r s = dssSequence a b

/-- The two numbers of a signature. -/
def decodeDssSignature (data : Bytes) : Option (Int × Int) := do
  let (content, after) ← readTlv sequenceTag data
  let (a, rest) ← readTlv integerTag content
  let (b, trailing) ← readTlv integerTag rest
  let r ← readInteger a
  let s ← readInteger b
  if after = [] ∧ trailing = [] then some (r, s) else none

/-- Contents of at most 33 octets give a length in one octet, at each level. -/
theorem length_dssSequence {a b : Bytes} (ha : a.length ≤ 33) (hb : b.length ≤ 33) :
    (dssSequence a b).length = a.length + b.length + 6 := by
  have left := length_tlv (show a.length < 0x80 by omega) integerTag
  have right := length_tlv (show b.length < 0x80 by omega) integerTag
  have content : (tlv integerTag a ++ tlv integerTag b).length = a.length + b.length + 4 := by
    rw [List.length_append, left, right]
    omega
  unfold dssSequence
  rw [length_tlv (by omega), content]

theorem decodeDssSignature_sequence {a b : Bytes} {r s : Int} (ha : a.length ≤ 33) (hb : b.length ≤ 33)
    (first : IsInteger a r) (second : IsInteger b s) : decodeDssSignature (dssSequence a b) = some (r, s) := by
  have left := length_tlv (show a.length < 0x80 by omega) integerTag
  have right := length_tlv (show b.length < 0x80 by omega) integerTag
  have content : (tlv integerTag a ++ tlv integerTag b).length < 0x80 := by
    rw [List.length_append, left, right]
    omega
  have outer := readTlv_tlv content sequenceTag []
  have inner := readTlv_tlv (show a.length < 0x80 by omega) integerTag (tlv integerTag b)
  have last := readTlv_tlv (show b.length < 0x80 by omega) integerTag []
  rw [List.append_nil] at outer last
  unfold decodeDssSignature dssSequence
  simp only [outer, inner, last, readInteger_iff.mpr first, readInteger_iff.mpr second, Option.bind_eq_bind,
    Option.bind_some, and_self, if_true]

/-! ### What the provider returns -/

/-- Both halves of a raw signature are numbers of 32 octets. -/
theorem halves_lt {raw : Bytes} (size : raw.length = rawSignatureBytes) :
    natOfBytes (raw.take 32) < 256 ^ 32 ∧ natOfBytes (raw.drop 32) < 256 ^ 32 := by
  have left := natOfBytes_lt (raw.take 32)
  have right := natOfBytes_lt (raw.drop 32)
  rw [List.length_take, size] at left
  rw [List.length_drop, size] at right
  exact ⟨left, right⟩

theorem IsInteger.length_pos {content : Bytes} {n : Int} (h : IsInteger content n) : 1 ≤ content.length := by
  cases content with
  | nil => cases h.minimal
  | cons _ rest => exact Nat.le_add_left 1 rest.length

variable {encodeDssSignature : Nat → Nat → Bytes} {sha : Sha256} {provider : Pkcs11SignerProvider} {message raw : Bytes}

/-- The DER form of a raw signature is within the bounds of the scheme, and decodes to its halves. -/
theorem encoded_halves (der : EncodesDss encodeDssSignature) (size : raw.length = rawSignatureBytes) :
    let signature := encodeDssSignature (natOfBytes (raw.take 32)) (natOfBytes (raw.drop 32))
    p256MinSignatureLen ≤ signature.length ∧ signature.length ≤ p256MaxSignatureLen ∧
      decodeDssSignature signature = some (↑(natOfBytes (raw.take 32)), ↑(natOfBytes (raw.drop 32))) := by
  obtain ⟨left, right⟩ := halves_lt size
  obtain ⟨a, b, first, second, same⟩ := der (natOfBytes (raw.take 32)) (natOfBytes (raw.drop 32))
  have shortA := first.length_le left
  have shortB := second.length_le right
  have someA := IsInteger.length_pos first
  have someB := IsInteger.length_pos second
  dsimp only
  rw [same, length_dssSequence shortA shortB, decodeDssSignature_sequence shortA shortB first second]
  unfold p256MinSignatureLen p256MaxSignatureLen
  exact ⟨by omega, by omega, rfl⟩

theorem sign_raw (answered : provider.privateKey (digestOf sha message) = .ok raw) (size : raw.length = rawSignatureBytes) :
    provider.sign encodeDssSignature sha message =
      .ok (encodeDssSignature (natOfBytes (raw.take 32)) (natOfBytes (raw.drop 32))) := by
  unfold Pkcs11SignerProvider.sign
  rw [answered]
  apply bind_ok.mpr ⟨raw, rfl, ?_⟩
  exact bind_ok.mpr ⟨(), ensure_ok.mpr size, rfl⟩

theorem signingProviderError_ne {a b : String} (differ : a ≠ b) :
    signingProviderError (str a) ≠ signingProviderError (str b) := by
  intro same
  have texts : str a = str b := congrArg Raised.message same
  exact differ (str_injective texts)

/-- With a signature of a fitting length, `sign_with_provider` has nothing to say about it. -/
theorem signer_not_unusable {host : Host} {clock : AwareDatetime} {manifest : Manifest} {mbom : MLBOM} {verifiers : Verifiers}
    {signature : Bytes} (fits : 0 < signature.length ∧ signature.length ≤ maxSignatureBytes)
    (signed : provider.sign encodeDssSignature sha (boundPayload sha host clock manifest mbom algorithmEcdsaP256Sha256
      provider.identity provider.publicKeyCache).canonicalJson = .ok signature) :
    RaisesOnly (· ≠ unusableSignature)
      (signWithProvider sha host clock manifest mbom verifiers (provider.signer encodeDssSignature sha)) := by
  unfold signWithProvider
  refine raisesOnly_bind.mpr ⟨raisesOnly_ok, fun answer called => ?_⟩
  cases called
  refine raisesOnly_bind.mpr ⟨?_, fun algorithm registered => ?_⟩
  · unfold registeredAlgorithm
    dsimp only
    split
    · exact raisesOnly_ok
    · exact raisesOnly_error.mpr nofun
  have same := (registeredAlgorithm_ok.mp registered).1
  cases same
  refine raisesOnly_bind.mpr ⟨raisesOnly_ok, fun identityAnswer called => ?_⟩
  cases called
  refine raisesOnly_bind.mpr ⟨raisesOnly_ok, fun keyAnswer called => ?_⟩
  cases called
  refine raisesOnly_bind.mpr ⟨usable_raises (signingProviderError_ne (by decide)), fun identity used => ?_⟩
  have same := (usable_ok.mp used).1
  cases same
  refine raisesOnly_bind.mpr ⟨usable_raises (signingProviderError_ne (by decide)), fun publicKey used => ?_⟩
  have same := (usable_ok.mp used).1
  cases same
  refine raisesOnly_bind.mpr ⟨raisesOnly_ensure.mpr fun _ => nofun, fun _ _ => ?_⟩
  refine raisesOnly_bind.mpr ⟨raisesOnly_ensure.mpr fun _ => nofun, fun _ _ => ?_⟩
  have answered : (provider.signer encodeDssSignature sha).sign (boundPayload sha host clock manifest mbom
      algorithmEcdsaP256Sha256 provider.identity provider.publicKeyCache).canonicalJson = .value signature := by
    unfold Pkcs11SignerProvider.signer
    dsimp only
    rw [signed]
  rw [answered]
  refine raisesOnly_bind.mpr ⟨raisesOnly_ok, fun signatureAnswer called => ?_⟩
  cases called
  refine raisesOnly_bind.mpr ⟨?_, fun used _ => ?_⟩
  · unfold usable
    dsimp only
    rw [if_pos fits]
    exact raisesOnly_ok
  · refine raisesOnly_bind.mpr ⟨?_, fun _ _ => raisesOnly_ok⟩
    unfold settleCheck
    split
    · exact raisesOnly_ok
    · refine raisesOnly_error.mpr (signingProviderError_ne ?_)
      decide
    · rename_i e other _
      exact raisesOnly_error.mpr fun same => other _ _ same

/-- A raw signature becomes a DER signature within the bounds of the scheme, which decodes to its two halves; neither
the verifier nor `sign_with_provider` refuses it for its length. -/
theorem hsm_signature_fits (der : EncodesDss encodeDssSignature)
    (answered : provider.privateKey (digestOf sha message) = .ok raw) (size : raw.length = rawSignatureBytes) :
    ∃ signature, provider.sign encodeDssSignature sha message = .ok signature ∧
      p256MinSignatureLen ≤ signature.length ∧ signature.length ≤ p256MaxSignatureLen ∧
      decodeDssSignature signature = some (↑(natOfBytes (raw.take 32)), ↑(natOfBytes (raw.drop 32))) ∧
      (∀ (crypto : Cryptography) (publicKey signed : Bytes), publicKey.length = p256PublicKeyLen →
        publicKey.head? = some 0x04 → (ecdsaP256Verifier crypto).verify publicKey signature signed =
          (crypto.ecdsaP256 publicKey signature signed).settle "ecdsa-p256") ∧
      ∀ (host : Host) (clock : AwareDatetime) (manifest : Manifest) (mbom : MLBOM) (verifiers : Verifiers),
        (boundPayload sha host clock manifest mbom algorithmEcdsaP256Sha256 provider.identity
          provider.publicKeyCache).canonicalJson = message →
        signWithProvider sha host clock manifest mbom verifiers (provider.signer encodeDssSignature sha) ≠
          .error unusableSignature := by
  obtain ⟨above, below, decoded⟩ := encoded_halves der size
  refine ⟨_, sign_raw answered size, above, below, decoded, ?_, ?_⟩
  · intro crypto publicKey signed length head
    unfold ecdsaP256Verifier
    dsimp only
    rw [show ensure _ _ = .ok () from ensure_ok.mpr ⟨length, head⟩, show ensure _ _ = .ok () from ensure_ok.mpr ⟨above, below⟩]
    rfl
  · intro host clock manifest mbom verifiers same raised
    subst same
    have fits := (show p256MinSignatureLen = 8 from rfl) ▸ above
    refine signer_not_unusable ⟨by omega, ?_⟩ (sign_raw answered size) _ raised rfl
    exact below.trans (by decide)

/-! ### A short half and a half with its sign bit set -/

def tokenMessage : Bytes := asciiBytes (str "payload")

def tokenTable : List (Bytes × Str) :=
  [(tokenMessage, str "239f59ed55e737c77147cf55ad0c1b030b6d7ee748a7426952f9b852d5a935e5")]

theorem tokenTable_hex : ∀ e ∈ tokenTable, IsHex e.2 := by
  unfold tokenTable
  simp only [List.forall_mem_cons, List.not_mem_nil, false_implies, implies_true, and_true]
  rw [str_ofList]
  decide +kernel

def tokenSha : Sha256 := .ofTable tokenTable tokenTable_hex

def tokenSignature : Bytes :=
  fromHex (str ("00659aa828713f2c33385ba65da499e9417eca02deeea0b23e8779f3a2a4def7" ++
    "95eb742feffa5dce0321ad5f4f2098b2debc5796634001b112294ba6d7e0b353"))

/-- A token that has signed one message. -/
def tokenProvider : Pkcs11SignerProvider where
  identity := str "hsm@example.com"
  publicKeyCache :=
    fromHex (str ("0434a82b76e81d6f00e5a6425aa24ca4e7bf3c119ad29799c665d0c13c79e9a4cb" ++
      "eac3c3171f3d2383f9a3969f016049a99531e0ec67fe525de63945e2bc262eaa"))
  privateKey digest :=
    if digest = digestOf tokenSha tokenMessage then .ok tokenSignature
    else .error (.external (str "PKCS11Error") (str "not signed"))

def tokenEncoder (r s : Nat) : Bytes := dssSequence (integerContent r) (integerContent s)

theorem tokenSignature_length : tokenSignature.length = rawSignatureBytes := by
  unfold tokenSignature
  rw [str_append, str_ofList, str_ofList]
  decide +kernel

theorem tokenEncoder_der : EncodesDss tokenEncoder :=
  fun r s => ⟨_, _, integerContent_isInteger r, integerContent_isInteger s, rfl⟩

theorem token_signature_fits :
    ∃ signature, tokenProvider.sign tokenEncoder tokenSha tokenMessage = .ok signature ∧
      p256MinSignatureLen ≤ signature.length ∧ signature.length ≤ p256MaxSignatureLen ∧
      decodeDssSignature signature =
        some (↑(natOfBytes (tokenSignature.take 32)), ↑(natOfBytes (tokenSignature.drop 32))) := by
  have answered : tokenProvider.privateKey (digestOf tokenSha tokenMessage) = .ok tokenSignature := by
    unfold tokenProvider
    dsimp only
    rw [if_pos rfl]
  obtain ⟨signature, signed, above, below, decoded, -⟩ :=
    hsm_signature_fits tokenEncoder_der answered tokenSignature_length
  exact ⟨signature, signed, above, below, decoded⟩

end ModelGuard.Signing
