import ModelGuard.Exceptions
import ModelGuard.Hashing.Sha256

/-!
# Signature schemes

The scheme decides the algorithm and the encodings. What the cryptographic library answers is a
parameter.
-/

namespace ModelGuard.Signing

open Lib Lib.Fallible

def algorithmEd25519 : Str := str "ed25519"

def algorithmEcdsaP256Sha256 : Str := str "ecdsa-p256-sha256"

def ed25519PublicKeyLen : Nat := 32

def ed25519SignatureLen : Nat := 64

def p256PublicKeyLen : Nat := 65

def p256MinSignatureLen : Nat := 8

def p256MaxSignatureLen : Nat := 72

/-- `MAX_KEY_BYTES`, the bound for any decoded public key. -/
def maxKeyBytes : Nat := 128

def maxSignatureBytes : Nat := 128

def invalid (message : Str) : Raised := .modelGuard .signatureInvalidError message

def unsupported (message : Str) : Raised := .modelGuard .unsupportedSignatureSchemeError message

/-- How a call into the cryptographic library ends. -/
inductive CryptoOutcome where
  | valid
  | invalidSignature
  | valueError (message : Str)
  | raised (className message : Str)

/-- The two primitives: public key, signature, message. -/
structure Cryptography where
  ed25519 : Bytes → Bytes → Bytes → CryptoOutcome
  ecdsaP256 : Bytes → Bytes → Bytes → CryptoOutcome

structure SignatureVerifier where
  algorithm : Str
  verify : Bytes → Bytes → Bytes → Except Raised Unit

def mismatchMessage : Str :=
  str ("Signature does not match the signed payload. The payload or signature bytes may " ++
    "have been altered, or the wrong public key was supplied.")

/-- The handlers both verifiers put around the cryptographic call. -/
def CryptoOutcome.settle (scheme : String) : CryptoOutcome → Except Raised Unit
  | .valid => .ok ()
  | .invalidSignature => .error (invalid mismatchMessage)
  | .valueError message => .error (invalid (str ("Malformed " ++ scheme ++ " key or signature: ") ++ message))
  | .raised className message => .error (.external className message)

/-- `Ed25519Verifier`. -/
def ed25519Verifier (crypto : Cryptography) : SignatureVerifier where
  algorithm := algorithmEd25519
  verify publicKey signature message := do
    ensure (publicKey.length = ed25519PublicKeyLen)
      (invalid (str "An ed25519 public key must be " ++ Json.natText ed25519PublicKeyLen ++ str " bytes, got " ++
        Json.natText publicKey.length ++ str "."))
    ensure (signature.length = ed25519SignatureLen)
      (invalid (str "An ed25519 signature must be " ++ Json.natText ed25519SignatureLen ++ str " bytes, got " ++
        Json.natText signature.length ++ str "."))
    (crypto.ed25519 publicKey signature message).settle "ed25519"

/-- `EcdsaP256Verifier`. -/
def ecdsaP256Verifier (crypto : Cryptography) : SignatureVerifier where
  algorithm := algorithmEcdsaP256Sha256
  verify publicKey signature message := do
    ensure (publicKey.length = p256PublicKeyLen ∧ publicKey.head? = some 0x04)
      (invalid (str "An ecdsa-p256-sha256 public key must be an uncompressed SEC1 point (" ++
        Json.natText p256PublicKeyLen ++
        str " bytes starting with 0x04); compressed and other encodings are refused."))
    ensure (p256MinSignatureLen ≤ signature.length ∧ signature.length ≤ p256MaxSignatureLen)
      (invalid (str "An ecdsa-p256-sha256 signature must be a DER ECDSA-Sig-Value of " ++
        Json.natText p256MinSignatureLen ++ str "-" ++ Json.natText p256MaxSignatureLen ++ str " bytes, got " ++
        Json.natText signature.length ++ str "."))
    (crypto.ecdsaP256 publicKey signature message).settle "ecdsa-p256"

/-- A registry of verifiers, keyed by algorithm. -/
abbrev Verifiers := List (Str × SignatureVerifier)

/-- `DEFAULT_VERIFIERS`. -/
def defaultVerifiers (crypto : Cryptography) : Verifiers :=
  [ed25519Verifier crypto, ecdsaP256Verifier crypto].map fun v => (v.algorithm, v)

/-- `key_fingerprint`. -/
def keyFingerprint (sha : Sha256) (publicKey : Bytes) : Str := sha.hexdigest publicKey

def hexNibble (c : CodePoint) : Nat := if isDigit c then c.val - 0x30 else c.val - 0x57

/-- `bytes.fromhex`, of lower-case hexadecimal digits. -/
def fromHex : Str → Bytes
  | high :: low :: rest => UInt8.ofNat (16 * hexNibble high + hexNibble low) :: fromHex rest
  | _ => []

/-- `decode_hex_strict`. -/
def decodeHexStrict (value : Str) (what : String) (maxBytes : Nat) : Except Raised Bytes := do
  ensure (value.length ≤ 2 * maxBytes)
    (invalid (str what ++ str " is too long (" ++ Json.natText value.length ++ str " hex characters)."))
  ensure (value.length % 2 = 0 ∧ IsHex value) (invalid (str what ++ str " is not canonical lowercase hexadecimal."))
  return fromHex value

/-! ### One spelling -/

theorem isDigit_iff {c : CodePoint} : isDigit c = true ↔ 0x30 ≤ c.val ∧ c.val ≤ 0x39 := by
  simp [isDigit]

theorem hexNibble_lt {c : CodePoint} (hex : isHexDigit c = true) : hexNibble c < 16 := by
  have range := isHexDigit_iff.mp hex
  unfold hexNibble
  split
  · rename_i digit
    have bounds := isDigit_iff.mp digit
    omega
  · omega

theorem hexNibble_nibble {n : Nat} (small : n < 16) : hexNibble (nibble n) = n := by
  interval_cases n <;> rfl

theorem nibble_hexNibble {c : CodePoint} (hex : isHexDigit c = true) : nibble (hexNibble c) = c := by
  have range := isHexDigit_iff.mp hex
  have bound := c.isLt
  unfold hexNibble
  split
  · rename_i digit
    have bounds := isDigit_iff.mp digit
    have value : 0x30 + (c.val - 0x30) = c.val := by omega
    unfold nibble
    rw [if_pos (by omega), value]
    exact Fin.ext (Nat.mod_eq_of_lt bound)
  · rename_i letter
    rw [isDigit_iff] at letter
    have value : 0x57 + (c.val - 0x57) = c.val := by omega
    unfold nibble
    rw [if_neg (by omega), value]
    exact Fin.ext (Nat.mod_eq_of_lt bound)

theorem length_hexText (data : Bytes) : (hexText data).length = 2 * data.length := by
  induction data with
  | nil => rfl
  | cons b data ih =>
    have step : (hexText (b :: data)).length = (hexText data).length + 2 := rfl
    rw [step, ih, List.length_cons]
    omega

theorem fromHex_hexText (data : Bytes) : fromHex (hexText data) = data := by
  induction data with
  | nil => rfl
  | cons b data ih =>
    have bound := b.toNat_lt
    have octet : 16 * hexNibble (nibble (b.toNat / 16)) + hexNibble (nibble (b.toNat % 16)) = b.toNat := by
      rw [hexNibble_nibble (by omega), hexNibble_nibble (by omega)]
      omega
    show UInt8.ofNat _ :: fromHex (hexText data) = b :: data
    rw [octet, UInt8.ofNat_toNat, ih]

/-- The induction takes two digits at a time, as the decoder does. -/
theorem hexText_fromHex {s : Str} (even : s.length % 2 = 0) (hex : IsHex s) : hexText (fromHex s) = s := by
  induction s using List.twoStepInduction with
  | nil => rfl
  | singleton _ => cases even
  | cons_cons high low rest ih =>
    simp only [List.length_cons] at even
    obtain ⟨first, second, others⟩ : isHexDigit high = true ∧ isHexDigit low = true ∧ IsHex rest := by
      unfold IsHex at hex
      simp only [List.forall_mem_cons] at hex
      exact hex
    have above := hexNibble_lt first
    have below := hexNibble_lt second
    have octet : (UInt8.ofNat (16 * hexNibble high + hexNibble low)).toNat = 16 * hexNibble high + hexNibble low :=
      UInt8.toNat_ofNat_of_lt (show _ < 256 by omega)
    have left : (16 * hexNibble high + hexNibble low) / 16 = hexNibble high := by omega
    have right : (16 * hexNibble high + hexNibble low) % 16 = hexNibble low := by omega
    rw [fromHex, hexText, List.flatMap_cons, octet, left, right, nibble_hexNibble first, nibble_hexNibble second]
    exact congrArg (fun t => high :: low :: t) (ih (by omega) others)

theorem decodeHexStrict_ok {value : Str} {what : String} {maxBytes : Nat} {data : Bytes} :
    decodeHexStrict value what maxBytes = .ok data ↔ value = hexText data ∧ data.length ≤ maxBytes := by
  unfold decodeHexStrict
  simp only [bind_ok, pure_ok, ensure_ok, exists_const]
  constructor
  · rintro ⟨short, ⟨even, hex⟩, decoded⟩
    have spelling := hexText_fromHex even hex
    rw [decoded] at spelling
    refine ⟨spelling.symm, ?_⟩
    rw [← spelling, length_hexText] at short
    omega
  · rintro ⟨spelling, few⟩
    subst spelling
    rw [length_hexText]
    exact ⟨by omega, ⟨by omega, hexText_hex data⟩, fromHex_hexText data⟩

/-- Whatever is refused is a `SignatureInvalidError`. -/
theorem decodeHexStrict_raises (value : Str) (what : String) (maxBytes : Nat) :
    RaisesOnly (fun e => ∃ message, e = invalid message) (decodeHexStrict value what maxBytes) := by
  unfold decodeHexStrict
  rw [raisesOnly_bind]
  refine ⟨raisesOnly_ensure.mpr fun _ => ⟨_, rfl⟩, fun _ _ => ?_⟩
  rw [raisesOnly_bind]
  exact ⟨raisesOnly_ensure.mpr fun _ => ⟨_, rfl⟩, fun _ _ => raisesOnly_ok⟩

/-- A text is decoded to the bytes whose lower-case hexadecimal spelling it is, if they are not too many; every
other text is refused. So no two texts name the same bytes, and what `bytes.hex()` wrote is read back. -/
theorem decodeHexStrict_spelling (what : String) (maxBytes : Nat) (value : Str) :
    (∀ data, decodeHexStrict value what maxBytes = .ok data ↔ value = hexText data ∧ data.length ≤ maxBytes) ∧
      ((∀ data, ¬(value = hexText data ∧ data.length ≤ maxBytes)) →
        ∃ message, decodeHexStrict value what maxBytes = .error (invalid message)) ∧
      (∀ other data, decodeHexStrict value what maxBytes = .ok data → decodeHexStrict other what maxBytes = .ok data →
        value = other) ∧
      ∀ data : Bytes, data.length ≤ maxBytes → decodeHexStrict (hexText data) what maxBytes = .ok data := by
  refine ⟨fun data => decodeHexStrict_ok, ?_, ?_, ?_⟩
  · intro unspelled
    rcases raisesOnly_iff.mp (decodeHexStrict_raises value what maxBytes) with ⟨data, decoded⟩ | ⟨e, ⟨message, same⟩, refused⟩
    · exact (unspelled data (decodeHexStrict_ok.mp decoded)).elim
    · exact ⟨message, same ▸ refused⟩
  · intro other data decoded again
    exact (decodeHexStrict_ok.mp decoded).1.trans (decodeHexStrict_ok.mp again).1.symm
  · intro data few
    exact decodeHexStrict_ok.mpr ⟨rfl, few⟩

end ModelGuard.Signing
