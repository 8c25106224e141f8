import ModelGuard.Lib.JsonRaw
import ModelGuard.Signing.Canonical
import ModelGuard.Signing.Signer

/-!
# The signature file

`to_json` writes UTF-8 text over several lines, in which an absent member is `null`; `load_envelope` reads a
bounded file, and reports whatever it cannot read as a malformed signature.
-/

namespace ModelGuard.Signing

open Lib Lib.Fallible Lib.Json

/-- `MAX_ENVELOPE_BYTES`. -/
def maxEnvelopeBytes : Nat := 64 * 1024

def malformed (message : Str) : Raised := .modelGuard .malformedSignatureError message

/-! ### Writing -/

def textOrNull (value : Option Str) : Json SpecialFloat := value.elim .null .str

/-- `model_dump(mode="json")`, in the order of the fields. -/
def SignaturePayload.modelDump (p : SignaturePayload) : Json SpecialFloat :=
  .obj [(str "schema_version", .str p.schemaVersion), (str "artifact_digest", .str p.artifactDigest),
    (str "mbom_digest", .str p.mbomDigest), (str "model_id", textOrNull p.modelId), (str "version", textOrNull p.version),
    (str "signer_identity", .str p.signerIdentity), (str "signed_at", .str p.signedAt),
    (str "signature_algorithm", textOrNull p.signatureAlgorithm), (str "key_id", textOrNull p.keyId)]

def SignatureEnvelope.modelDump (e : SignatureEnvelope) : Json SpecialFloat :=
  .obj [(str "signature_type", .str e.signatureType), (str "payload", e.payload.modelDump),
    (str "signature", .str e.signature), (str "public_key", .str e.publicKey)]

/-- `SignatureEnvelope.to_json`. -/
def SignatureEnvelope.jsonText (e : SignatureEnvelope) : Str := pretty rawQuoting 0 e.modelDump

/-! ### Reading -/

def envelopeKeys : List Str := [str "payload", str "public_key", str "signature", str "signature_type"]

/-- `SignatureEnvelope.model_validate`. -/
def SignatureEnvelope.validate : Json SpecialFloat → Option SignatureEnvelope
  | .obj fields =>
    if onlyKeys envelopeKeys fields then do
      let signatureType ← orDefault signatureTypeEd25519Local text "signature_type" fields
      let payload ← required SignaturePayload.validate "payload" fields
      let signature ← required text "signature" fields
      let publicKey ← required text "public_key" fields
      return { signatureType, payload, signature, publicKey }
    else none
  | _ => none

/-- `json.loads(raw.decode("utf-8"))`, or the class of what it raises. -/
def jsonLoads (raw : Bytes) : Except Str (Json SpecialFloat) := do
  let text ← orRaise (str "UnicodeDecodeError") (decodeUtf8 raw)
  let data ← orRaise (str "JSONDecodeError") (loads text)
  ensure (shortInts data = true) (str "ValueError")
  return data

/-- `load_envelope`, of what the file holds, or of the text of an `OSError`; `problems` are the first five that
pydantic finds. -/
def loadEnvelope (problems : Json SpecialFloat → Str) (path : Str) : Except Str Bytes → Except Raised SignatureEnvelope
  | .error strerror => .error (malformed (str "Cannot read signature file " ++ path ++ str ": " ++ strerror))
  | .ok content => do
    let raw := content.take (maxEnvelopeBytes + 1)
    ensure (raw.length ≤ maxEnvelopeBytes)
      (malformed (str "Signature file " ++ path ++ str " is larger than " ++ Json.natText maxEnvelopeBytes ++
        str " bytes; refusing to parse it."))
    match jsonLoads raw with
    | .error cls =>
      .error (malformed (str "Signature file " ++ path ++ str " is not a valid ModelGuard signature envelope (" ++ cls ++
        str ")."))
    | .ok data =>
      orRaise (malformed (str "Signature file " ++ path ++ str " does not match the signature envelope schema (" ++
        problems data ++ str ").")) (SignatureEnvelope.validate data)

/-! ### Strings that UTF-8 has -/

def SignatureEnvelope.texts (e : SignatureEnvelope) : List Str :=
  [e.signatureType, e.signature, e.publicKey] ++ e.payload.texts

theorem texts_textOrNull {value : Option Str} (scalars : ∀ s ∈ value, Scalars s) : Texts Scalars (textOrNull value) := by
  cases value with
  | none => exact .null
  | some s => exact .str (scalars s rfl)

theorem SignaturePayload.modelDump_texts {p : SignaturePayload} (encodable : Encodable p.texts) :
    Texts Scalars p.modelDump := by
  unfold Encodable texts at encodable
  simp only [List.forall_mem_append, List.forall_mem_cons, List.not_mem_nil, false_implies, implies_true, and_true,
    Option.mem_toList] at encodable
  obtain ⟨⟨⟨⟨⟨schemaVersion, artifactDigest, mbomDigest, signer, signedAt⟩, modelId⟩, version⟩, algorithm⟩, keyId⟩ := encodable
  refine .obj ?_ ?_
  · simp only [List.forall_mem_cons, List.not_mem_nil, false_implies, scalars_str, and_true, implies_true]
  · simp only [List.forall_mem_cons, List.not_mem_nil, false_implies, implies_true, and_true]
    exact ⟨.str schemaVersion, .str artifactDigest, .str mbomDigest, texts_textOrNull modelId, texts_textOrNull version,
      .str signer, .str signedAt, texts_textOrNull algorithm, texts_textOrNull keyId⟩

theorem SignatureEnvelope.modelDump_texts {e : SignatureEnvelope} (encodable : Encodable e.texts) :
    Texts Scalars e.modelDump := by
  unfold Encodable texts at encodable
  rw [List.forall_mem_append] at encodable
  obtain ⟨own, payload⟩ := encodable
  simp only [List.forall_mem_cons, List.not_mem_nil, false_implies, implies_true, and_true] at own
  refine .obj ?_ ?_
  · simp only [List.forall_mem_cons, List.not_mem_nil, false_implies, scalars_str, and_true, implies_true]
  · simp only [List.forall_mem_cons, List.not_mem_nil, false_implies, implies_true, and_true]
    exact ⟨.str own.1, SignaturePayload.modelDump_texts payload, .str own.2.1, .str own.2.2⟩

/-! ### What was written is read back -/

theorem sortMembers_textOrNull (value : Option Str) : sortMembers (textOrNull value) = textOrNull value := by
  cases value <;> rfl

theorem nullable_textOrNull (value : Option Str) : nullable text (textOrNull value) = some value := by
  cases value <;> rfl

theorem SignaturePayload.validate_modelDump (p : SignaturePayload) : validate (sortMembers p.modelDump) = some p := by
  unfold modelDump validate
  simp only [sortMembers, sortFields, sortMembers_textOrNull]
  rw [if_pos (onlyKeys_ofPairs (by simp [onlyKeys, payloadKeys]))]
  simp [orDefault, required, Dict.lookup_ofPairs, Dict.lookup_cons, str_injective.eq_iff, text, nullable_textOrNull]

theorem SignatureEnvelope.validate_modelDump (e : SignatureEnvelope) : validate (sortMembers e.modelDump) = some e := by
  unfold modelDump validate
  simp only [sortMembers, sortFields]
  rw [if_pos (onlyKeys_ofPairs (by simp [onlyKeys, envelopeKeys]))]
  simp [orDefault, required, Dict.lookup_ofPairs, Dict.lookup_cons, str_injective.eq_iff, text,
    SignaturePayload.validate_modelDump]

/-! ### The size of the file -/

def nullableSize (value : Option Str) : Nat := value.elim 4 quotedSize

def SignaturePayload.textSize (p : SignaturePayload) : Nat :=
  198 + quotedSize p.schemaVersion + quotedSize p.artifactDigest + quotedSize p.mbomDigest + nullableSize p.modelId +
    nullableSize p.version + quotedSize p.signerIdentity + quotedSize p.signedAt + nullableSize p.signatureAlgorithm +
    nullableSize p.keyId

/-- The octets of the file: what the keys and the layout take, and the values. -/
def SignatureEnvelope.fileSize (e : SignatureEnvelope) : Nat :=
  74 + quotedSize e.signatureType + e.payload.textSize + quotedSize e.signature + quotedSize e.publicKey

theorem utf8Length_textOrNull (value : Option Str) (level : Nat) :
    utf8Length (pretty rawQuoting level (textOrNull value)) = nullableSize value := by
  cases value with
  | none =>
    rw [textOrNull, Option.elim_none, pretty]
    rfl
  | some s =>
    rw [textOrNull, Option.elim_some, pretty]
    rfl

theorem utf8Length_str (s : Str) (level : Nat) :
    utf8Length (pretty rawQuoting level (.str s : Json SpecialFloat)) = quotedSize s := by
  rw [pretty]
  rfl

theorem SignaturePayload.utf8Length_modelDump (p : SignaturePayload) :
    utf8Length (pretty rawQuoting 1 p.modelDump) = p.textSize := by
  have keys : [str "schema_version", str "artifact_digest", str "mbom_digest", str "model_id", str "version",
      str "signer_identity", str "signed_at", str "signature_algorithm", str "key_id"].map quotedSize =
      [16, 17, 13, 10, 9, 17, 11, 21, 8] := by
    decide +kernel
  simp only [List.map_cons, List.map_nil, List.cons.injEq, and_true] at keys
  obtain ⟨schemaVersion, artifactDigest, mbomDigest, modelId, version, signer, signedAt, algorithm, keyId⟩ := keys
  unfold modelDump textSize
  rw [utf8Length_pretty_obj]
  simp only [memberSize, utf8Length_str, utf8Length_textOrNull, List.map_cons, List.map_nil, List.sum_cons, List.sum_nil,
    schemaVersion, artifactDigest, mbomDigest, modelId, version, signer, signedAt, algorithm, keyId]
  omega

theorem SignatureEnvelope.utf8Length_jsonText (e : SignatureEnvelope) : utf8Length e.jsonText = e.fileSize := by
  have keys : [str "signature_type", str "payload", str "signature", str "public_key"].map quotedSize = [16, 9, 11, 12] := by
    decide +kernel
  simp only [List.map_cons, List.map_nil, List.cons.injEq, and_true] at keys
  obtain ⟨signatureType, payload, signature, publicKey⟩ := keys
  unfold jsonText modelDump fileSize
  rw [utf8Length_pretty_obj]
  simp only [memberSize, utf8Length_str, e.payload.utf8Length_modelDump, List.map_cons, List.map_nil, List.sum_cons,
    List.sum_nil, signatureType, payload, signature, publicKey]
  omega

/-- The bytes of the written file. -/
def SignatureEnvelope.fileBytes (e : SignatureEnvelope) : Option Bytes := encodeUtf8 e.jsonText

theorem SignatureEnvelope.fileBytes_eq {e : SignatureEnvelope} (encodable : Encodable e.texts) :
    e.fileBytes = some (e.jsonText.flatMap encodeUtf8Char) :=
  encodeUtf8_some (scalars_pretty (fun _ => scalars_rawQuote.mpr) (e.modelDump_texts encodable) 0)

theorem shortInts_textOrNull (value : Option Str) : shortInts (textOrNull value) = true := by
  cases value <;> rfl

theorem SignatureEnvelope.shortInts_modelDump (e : SignatureEnvelope) : shortInts e.modelDump = true := by
  unfold modelDump SignaturePayload.modelDump
  simp only [shortInts, shortIntFields, shortInts_textOrNull, Bool.and_self]

theorem jsonLoads_written {e : SignatureEnvelope} (encodable : Encodable e.texts) {content : Bytes}
    (written : e.fileBytes = some content) : jsonLoads content = .ok (sortMembers e.modelDump) := by
  have read : loads e.jsonText = some (sortMembers e.modelDump) := loads_pretty (e.modelDump_texts encodable)
  unfold jsonLoads
  rw [decodeUtf8_encodeUtf8 written, orRaise_some_bind, read, orRaise_some_bind]
  apply bind_ok.mpr
  exact ⟨(), ensure_ok.mpr (shortInts_sortMembers _ e.shortInts_modelDump), rfl⟩

/-- A written file is read back as the envelope, unless it exceeds the bound. -/
theorem loadEnvelope_written {problems : Json SpecialFloat → Str} {path : Str} {e loaded : SignatureEnvelope}
    (encodable : Encodable e.texts) {content : Bytes} (written : e.fileBytes = some content) :
    loadEnvelope problems path (.ok content) = .ok loaded ↔ e.fileSize ≤ maxEnvelopeBytes ∧ loaded = e := by
  have size : content.length = e.fileSize := by
    rw [e.fileBytes_eq encodable] at written
    rw [← e.utf8Length_jsonText, ← Option.some.inj written]
    rfl
  unfold loadEnvelope
  dsimp only
  rw [bind_ok]
  simp only [ensure_ok, List.length_take, size, exists_const]
  by_cases small : e.fileSize ≤ maxEnvelopeBytes
  · have whole : content.take (maxEnvelopeBytes + 1) = content := List.take_of_length_le (by omega)
    rw [whole, jsonLoads_written encodable written]
    dsimp only
    rw [orRaise_ok, e.validate_modelDump, Option.some.injEq]
    constructor
    · rintro ⟨-, same⟩
      exact ⟨small, same.symm⟩
    · rintro ⟨-, same⟩
      exact ⟨by omega, same.symm⟩
  · constructor
    · rintro ⟨few, -⟩
      omega
    · rintro ⟨few, -⟩
      exact (small few).elim

end ModelGuard.Signing
