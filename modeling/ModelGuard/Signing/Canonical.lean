import ModelGuard.Lib.JsonFields
import ModelGuard.Lib.JsonJoin
import ModelGuard.Signing.Envelope

/-!
# Reading back the signed payload

The canonical text determines the payload up to surrogate pairs that were left apart in a string, which
no text read from JSON has.
-/

namespace ModelGuard.Signing

open Lib Lib.Json

/-- The fields of `SignaturePayload`, in the order of the canonical text. -/
def payloadKeys : List Str :=
  [str "artifact_digest", str "key_id", str "mbom_digest", str "model_id", str "schema_version",
    str "signature_algorithm", str "signed_at", str "signer_identity", str "version"]

/-- `SignaturePayload.model_validate`. -/
def SignaturePayload.validate : Json SpecialFloat → Option SignaturePayload
  | .obj fields =>
    if onlyKeys payloadKeys fields then do
      let schemaVersion ← orDefault schemaVersionLegacy text "schema_version" fields
      let artifactDigest ← required text "artifact_digest" fields
      let mbomDigest ← required text "mbom_digest" fields
      let modelId ← orDefault none (nullable text) "model_id" fields
      let version ← orDefault none (nullable text) "version" fields
      let signerIdentity ← required text "signer_identity" fields
      let signedAt ← required text "signed_at" fields
      let signatureAlgorithm ← orDefault none (nullable text) "signature_algorithm" fields
      let keyId ← orDefault none (nullable text) "key_id" fields
      return { schemaVersion, artifactDigest, mbomDigest, modelId, version, signerIdentity, signedAt,
               signatureAlgorithm, keyId }
    else none
  | _ => none

/-- `json.loads(data)`, of UTF-8 text. -/
def loadsUtf8 (data : Bytes) : Option (Json SpecialFloat) := (decodeUtf8 data).bind loads

/-- No string leaves a surrogate pair apart. -/
structure SignaturePayload.Joined (p : SignaturePayload) : Prop where
  schemaVersion : Json.Joined p.schemaVersion
  artifactDigest : Json.Joined p.artifactDigest
  mbomDigest : Json.Joined p.mbomDigest
  modelId : ∀ s ∈ p.modelId, Json.Joined s
  version : ∀ s ∈ p.version, Json.Joined s
  signerIdentity : Json.Joined p.signerIdentity
  signedAt : Json.Joined p.signedAt
  signatureAlgorithm : ∀ s ∈ p.signatureAlgorithm, Json.Joined s
  keyId : ∀ s ∈ p.keyId, Json.Joined s

/-- The payload that its canonical text is read back as. -/
def SignaturePayload.join (p : SignaturePayload) : SignaturePayload where
  schemaVersion := joinText p.schemaVersion
  artifactDigest := joinText p.artifactDigest
  mbomDigest := joinText p.mbomDigest
  modelId := p.modelId.map joinText
  version := p.version.map joinText
  signerIdentity := joinText p.signerIdentity
  signedAt := joinText p.signedAt
  signatureAlgorithm := p.signatureAlgorithm.map joinText
  keyId := p.keyId.map joinText

/-! ### Members -/

theorem lookup_optionalMember (key other : String) (value : Option Str) :
    (optionalMember other value).lookup (str key) = if key = other then value.map Json.str else none := by
  unfold optionalMember
  cases value with
  | none => simp
  | some v => simp [Dict.lookup_cons, str_injective.eq_iff]

theorem optionalMember_keys (key : String) (value : Option Str) :
    ((optionalMember key value).map (·.1)).Sublist [str key] := by
  cases value with
  | none => exact List.nil_sublist _
  | some v => exact List.Sublist.refl _

theorem joinFields_optionalMember (key : String) (value : Option Str) :
    joinFields (optionalMember key value) = optionalMember key (value.map joinText) := by
  cases value <;> rfl

theorem wf_optionalMember {key : String} {value : Option Str} (joined : ∀ s ∈ value, Json.Joined s) :
    ∀ e ∈ optionalMember key value, WF e.2 := by
  cases value with
  | none => exact fun e mem => (List.not_mem_nil mem).elim
  | some v =>
    intro e mem
    rw [List.mem_singleton.mp mem]
    exact .str (joined v rfl)

theorem elim_nullable_text (value : Option Str) :
    value.elim (some none) (nullable text ∘ (Json.str : Str → Json SpecialFloat)) = some value := by
  cases value <;> rfl

/-! ### The payload -/

namespace SignaturePayload

theorem join_of_joined {p : SignaturePayload} (h : p.Joined) : p.join = p := by
  have optional {value : Option Str} (joined : ∀ s ∈ value, Json.Joined s) : value.map joinText = value := by
    cases value with
    | none => rfl
    | some s => exact congrArg some (joinText_of_joined (joined s rfl))
  unfold join
  rw [joinText_of_joined h.schemaVersion, joinText_of_joined h.artifactDigest, joinText_of_joined h.mbomDigest,
    joinText_of_joined h.signerIdentity, joinText_of_joined h.signedAt, optional h.modelId, optional h.version,
    optional h.signatureAlgorithm, optional h.keyId]

theorem join_joined (p : SignaturePayload) : p.join.Joined := by
  have optional (value : Option Str) : ∀ s ∈ value.map joinText, Json.Joined s := by
    intro s mem
    obtain ⟨t, -, same⟩ := Option.map_eq_some_iff.mp mem
    subst same
    exact joinText_joined t
  exact ⟨joinText_joined _, joinText_joined _, joinText_joined _, optional _, optional _, joinText_joined _,
    joinText_joined _, optional _, optional _⟩

theorem toJson_join (p : SignaturePayload) : p.join.toJson = joinStrings p.toJson := by
  unfold toJson join
  simp only [joinStrings, joinFields_eq, List.map_cons, List.map_append]
  simp only [← joinFields_eq, joinFields_optionalMember]

theorem keys_sublist (p : SignaturePayload) {fields : List (Str × Json SpecialFloat)} (h : p.toJson = .obj fields) :
    (fields.map (·.1)).Sublist payloadKeys := by
  cases h
  simp only [List.map_cons, List.map_append]
  have one (key : String) (value : Option Str) (before : Str) :
      (before :: (optionalMember key value).map (·.1)).Sublist [before, str key] :=
    (optionalMember_keys key value).cons_cons before
  exact ((((one _ _ _).append (one _ _ _)).append (one _ _ _)).append ((one _ _ _).cons_cons _))

theorem validate_toJson (p : SignaturePayload) : validate p.toJson = some p := by
  have only := onlyKeys_of_sublist (p.keys_sublist rfl)
  unfold validate toJson
  dsimp only
  rw [if_pos only]
  simp [orDefault, required, List.lookup_append, Dict.lookup_cons, lookup_optionalMember, str_injective.eq_iff, text, elim_nullable_text]

theorem toJson_wf {p : SignaturePayload} (h : p.Joined) : WF p.toJson := by
  refine wf_obj (p.keys_sublist rfl) (by decide) (by decide +kernel) ?_
  simp only [List.forall_mem_cons, List.forall_mem_append]
  exact ⟨⟨⟨⟨.str h.artifactDigest, wf_optionalMember h.keyId⟩, .str h.mbomDigest, wf_optionalMember h.modelId⟩,
    .str h.schemaVersion, wf_optionalMember h.signatureAlgorithm⟩, .str h.signedAt, .str h.signerIdentity,
    wf_optionalMember h.version⟩

theorem canonicalJson_join (p : SignaturePayload) : p.join.canonicalJson = p.canonicalJson := by
  unfold canonicalJson
  rw [toJson_join, dumps_joinStrings]

/-- The canonical text is read back as the payload with its surrogate pairs joined. -/
theorem canonicalJson_reads (p : SignaturePayload) : (loadsUtf8 p.canonicalJson).bind validate = some p.join := by
  have ascii := (dumps_printable p.join.toJson).ascii
  rw [← p.canonicalJson_join]
  unfold loadsUtf8 canonicalJson
  rw [decodeUtf8_ascii ascii, Option.bind_some, loads_dumps (toJson_wf p.join_joined), Option.bind_some, validate_toJson]

theorem canonicalJson_inj {p q : SignaturePayload} (h : p.canonicalJson = q.canonicalJson) : p.join = q.join := by
  have reads := p.canonicalJson_reads
  rw [h, q.canonicalJson_reads] at reads
  exact (Option.some.inj reads).symm

end SignaturePayload

/-- U+1F600 as one character, and as its two surrogates. -/
def face : Str := [0x1f600]

def splitFace : Str := [0xd83d, 0xde00]

theorem joinText_face : joinText face = joinText splitFace := by decide

end ModelGuard.Signing
