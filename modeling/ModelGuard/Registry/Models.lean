import ModelGuard.Exceptions
import ModelGuard.Manifest.Models
import ModelGuard.Mbom.Models

/-!
# Registry records
-/

namespace ModelGuard.Registry

open Lib ModelGuard.Hashing ModelGuard.Mbom

/-- A revocation decision for a specific model version. -/
structure RevocationRecord where
  modelId : Str
  version : Str
  revokedBy : Str
  reason : Str
  revokedAt : Str
deriving DecidableEq

/-- The pattern `^sha256:[0-9a-f]{64}$`. -/
def IsArtifactDigest (s : Str) : Prop :=
  (str "sha256:").isPrefixOf s = true ∧ IsHex (s.drop 7) ∧ s.length = 71

instance (s : Str) : Decidable (IsArtifactDigest s) := inferInstanceAs (Decidable (_ ∧ _ ∧ _))

/-- A single registered model version. Pydantic refuses a string with surrogates. -/
structure RegistryRecord where
  modelId : Str
  version : Str
  artifactDigest : Str
  manifest : Manifest
  mbom : MLBOM
  registeredBy : Str
  registeredAt : Str
  scalars : ∀ s ∈ [modelId, version, registeredBy, registeredAt], Scalars s
  digestShape : IsArtifactDigest artifactDigest
deriving DecidableEq

theorem IsArtifactDigest.scalars {s : Str} (h : IsArtifactDigest s) : Scalars s := by
  obtain ⟨tail, split⟩ := List.isPrefixOf_iff_prefix.mp h.1
  rw [← split, scalars_append]
  have rest : s.drop 7 = tail := by
    rw [← split]
    rfl
  exact ⟨Json.Printable.scalars (by decide), rest ▸ h.2.1.scalars⟩

/-- `DuplicateRegistrationError(model_id, version)`. -/
def duplicateRegistrationError (modelId version : Str) : Raised :=
  .modelGuard .duplicateRegistrationError (modelId ++ str "@" ++ version ++ str " is already registered. " ++
    str "Register a new version instead of overwriting an existing one.")

/-! ### Dumping

`model_dump(mode="json")`: by field name, with the absent values. -/

def nullable (value : Option Str) : Json SpecialFloat := (value.map Json.str).getD .null

def dumpEvidence (field : Option EvidencedField) : Json SpecialFloat := (field.map EvidencedField.toJson).getD .null

def dumpFileEntry (f : FileDigest) : Json SpecialFloat :=
  .obj [(str "path", .str f.path), (str "sha256", .str f.sha256), (str "size", .int f.size)]

def dumpArtifactType : ArtifactType → Json SpecialFloat
  | .file => .str (str "file")
  | .directory => .str (str "directory")

def dumpManifest (m : Manifest) : Json SpecialFloat :=
  .obj [(str "algorithm", .str m.algorithm), (str "artifact_name", nullable m.artifactName),
    (str "artifact_type", dumpArtifactType m.artifactType), (str "creator", nullable m.creator),
    (str "digest", .str m.digest), (str "files", .arr (m.files.map dumpFileEntry)), (str "format", nullable m.format),
    (str "framework", nullable m.framework), (str "license", nullable m.license), (str "model_id", nullable m.modelId),
    (str "schema_version", .str m.schemaVersion), (str "source_location", nullable m.sourceLocation),
    (str "version", nullable m.version)]

def dumpComponent (c : MLBOMComponent) : Json SpecialFloat :=
  .obj [(str "name", .str c.name), (str "type", .str c.type), (str "version", nullable c.version)]

def dumpProperties (p : MLBOMProperties) : Json SpecialFloat :=
  .obj [(str "artifact_digest", .str p.artifactDigest), (str "artifact_type", .str p.artifactType),
    (str "dataset_references", .arr (p.datasetReferences.map EvidencedField.toJson)),
    (str "framework", dumpEvidence p.framework), (str "license", dumpEvidence p.license),
    (str "parent_models", .arr (p.parentModels.map EvidencedField.toJson)),
    (str "training_code_commit", dumpEvidence p.trainingCodeCommit), (str "trust_status", .str p.trustStatus)]

def dumpMbom (m : MLBOM) : Json SpecialFloat :=
  .obj [(str "bom_format", .str m.bomFormat), (str "components", .arr (m.components.map dumpComponent)),
    (str "metadata", m.metadata.toJson), (str "modelguard", dumpProperties m.modelguard),
    (str "schema_version", .str m.schemaVersion), (str "serial_number", .str m.serialNumber),
    (str "spec_version", .str m.specVersion), (str "version", .int m.version)]

def RegistryRecord.modelDump (r : RegistryRecord) : Json SpecialFloat :=
  .obj [(str "artifact_digest", .str r.artifactDigest), (str "manifest", dumpManifest r.manifest),
    (str "mbom", dumpMbom r.mbom), (str "model_id", .str r.modelId), (str "registered_at", .str r.registeredAt),
    (str "registered_by", .str r.registeredBy), (str "version", .str r.version)]

/-- What pydantic makes of a record, and of the JSON value it finds. -/
structure RecordCodec where
  /-- `record.model_dump_json(indent=2)`. -/
  modelDumpJson : RegistryRecord → Str
  /-- `RegistryRecord.model_validate`. -/
  modelValidate : Json SpecialFloat → Option RegistryRecord

/-- The text of a record decodes to its dump, and the dump validates to the record. -/
structure RecordCodec.ReadsBack (codec : RecordCodec) (r : RegistryRecord) : Prop where
  text : Json.loads (codec.modelDumpJson r) = some r.modelDump
  value : codec.modelValidate r.modelDump = some r

/-! ### A record and its text -/

def zeroDigest : Str := List.replicate 64 (cp '0')

theorem sampleTexts_scalars : ∀ s ∈ [str "m", str "1", str "r", str "t"], Scalars s := by
  simp only [List.forall_mem_cons, List.not_mem_nil, false_implies, implies_true, and_true]
  refine ⟨?_, ?_, ?_, ?_⟩ <;> exact Json.Printable.scalars (by decide)

theorem sampleDigest_shape : IsArtifactDigest (str "sha256:" ++ zeroDigest) := by decide +kernel

def sampleRecord : RegistryRecord where
  modelId := str "m"
  version := str "1"
  artifactDigest := str "sha256:" ++ zeroDigest
  manifest := Manifest.ofIdentity .file zeroDigest none none
  mbom :=
    { bomFormat := str "CycloneDX", specVersion := str "1.6", schemaVersion := str "1", serialNumber := str "s", version := 1
      metadata := { timestamp := str "t", toolName := str "modelguard", toolVersion := str "0.9.0" }
      components := []
      modelguard :=
        { artifactDigest := zeroDigest, artifactType := str "file", parentModels := [], datasetReferences := []
          trainingCodeCommit := none, framework := none, license := none, trustStatus := str "unknown" } }
  registeredBy := str "r"
  registeredAt := str "t"
  scalars := sampleTexts_scalars
  digestShape := sampleDigest_shape

/-- `sampleRecord.model_dump_json(indent=2)`. -/
def sampleText : Str := [newline].intercalate
  [str "\x7b",
   str "  \"model_id\": \"m\",",
   str "  \"version\": \"1\",",
   str "  \"artifact_digest\": \"sha256:" ++ zeroDigest ++ str "\",",
   str "  \"manifest\": \x7b",
   str "    \"schema_version\": \"1\",",
   str "    \"artifact_type\": \"file\",",
   str "    \"algorithm\": \"sha256\",",
   str "    \"digest\": \"" ++ zeroDigest ++ str "\",",
   str "    \"model_id\": null,",
   str "    \"artifact_name\": null,",
   str "    \"version\": null,",
   str "    \"format\": null,",
   str "    \"framework\": null,",
   str "    \"license\": null,",
   str "    \"creator\": null,",
   str "    \"source_location\": null,",
   str "    \"files\": []",
   str "  \x7d,",
   str "  \"mbom\": \x7b",
   str "    \"bom_format\": \"CycloneDX\",",
   str "    \"spec_version\": \"1.6\",",
   str "    \"schema_version\": \"1\",",
   str "    \"serial_number\": \"s\",",
   str "    \"version\": 1,",
   str "    \"metadata\": \x7b",
   str "      \"timestamp\": \"t\",",
   str "      \"tool_name\": \"modelguard\",",
   str "      \"tool_version\": \"0.9.0\"",
   str "    \x7d,",
   str "    \"components\": [],",
   str "    \"modelguard\": \x7b",
   str "      \"artifact_digest\": \"" ++ zeroDigest ++ str "\",",
   str "      \"artifact_type\": \"file\",",
   str "      \"parent_models\": [],",
   str "      \"dataset_references\": [],",
   str "      \"training_code_commit\": null,",
   str "      \"framework\": null,",
   str "      \"license\": null,",
   str "      \"trust_status\": \"unknown\"",
   str "    \x7d",
   str "  \x7d,",
   str "  \"registered_by\": \"r\",",
   str "  \"registered_at\": \"t\"",
   str "\x7d"]

/-- A codec that knows one record. -/
def sampleCodec : RecordCodec where
  modelDumpJson _ := sampleText
  modelValidate data := if data = sampleRecord.modelDump then some sampleRecord else none

theorem sampleCodec_readsBack : sampleCodec.ReadsBack sampleRecord where
  text := by
    show Json.loads sampleText = _
    unfold sampleText
    repeat rw [str_ofList]
    decide +kernel
  value := by
    unfold sampleCodec
    simp only [if_true]

/-- What the registry takes from its surroundings. -/
structure RegistryEnv where
  host : Host
  /-- `unicodedata.normalize("NFC", ·)`. -/
  nfc : Str → Str
  codec : RecordCodec
  sha : Sha256

/-- Surroundings for `sampleRecord` and other plain ASCII text, which NFC leaves as it is. -/
def sampleEnv (sha : Sha256) : RegistryEnv where
  host := { repr := fun s => str "'" ++ s ++ str "'", isoformat := fun _ => [], osError := fun _ => ([], []) }
  nfc := id
  codec := sampleCodec
  sha := sha

end ModelGuard.Registry
