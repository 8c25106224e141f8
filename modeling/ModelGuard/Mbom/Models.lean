import ModelGuard.Signing.Envelope

/-!
# The ML-BOM document
-/

namespace ModelGuard.Mbom

open Lib ModelGuard.Signing

/-- How strongly a claim is backed by evidence. -/
inductive EvidenceLevel where
  | declared
  | signed
  | verified
  | independentlyTested
  | humanApproved
deriving DecidableEq

def EvidenceLevel.value : EvidenceLevel → String
  | .declared => "DECLARED"
  | .signed => "SIGNED"
  | .verified => "VERIFIED"
  | .independentlyTested => "INDEPENDENTLY_TESTED"
  | .humanApproved => "HUMAN_APPROVED"

structure EvidencedField where
  value : Str
  evidence : EvidenceLevel
deriving DecidableEq

/-- The `modelguard` extension block. -/
structure MLBOMProperties where
  artifactDigest : Str
  artifactType : Str
  parentModels : List EvidencedField
  datasetReferences : List EvidencedField
  trainingCodeCommit : Option EvidencedField
  framework : Option EvidencedField
  license : Option EvidencedField
  trustStatus : Str
deriving DecidableEq

structure MLBOMMetadata where
  timestamp : Str
  toolName : Str
  toolVersion : Str
deriving DecidableEq

structure MLBOMComponent where
  type : Str
  name : Str
  version : Option Str
deriving DecidableEq

structure MLBOM where
  bomFormat : Str
  specVersion : Str
  schemaVersion : Str
  serialNumber : Str
  version : Int
  metadata : MLBOMMetadata
  components : List MLBOMComponent
  modelguard : MLBOMProperties
deriving DecidableEq

/-! ### The canonical text

`model_dump(by_alias=True, exclude_none=True)`, with sorted keys. -/

def EvidencedField.toJson (f : EvidencedField) : Json SpecialFloat :=
  .obj [(str "evidence", .str (str f.evidence.value)), (str "value", .str f.value)]

def optionalEvidence (key : String) (field : Option EvidencedField) : List (Str × Json SpecialFloat) :=
  (field.map fun f => (str key, f.toJson)).toList

def MLBOMProperties.toJson (p : MLBOMProperties) : Json SpecialFloat :=
  .obj ((str "artifact_digest", .str p.artifactDigest) :: (str "artifact_type", .str p.artifactType) ::
    (str "dataset_references", .arr (p.datasetReferences.map EvidencedField.toJson)) ::
    optionalEvidence "framework" p.framework ++ optionalEvidence "license" p.license ++
    (str "parent_models", .arr (p.parentModels.map EvidencedField.toJson)) ::
    optionalEvidence "training_code_commit" p.trainingCodeCommit ++ [(str "trust_status", .str p.trustStatus)])

def MLBOMMetadata.toJson (m : MLBOMMetadata) : Json SpecialFloat :=
  .obj [(str "timestamp", .str m.timestamp), (str "tool_name", .str m.toolName),
    (str "tool_version", .str m.toolVersion)]

def MLBOMComponent.toJson (c : MLBOMComponent) : Json SpecialFloat :=
  .obj ((str "name", .str c.name) :: (str "type", .str c.type) :: optionalMember "version" c.version)

def MLBOM.toJson (m : MLBOM) : Json SpecialFloat :=
  .obj [(str "bomFormat", .str m.bomFormat), (str "components", .arr (m.components.map MLBOMComponent.toJson)),
    (str "metadata", m.metadata.toJson), (str "modelguard", m.modelguard.toJson),
    (str "schema_version", .str m.schemaVersion), (str "serialNumber", .str m.serialNumber),
    (str "specVersion", .str m.specVersion), (str "version", .int m.version)]

/-- `MLBOM.canonical_json`. -/
def MLBOM.canonicalJson (m : MLBOM) : Bytes := asciiBytes m.toJson.dumps

end ModelGuard.Mbom
