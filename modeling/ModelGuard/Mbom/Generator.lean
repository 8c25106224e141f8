import ModelGuard.Mbom.Models
import ModelGuard.Signing.Signer

/-!
# Generating an ML-BOM

The ML-BOM embeds the digest of the manifest, and so names the artifact that it describes.
-/

namespace ModelGuard.Mbom

open Lib ModelGuard.Hashing ModelGuard.Signing

/-- Provenance that the caller claims. An empty text counts as none. -/
structure DeclaredProvenance where
  parentModels : List Str
  datasetReferences : List Str
  trainingCodeCommit : Option Str
  framework : Option Str
  license : Option Str

def DeclaredProvenance.empty : DeclaredProvenance where
  parentModels := []
  datasetReferences := []
  trainingCodeCommit := none
  framework := none
  license := none

/-- The generator never upgrades a claim. -/
def declaredField (value : Str) : EvidencedField := { value, evidence := .declared }

def artifactTypeText : ArtifactType → Str
  | .file => str "file"
  | .directory => str "directory"

/-- The first of two texts that is there and not empty. -/
def firstTruthy (first second : Option Str) : Option Str :=
  (first.filter fun s => !s.isEmpty).or (second.filter fun s => !s.isEmpty)

/-- `generate_mbom`; `serial` is the text of a fresh UUID, `timestamp` that of the time. -/
def generateMbom (serial timestamp : Str) (manifest : Manifest) (provenance : Option DeclaredProvenance) : MLBOM :=
  let prov := provenance.getD .empty
  { bomFormat := str "CycloneDX"
    specVersion := str "1.6"
    schemaVersion := str "1"
    serialNumber := str "urn:uuid:" ++ serial
    version := 1
    metadata := { timestamp, toolName := str "modelguard", toolVersion := str "0.9.0" }
    components :=
      [{ type := str "machine-learning-model"
         name := (firstTruthy manifest.artifactName none).getD (str "unnamed-model")
         version := manifest.version }]
    modelguard :=
      { artifactDigest := manifestRef manifest
        artifactType := artifactTypeText manifest.artifactType
        parentModels := prov.parentModels.map declaredField
        datasetReferences := prov.datasetReferences.map declaredField
        trainingCodeCommit := (firstTruthy prov.trainingCodeCommit none).map declaredField
        framework := (firstTruthy prov.framework manifest.framework).map declaredField
        license := (firstTruthy prov.license manifest.license).map declaredField
        trustStatus := str "unknown" } }

/-- Binding is by value. -/
theorem generateMbom_describes (serial timestamp : Str) (manifest : Manifest) (provenance : Option DeclaredProvenance) :
    (generateMbom serial timestamp manifest provenance).modelguard.artifactDigest = manifestRef manifest := rfl

end ModelGuard.Mbom
