import ModelGuard.Hashing.Digest

/-!
# The manifest of an artifact
-/

namespace ModelGuard

open Lib ModelGuard.Hashing

/-- The signable description of one artifact. All but the type and the digest is declared by the caller. -/
structure Manifest where
  schemaVersion : Str
  artifactType : ArtifactType
  algorithm : Str
  digest : Str
  modelId : Option Str
  artifactName : Option Str
  version : Option Str
  format : Option Str
  framework : Option Str
  license : Option Str
  creator : Option Str
  sourceLocation : Option Str
  files : List FileDigest
deriving DecidableEq

/-- A manifest with the defaults of every field but these. -/
def Manifest.ofIdentity (artifactType : ArtifactType) (digest : Str) (modelId version : Option Str) : Manifest where
  schemaVersion := str "1"
  artifactType := artifactType
  algorithm := str "sha256"
  digest := digest
  modelId := modelId
  artifactName := none
  version := version
  format := none
  framework := none
  license := none
  creator := none
  sourceLocation := none
  files := []

end ModelGuard
