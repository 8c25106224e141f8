import ModelGuard.Mbom.Generator

/-!
# Building a manifest

What is measured comes from the digest of the artifact, all else from the caller.
-/

namespace ModelGuard

open Lib Lib.Fallible ModelGuard.Hashing ModelGuard.Mbom ModelGuard.Signing

/-- Metadata that the caller declares. -/
structure DeclaredMetadata where
  modelId : Option Str
  artifactName : Option Str
  version : Option Str
  format : Option Str
  framework : Option Str
  license : Option Str
  creator : Option Str
  sourceLocation : Option Str

def DeclaredMetadata.empty : DeclaredMetadata where
  modelId := none
  artifactName := none
  version := none
  format := none
  framework := none
  license := none
  creator := none
  sourceLocation := none

/-- Every string of the manifest but those of its files. -/
def Manifest.texts (m : Manifest) : List Str :=
  [m.schemaVersion, m.algorithm, m.digest] ++ m.modelId.toList ++ m.artifactName.toList ++ m.version.toList ++
    m.format.toList ++ m.framework.toList ++ m.license.toList ++ m.creator.toList ++ m.sourceLocation.toList

/-- The manifest of a digest; `name` is `path.name`. -/
def manifestOf (digest : ArtifactDigest) (name : FileName) (declared : DeclaredMetadata) : Manifest where
  schemaVersion := str "1"
  artifactType := digest.artifactType
  algorithm := str "sha256"
  digest := digest.digest
  modelId := declared.modelId
  artifactName := firstTruthy declared.artifactName (some name.val)
  version := declared.version
  format := declared.format
  framework := declared.framework
  license := declared.license
  creator := declared.creator
  sourceLocation := declared.sourceLocation
  files := if digest.artifactType = .directory then digest.files else []

/-- `build_manifest`, of what hashing the artifact gives. -/
def buildManifest (hashed : Except Raised ArtifactDigest) (name : FileName) (metadata : Option DeclaredMetadata)
    (precomputedDigest : Option ArtifactDigest) : Except Raised Manifest := do
  let digest ← precomputedDigest.elim hashed .ok
  ensure (Signing.Encodable (digest.files.flatMap fun f => [f.path, f.sha256]))
    (.external (str "ValidationError") (str "ManifestFileEntry"))
  let manifest := manifestOf digest name (metadata.getD .empty)
  ensure (Signing.Encodable manifest.texts) (.external (str "ValidationError") (str "Manifest"))
  return manifest

/-- A manifest that was built names the digest that it was built from, and no text of it is in the way of a payload. -/
theorem buildManifest_ok {hashed : Except Raised ArtifactDigest} {name : FileName} {metadata : Option DeclaredMetadata}
    {precomputedDigest : Option ArtifactDigest} {manifest : Manifest}
    (built : buildManifest hashed name metadata precomputedDigest = .ok manifest) :
    ∃ digest, precomputedDigest.elim hashed .ok = .ok digest ∧ manifest = manifestOf digest name (metadata.getD .empty) ∧
      manifestRef manifest = digestRef digest.digest ∧ Signing.Encodable manifest.texts := by
  obtain ⟨digest, taken, built⟩ := bind_ok.mp built
  obtain ⟨_, -, built⟩ := bind_ok.mp built
  obtain ⟨_, encodable, built⟩ := bind_ok.mp built
  have same := pure_ok.mp built
  subst same
  refine ⟨digest, taken, rfl, ?_, ensure_ok.mp encodable⟩
  unfold manifestRef manifestOf digestRef
  rw [← str_append]
  rfl

end ModelGuard
