import ModelGuard.Mbom.Models
import ModelGuard.Signing.Canonical

/-!
# Reading back the ML-BOM

Each model reads back what it writes; the canonical text determines the document up to surrogate pairs
that were left apart.
-/

namespace ModelGuard.Mbom

open Lib Lib.Json ModelGuard.Signing

/-! ### Validation -/

def evidenceLevels : List EvidenceLevel := [.declared, .signed, .verified, .independentlyTested, .humanApproved]

def EvidenceLevel.validate : Json SpecialFloat → Option EvidenceLevel
  | .str s => evidenceLevels.find? fun level => str level.value = s
  | _ => none

def evidencedKeys : List Str := [str "evidence", str "value"]

def EvidencedField.validate : Json SpecialFloat → Option EvidencedField
  | .obj fields =>
    if onlyKeys evidencedKeys fields then do
      let value ← required text "value" fields
      let evidence ← orDefault .declared EvidenceLevel.validate "evidence" fields
      return { value, evidence }
    else none
  | _ => none

def propertiesKeys : List Str :=
  [str "artifact_digest", str "artifact_type", str "dataset_references", str "framework", str "license",
    str "parent_models", str "training_code_commit", str "trust_status"]

def MLBOMProperties.validate : Json SpecialFloat → Option MLBOMProperties
  | .obj fields =>
    if onlyKeys propertiesKeys fields then do
      let artifactDigest ← required text "artifact_digest" fields
      let artifactType ← required text "artifact_type" fields
      let parentModels ← orDefault [] (items EvidencedField.validate) "parent_models" fields
      let datasetReferences ← orDefault [] (items EvidencedField.validate) "dataset_references" fields
      let trainingCodeCommit ← orDefault none (nullable EvidencedField.validate) "training_code_commit" fields
      let framework ← orDefault none (nullable EvidencedField.validate) "framework" fields
      let license ← orDefault none (nullable EvidencedField.validate) "license" fields
      let trustStatus ← orDefault (str "unknown") text "trust_status" fields
      return { artifactDigest, artifactType, parentModels, datasetReferences, trainingCodeCommit, framework, license,
               trustStatus }
    else none
  | _ => none

def metadataKeys : List Str := [str "timestamp", str "tool_name", str "tool_version"]

def MLBOMMetadata.validate : Json SpecialFloat → Option MLBOMMetadata
  | .obj fields =>
    if onlyKeys metadataKeys fields then do
      let timestamp ← required text "timestamp" fields
      let toolName ← orDefault (str "modelguard") text "tool_name" fields
      let toolVersion ← orDefault (str "0.9.0") text "tool_version" fields
      return { timestamp, toolName, toolVersion }
    else none
  | _ => none

def componentKeys : List Str := [str "name", str "type", str "version"]

def MLBOMComponent.validate : Json SpecialFloat → Option MLBOMComponent
  | .obj fields =>
    if onlyKeys componentKeys fields then do
      let type ← orDefault (str "machine-learning-model") text "type" fields
      let name ← required text "name" fields
      let version ← orDefault none (nullable text) "version" fields
      return { type, name, version }
    else none
  | _ => none

/-- An `int` field; `coerce` is what lax validation makes of a value that is not an integer. -/
def integer (coerce : Json SpecialFloat → Option Int) : Json SpecialFloat → Option Int
  | .int n => some n
  | v => coerce v

/-- The key that a field with an alias is read from, when its name is accepted too. -/
def chosenKey (fields : List (Str × Json SpecialFloat)) (shown name : String) : String :=
  if (fields.lookup (str shown)).isSome then shown else name

/-- `MLBOM.model_validate`. -/
def MLBOM.validate (coerce : Json SpecialFloat → Option Int) : Json SpecialFloat → Option MLBOM
  | .obj fields =>
    let bomFormatKey := chosenKey fields "bomFormat" "bom_format"
    let specVersionKey := chosenKey fields "specVersion" "spec_version"
    let serialNumberKey := chosenKey fields "serialNumber" "serial_number"
    if onlyKeys [str bomFormatKey, str "components", str "metadata", str "modelguard", str "schema_version",
        str serialNumberKey, str specVersionKey, str "version"] fields then do
      let bomFormat ← orDefault (str "CycloneDX") text bomFormatKey fields
      let specVersion ← orDefault (str "1.6") text specVersionKey fields
      let schemaVersion ← orDefault (str "1") text "schema_version" fields
      let serialNumber ← required text serialNumberKey fields
      let version ← orDefault 1 (integer coerce) "version" fields
      let metadata ← required MLBOMMetadata.validate "metadata" fields
      let components ← required (items MLBOMComponent.validate) "components" fields
      let modelguard ← required MLBOMProperties.validate "modelguard" fields
      return { bomFormat, specVersion, schemaVersion, serialNumber, version, metadata, components, modelguard }
    else none
  | _ => none

/-! ### Joined strings -/

def EvidencedField.join (f : EvidencedField) : EvidencedField where
  value := joinText f.value
  evidence := f.evidence

def MLBOMProperties.join (p : MLBOMProperties) : MLBOMProperties where
  artifactDigest := joinText p.artifactDigest
  artifactType := joinText p.artifactType
  parentModels := p.parentModels.map EvidencedField.join
  datasetReferences := p.datasetReferences.map EvidencedField.join
  trainingCodeCommit := p.trainingCodeCommit.map EvidencedField.join
  framework := p.framework.map EvidencedField.join
  license := p.license.map EvidencedField.join
  trustStatus := joinText p.trustStatus

def MLBOMMetadata.join (m : MLBOMMetadata) : MLBOMMetadata where
  timestamp := joinText m.timestamp
  toolName := joinText m.toolName
  toolVersion := joinText m.toolVersion

def MLBOMComponent.join (c : MLBOMComponent) : MLBOMComponent where
  type := joinText c.type
  name := joinText c.name
  version := c.version.map joinText

/-- The document that its canonical text is read back as. -/
def MLBOM.join (m : MLBOM) : MLBOM where
  bomFormat := joinText m.bomFormat
  specVersion := joinText m.specVersion
  schemaVersion := joinText m.schemaVersion
  serialNumber := joinText m.serialNumber
  version := m.version
  metadata := m.metadata.join
  components := m.components.map MLBOMComponent.join
  modelguard := m.modelguard.join

/-! ### Strings without split pairs -/

structure MLBOMProperties.Joined (p : MLBOMProperties) : Prop where
  artifactDigest : Json.Joined p.artifactDigest
  artifactType : Json.Joined p.artifactType
  parentModels : ∀ f ∈ p.parentModels, Json.Joined f.value
  datasetReferences : ∀ f ∈ p.datasetReferences, Json.Joined f.value
  trainingCodeCommit : ∀ f ∈ p.trainingCodeCommit, Json.Joined f.value
  framework : ∀ f ∈ p.framework, Json.Joined f.value
  license : ∀ f ∈ p.license, Json.Joined f.value
  trustStatus : Json.Joined p.trustStatus

structure MLBOMMetadata.Joined (m : MLBOMMetadata) : Prop where
  timestamp : Json.Joined m.timestamp
  toolName : Json.Joined m.toolName
  toolVersion : Json.Joined m.toolVersion

structure MLBOMComponent.Joined (c : MLBOMComponent) : Prop where
  type : Json.Joined c.type
  name : Json.Joined c.name
  version : ∀ s ∈ c.version, Json.Joined s

/-- No string of the document leaves a surrogate pair apart. -/
structure MLBOM.Joined (m : MLBOM) : Prop where
  bomFormat : Json.Joined m.bomFormat
  specVersion : Json.Joined m.specVersion
  schemaVersion : Json.Joined m.schemaVersion
  serialNumber : Json.Joined m.serialNumber
  metadata : m.metadata.Joined
  components : ∀ c ∈ m.components, c.Joined
  modelguard : m.modelguard.Joined

theorem EvidencedField.join_of_joined {f : EvidencedField} (h : Json.Joined f.value) : f.join = f := by
  unfold join
  rw [joinText_of_joined h]

theorem map_join_of_joined {α : Type} {join : α → α} {l : List α} (same : ∀ a ∈ l, join a = a) : l.map join = l := by
  rw [List.map_congr_left same, List.map_id']

theorem option_join_of_joined {α : Type} {join : α → α} {o : Option α} (same : ∀ a ∈ o, join a = a) : o.map join = o := by
  cases o with
  | none => rfl
  | some a => exact congrArg some (same a rfl)

theorem MLBOMProperties.join_of_joined {p : MLBOMProperties} (h : p.Joined) : p.join = p := by
  unfold join
  rw [joinText_of_joined h.artifactDigest, joinText_of_joined h.artifactType, joinText_of_joined h.trustStatus,
    map_join_of_joined fun f mem => EvidencedField.join_of_joined (h.parentModels f mem),
    map_join_of_joined fun f mem => EvidencedField.join_of_joined (h.datasetReferences f mem),
    option_join_of_joined fun f mem => EvidencedField.join_of_joined (h.trainingCodeCommit f mem),
    option_join_of_joined fun f mem => EvidencedField.join_of_joined (h.framework f mem),
    option_join_of_joined fun f mem => EvidencedField.join_of_joined (h.license f mem)]

theorem MLBOMMetadata.join_of_joined {m : MLBOMMetadata} (h : m.Joined) : m.join = m := by
  unfold join
  rw [joinText_of_joined h.timestamp, joinText_of_joined h.toolName, joinText_of_joined h.toolVersion]

theorem MLBOMComponent.join_of_joined {c : MLBOMComponent} (h : c.Joined) : c.join = c := by
  unfold join
  rw [joinText_of_joined h.type, joinText_of_joined h.name,
    option_join_of_joined fun s mem => joinText_of_joined (h.version s mem)]

theorem MLBOM.join_of_joined {m : MLBOM} (h : m.Joined) : m.join = m := by
  unfold join
  rw [joinText_of_joined h.bomFormat, joinText_of_joined h.specVersion, joinText_of_joined h.schemaVersion,
    joinText_of_joined h.serialNumber, MLBOMMetadata.join_of_joined h.metadata,
    MLBOMProperties.join_of_joined h.modelguard,
    map_join_of_joined fun c mem => MLBOMComponent.join_of_joined (h.components c mem)]

theorem option_joined {o : Option Str} : ∀ s ∈ o.map joinText, Json.Joined s := by
  intro s mem
  obtain ⟨t, -, same⟩ := Option.map_eq_some_iff.mp mem
  exact same ▸ joinText_joined t

theorem MLBOM.join_joined (m : MLBOM) : m.join.Joined := by
  have field (f : EvidencedField) : Json.Joined f.join.value := joinText_joined f.value
  have option (o : Option EvidencedField) : ∀ f ∈ o.map EvidencedField.join, Json.Joined f.value := by
    intro f mem
    obtain ⟨g, -, same⟩ := Option.map_eq_some_iff.mp mem
    exact same ▸ field g
  have list (l : List EvidencedField) : ∀ f ∈ l.map EvidencedField.join, Json.Joined f.value :=
    List.forall_mem_map.mpr fun f _ => field f
  refine ⟨joinText_joined _, joinText_joined _, joinText_joined _, joinText_joined _, ?_, ?_, ?_⟩
  · exact ⟨joinText_joined _, joinText_joined _, joinText_joined _⟩
  · exact List.forall_mem_map.mpr fun c _ => ⟨joinText_joined _, joinText_joined _, option_joined⟩
  · exact ⟨joinText_joined _, joinText_joined _, list _, list _, option _, option _, option _, joinText_joined _⟩

/-! ### Each model reads back what it writes -/

theorem EvidenceLevel.validate_value (level : EvidenceLevel) :
    EvidenceLevel.validate (.str (str level.value)) = some level := by
  cases level <;> decide

theorem EvidencedField.keys_sublist (f : EvidencedField) {fields : List (Str × Json SpecialFloat)}
    (h : f.toJson = .obj fields) : (fields.map (·.1)).Sublist evidencedKeys := by
  cases h
  exact List.Sublist.refl evidencedKeys

theorem EvidencedField.validate_toJson (f : EvidencedField) : validate f.toJson = some f := by
  have only := onlyKeys_of_sublist (f.keys_sublist rfl)
  unfold validate toJson
  dsimp only
  rw [if_pos only]
  simp [orDefault, required, Dict.lookup_cons, str_injective.eq_iff, text, EvidenceLevel.validate_value]

theorem lookup_optionalEvidence (key other : String) (field : Option EvidencedField) :
    (optionalEvidence other field).lookup (str key) = if key = other then field.map EvidencedField.toJson else none := by
  unfold optionalEvidence
  cases field with
  | none => simp
  | some v => simp [Dict.lookup_cons, str_injective.eq_iff]

theorem optionalEvidence_keys (key : String) (field : Option EvidencedField) :
    ((optionalEvidence key field).map (·.1)).Sublist [str key] := by
  cases field with
  | none => exact List.nil_sublist _
  | some v => exact List.Sublist.refl _

theorem elim_nullable_evidence (field : Option EvidencedField) :
    field.elim (some none) (nullable EvidencedField.validate ∘ EvidencedField.toJson) = some field := by
  cases field with
  | none => rfl
  | some f => exact congrArg (Option.map some) f.validate_toJson

theorem items_evidence (fields : List EvidencedField) :
    items EvidencedField.validate (.arr (fields.map EvidencedField.toJson)) = some fields :=
  readItems_map fun f _ => f.validate_toJson

theorem MLBOMProperties.keys_sublist (p : MLBOMProperties) {fields : List (Str × Json SpecialFloat)}
    (h : p.toJson = .obj fields) : (fields.map (·.1)).Sublist propertiesKeys := by
  cases h
  simp only [List.map_cons, List.map_append, List.map_nil]
  have framework := optionalEvidence_keys "framework" p.framework
  have license := optionalEvidence_keys "license" p.license
  have commit := optionalEvidence_keys "training_code_commit" p.trainingCodeCommit
  have head := ((framework.cons_cons (str "dataset_references")).cons_cons (str "artifact_type")).cons_cons
    (str "artifact_digest")
  exact ((head.append license).append (commit.cons_cons (str "parent_models"))).append (List.Sublist.refl [str "trust_status"])

theorem MLBOMProperties.validate_toJson (p : MLBOMProperties) : validate p.toJson = some p := by
  have only := onlyKeys_of_sublist (p.keys_sublist rfl)
  unfold validate toJson
  dsimp only
  rw [if_pos only]
  simp [orDefault, required, List.lookup_append, Dict.lookup_cons, lookup_optionalEvidence, str_injective.eq_iff, text,
    elim_nullable_evidence, items_evidence]

theorem MLBOMMetadata.keys_sublist (m : MLBOMMetadata) {fields : List (Str × Json SpecialFloat)}
    (h : m.toJson = .obj fields) : (fields.map (·.1)).Sublist metadataKeys := by
  cases h
  exact List.Sublist.refl metadataKeys

theorem MLBOMMetadata.validate_toJson (m : MLBOMMetadata) : validate m.toJson = some m := by
  have only := onlyKeys_of_sublist (m.keys_sublist rfl)
  unfold validate toJson
  dsimp only
  rw [if_pos only]
  simp [orDefault, required, Dict.lookup_cons, str_injective.eq_iff, text]

theorem MLBOMComponent.keys_sublist (c : MLBOMComponent) {fields : List (Str × Json SpecialFloat)}
    (h : c.toJson = .obj fields) : (fields.map (·.1)).Sublist componentKeys := by
  cases h
  exact ((optionalMember_keys _ _).cons_cons _).cons_cons _

theorem MLBOMComponent.validate_toJson (c : MLBOMComponent) : validate c.toJson = some c := by
  have only := onlyKeys_of_sublist (c.keys_sublist rfl)
  unfold validate toJson
  dsimp only
  rw [if_pos only]
  simp [orDefault, required, Dict.lookup_cons, lookup_optionalMember, str_injective.eq_iff, text, elim_nullable_text]

/-- The keys of `MLBOM`, by alias. -/
def mlbomKeys : List Str :=
  [str "bomFormat", str "components", str "metadata", str "modelguard", str "schema_version", str "serialNumber",
    str "specVersion", str "version"]

theorem MLBOM.keys_sublist (m : MLBOM) {fields : List (Str × Json SpecialFloat)} (h : m.toJson = .obj fields) :
    (fields.map (·.1)).Sublist mlbomKeys := by
  cases h
  exact List.Sublist.refl mlbomKeys

theorem MLBOM.chosenKey_toJson (m : MLBOM) {fields : List (Str × Json SpecialFloat)} (h : m.toJson = .obj fields) :
    chosenKey fields "bomFormat" "bom_format" = "bomFormat" ∧
      chosenKey fields "specVersion" "spec_version" = "specVersion" ∧
      chosenKey fields "serialNumber" "serial_number" = "serialNumber" := by
  cases h
  simp [chosenKey, Dict.lookup_cons, str_injective.eq_iff]

theorem MLBOM.validate_toJson (coerce : Json SpecialFloat → Option Int) (m : MLBOM) :
    validate coerce m.toJson = some m := by
  have components : items MLBOMComponent.validate (.arr (m.components.map MLBOMComponent.toJson)) = some m.components :=
    readItems_map fun c _ => c.validate_toJson
  have only := onlyKeys_of_sublist (m.keys_sublist rfl)
  obtain ⟨bomFormat, specVersion, serialNumber⟩ := m.chosenKey_toJson rfl
  unfold mlbomKeys at only
  unfold validate toJson
  dsimp only
  rw [bomFormat, specVersion, serialNumber, if_pos only]
  simp [orDefault, required, Dict.lookup_cons, str_injective.eq_iff, text, integer, components,
    MLBOMMetadata.validate_toJson, MLBOMProperties.validate_toJson]

/-! ### The text of a document with its pairs joined -/

theorem EvidencedField.toJson_join (f : EvidencedField) : f.join.toJson = joinStrings f.toJson := by
  have level : joinText (str f.evidence.value) = str f.evidence.value := by
    cases f.evidence <;> rfl
  simp only [toJson, join, joinStrings, joinFields, level]

theorem joinFields_optionalEvidence (key : String) (field : Option EvidencedField) :
    joinFields (optionalEvidence key field) = optionalEvidence key (field.map EvidencedField.join) := by
  cases field with
  | none => rfl
  | some f => simp only [optionalEvidence, Option.map_some, Option.toList_some, joinFields, f.toJson_join]

theorem MLBOMProperties.toJson_join (p : MLBOMProperties) : p.join.toJson = joinStrings p.toJson := by
  unfold toJson join
  simp only [joinStrings, joinFields_eq, List.map_cons, List.map_append, List.map_nil, joinItems_eq, List.map_map,
    Function.comp_def, EvidencedField.toJson_join]
  simp only [← joinFields_eq, joinFields_optionalEvidence]

theorem MLBOMMetadata.toJson_join (m : MLBOMMetadata) : m.join.toJson = joinStrings m.toJson := rfl

theorem MLBOMComponent.toJson_join (c : MLBOMComponent) : c.join.toJson = joinStrings c.toJson := by
  simp only [toJson, join, joinStrings, joinFields, joinFields_optionalMember]

theorem MLBOM.toJson_join (m : MLBOM) : m.join.toJson = joinStrings m.toJson := by
  simp only [toJson, join, joinStrings, joinFields, joinItems_eq, List.map_map, Function.comp_def,
    MLBOMComponent.toJson_join, MLBOMMetadata.toJson_join, MLBOMProperties.toJson_join]

theorem EvidencedField.toJson_wf {f : EvidencedField} (h : Json.Joined f.value) : WF f.toJson := by
  refine wf_obj (f.keys_sublist rfl) (by decide) (by decide +kernel) ?_
  simp only [List.forall_mem_cons, List.not_mem_nil, false_implies, implies_true, and_true]
  exact ⟨.str (joined_str _), .str h⟩

theorem wf_optionalEvidence {key : String} {field : Option EvidencedField} (h : ∀ f ∈ field, Json.Joined f.value) :
    ∀ e ∈ optionalEvidence key field, WF e.2 := by
  cases field with
  | none => exact fun e mem => (List.not_mem_nil mem).elim
  | some f =>
    intro e mem
    rw [List.mem_singleton.mp mem]
    exact EvidencedField.toJson_wf (h f rfl)

theorem wf_evidence {fields : List EvidencedField} (h : ∀ f ∈ fields, Json.Joined f.value) :
    WF (.arr (fields.map EvidencedField.toJson)) :=
  .arr (List.forall_mem_map.mpr fun f mem => EvidencedField.toJson_wf (h f mem))

theorem MLBOMProperties.toJson_wf {p : MLBOMProperties} (h : p.Joined) : WF p.toJson := by
  refine wf_obj (p.keys_sublist rfl) (by decide) (by decide +kernel) ?_
  simp only [List.forall_mem_cons, List.forall_mem_append, List.not_mem_nil, false_implies, implies_true, and_true]
  exact ⟨⟨⟨⟨.str h.artifactDigest, .str h.artifactType, wf_evidence h.datasetReferences, wf_optionalEvidence h.framework⟩,
    wf_optionalEvidence h.license⟩, wf_evidence h.parentModels, wf_optionalEvidence h.trainingCodeCommit⟩, .str h.trustStatus⟩

theorem MLBOMMetadata.toJson_wf {m : MLBOMMetadata} (h : m.Joined) : WF m.toJson := by
  refine wf_obj (m.keys_sublist rfl) (by decide) (by decide +kernel) ?_
  simp only [List.forall_mem_cons, List.not_mem_nil, false_implies, implies_true, and_true]
  exact ⟨.str h.timestamp, .str h.toolName, .str h.toolVersion⟩

theorem MLBOMComponent.toJson_wf {c : MLBOMComponent} (h : c.Joined) : WF c.toJson := by
  refine wf_obj (c.keys_sublist rfl) (by decide) (by decide +kernel) ?_
  simp only [List.forall_mem_cons]
  exact ⟨.str h.name, .str h.type, wf_optionalMember h.version⟩

theorem MLBOM.toJson_wf {m : MLBOM} (h : m.Joined) : WF m.toJson := by
  refine wf_obj (m.keys_sublist rfl) (by decide) (by decide +kernel) ?_
  simp only [List.forall_mem_cons, List.not_mem_nil, false_implies, implies_true, and_true]
  have components : WF (.arr (m.components.map MLBOMComponent.toJson)) :=
    .arr (List.forall_mem_map.mpr fun c mem => MLBOMComponent.toJson_wf (h.components c mem))
  exact ⟨.str h.bomFormat, components, MLBOMMetadata.toJson_wf h.metadata, MLBOMProperties.toJson_wf h.modelguard,
    .str h.schemaVersion, .str h.serialNumber, .str h.specVersion, .int _⟩

/-! ### The canonical text -/

theorem MLBOM.canonicalJson_join (m : MLBOM) : m.join.canonicalJson = m.canonicalJson := by
  unfold canonicalJson
  rw [toJson_join, dumps_joinStrings]

/-- The canonical text is read back as the document with its surrogate pairs joined. -/
theorem MLBOM.canonicalJson_reads (coerce : Json SpecialFloat → Option Int) (m : MLBOM) :
    (loadsUtf8 m.canonicalJson).bind (validate coerce) = some m.join := by
  have ascii := (dumps_printable m.join.toJson).ascii
  rw [← m.canonicalJson_join]
  unfold loadsUtf8 canonicalJson
  rw [decodeUtf8_ascii ascii, Option.bind_some, loads_dumps (toJson_wf m.join_joined), Option.bind_some, validate_toJson]

theorem MLBOM.canonicalJson_inj {m n : MLBOM} (h : m.canonicalJson = n.canonicalJson) : m.join = n.join := by
  have reads := m.canonicalJson_reads fun _ => none
  rw [h, n.canonicalJson_reads] at reads
  exact (Option.some.inj reads).symm

def signedBy (signer : Str) : SignaturePayload where
  schemaVersion := schemaVersionLegacy
  artifactDigest := str "sha256:0"
  mbomDigest := str "sha256:1"
  modelId := some (str "demo")
  version := none
  signerIdentity := signer
  signedAt := str "2026-01-01T00:00:00Z"
  signatureAlgorithm := none
  keyId := none

theorem signedBy_joined {signer : Str} (h : Json.Joined signer) : (signedBy signer).Joined := by
  exact ⟨joined_str _, joined_str _, joined_str _,
    fun s mem => Option.some.inj mem ▸ joined_str _, nofun, h, joined_str _, nofun, nofun⟩

/-- An ML-BOM of one component, with an optional license. -/
def describes (serial : Str) (license : Option EvidencedField) : MLBOM where
  bomFormat := str "CycloneDX"
  specVersion := str "1.6"
  schemaVersion := str "1"
  serialNumber := serial
  version := 1
  metadata := { timestamp := str "2026-01-01T00:00:00Z", toolName := str "modelguard", toolVersion := str "0.9.0" }
  components := [{ type := str "machine-learning-model", name := str "demo", version := none }]
  modelguard := {
    artifactDigest := str "sha256:0"
    artifactType := str "file"
    parentModels := []
    datasetReferences := []
    trainingCodeCommit := none
    framework := none
    license := license
    trustStatus := str "unknown" }

theorem describes_joined {serial : Str} (h : Json.Joined serial) : (describes serial none).Joined := by
  refine ⟨joined_str _, joined_str _, joined_str _, h, ?_, ?_, ?_⟩
  · exact ⟨joined_str _, joined_str _, joined_str _⟩
  · intro c mem
    rw [List.mem_singleton.mp mem]
    exact ⟨joined_str _, joined_str _, nofun⟩
  · exact ⟨joined_str _, joined_str _, nofun, nofun, nofun, nofun, nofun, joined_str _⟩

end ModelGuard.Mbom
