import ModelGuard.Lib.JsonIndent
import ModelGuard.Mbom.Canonical
import ModelGuard.Signing.EnvelopeFile

/-!
# The ML-BOM file

`to_json` writes ASCII text over several lines. What is read back has its surrogate pairs joined, which leaves the
canonical text as it was.
-/

namespace ModelGuard.Mbom

open Lib Lib.Fallible Lib.Json ModelGuard.Signing

/-- `MLBOM.to_json`. -/
def MLBOM.jsonText (m : MLBOM) : Str := dumpsIndent 0 m.toJson

/-- The bytes of the written file. -/
def MLBOM.fileBytes (m : MLBOM) : Option Bytes := encodeUtf8 m.jsonText

/-- `MLBOM.model_validate(json.loads(Path(mbom_path).read_text()))`, of what the file holds, or of an `OSError`;
`explain` is the text of an exception by its class. Nothing is caught. -/
def loadMbom (coerce : Json SpecialFloat → Option Int) (explain : Str → Str) : Except Raised Bytes → Except Raised MLBOM
  | .error e => .error e
  | .ok content => do
    let data ← (jsonLoads content).mapError fun cls => .external cls (explain cls)
    orRaise (.external (str "ValidationError") (explain (str "ValidationError"))) (MLBOM.validate coerce data)

theorem MLBOM.jsonText_join (m : MLBOM) : m.join.jsonText = m.jsonText := by
  unfold jsonText
  rw [toJson_join, dumpsIndent_joinStrings]

theorem MLBOM.scalars_jsonText (m : MLBOM) : Scalars m.jsonText := by
  rw [← m.jsonText_join]
  unfold jsonText
  rw [dumpsIndent_eq]
  exact scalars_pretty (fun s _ => (quote_printable s).scalars) (texts_of_wf (toJson_wf m.join_joined)) 0

theorem MLBOM.fileBytes_eq (m : MLBOM) : m.fileBytes = some (m.jsonText.flatMap encodeUtf8Char) :=
  encodeUtf8_some m.scalars_jsonText

/-! ### The version is the only integer -/

theorem EvidencedField.shortInts_toJson (f : EvidencedField) : shortInts f.toJson = true := rfl

theorem shortIntFields_append (fields more : List (Str × Json SpecialFloat)) :
    shortIntFields (fields ++ more) = (shortIntFields fields && shortIntFields more) := by
  rw [shortIntFields_eq, shortIntFields_eq, shortIntFields_eq, List.all_append]

theorem shortIntItems_map {α : Type} {write : α → Json SpecialFloat} (each : ∀ a, shortInts (write a) = true)
    (l : List α) : shortIntItems (l.map write) = true := by
  rw [shortIntItems_eq, List.all_eq_true]
  exact List.forall_mem_map.mpr fun a _ => each a

theorem shortInts_optionalEvidence (key : String) (field : Option EvidencedField) :
    shortIntFields (optionalEvidence key field) = true := by
  cases field <;> rfl

theorem MLBOMProperties.shortInts_toJson (p : MLBOMProperties) : shortInts p.toJson = true := by
  have evidence := shortIntItems_map EvidencedField.shortInts_toJson
  unfold toJson
  simp only [shortInts, shortIntFields, shortIntFields_append, List.cons_append, shortInts_optionalEvidence, evidence,
    Bool.and_self]

theorem MLBOMComponent.shortInts_toJson (c : MLBOMComponent) : shortInts c.toJson = true := by
  obtain ⟨_, _, version⟩ := c
  cases version <;> rfl

theorem MLBOM.shortInts_toJson {m : MLBOM} (digits : m.version.natAbs < 10 ^ maxStrDigits) : shortInts m.toJson = true := by
  have components : shortInts (.arr (m.components.map MLBOMComponent.toJson) : Json SpecialFloat) = true := by
    rw [shortInts]
    exact shortIntItems_map MLBOMComponent.shortInts_toJson m.components
  have version : shortInts (.int m.version : Json SpecialFloat) = true := by
    rw [shortInts]
    exact decide_eq_true digits
  have text (s : Str) : shortInts (.str s : Json SpecialFloat) = true := rfl
  have metadata : shortInts m.metadata.toJson = true := rfl
  unfold toJson
  rw [shortInts]
  simp only [shortIntFields, components, version, metadata, text, m.modelguard.shortInts_toJson, Bool.and_self]

/-! ### What was written is read back -/

theorem loadMbom_written {coerce : Json SpecialFloat → Option Int} {explain : Str → Str} {m : MLBOM} {content : Bytes}
    (digits : m.version.natAbs < 10 ^ maxStrDigits) (written : m.fileBytes = some content) :
    loadMbom coerce explain (.ok content) = .ok m.join := by
  have read : loads m.jsonText = some m.join.toJson := by
    rw [← m.jsonText_join]
    exact loads_dumpsIndent (MLBOM.toJson_wf m.join_joined)
  have short : shortInts m.join.toJson = true := MLBOM.shortInts_toJson (m := m.join) digits
  have loaded : jsonLoads content = .ok m.join.toJson := by
    unfold jsonLoads
    rw [decodeUtf8_encodeUtf8 written, orRaise_some_bind, read, orRaise_some_bind]
    exact bind_ok.mpr ⟨(), ensure_ok.mpr short, rfl⟩
  unfold loadMbom
  dsimp only
  rw [loaded]
  exact bind_ok.mpr ⟨_, rfl, orRaise_ok.mpr (m.join.validate_toJson coerce)⟩

end ModelGuard.Mbom
