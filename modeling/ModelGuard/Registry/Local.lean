import ModelGuard.Lib.JsonIndent
import ModelGuard.Registry.Identifiers
import ModelGuard.Registry.Models
import Mathlib.Data.List.DropRight
import Mathlib.Data.List.Sort

/-!
# The file-backed registry

Record files under `records/<model_id>/`, and `digest_index.json` beside them. A text file is the text it
is read as.
-/

namespace ModelGuard.Registry

open Lib Lib.Fallible

/-- What lies under the root of a `LocalRegistry`. -/
structure LocalStore where
  /-- The directories under `records`. -/
  modelDirs : List Str
  /-- Record files, by directory and name. -/
  records : List ((Str × Str) × Str)
  digestIndex : Option Str
  revocationLog : Option Bytes
deriving DecidableEq

def LocalStore.empty : LocalStore where
  modelDirs := []
  records := []
  digestIndex := none
  revocationLog := none

/-- The exceptions of the writes of one call, where they fail. -/
structure WriteFaults where
  record : Option Raised
  index : Option Raised
deriving DecidableEq

def WriteFaults.none : WriteFaults where
  record := Option.none
  index := Option.none

/-! ### Names of record files -/

/-- `PurePath.stem`: the name up to its last dot, unless the name starts or ends with that dot. -/
def stem (name : Str) : Str :=
  let head := name.rdropWhile (· ≠ cp '.')
  if 1 < head.length ∧ name.rtakeWhile (· ≠ cp '.') ≠ [] then head.dropLast else name

def recordSuffix : Str := str ".json"

/-- The last occurrence of a character splits a text in one way. -/
theorem split_last {c : CodePoint} {tail : Str} (free : c ∉ tail) (head : Str) :
    (head ++ c :: tail).rdropWhile (· ≠ c) = head ++ [c] ∧ (head ++ c :: tail).rtakeWhile (· ≠ c) = tail := by
  have other : ∀ d ∈ tail.reverse, decide (d ≠ c) = true := by
    intro d mem
    have ne : d ≠ c := fun same => free (same ▸ List.mem_reverse.mp mem)
    exact decide_eq_true ne
  have reversed : (head ++ c :: tail).reverse = tail.reverse ++ c :: head.reverse := by simp
  unfold List.rdropWhile List.rtakeWhile
  rw [reversed, List.dropWhile_append_of_pos other, List.takeWhile_append_of_pos other]
  simp

theorem stem_recordFile {version : Str} (shown : version ≠ []) : stem (version ++ recordSuffix) = version := by
  have free : cp '.' ∉ str "json" := by decide
  obtain ⟨head, tail⟩ := split_last free version
  have long : 1 < (version ++ [cp '.']).length := by
    have := List.length_pos_iff.mpr shown
    rw [List.length_append, List.length_singleton]
    omega
  unfold stem
  rw [show version ++ recordSuffix = version ++ cp '.' :: str "json" from rfl, head, tail]
  rw [if_pos ⟨long, by decide⟩, List.dropLast_concat]

/-! ### The operations -/

namespace LocalStore

variable (env : RegistryEnv) (store : LocalStore)

/-- `path.parent.mkdir(parents=True, exist_ok=True)`. -/
def makeDir (dir : Str) : LocalStore :=
  { store with modelDirs := if dir ∈ store.modelDirs then store.modelDirs else store.modelDirs ++ [dir] }

/-- `path.write_text`. -/
def writeRecord (path : Str × Str) (text : Str) : LocalStore :=
  { store with records := store.records.filter (fun e => e.1 ≠ path) ++ [(path, text)] }

def versionPath (modelId version : Str) : Except Raised (Str × Str) := do
  let dir ← validateIdentifier env.nfc env.host "identifier" modelId
  let name ← validateIdentifier env.nfc env.host "identifier" version
  return (dir, name ++ recordSuffix)

def invalidJson : Raised := .external (str "JSONDecodeError") (str "Expecting value")

/-- `_read_digest_index`. What it writes is an object; any other value is refused at its first use. -/
def readDigestIndex : Except Raised (List (Str × Json SpecialFloat)) :=
  match store.digestIndex with
  | none => .ok []
  | some text =>
    match Json.loads text with
    | some (.obj index) => .ok index
    | some _ => .error (.external (str "TypeError") (str "indices must be strings"))
    | none => .error invalidJson

/-- `_write_digest_index`: two blanks a level, sorted keys. -/
def writeDigestIndex (index : List (Str × Json SpecialFloat)) : LocalStore :=
  { store with digestIndex := some (Json.dumpsIndent 0 (.obj index)) }

def indexEntry (record : RegistryRecord) : Json SpecialFloat :=
  .obj [(str "model_id", .str record.modelId), (str "version", .str record.version)]

/-- `register`, when the writes fail as `faults` has it. -/
def register (faults : WriteFaults) (record : RegistryRecord) : Except Raised RegistryRecord × LocalStore :=
  match versionPath env record.modelId record.version with
  | .error e => (.error e, store)
  | .ok path =>
    if (store.records.lookup path).isSome then (.error (duplicateRegistrationError record.modelId record.version), store)
    else
      let prepared := store.makeDir path.1
      match faults.record with
      | some e => (.error e, prepared)
      | none =>
        let written := prepared.writeRecord path (env.codec.modelDumpJson record)
        match written.readDigestIndex with
        | .error e => (.error e, written)
        | .ok index =>
          if (index.lookup record.artifactDigest).isSome then (.ok record, written)
          else
            match faults.index with
            | some e => (.error e, written)
            | none => (.ok record, written.writeDigestIndex (Dict.insert record.artifactDigest (indexEntry record) index))

def readRecord (text : Str) : Except Raised RegistryRecord := do
  let data ← orRaise invalidJson (Json.loads text)
  orRaise (.external (str "ValidationError") (str "validation error for RegistryRecord")) (env.codec.modelValidate data)

def get (modelId version : Str) : Except Raised (Option RegistryRecord) := do
  let path ← versionPath env modelId version
  match store.records.lookup path with
  | none => return none
  | some text => return some (← readRecord env text)

/-- `entry[key]`, a text. -/
def entryText (key : String) : Json SpecialFloat → Except Raised Str
  | .obj fields =>
    match fields.lookup (str key) with
    | some (.str s) => .ok s
    | some _ => .error (.external (str "TypeError") (str "identifiers must be strings"))
    | none => .error (.external (str "KeyError") (str key))
  | _ => .error (.external (str "TypeError") (str "indices must be strings"))

def getByDigest (artifactDigest : Str) : Except Raised (Option RegistryRecord) := do
  let index ← store.readDigestIndex
  match index.lookup artifactDigest with
  | none => return none
  | some .null => return none
  | some entry => get env store (← entryText "model_id" entry) (← entryText "version" entry)

/-- `model_dir.glob("*.json")`, in no particular order. -/
def recordFiles (dir : Str) : List Str :=
  (store.records.filter fun e => e.1.1 = dir ∧ recordSuffix.isSuffixOf e.1.2).map fun e => e.1.2

def listVersions (modelId : Str) : Except Raised (List Str) := do
  let dir ← validateIdentifier env.nfc env.host "identifier" modelId
  if dir ∈ store.modelDirs then return ((store.recordFiles dir).map stem).insertionSort (· ≤ ·)
  else return []

end LocalStore

end ModelGuard.Registry
