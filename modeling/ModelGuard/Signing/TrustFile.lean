import Mathlib.Data.Set.Countable
import Mathlib.Logic.Equiv.List
import ModelGuard.Signing.TrustDocument

/-!
# The trust configuration file

Saving writes whatever YAML text the configuration gives; loading refuses a file over a fixed size.
-/

namespace ModelGuard.Signing

open Lib Lib.Fallible Lib.Validation

/-- `MAX_TRUST_CONFIG_BYTES`. -/
def maxTrustConfigBytes : Nat := 256 * 1024

/-- How `yaml.safe_load` fails: with an error of its own, or with another exception. -/
inductive YamlFailure where
  | yamlError (message : Str)
  | external (className message : Str)

/-- What reading and writing the file is computed with. -/
structure TrustFileEnv (F : Type) extends TrustEnv F where
  safeLoad : Str → Except YamlFailure (Json F)
  /-- `yaml.safe_dump(document, sort_keys=False, default_flow_style=False)`. -/
  safeDump : Json F → Str
  /-- The text of the error that decoding raises. -/
  decodeError : Bytes → Str
  /-- What validation finds in a mapping with a key that is no string, or `none` for a value that is no mapping. -/
  otherMapping : F → Option (List Problem)

variable {F : Type} (env : TrustFileEnv F)

def trustConfigurationError (message : Str) : Raised := .modelGuard .trustConfigurationError message

/-- The problems of a document outside JSON, where it is a mapping. -/
def foreign : Json F → Option (List Problem)
  | .float value => env.otherMapping value
  | _ => none

/-- The part of `load_trust_config_file` after the file was read. -/
def parseTrustConfig (path : Str) (rawBytes : Bytes) : Except Raised TrustConfig := do
  let file := str "Trust configuration file " ++ path
  ensure (rawBytes.length ≤ maxTrustConfigBytes) (trustConfigurationError (file ++ str " is larger than " ++
    Json.natText maxTrustConfigBytes ++ str " bytes; refusing to parse it."))
  let text ← orRaise (trustConfigurationError (file ++ str " is not valid UTF-8: " ++ env.decodeError rawBytes))
    (decodeUtf8 rawBytes)
  match env.safeLoad text with
  | .error (.yamlError message) => .error (trustConfigurationError (file ++ str " is not valid YAML: " ++ message))
  | .error (.external className message) => .error (.external className message)
  | .ok (.obj members) =>
    match TrustConfig.modelValidate env.toTrustEnv (.obj members) with
    | .ok config => .ok config
    | .error found =>
      .error (trustConfigurationError (file ++ str " failed schema validation (" ++ render found ++ str ")."))
  | .ok document =>
    match foreign env document with
    | some found =>
      .error (trustConfigurationError (file ++ str " failed schema validation (" ++ render found ++ str ")."))
    | none => .error (trustConfigurationError (file ++ str " must be a YAML mapping with a 'keys' list."))

/-- `load_trust_config_file`, of what reading the file gives: its bytes, or the text of an `OSError`. -/
def loadTrustConfigFile (path : Str) : Except Str Bytes → Except Raised TrustConfig
  | .ok rawBytes => parseTrustConfig env path rawBytes
  | .error strerror =>
    .error (trustConfigurationError (str "Cannot read trust configuration file " ++ path ++ str ": " ++ strerror))

def TrustConfig.yamlText (config : TrustConfig) : Str := env.safeDump (config.modelDump env.toTrustEnv)

/-- `save_trust_config_file`: the new contents of the file. A failure leaves the file as it was, since the text
is written under another name first; `disk` says whether writing and renaming succeed. -/
def saveTrustConfigFile (config : TrustConfig) (disk : Except Raised Unit) : Except Raised Bytes := do
  let text := config.yamlText env
  let bytes ← orRaise (.external (str "UnicodeEncodeError") text) (encodeUtf8 text)
  disk
  return bytes

/-- `TrustConfig()`. -/
def emptyConfig : TrustConfig where
  version := str "1"
  keys := []
  unique := List.nodup_nil

/-! ### What was saved is loaded again -/

/-- PyYAML's behaviour on the documents written here: text in ASCII, read back as it was. -/
structure YamlReadsBack : Prop where
  ascii : ∀ config : TrustConfig, Ascii (config.yamlText env)
  reads : ∀ config : TrustConfig, env.safeLoad (config.yamlText env) = .ok (config.modelDump env.toTrustEnv)

variable {env}

theorem save_ok (yaml : YamlReadsBack env) {config : TrustConfig} {disk : Except Raised Unit} {bytes : Bytes} :
    saveTrustConfigFile env config disk = .ok bytes ↔ disk = .ok () ∧ bytes = asciiBytes (config.yamlText env) := by
  unfold saveTrustConfigFile
  dsimp only
  rw [encodeUtf8_ascii (yaml.ascii config)]
  simp only [orRaise_some_bind, bind_ok, pure_ok]
  constructor
  · intro ⟨_, done, same⟩
    exact ⟨done, same.symm⟩
  · intro ⟨done, same⟩
    exact ⟨(), done, same.symm⟩

/-- Loading what was saved validates the dumped document, within the size limit. -/
theorem load_saved (yaml : YamlReadsBack env) {path : Str} {config loaded : TrustConfig} :
    loadTrustConfigFile env path (.ok (asciiBytes (config.yamlText env))) = .ok loaded ↔
      (config.yamlText env).length ≤ maxTrustConfigBytes ∧
        TrustConfig.modelValidate env.toTrustEnv (config.modelDump env.toTrustEnv) = .ok loaded := by
  have size : (asciiBytes (config.yamlText env)).length = (config.yamlText env).length := List.length_map ..
  unfold loadTrustConfigFile parseTrustConfig
  dsimp only
  rw [decodeUtf8_ascii (yaml.ascii config), size]
  simp only [bind_ok, ensure_ok, orRaise_some_bind, yaml.reads config]
  rw [exists_const]
  refine and_congr_right fun _ => ?_
  unfold TrustConfig.modelDump configDocument
  dsimp only
  split
  · rename_i accepted
    rw [accepted, Except.ok.injEq, Except.ok.injEq]
  · rename_i refused
    rw [refused]
    exact ⟨nofun, nofun⟩

/-- A `datetime` object is the only value outside JSON here. -/
def sampleTrustEnv : TrustEnv AwareDatetime where
  host := { repr := id, isoformat := fun _ => [], osError := fun path => (str "OSError", path) }
  caseTable := { lower := fun s => s.map asciiLower, lower_ascii := fun _ _ => rfl }
  text := fun _ => .error (str "Input should be a valid string")
  datetime := fun
    | .float moment => .ok (some moment)
    | _ => .error (str "Input should be a valid datetime")
  tuple := fun _ => .error (str "Input should be a valid tuple")
  object := .float
  dumpDatetime := fun _ => []

instance : Countable AwareDatetime := by
  refine Function.Injective.countable (f := fun moment => (moment.moment, moment.offset)) fun a b same => ?_
  cases a
  cases b
  cases same
  rfl

instance : Countable TrustedKeyStatus := by
  refine Function.Injective.countable (f := fun status => str status.value) fun a b same => ?_
  cases a <;> cases b <;> first | rfl | exact absurd same (by decide)

instance : Countable TrustedKeyEntry := by
  refine Function.Injective.countable (f := fun key => (key.keyId, key.algorithm, key.status, key.notBefore, key.notAfter,
    key.signerIdentity, key.scopeModelIdPatterns, key.label)) fun a b same => ?_
  cases a
  cases b
  cases same
  rfl

instance : Countable TrustConfig := by
  refine Function.Injective.countable (f := fun config => (config.version, config.keys)) fun a b same => ?_
  cases a
  cases b
  cases same
  rfl

/-- A number for every document that a configuration gives. -/
theorem documents_numbered : ∃ number : Json AwareDatetime → Nat,
    Set.InjOn number (Set.range fun config : TrustConfig => config.modelDump sampleTrustEnv) :=
  Set.countable_iff_exists_injOn.mp (Set.countable_range _)

mutual

/-- The length of all strings in a document. -/
def textLength : Json F → Nat
  | .str s => s.length
  | .arr items => itemsLength items
  | .obj fields => fieldsLength fields
  | _ => 0

def itemsLength : List (Json F) → Nat
  | [] => 0
  | v :: items => textLength v + itemsLength items

def fieldsLength : List (Str × Json F) → Nat
  | [] => 0
  | (key, v) :: fields => key.length + textLength v + fieldsLength fields

end

/-- Texts fixed for some documents. Each begins a mapping, and no two are alike. -/
structure KnownTexts (known : List (Json F × Str)) : Prop where
  ascii : ∀ e ∈ known, Ascii e.2
  mapping : ∀ e ∈ known, e.2.head? = some (cp 'v')
  distinct : (known.map Prod.snd).Nodup
  long : ∀ e ∈ known, textLength e.1 ≤ e.2.length

/-- A number and a length in unary. -/
def unaryText (number length : Nat) : Str :=
  cp '#' :: (List.replicate number (cp '0') ++ cp '#' :: List.replicate length (cp '0'))

theorem unaryText_number {m n k l : Nat} (h : unaryText m k = unaryText n l) : m = n := by
  have marks (number length : Nat) : ((unaryText number length).tail.takeWhile (· = cp '0')).length = number := by
    unfold unaryText
    rw [List.tail_cons, List.takeWhile_append_of_pos (by simp), List.takeWhile_cons_of_neg (by decide)]
    simp
  rw [← marks m k, h, marks]

open Classical in
/-- The text of a document: the one known for it, or its number and its length. -/
noncomputable def textOf (known : List (Json F × Str)) (number : Json F → Nat) (document : Json F) : Str :=
  (known.lookup document).getD (unaryText (number document) (textLength document))

theorem textOf_cases (known : List (Json F × Str)) (number : Json F → Nat) (document : Json F) :
    (document, textOf known number document) ∈ known ∨
      textOf known number document = unaryText (number document) (textLength document) := by
  classical
  cases found : known.lookup document with
  | none => exact Or.inr (by simp [textOf, found])
  | some text =>
    have value : textOf known number document = text := by simp [textOf, found]
    exact Or.inl (value ▸ Dict.mem_of_lookup found)

section Texts

variable {known : List (Json F × Str)} (texts : KnownTexts known) {number : Json F → Nat}

include texts

theorem textOf_ascii (document : Json F) : Ascii (textOf known number document) := by
  rcases textOf_cases known number document with mem | unary
  · exact texts.ascii _ mem
  · rw [unary]
    intro c mem
    simp only [unaryText, List.mem_cons, List.mem_append, List.mem_replicate] at mem
    rcases mem with h | ⟨-, h⟩ | h | ⟨-, h⟩ <;> rw [h] <;> decide

theorem textOf_long (document : Json F) : textLength document ≤ (textOf known number document).length := by
  rcases textOf_cases known number document with mem | unary
  · exact texts.long _ mem
  · rw [unary]
    simp only [unaryText, List.length_cons, List.length_append, List.length_replicate]
    omega

theorem textOf_injOn {documents : Set (Json F)} (numbered : Set.InjOn number documents) :
    Set.InjOn (textOf known number) documents := by
  have apart {a b : Json F} (mem : (a, textOf known number a) ∈ known)
      (unary : textOf known number b = unaryText (number b) (textLength b)) :
      textOf known number a ≠ textOf known number b := by
    intro same
    have head := texts.mapping _ mem
    rw [same, unary] at head
    exact absurd head (by simp [unaryText, cp_inj])
  intro a inA b inB same
  rcases textOf_cases known number a with memA | unaryA <;> rcases textOf_cases known number b with memB | unaryB
  · exact congrArg Prod.fst (List.inj_on_of_nodup_map texts.distinct memA memB same)
  · exact (apart memA unaryB same).elim
  · exact (apart memB unaryA same.symm).elim
  · rw [unaryA, unaryB] at same
    exact numbered inA inB (unaryText_number same)

end Texts

open Classical in
/-- PyYAML with the texts known, and a text for every other document of a configuration. -/
noncomputable def sampleFileEnv (known : List (Json AwareDatetime × Str)) : TrustFileEnv AwareDatetime where
  toTrustEnv := sampleTrustEnv
  safeDump := textOf known documents_numbered.choose
  safeLoad text :=
    if made : ∃ config : TrustConfig, textOf known documents_numbered.choose (config.modelDump sampleTrustEnv) = text then
      .ok (made.choose.modelDump sampleTrustEnv)
    else .error (.yamlError (str "could not determine a constructor"))
  decodeError := fun _ => str "invalid start byte"
  otherMapping := fun _ => none

theorem sample_readsBack {known : List (Json AwareDatetime × Str)} (texts : KnownTexts known) :
    YamlReadsBack (sampleFileEnv known) := by
  refine ⟨fun config => textOf_ascii texts _, fun config => ?_⟩
  have made : ∃ other : TrustConfig, textOf known documents_numbered.choose (other.modelDump sampleTrustEnv) =
      config.yamlText (sampleFileEnv known) := ⟨config, rfl⟩
  have same : made.choose.modelDump sampleTrustEnv = config.modelDump sampleTrustEnv :=
    textOf_injOn texts documents_numbered.choose_spec ⟨_, rfl⟩ ⟨_, rfl⟩ made.choose_spec
  exact (dif_pos made).trans (congrArg Except.ok same)

/-! ### A configuration that fits, and one that does not -/

def emptyText : Str := str "version: '1'\nkeys: []\n"

theorem emptyText_known : KnownTexts [(emptyConfig.modelDump sampleTrustEnv, emptyText)] where
  ascii := by simp only [List.forall_mem_singleton]; decide
  mapping := by simp only [List.forall_mem_singleton]; decide
  distinct := List.nodup_singleton _
  long := by simp only [List.forall_mem_singleton]; decide

noncomputable def emptyEnv : TrustFileEnv AwareDatetime :=
  sampleFileEnv [(emptyConfig.modelDump sampleTrustEnv, emptyText)]

theorem itemsLength_ge {items : List (Json F)} {bound : Nat} (long : ∀ item ∈ items, bound ≤ textLength item) :
    items.length * bound ≤ itemsLength items := by
  induction items with
  | nil => simp
  | cons item items ih =>
    obtain ⟨first, rest⟩ := List.forall_mem_cons.mp long
    have tail := ih rest
    rw [itemsLength, List.length_cons, Nat.succ_mul]
    omega

theorem fieldsLength_mem {fields : List (Str × Json F)} {e : Str × Json F} (mem : e ∈ fields) :
    textLength e.2 ≤ fieldsLength fields := by
  induction fields with
  | nil => cases mem
  | cons a fields ih =>
    rw [fieldsLength]
    rcases List.mem_cons.mp mem with same | mem
    · subst same
      omega
    · exact Nat.le_trans (ih mem) (Nat.le_add_left _ _)

/-- 200 characters. -/
def crowdedPattern : Str := List.replicate maxStringField (cp 'm')

def crowdedKeyId (n : Nat) : Str := hexText (List.replicate 31 0 ++ [UInt8.ofNat n])

theorem crowdedKeyId_fingerprint (n : Nat) : IsFingerprint (crowdedKeyId n) := by
  refine ⟨?_, hexText_hex _⟩
  unfold crowdedKeyId hexText
  simp

theorem replicate_line {n : Nat} (some : n ≠ 0) (few : n ≤ 200) : isBoundedLine (List.replicate n (cp 'm')) = true := by
  have printable : 0x20 ≤ (cp 'm').val := by decide
  unfold isBoundedLine
  simp [some, few, printable]

theorem crowdedPattern_line : isBoundedLine crowdedPattern = true := replicate_line (by decide) (by decide)

/-- An entry with as many and as long scope patterns as the schema allows. -/
def crowdedKey (n : Nat) : TrustedKeyEntry where
  keyId := crowdedKeyId n
  algorithm := none
  status := .active
  notBefore := none
  notAfter := none
  signerIdentity := none
  scopeModelIdPatterns := List.replicate maxScopePatterns crowdedPattern
  label := none
  keyIdValid := crowdedKeyId_fingerprint n
  algorithmValid := noScheme_valid
  windowValid := noWindow_valid
  identityValid := noLine_valid
  labelValid := noLine_valid
  scopeValid := by
    refine ⟨Nat.le_of_eq List.length_replicate, ?_⟩
    rw [List.all_eq_true]
    intro pattern mem
    rw [(List.mem_replicate.mp mem).2]
    exact crowdedPattern_line

theorem crowdedKeyId_injOn {m n : Nat} (hm : m < 256) (hn : n < 256) (h : crowdedKeyId m = crowdedKeyId n) : m = n := by
  have bytes := List.append_cancel_left (hexText_injective h)
  have same := congrArg UInt8.toNat (List.singleton_inj.mp bytes)
  simp only [UInt8.toNat_ofNat'] at same
  omega

/-- 41 such entries. -/
def crowdedConfig : TrustConfig where
  version := str "1"
  keys := (List.range 41).map crowdedKey
  unique := by
    rw [List.map_map]
    refine List.Nodup.map_on ?_ List.nodup_range
    intro m hm n hn same
    have hm := List.mem_range.mp hm
    have hn := List.mem_range.mp hn
    exact crowdedKeyId_injOn (by omega) (by omega) same

theorem crowdedKey_long {env : TrustEnv F} (n : Nat) : 6400 ≤ textLength ((crowdedKey n).modelDumpExcludeNone env) := by
  have scope : (str "scope_model_id_patterns", Json.arr ((crowdedKey n).scopeModelIdPatterns.map .str)) ∈
      (crowdedKey n).presentMembers env := by
    refine List.mem_filter.mpr ⟨?_, rfl⟩
    simp [TrustedKeyEntry.members]
  have pattern : ∀ item ∈ (crowdedKey n).scopeModelIdPatterns.map (Json.str (F := F)), maxStringField ≤ textLength item := by
    intro item mem
    obtain ⟨s, inScope, made⟩ := List.mem_map.mp mem
    rw [← made, textLength, (List.mem_replicate.mp inScope).2]
    exact Nat.le_of_eq List.length_replicate.symm
  have long := itemsLength_ge pattern
  rw [List.length_map, show (crowdedKey n).scopeModelIdPatterns.length = maxScopePatterns from List.length_replicate,
    show maxScopePatterns * maxStringField = 6400 from rfl] at long
  have whole := fieldsLength_mem scope
  dsimp only at whole
  rw [textLength] at whole
  unfold TrustedKeyEntry.modelDumpExcludeNone
  rw [textLength]
  exact Nat.le_trans long whole

theorem crowdedConfig_long {env : TrustEnv F} : 262400 ≤ textLength (crowdedConfig.modelDump env) := by
  have keys : (str "keys", Json.arr (crowdedConfig.keys.map fun key => key.modelDumpExcludeNone env)) ∈
      [(str "version", Json.str crowdedConfig.version),
        (str "keys", Json.arr (crowdedConfig.keys.map fun key => key.modelDumpExcludeNone env))] :=
    List.mem_cons_of_mem _ List.mem_cons_self
  have entry : ∀ item ∈ crowdedConfig.keys.map fun key => key.modelDumpExcludeNone env, 6400 ≤ textLength item := by
    intro item mem
    obtain ⟨key, inConfig, made⟩ := List.mem_map.mp mem
    obtain ⟨n, -, same⟩ := List.mem_map.mp inConfig
    rw [← made, ← same]
    exact crowdedKey_long n
  have long := itemsLength_ge entry
  have count : crowdedConfig.keys.length = 41 := by
    show ((List.range 41).map crowdedKey).length = 41
    rw [List.length_map, List.length_range]
  rw [List.length_map, count, show 41 * 6400 = 262400 from rfl] at long
  have whole := fieldsLength_mem keys
  dsimp only at whole
  rw [textLength] at whole
  unfold TrustConfig.modelDump configDocument
  rw [textLength]
  exact Nat.le_trans long whole

end ModelGuard.Signing
