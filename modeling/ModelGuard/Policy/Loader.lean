import Mathlib.Data.List.Dedup
import ModelGuard.Exceptions
import ModelGuard.Lib.FallibleSort
import ModelGuard.Lib.JsonBytes
import ModelGuard.Lib.Validation
import ModelGuard.Policy.Worst

/-!
# Loading a policy

`parse_policy_document` on what a YAML mapping denotes. A message that names unknown keys sorts and prints them,
which not all keys can be.
-/

namespace ModelGuard.Policy

open Lib Lib.Fallible Lib.Validation

/-- What a YAML scalar denotes, with floats in `F`. -/
inductive Scalar (F : Type) where
  | null
  | bool (b : Bool)
  | int (n : Int)
  | float (x : F)
  | text (s : Str)
  | bytes (b : Bytes)
  /-- A date, by its ordinal. -/
  | date (day : Int)
  /-- A `datetime` without an offset, in microseconds. -/
  | naive (moment : Int)
  | aware (moment : AwareDatetime)
deriving DecidableEq

/-- What a YAML document denotes. An `O` is any other object: what tags make, and what contains itself. -/
inductive Yaml (F O : Type) where
  | scalar (s : Scalar F)
  | list (items : List (Yaml F O))
  | mapping (entries : List (Scalar F × Yaml F O))
  | object (o : O)

/-- The kinds of scalars that compare with each other. -/
inductive Family where
  | null
  | number
  | text
  | bytes
  | date
  | naive
  | aware
deriving DecidableEq

def Scalar.family {F : Type} : Scalar F → Family
  | .null => .null
  | .bool _ => .number
  | .int _ => .number
  | .float _ => .number
  | .text _ => .text
  | .bytes _ => .bytes
  | .date _ => .date
  | .naive _ => .naive
  | .aware _ => .aware

/-- What loading a policy is computed with. -/
structure LoaderEnv (F O : Type) where
  host : Host
  /-- The order in which a set gives its elements. -/
  setOrder : List (Scalar F) → List (Scalar F)
  setOrder_perm : ∀ keys, (setOrder keys).Perm keys
  /-- `<` where one of the numbers is a float. -/
  floatLess : Int ⊕ F → Int ⊕ F → Bool
  /-- `repr` of a float, of bytes, of a date and of a `datetime`. -/
  reprOther : Scalar F → Str
  /-- The text of the `TypeError` of `<`. -/
  cannotCompare : Scalar F → Scalar F → Str
  /-- `str` of what is no text, or the text of the exception. -/
  strOf : Yaml F O → Except Str Str
  /-- pydantic's reading of a text, a flag and an integer from a value of another kind. -/
  text : Yaml F O → Except Str Str
  boolean : Yaml F O → Except Str Bool
  integer : Yaml F O → Except Str Int
  /-- `str(exc)` of a `ValidationError`. -/
  validationText : List Problem → Str

/-! ### Comparing and printing keys -/

section Keys

variable {F O : Type} (env : LoaderEnv F O)

def Scalar.number : Scalar F → Option (Int ⊕ F)
  | .bool b => some (.inl (if b then 1 else 0))
  | .int n => some (.inl n)
  | .float x => some (.inr x)
  | _ => none

def LoaderEnv.numberLess : Int ⊕ F → Int ⊕ F → Bool
  | .inl m, .inl n => m < n
  | a, b => env.floatLess a b

/-- `a < b`. -/
def LoaderEnv.less (a b : Scalar F) : Except Raised Bool :=
  match a, b with
  | .text s, .text t => .ok (s < t)
  | .bytes s, .bytes t => .ok (s < t)
  | .date d, .date e => .ok (d < e)
  | .naive s, .naive t => .ok (s < t)
  | .aware s, .aware t => .ok (s.moment < t.moment)
  | a, b =>
    match a.number, b.number with
    | some m, some n => .ok (env.numberLess m n)
    | _, _ => .error (.external (str "TypeError") (env.cannotCompare a b))

def tooManyDigits : Raised :=
  .external (str "ValueError") (str ("Exceeds the limit (4300 digits) for integer string conversion; " ++
    "use sys.set_int_max_str_digits() to increase the limit"))

/-- `repr(key)`. -/
def LoaderEnv.repr : Scalar F → Except Raised Str
  | .null => .ok (str "None")
  | .bool b => .ok (str (if b then "True" else "False"))
  | .int n => if n.natAbs < 10 ^ Json.maxStrDigits then .ok (Json.intText n) else .error tooManyDigits
  | .text s => .ok (env.host.repr s)
  | key => .ok (env.reprOther key)

/-- `f"{sorted(keys)}"`. -/
def LoaderEnv.reprSorted (keys : List (Scalar F)) : Except Raised Str := do
  let keys ← sorted env.less keys
  let shown ← keys.mapM env.repr
  .ok (str "[" ++ (str ", ").intercalate shown ++ str "]")

/-- `repr` of the key is not refused for its length. -/
def Scalar.Short : Scalar F → Prop
  | .int n => n.natAbs < 10 ^ Json.maxStrDigits
  | _ => True

/-- The keys are of one family, and all can be printed. -/
structure Printable (keys : List (Scalar F)) : Prop where
  alike : ∀ a ∈ keys, ∀ b ∈ keys, a.family = b.family
  short : ∀ a ∈ keys, a.Short

theorem number_isSome {a : Scalar F} : a.number.isSome = true ↔ a.family = .number := by
  cases a <;> simp [Scalar.number, Scalar.family]

/-- Different keys compare within a family. -/
theorem less_returns_iff (a b : Scalar F) (other : a ≠ b) : (∃ below, env.less a b = .ok below) ↔ a.family = b.family := by
  cases a <;> cases b <;> simp [LoaderEnv.less, Scalar.number, Scalar.family] at other ⊢

theorem repr_returns_iff (a : Scalar F) : (∃ shown, env.repr a = .ok shown) ↔ a.Short := by
  cases a with
  | int n =>
    unfold LoaderEnv.repr Scalar.Short
    dsimp only
    split
    · rename_i short
      exact iff_of_true ⟨_, rfl⟩ short
    · rename_i long
      exact iff_of_false nofun long
  | _ => exact iff_of_true ⟨_, rfl⟩ trivial

theorem reprSorted_returns_iff {keys : List (Scalar F)} (distinct : keys.Nodup) :
    (∃ shown, env.reprSorted keys = .ok shown) ↔ Printable keys := by
  unfold LoaderEnv.reprSorted
  constructor
  · intro ⟨shown, ran⟩
    obtain ⟨ordered, inOrder, ran⟩ := bind_ok.mp ran
    obtain ⟨texts, printed, -⟩ := bind_ok.mp ran
    have each := mapM_returns_iff.mp ⟨texts, printed⟩
    refine ⟨(sorted_returns_iff (less_returns_iff env) distinct).mp ⟨ordered, inOrder⟩, fun a mem => ?_⟩
    exact (repr_returns_iff env a).mp (each a ((sorted_perm inOrder).mem_iff.mpr mem))
  · intro ⟨alike, short⟩
    obtain ⟨ordered, inOrder⟩ := (sorted_returns_iff (less_returns_iff env) distinct).mpr alike
    have each : ∀ a ∈ ordered, ∃ shown, env.repr a = .ok shown := by
      intro a mem
      exact (repr_returns_iff env a).mpr (short a ((sorted_perm inOrder).mem_iff.mp mem))
    obtain ⟨texts, printed⟩ := mapM_returns_iff.mpr each
    exact ⟨_, bind_ok.mpr ⟨ordered, inOrder, bind_ok.mpr ⟨texts, printed, rfl⟩⟩⟩

end Keys

/-! ### Reading the document -/

/-- A mapping, by its entries. -/
abbrev Entries (F O : Type) := List (Scalar F × Yaml F O)

/-- What `PolicyDocument` holds. -/
structure LoadedPolicy extends PolicyDocument where
  environment : Option Str

section Schema

variable {F O : Type} [DecidableEq F] (env : LoaderEnv F O)

def fieldKey (name : String) : Scalar F := .text (str name)

/-- A field of a model, or its default. -/
def readField {α : Type} (name : String) (default : α) (read : Yaml F O → Validated α) (entries : Entries F O) : Validated α :=
  match entries.lookup (fieldKey name) with
  | some v => under (str name) (read v)
  | none => .ok default

def readText : Yaml F O → Validated Str
  | .scalar (.text s) => .ok s
  | v => lift (env.text v)

def readFlag : Yaml F O → Validated Bool
  | .scalar (.bool b) => .ok b
  | v => lift (env.boolean v)

def readCount (v : Yaml F O) : Validated Nat := do
  let n ← match v with
    | .scalar (.int n) => .ok n
    | v => lift (env.integer v)
  if 0 ≤ n then .ok n.toNat else reject (str "Input should be greater than or equal to 0")

def actionText : RuleAction → String
  | .warn => "warn"
  | .review => "review"
  | .quarantine => "quarantine"
  | .deny => "deny"

def readAction (v : Yaml F O) : Validated RuleAction :=
  match v with
  | .scalar (.text s) =>
    match [RuleAction.warn, .review, .quarantine, .deny].find? fun action => s = str (actionText action) with
    | some action => .ok action
    | none => reject (str "Input should be 'warn', 'review', 'quarantine' or 'deny'")
  | _ => reject (str "Input should be 'warn', 'review', 'quarantine' or 'deny'")

/-- A key, in the place of a problem. -/
def locText : Scalar F → Str
  | .text s => s
  | key => env.reprOther key

/-- A key that is no field of `RuleConfig`. -/
def extraProblem (key : Scalar F) : Problem where
  loc := [locText env key]
  message := match key with
    | .text _ => str "Extra inputs are not permitted"
    | _ => str "Keys should be strings"

def noExtraKeys (known : List String) (entries : Entries F O) : Validated Unit :=
  match entries.filter fun e => e.1 ∉ known.map fieldKey with
  | [] => .ok ()
  | extra => .error (extra.map fun e => extraProblem env e.1)

/-- `RuleConfig.model_validate`. -/
def readRule : Yaml F O → Validated RuleConfig
  | .mapping entries =>
    (both (readField "enabled" true (readFlag env) entries) (both (readField "on_fail" .deny readAction entries)
      (both (readField "max_count" 0 (readCount env) entries)
        (noExtraKeys env ["enabled", "on_fail", "max_count"] entries)))).map fun (enabled, onFail, maxCount, _) =>
      { enabled, onFail, maxCount }
  | _ => reject (str "Input should be a valid dictionary or instance of RuleConfig")

/-- The rules, each under its name. -/
def readRules : Entries F O → Validated (List (Str × RuleConfig))
  | [] => .ok []
  | (key, v) :: rest =>
    (both (readText env (.scalar key)) (both (under (locText env key) (readRule env v)) (readRules rest))).map
      fun (name, config, others) => (name, config) :: others

/-- `str | None`. -/
def readEnvironment : Option (Yaml F O) → Validated (Option Str)
  | none => .ok none
  | some (.scalar .null) => .ok none
  | some v => (readText env v).map some

def readDocument (version : Str) (name : Yaml F O) (environment : Option (Yaml F O)) (rules : Entries F O) : Validated LoadedPolicy :=
  (both (under (str "name") (readText env name)) (both (under (str "environment") (readEnvironment env environment))
    (under (str "rules") (readRules env rules)))).map fun (name, environment, rules) => { version, name, environment, rules }

/-- `str(raw.get("version", "1"))`. -/
def versionText : Option (Yaml F O) → Except Str Str
  | none => .ok (str "1")
  | some (.scalar (.text s)) => .ok s
  | some v => env.strOf v

/-! ### `parse_policy_document` -/

def policyError (message : Str) : Raised := .modelGuard .policyValidationError message

def knownKeys : List (Scalar F) := ruleNames.map fun name => fieldKey name.value

/-- `UnknownRuleError`. -/
def unknownRule (shown : Str) : Raised :=
  .modelGuard .unknownRuleError (str "Unknown policy rule " ++ shown ++ str ". Known rules: " ++
    env.host.reprList ((ruleNames.map fun name => str name.value).mergeSort fun s t => s ≤ t) ++
    str ". Refusing to load a policy with an unrecognized rule rather than silently ignoring it.")

/-- `set(entries) - known`. -/
def unknownKeys (known : List String) (entries : Entries F O) : List (Scalar F) :=
  env.setOrder ((entries.map Prod.fst).dedup.filter fun key => key ∉ known.map fieldKey)

/-- `if unknown: raise PolicyValidationError(…)`. -/
def refuseUnknown (before after : String) (unknown : List (Scalar F)) : Except Raised Unit :=
  if unknown = [] then .ok ()
  else do
    let shown ← env.reprSorted unknown
    .error (policyError (str before ++ shown ++ str after))

/-- The `policy` section, with its name. -/
def policySection (raw : Entries F O) : Except Raised (Yaml F O × Entries F O) :=
  match raw.lookup (fieldKey "policy") with
  | some (.mapping policy) =>
    match policy.lookup (fieldKey "name") with
    | some name => .ok (name, policy)
    | none => .error (policyError (str "Policy file must have a 'policy:' section with at least a 'name' field."))
  | _ => .error (policyError (str "Policy file must have a 'policy:' section with at least a 'name' field."))

def rulesSection (raw : Entries F O) : Except Raised (Entries F O) :=
  match raw.lookup (fieldKey "rules") with
  | none => .ok []
  | some (.mapping rules) => .ok rules
  | some _ => .error (policyError (str "Policy file's 'rules:' section must be a mapping."))

/-- The loop over the rules. -/
def checkRuleNames : Entries F O → Except Raised Unit
  | [] => .ok ()
  | (key, _) :: rest =>
    if key ∈ knownKeys then checkRuleNames rest
    else do
      let shown ← env.repr key
      .error (unknownRule env shown)

/-- The `try`. Any exception in it is reported. -/
def buildDocument (version : Option (Yaml F O)) (name : Yaml F O) (environment : Option (Yaml F O)) (rules : Entries F O) :
    Except Raised LoadedPolicy :=
  let failed (message : Str) : Raised := policyError (str "Policy file failed schema validation: " ++ message)
  match versionText env version with
  | .error message => .error (failed message)
  | .ok version => (readDocument env version name environment rules).mapError fun found => failed (env.validationText found)

/-- `parse_policy_document`. -/
def parsePolicyDocument (raw : Entries F O) : Except Raised LoadedPolicy := do
  refuseUnknown env "Unknown top-level field(s): " ". Allowed: version, policy, rules."
    (unknownKeys env ["version", "policy", "rules"] raw)
  let (name, policy) ← policySection raw
  let rules ← rulesSection raw
  refuseUnknown env "Unknown field(s) in 'policy:' section: " ". Allowed fields: name, environment."
    (unknownKeys env ["name", "environment"] policy)
  checkRuleNames env rules
  buildDocument env (raw.lookup (fieldKey "version")) name (policy.lookup (fieldKey "environment")) rules

end Schema

/-! ### What is raised -/

/-- `PolicyValidationError`, or its subclass. -/
def IsPolicyError : Raised → Prop
  | .modelGuard .policyValidationError _ => True
  | .modelGuard .unknownRuleError _ => True
  | _ => False

section Reported

variable {F O : Type} {env : LoaderEnv F O} {raw policy rules : Entries F O} {name : Yaml F O}

theorem less_not_policy (a b : Scalar F) : RaisesOnly (fun e => ¬IsPolicyError e) (env.less a b) := by
  unfold LoaderEnv.less
  split
  · exact raisesOnly_ok
  · exact raisesOnly_ok
  · exact raisesOnly_ok
  · exact raisesOnly_ok
  · exact raisesOnly_ok
  · split
    · exact raisesOnly_ok
    · exact raisesOnly_error.mpr not_false

theorem repr_not_policy (key : Scalar F) : RaisesOnly (fun e => ¬IsPolicyError e) (env.repr key) := by
  unfold LoaderEnv.repr
  split
  · exact raisesOnly_ok
  · exact raisesOnly_ok
  · split
    · exact raisesOnly_ok
    · exact raisesOnly_error.mpr not_false
  · exact raisesOnly_ok
  · exact raisesOnly_ok

theorem reprSorted_not_policy (keys : List (Scalar F)) : RaisesOnly (fun e => ¬IsPolicyError e) (env.reprSorted keys) := by
  unfold LoaderEnv.reprSorted
  rw [raisesOnly_bind]
  refine ⟨raisesOnly_sorted less_not_policy keys, fun ordered _ => ?_⟩
  rw [raisesOnly_bind]
  exact ⟨raisesOnly_mapM fun key _ => repr_not_policy key, fun _ _ => raisesOnly_ok⟩

theorem printable_nil : Printable ([] : List (Scalar F)) := ⟨List.forall_mem_nil _, List.forall_mem_nil _⟩

theorem refuseUnknown_ok {before after : String} {unknown : List (Scalar F)} {u : Unit} :
    refuseUnknown env before after unknown = .ok u ↔ unknown = [] := by
  unfold refuseUnknown
  split
  · rename_i none
    exact iff_of_true rfl none
  · rename_i some
    refine iff_of_false (fun ran => ?_) some
    obtain ⟨shown, -, failed⟩ := bind_ok.mp ran
    cases failed

/-- Unknown keys are reported when they can be shown. -/
theorem refuseUnknown_reports_iff {before after : String} {unknown : List (Scalar F)} (distinct : unknown.Nodup) :
    RaisesOnly IsPolicyError (refuseUnknown env before after unknown) ↔ Printable unknown := by
  unfold refuseUnknown
  split
  · rename_i none
    rw [none]
    exact iff_of_true raisesOnly_ok printable_nil
  · rw [raisesOnly_bind, raisesOnly_of_not (reprSorted_not_policy unknown), reprSorted_returns_iff env distinct]
    exact and_iff_left fun shown _ => raisesOnly_error.mpr trivial

variable [DecidableEq F]

theorem unknownKeys_nodup (known : List String) (entries : Entries F O) : (unknownKeys env known entries).Nodup := by
  unfold unknownKeys
  rw [(env.setOrder_perm _).nodup_iff]
  exact (List.nodup_dedup _).filter _

theorem policySection_ok : policySection raw = .ok (name, policy) ↔
    raw.lookup (fieldKey "policy") = some (.mapping policy) ∧ policy.lookup (fieldKey "name") = some name := by
  unfold policySection
  split
  · rename_i found there
    rw [there, Option.some.injEq, Yaml.mapping.injEq]
    split
    · rename_i own named
      rw [Except.ok.injEq, Prod.mk.injEq]
      constructor
      · intro ⟨same, same'⟩
        subst same same'
        exact ⟨rfl, named⟩
      · intro ⟨same, named'⟩
        subst same
        exact ⟨Option.some.inj (named.symm.trans named'), rfl⟩
    · rename_i missing
      refine iff_of_false nofun fun ⟨same, named⟩ => ?_
      rw [← same, missing] at named
      cases named
  · rename_i other
    exact iff_of_false nofun fun found => other policy found.1

theorem policySection_reports : RaisesOnly IsPolicyError (policySection raw) := by
  unfold policySection
  split
  · split
    · exact raisesOnly_ok
    · exact raisesOnly_error.mpr trivial
  · exact raisesOnly_error.mpr trivial

theorem rulesSection_ok : rulesSection raw = .ok rules ↔
    (raw.lookup (fieldKey "rules")).getD (.mapping []) = .mapping rules := by
  unfold rulesSection
  split
  · rename_i missing
    rw [missing, Option.getD_none, Except.ok.injEq, Yaml.mapping.injEq]
  · rename_i found there
    rw [there, Option.getD_some, Except.ok.injEq, Yaml.mapping.injEq]
  · rename_i v there other
    rw [other, Option.getD_some]
    exact iff_of_false nofun fun same => there rules same

theorem rulesSection_reports : RaisesOnly IsPolicyError (rulesSection raw) := by
  unfold rulesSection
  split
  · exact raisesOnly_ok
  · exact raisesOnly_ok
  · exact raisesOnly_error.mpr trivial

/-- The rule that the loop stops at. -/
def firstUnknown (rules : Entries F O) : Option (Scalar F) := (rules.map Prod.fst).find? fun key => key ∉ knownKeys

theorem checkRuleNames_ok {u : Unit} : checkRuleNames env rules = .ok u ↔ ∀ entry ∈ rules, entry.1 ∈ knownKeys := by
  induction rules with
  | nil => exact iff_of_true rfl (List.forall_mem_nil _)
  | cons entry rest ih =>
    unfold checkRuleNames
    rw [List.forall_mem_cons]
    split
    · rename_i known
      rw [ih]
      exact (and_iff_right known).symm
    · rename_i unknown
      refine iff_of_false (fun ran => ?_) fun all => unknown all.1
      obtain ⟨shown, -, failed⟩ := bind_ok.mp ran
      cases failed

theorem checkRuleNames_reports_iff :
    RaisesOnly IsPolicyError (checkRuleNames env rules) ↔ ∀ key, firstUnknown rules = some key → key.Short := by
  induction rules with
  | nil => exact iff_of_true raisesOnly_ok nofun
  | cons entry rest ih =>
    unfold checkRuleNames firstUnknown
    rw [List.map_cons, List.find?_cons]
    split
    · rename_i known
      rw [decide_eq_false (not_not.mpr known)]
      exact ih
    · rename_i unknown
      rw [decide_eq_true unknown, raisesOnly_bind, raisesOnly_of_not (repr_not_policy entry.1), repr_returns_iff]
      constructor
      · intro ⟨short, _⟩ key same
        rw [← Option.some.inj same]
        exact short
      · exact fun all => ⟨all entry.1 rfl, fun shown _ => raisesOnly_error.mpr trivial⟩

theorem buildDocument_reports {version environment : Option (Yaml F O)} :
    RaisesOnly IsPolicyError (buildDocument env version name environment rules) := by
  unfold buildDocument
  dsimp only
  split
  · exact raisesOnly_error.mpr trivial
  · rw [raisesOnly_mapError]
    exact fun _ _ => trivial

/-! ### What is returned -/

/-- A rule of the document is one of the mapping: its name is known, and its configuration was read from the value. -/
structure ReadsRule (env : LoaderEnv F O) (entry : Scalar F × Yaml F O) (rule : Str × RuleConfig) : Prop where
  key : entry.1 = .text rule.1
  known : ∃ name : RuleName, rule.1 = str name.value
  config : readRule env entry.2 = .ok rule.2

theorem readRules_ok {read : List (Str × RuleConfig)} (ok : readRules env rules = .ok read)
    (known : ∀ entry ∈ rules, entry.1 ∈ knownKeys) : List.Forall₂ (ReadsRule env) rules read := by
  induction rules generalizing read with
  | nil =>
    cases ok
    exact .nil
  | cons entry rest ih =>
    unfold readRules at ok
    obtain ⟨⟨key, config, others⟩, parts, made⟩ := map_ok.mp ok
    subst made
    obtain ⟨named, parts⟩ := both_ok.mp parts
    obtain ⟨own, later⟩ := both_ok.mp parts
    obtain ⟨first, known⟩ := List.forall_mem_cons.mp known
    obtain ⟨name, -, same⟩ := List.mem_map.mp first
    rw [← same] at named
    have text : str name.value = key := Except.ok.inj named
    have ownKey : entry.1 = .text key := same.symm.trans (congrArg Scalar.text text)
    exact .cons ⟨ownKey, ⟨name, text.symm⟩, under_ok.mp own⟩ (ih later known)

/-- The sections of a mapping that the checks of them accept. -/
structure Sections (raw : Entries F O) (name : Yaml F O) (policy rules : Entries F O) : Prop where
  found : raw.lookup (fieldKey "policy") = some (.mapping policy)
  named : policy.lookup (fieldKey "name") = some name
  listed : (raw.lookup (fieldKey "rules")).getD (.mapping []) = .mapping rules

/-- The rules of the document are those of the mapping, in order. -/
def HasRulesOf (env : LoaderEnv F O) (raw : Entries F O) (doc : LoadedPolicy) : Prop :=
  ∃ name policy rules, Sections raw name policy rules ∧ List.Forall₂ (ReadsRule env) rules doc.rules

theorem parsePolicyDocument_rules {doc : LoadedPolicy} (ok : parsePolicyDocument env raw = .ok doc) :
    HasRulesOf env raw doc := by
  unfold parsePolicyDocument at ok
  obtain ⟨_, -, ok⟩ := bind_ok.mp ok
  obtain ⟨⟨name, policy⟩, section_, ok⟩ := bind_ok.mp ok
  obtain ⟨rules, listed, ok⟩ := bind_ok.mp ok
  obtain ⟨_, -, ok⟩ := bind_ok.mp ok
  obtain ⟨_, checked, ok⟩ := bind_ok.mp ok
  obtain ⟨found, named⟩ := policySection_ok.mp section_
  refine ⟨name, policy, rules, ⟨found, named, rulesSection_ok.mp listed⟩, ?_⟩
  unfold buildDocument at ok
  dsimp only at ok
  split at ok
  · cases ok
  · have document := mapError_ok.mp ok
    obtain ⟨⟨_, _, read⟩, parts, made⟩ := map_ok.mp document
    subst made
    have read := under_ok.mp (both_ok.mp (both_ok.mp parts).2).2
    exact readRules_ok read (checkRuleNames_ok.mp checked)

/-! ### When it is reported -/

/-- The unknown keys of the mapping can be shown; if there is none, those of its `policy` section; and if there is
none, the first unknown rule. -/
structure Reportable (env : LoaderEnv F O) (raw : Entries F O) : Prop where
  topLevel : Printable (unknownKeys env ["version", "policy", "rules"] raw)
  fields : ∀ name policy rules, unknownKeys env ["version", "policy", "rules"] raw = [] → Sections raw name policy rules →
    Printable (unknownKeys env ["name", "environment"] policy)
  rule : ∀ name policy rules, unknownKeys env ["version", "policy", "rules"] raw = [] → Sections raw name policy rules →
    unknownKeys env ["name", "environment"] policy = [] → ∀ key, firstUnknown rules = some key → key.Short

theorem parsePolicyDocument_reports : RaisesOnly IsPolicyError (parsePolicyDocument env raw) ↔ Reportable env raw := by
  unfold parsePolicyDocument
  rw [raisesOnly_bind, refuseUnknown_reports_iff (unknownKeys_nodup _ _)]
  constructor
  · intro ⟨topLevel, later⟩
    have inside {name : Yaml F O} {policy rules : Entries F O}
        (none : unknownKeys env ["version", "policy", "rules"] raw = []) (sections : Sections raw name policy rules) := by
      have rest := later () (refuseUnknown_ok.mpr none)
      rw [raisesOnly_bind] at rest
      have rest := rest.2 (name, policy) (policySection_ok.mpr ⟨sections.found, sections.named⟩)
      rw [raisesOnly_bind] at rest
      have rest := rest.2 rules (rulesSection_ok.mpr sections.listed)
      rw [raisesOnly_bind, refuseUnknown_reports_iff (unknownKeys_nodup _ _)] at rest
      exact rest
    refine ⟨topLevel, fun name policy rules none sections => (inside none sections).1, ?_⟩
    intro name policy rules none sections known
    have rest := (inside none sections).2 () (refuseUnknown_ok.mpr known)
    rw [raisesOnly_bind, checkRuleNames_reports_iff] at rest
    exact rest.1
  · intro ⟨topLevel, fields, rule⟩
    refine ⟨topLevel, fun _ none => ?_⟩
    have none := refuseUnknown_ok.mp none
    rw [raisesOnly_bind]
    refine ⟨policySection_reports, fun (name, policy) found => ?_⟩
    rw [raisesOnly_bind]
    refine ⟨rulesSection_reports, fun rules listed => ?_⟩
    obtain ⟨found, named⟩ := policySection_ok.mp found
    have sections : Sections raw name policy rules := ⟨found, named, rulesSection_ok.mp listed⟩
    rw [raisesOnly_bind, refuseUnknown_reports_iff (unknownKeys_nodup _ _)]
    refine ⟨fields name policy rules none sections, fun _ known => ?_⟩
    rw [raisesOnly_bind, checkRuleNames_reports_iff]
    exact ⟨rule name policy rules none sections (refuseUnknown_ok.mp known), fun _ _ => buildDocument_reports⟩

end Reported

/-- A mapping gives a document of its rules or is reported as malformed exactly when the keys that a message would
show can be sorted and printed. -/
theorem malformed_policy_reported_iff {F O : Type} [DecidableEq F] (env : LoaderEnv F O) (raw : Entries F O) :
    ((∃ doc, parsePolicyDocument env raw = .ok doc ∧ HasRulesOf env raw doc) ∨
        ∃ e, IsPolicyError e ∧ parsePolicyDocument env raw = .error e) ↔
      Reportable env raw := by
  rw [← parsePolicyDocument_reports, raisesOnly_iff]
  constructor
  · rintro (⟨doc, ok, -⟩ | reported)
    · exact Or.inl ⟨doc, ok⟩
    · exact Or.inr reported
  · rintro (⟨doc, ok⟩ | reported)
    · exact Or.inl ⟨doc, ok, parsePolicyDocument_rules ok⟩
    · exact Or.inr reported

/-! ### Keys of two kinds -/

def quotingHost : Host where
  repr s := str "'" ++ s ++ str "'"
  isoformat _ := []
  osError _ := ([], [])

/-- Sets keep the order of a mapping, and nothing is read from a value of another kind. -/
def plainLoader : LoaderEnv Empty Empty where
  host := quotingHost
  setOrder keys := keys
  setOrder_perm _ := List.Perm.refl _
  floatLess _ _ := false
  reprOther _ := []
  cannotCompare _ _ := str "'<' not supported between instances of 'str' and 'int'"
  strOf _ := .ok []
  text _ := .error (str "Input should be a valid string")
  boolean _ := .error (str "Input should be a valid boolean")
  integer _ := .error (str "Input should be a valid integer")
  validationText _ := str "validation error for PolicyDocument"

def textValue (s : String) : Yaml Empty Empty := .scalar (.text (str s))

/-- The keys `1` and `x`, beside a `policy` section. -/
def mixedKeys : Entries Empty Empty :=
  [(.int 1, textValue "a"), (fieldKey "x", textValue "b"), (fieldKey "policy", .mapping [(fieldKey "name", textValue "p")])]

/-- Neither a document nor the error of the loader: the unknown keys cannot be sorted. -/
theorem mixed_keys_not_reported :
    parsePolicyDocument plainLoader mixedKeys =
        .error (.external (str "TypeError") (str "'<' not supported between instances of 'str' and 'int'")) ∧
      ¬((∃ doc, parsePolicyDocument plainLoader mixedKeys = .ok doc ∧ HasRulesOf plainLoader mixedKeys doc) ∨
        ∃ e, IsPolicyError e ∧ parsePolicyDocument plainLoader mixedKeys = .error e) := by
  have raised : parsePolicyDocument plainLoader mixedKeys =
      .error (.external (str "TypeError") (str "'<' not supported between instances of 'str' and 'int'")) := by
    rfl
  refine ⟨raised, ?_⟩
  rw [raised]
  rintro (⟨doc, ok, -⟩ | ⟨e, known, same⟩)
  · cases ok
  · cases same
    exact known

end ModelGuard.Policy
