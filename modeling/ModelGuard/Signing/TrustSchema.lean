import ModelGuard.Lib.Normalize
import ModelGuard.Lib.Validation
import ModelGuard.Signing.TrustConfig

/-!
# The schema of a trust configuration

`model_validate` and `model_dump` of the two models. What pydantic makes of values that are no plain
text, list or mapping is a parameter.
-/

namespace ModelGuard.Signing

open Lib Lib.Validation

/-- What reading and writing a trust configuration is computed with. -/
structure TrustEnv (F : Type) where
  host : Host
  caseTable : CaseTable
  /-- pydantic's reading of a text, a `datetime` and a tuple from a value of another kind. A `datetime` without
  an offset is `none`. -/
  text : Json F → Except Str Str
  datetime : Json F → Except Str (Option AwareDatetime)
  tuple : Json F → Except Str (List (Json F))
  /-- A `datetime` object as a value, and the text that `mode="json"` dumps for it. -/
  object : AwareDatetime → Json F
  dumpDatetime : AwareDatetime → Str

variable {F : Type} (env : TrustEnv F)

/-! ### The validators -/

/-- `_normalize`, and the `before` validator of `key_id` on a text. -/
def normalize (s : Str) : Str := removePrefix (str "sha256:") (env.caseTable.lower (strip s))

def normalizeKeyId : Json F → Json F
  | .str s => .str (normalize env s)
  | v => v

def keyIdProblem (s : Str) : Option Str :=
  if IsFingerprint s then none
  else some (str ("key_id must be 64 lowercase hex characters (the SHA-256 fingerprint of the " ++
    "raw public key), optionally prefixed with 'sha256:'. Compute one with " ++
    "`modelguard fingerprint <public-key-file>`."))

def algorithmProblem (host : Host) (value : Option Str) : Option Str :=
  value.bind fun value =>
    if isSchemeId value then none
    else some (str "algorithm " ++ host.repr value ++ str (" is not a valid scheme identifier " ++
      "(lowercase letters, digits, and hyphens, 1-64 characters)."))

def maxStringField : Nat := 200

/-- `_check_bounded_string`, of a text. -/
def boundedProblem (field : String) (value : Str) : Option Str :=
  if value.isEmpty || maxStringField < value.length then
    some (str (field ++ " must be 1-") ++ Json.natText maxStringField ++ str " characters.")
  else if value.any fun c => c.val < 0x20 then some (str (field ++ " must not contain control characters."))
  else none

def lineProblem (value : Option Str) : Option Str := value.bind (boundedProblem "signer_identity/label")

def scopeProblem (value : List Str) : Option Str :=
  if maxScopePatterns < value.length then
    some (str "at most " ++ Json.natText maxScopePatterns ++ str " scope_model_id_patterns are allowed.")
  else value.findSome? (boundedProblem "scope_model_id_patterns")

def windowProblem (host : Host) : Option AwareDatetime → Option AwareDatetime → Option Str
  | some start, some stop =>
    if stop.moment < start.moment then
      some (str "not_before (" ++ host.isoformat start ++ str ") must not be after not_after (" ++
        host.isoformat stop ++ str ").")
    else none
  | _, _ => none

def naiveMessage : Str :=
  str ("Value error, must include an explicit UTC offset, e.g. '2027-01-01T00:00:00Z' -- a " ++
    "timestamp with no timezone is ambiguous and is refused rather than guessed.")

/-! ### Reading an entry -/

def readText : Json F → Validated Str
  | .str s => .ok s
  | v => lift (env.text v)

def readDatetime (v : Json F) : Validated AwareDatetime :=
  match env.datetime v with
  | .error message => reject message
  | .ok none => reject naiveMessage
  | .ok (some moment) => .ok moment

def readTuple {α : Type} (read : Json F → Validated α) : Json F → Validated (List α)
  | .arr items => each read 0 items
  | v => (lift (env.tuple v)).bind (each read 0)

def readKeyId (v : Json F) : Validated { s : Str // keyIdProblem s = none } :=
  (readText env (normalizeKeyId env v)).bind (passing keyIdProblem)

def readAlgorithm (v : Json F) : Validated { a : Option Str // algorithmProblem env.host a = none } :=
  (optional (readText env) v).bind (passing (algorithmProblem env.host))

def readStatus : Json F → Validated TrustedKeyStatus
  | .str s =>
    match [TrustedKeyStatus.active, .retired, .revoked].find? fun status => s = str status.value with
    | some status => .ok status
    | none => reject (str "Input should be 'active', 'retired' or 'revoked'")
  | _ => reject (str "Input should be 'active', 'retired' or 'revoked'")

def readLine (v : Json F) : Validated { s : Option Str // lineProblem s = none } :=
  (optional (readText env) v).bind (passing lineProblem)

def readScope (v : Json F) : Validated { patterns : List Str // scopeProblem patterns = none } :=
  (readTuple env (readText env) v).bind (passing scopeProblem)

/-- The fields of an entry, in order. -/
def entryKeys : List Str :=
  ["key_id", "algorithm", "status", "not_before", "not_after", "signer_identity", "scope_model_id_patterns",
    "label"].map str

/-! ### What the validators accept -/

theorem keyIdProblem_none {s : Str} : keyIdProblem s = none ↔ IsFingerprint s := by
  unfold keyIdProblem
  split
  · rename_i valid
    exact iff_of_true rfl valid
  · rename_i invalid
    exact iff_of_false nofun invalid

theorem algorithmProblem_none {host : Host} {a : Option Str} :
    algorithmProblem host a = none ↔ a.all isSchemeId = true := by
  unfold algorithmProblem
  cases a with
  | none => simp
  | some a =>
    rw [Option.bind_some, Option.all_some]
    split <;> simp_all

theorem boundedProblem_none {field : String} {s : Str} : boundedProblem field s = none ↔ isBoundedLine s = true := by
  have control : (s.any fun c => decide (c.val < 0x20)) = !s.all fun c => decide (0x20 ≤ c.val) := by
    rw [List.not_all_eq_any_not]
    refine List.any_congr rfl fun c => ?_
    by_cases small : c.val < 0x20
    · simp [small, Nat.not_le.mpr small]
    · simp [small, Nat.not_lt.mp small]
  unfold boundedProblem isBoundedLine maxStringField
  rw [control]
  split
  · rename_i wrong
    rcases Bool.or_eq_true_iff.mp wrong with empty | long
    · simp [empty]
    · have long : 200 < s.length := of_decide_eq_true long
      simp [Nat.not_le.mpr long]
  · rename_i right
    have right : ¬ s.isEmpty = true ∧ s.length ≤ 200 := by simpa using right
    split
    · rename_i bad
      simp_all
    · rename_i good
      simp_all

theorem lineProblem_none {s : Option Str} : lineProblem s = none ↔ s.all isBoundedLine = true := by
  unfold lineProblem
  cases s with
  | none => simp
  | some s => rw [Option.bind_some, Option.all_some, boundedProblem_none]

theorem scopeProblem_none {patterns : List Str} :
    scopeProblem patterns = none ↔ patterns.length ≤ maxScopePatterns ∧ patterns.all isBoundedLine = true := by
  unfold scopeProblem
  split
  · rename_i many
    simp [Nat.not_le.mpr many]
  · rename_i few
    rw [List.findSome?_eq_none_iff]
    simp only [boundedProblem_none, Nat.not_lt.mp few, true_and, List.all_eq_true]

theorem windowProblem_none {host : Host} {start stop : Option AwareDatetime} :
    windowProblem host start stop = none ↔ ∀ a ∈ start, ∀ b ∈ stop, a.moment ≤ b.moment := by
  unfold windowProblem
  split
  · split
    · rename_i after
      simp [Int.not_le.mpr after]
    · rename_i before
      simp [Int.not_lt.mp before]
  · rename_i missing
    simp only [true_iff]
    intro a ha b hb
    exact (missing a b ha hb).elim

/-! ### The model of an entry -/

/-- The fields of an entry, each with its own check passed. -/
abbrev EntryFields (host : Host) : Type :=
  { s : Str // keyIdProblem s = none } × { a : Option Str // algorithmProblem host a = none } × TrustedKeyStatus ×
    Option AwareDatetime × Option AwareDatetime × { s : Option Str // lineProblem s = none } ×
    { patterns : List Str // scopeProblem patterns = none } × { s : Option Str // lineProblem s = none } × Unit

def entryFields (members : List (Str × Json F)) : Validated (EntryFields env.host) :=
  both (field "key_id" required (readKeyId env) members) <|
  both (field "algorithm" (.ok ⟨none, rfl⟩) (readAlgorithm env) members) <|
  both (field "status" (.ok .active) readStatus members) <|
  both (field "not_before" (.ok none) (optional (readDatetime env)) members) <|
  both (field "not_after" (.ok none) (optional (readDatetime env)) members) <|
  both (field "signer_identity" (.ok ⟨none, rfl⟩) (readLine env) members) <|
  both (field "scope_model_id_patterns" (.ok ⟨[], rfl⟩) (readScope env) members) <|
  both (field "label" (.ok ⟨none, rfl⟩) (readLine env) members) <|
  noExtra entryKeys members

/-- The entry, once `_validate_window` has passed. -/
def entryOf (host : Host) (fields : EntryFields host) : Validated TrustedKeyEntry :=
  let (keyId, algorithm, status, notBefore, notAfter, signerIdentity, scope, label, _) := fields
  match window : windowProblem host notBefore notAfter with
  | some message => reject (str "Value error, " ++ message)
  | none =>
    .ok { keyId := keyId.val
          algorithm := algorithm.val
          status := status
          notBefore := notBefore
          notAfter := notAfter
          signerIdentity := signerIdentity.val
          scopeModelIdPatterns := scope.val
          label := label.val
          keyIdValid := keyIdProblem_none.mp keyId.property
          algorithmValid := algorithmProblem_none.mp algorithm.property
          windowValid := windowProblem_none.mp window
          identityValid := lineProblem_none.mp signerIdentity.property
          labelValid := lineProblem_none.mp label.property
          scopeValid := scopeProblem_none.mp scope.property }

/-- `TrustedKeyEntry.model_validate`. -/
def TrustedKeyEntry.modelValidate : Json F → Validated TrustedKeyEntry
  | .obj members => do entryOf env.host (← entryFields env members)
  | _ => reject (str "Input should be a valid dictionary or instance of TrustedKeyEntry")

/-- An entry as its fields. -/
def TrustedKeyEntry.fields (host : Host) (entry : TrustedKeyEntry) : EntryFields host :=
  (⟨entry.keyId, keyIdProblem_none.mpr entry.keyIdValid⟩, ⟨entry.algorithm, algorithmProblem_none.mpr entry.algorithmValid⟩,
    entry.status, entry.notBefore, entry.notAfter, ⟨entry.signerIdentity, lineProblem_none.mpr entry.identityValid⟩,
    ⟨entry.scopeModelIdPatterns, scopeProblem_none.mpr entry.scopeValid⟩,
    ⟨entry.label, lineProblem_none.mpr entry.labelValid⟩, ())

theorem entryOf_ok {host : Host} {fields : EntryFields host} {entry : TrustedKeyEntry} :
    entryOf host fields = .ok entry ↔ fields = entry.fields host := by
  obtain ⟨keyId, algorithm, status, notBefore, notAfter, signerIdentity, scope, label, _⟩ := fields
  unfold entryOf
  dsimp only
  constructor
  · intro h
    split at h
    · cases h
    · have same := Except.ok.inj h
      subst same
      rfl
  · intro h
    cases h
    split
    · rename_i message after
      have ordered : windowProblem host entry.notBefore entry.notAfter = none := windowProblem_none.mpr entry.windowValid
      rw [after] at ordered
      cases ordered
    · rfl

/-- What each field of an accepted entry was read from. -/
structure EntryRead (members : List (Str × Json F)) (entry : TrustedKeyEntry) : Prop where
  keyId : field "key_id" required (readKeyId env) members =
    .ok ⟨entry.keyId, keyIdProblem_none.mpr entry.keyIdValid⟩
  algorithm : field "algorithm" (.ok ⟨none, rfl⟩) (readAlgorithm env) members =
    .ok ⟨entry.algorithm, algorithmProblem_none.mpr entry.algorithmValid⟩
  status : field "status" (.ok .active) readStatus members = .ok entry.status
  notBefore : field "not_before" (.ok none) (optional (readDatetime env)) members = .ok entry.notBefore
  notAfter : field "not_after" (.ok none) (optional (readDatetime env)) members = .ok entry.notAfter
  signerIdentity : field "signer_identity" (.ok ⟨none, rfl⟩) (readLine env) members =
    .ok ⟨entry.signerIdentity, lineProblem_none.mpr entry.identityValid⟩
  scope : field "scope_model_id_patterns" (.ok ⟨[], rfl⟩) (readScope env) members =
    .ok ⟨entry.scopeModelIdPatterns, scopeProblem_none.mpr entry.scopeValid⟩
  label : field "label" (.ok ⟨none, rfl⟩) (readLine env) members =
    .ok ⟨entry.label, lineProblem_none.mpr entry.labelValid⟩
  known : ∀ e ∈ members, e.1 ∈ entryKeys

theorem TrustedKeyEntry.modelValidate_ok {members : List (Str × Json F)} {entry : TrustedKeyEntry} :
    modelValidate env (.obj members) = .ok entry ↔ EntryRead env members entry := by
  unfold modelValidate entryFields
  dsimp only
  simp only [Fallible.bind_ok, entryOf_ok, exists_eq_right, both_ok, noExtra_ok, TrustedKeyEntry.fields]
  constructor
  · intro ⟨h1, h2, h3, h4, h5, h6, h7, h8, known⟩
    exact ⟨h1, h2, h3, h4, h5, h6, h7, h8, known⟩
  · intro r
    exact ⟨r.keyId, r.algorithm, r.status, r.notBefore, r.notAfter, r.signerIdentity, r.scope, r.label, r.known⟩

end ModelGuard.Signing
