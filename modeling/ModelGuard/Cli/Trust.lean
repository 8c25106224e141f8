import ModelGuard.Lib.Transition
import ModelGuard.Signing.TrustFile

/-!
# `modelguard trust`: the rotation commands

Each command loads the file, changes one entry, validates the whole configuration again and saves it. A
command that fails leaves the file as it was.
-/

namespace ModelGuard.Cli

open Lib Lib.Fallible Lib.Validation ModelGuard.Signing

variable {F : Type}

inductive TrustCommand where
  | addKey (keyId : Str) (algorithm : Option Str) (status : TrustedKeyStatus)
      (notBefore notAfter signerIdentity : Option Str) (scopePatterns : List Str) (label : Option Str)
  | retireKey (keyId : Str) (notAfter : Option Str)
  | revokeKey (keyId : Str)
  | removeKey (keyId : Str)

/-- How a command fails: in the parser of the command line, or with what its handlers render. -/
inductive CommandError where
  | usage
  | raised (e : Raised)
  | validation (found : List Problem)
  | noEntry (keyId : Str)

/-- `_render_error`, and the handler of `StopIteration`. The command line parser has texts of its own. -/
def CommandError.render : CommandError → Option Str
  | .usage => none
  | .raised e => some e.message
  | .validation found => some (str "invalid trust configuration (" ++ Validation.render found ++ str ")")
  | .noEntry keyId => some (str "No entry with fingerprint " ++ keyId ++ str " exists.")

def validated {α : Type} : Validated α → Except CommandError α
  | .ok a => .ok a
  | .error found => .error (.validation found)

def raises {α : Type} : Except Raised α → Except CommandError α
  | .ok a => .ok a
  | .error e => .error (.raised e)

section Entries

variable (env : TrustEnv F)

/-- `base[key] = value`. -/
def setMember (key : Str) (value : Json F) : List (Str × Json F) → List (Str × Json F)
  | [] => [(key, value)]
  | e :: base => if e.1 = key then (key, value) :: base else e :: setMember key value base

/-- One round of the loop over the overrides: `None` removes the member. -/
def applyOverride (base : List (Str × Json F)) (change : Str × Option (Json F)) : List (Str × Json F) :=
  match change.2 with
  | none => base.filter fun e => e.1 ≠ change.1
  | some value => setMember change.1 value base

/-- `_updated_entry`. -/
def updatedEntry (current : TrustedKeyEntry) (overrides : List (Str × Option (Json F))) : Validated TrustedKeyEntry :=
  TrustedKeyEntry.modelValidate env (.obj (overrides.foldl applyOverride (current.presentMembers env)))

/-- `_replace_key`. -/
def replaceKey (config : TrustConfig) (keyId : Str) (updated : Option TrustedKeyEntry) :
    Except CommandError TrustConfig := do
  let normalized := normalize env keyId
  let remaining := config.keys.filter fun key => key.keyId ≠ normalized
  ensure (remaining.length ≠ config.keys.length) (.raised (trustConfigurationError
    (str "No entry with fingerprint " ++ normalized ++ str " exists in this trust configuration.")))
  validated (TrustConfig.modelValidate env (configDocument config.version
    ((remaining ++ updated.toList).map fun key => key.modelDump env)))

/-- The document that `add-key` makes of its arguments. -/
def argumentMembers (keyId : Str) (algorithm : Option Str) (status : TrustedKeyStatus)
    (notBefore notAfter signerIdentity : Option Str) (scopePatterns : List Str) (label : Option Str) :
    List (Str × Json F) :=
  [(str "key_id", .str keyId), (str "algorithm", orNull .str algorithm), (str "status", .str (str status.value)),
    (str "not_before", orNull .str notBefore), (str "not_after", orNull .str notAfter),
    (str "signer_identity", orNull .str signerIdentity), (str "scope_model_id_patterns", .arr (scopePatterns.map .str)),
    (str "label", orNull .str label)]

/-- `next(key for key in config.keys if key.key_id == _normalize(key_id))`. -/
def findEntry (config : TrustConfig) (keyId : Str) : Except CommandError TrustedKeyEntry :=
  orRaise (.noEntry (normalize env keyId)) (config.keys.find? fun key => key.keyId = normalize env keyId)

/-- What each command makes of the loaded configuration. -/
def TrustCommand.update (config : TrustConfig) : TrustCommand → Except CommandError TrustConfig
  | .addKey keyId algorithm status notBefore notAfter signerIdentity scopePatterns label => do
    let entry ← validated (TrustedKeyEntry.modelValidate env (.obj (argumentMembers keyId algorithm status notBefore
      notAfter signerIdentity scopePatterns label)))
    validated (TrustConfig.modelValidate env (configDocument config.version
      ((config.keys ++ [entry]).map fun key => key.modelDump env)))
  | .retireKey keyId notAfter => do
    let current ← findEntry env config keyId
    let stop := match notAfter.filter fun s => !s.isEmpty with
      | some s => some (.str s)
      | none => current.notAfter.map env.object
    let entry ← validated (updatedEntry env current
      [(str "status", some (.str (str TrustedKeyStatus.retired.value))), (str "not_after", stop)])
    replaceKey env config keyId (some entry)
  | .revokeKey keyId => do
    let current ← findEntry env config keyId
    let entry ← validated (updatedEntry env current
      [(str "status", some (.str (str TrustedKeyStatus.revoked.value)))])
    replaceKey env config keyId (some entry)
  | .removeKey keyId => replaceKey env config keyId none

end Entries

/-- One run of a command: how reading the file and writing it go, besides. -/
structure Invocation where
  command : TrustCommand
  path : Str
  /-- The text of an `OSError`, when the file cannot be read. -/
  readError : Option Str
  disk : Except Raised Unit

variable (env : TrustFileEnv F)

def readFile (bytes : Bytes) : Option Str → Except Str Bytes
  | none => .ok bytes
  | some strerror => .error strerror

/-- The configuration that a command starts from. Only `add-key` accepts a path that does not exist. -/
def Invocation.load (call : Invocation) (file : Option Bytes) : Except CommandError TrustConfig :=
  match file, call.command with
  | some bytes, _ => raises (loadTrustConfigFile env call.path (readFile bytes call.readError))
  | none, .addKey .. => .ok emptyConfig
  | none, _ => .error .usage

/-- The file after a command that succeeds. -/
def Invocation.run (call : Invocation) (file : Option Bytes) : Except CommandError Bytes := do
  let config ← call.load env file
  let updated ← call.command.update env.toTrustEnv config
  raises (saveTrustConfigFile env updated call.disk)

def Invocation.next (call : Invocation) (file : Option Bytes) : Option Bytes :=
  match call.run env file with
  | .ok bytes => some bytes
  | .error _ => file

/-! ### What a command does to the standing of a key -/

section Standing

variable {env : TrustEnv F} {config updated : TrustConfig} {K : Str}

/-- The configuration has an entry for the key that is not active. -/
def Distrusts (config : TrustConfig) (K : Str) : Prop := ∃ key ∈ config.keys, key.keyId = K ∧ key.status ≠ .active

/-- `retire-key` or `revoke-key` for the key, however its fingerprint is spelled. -/
def TrustCommand.Distrusting (env : TrustEnv F) (K : Str) : TrustCommand → Prop
  | .retireKey keyId _ => normalize env keyId = K
  | .revokeKey keyId => normalize env keyId = K
  | _ => False

def TrustCommand.Removing (env : TrustEnv F) (K : Str) : TrustCommand → Prop
  | .removeKey keyId => normalize env keyId = K
  | _ => False

theorem validated_ok {α : Type} {x : Validated α} {a : α} : validated x = .ok a ↔ x = .ok a := by
  cases x with
  | ok b => exact ⟨fun h => congrArg Except.ok (Except.ok.inj h), fun h => congrArg Except.ok (Except.ok.inj h)⟩
  | error found => exact ⟨nofun, nofun⟩

theorem raises_ok {α : Type} {x : Except Raised α} {a : α} : raises x = .ok a ↔ x = .ok a := by
  cases x with
  | ok b => exact ⟨fun h => congrArg Except.ok (Except.ok.inj h), fun h => congrArg Except.ok (Except.ok.inj h)⟩
  | error e => exact ⟨nofun, nofun⟩

theorem distrusts_iff : Distrusts config K ↔ ∃ standing ∈ config.keys.map (·.standing),
    standing.1 = K ∧ standing.2 ≠ .active := by
  simp [Distrusts, TrustedKeyEntry.standing]

theorem dumps_entry (entry : TrustedKeyEntry) :
    ∃ members, entry.modelDump env = .obj members ∧ DumpOf env entry members :=
  ⟨_, rfl, entry.members_dumpOf env⟩

theorem presentDumps_entry (entry : TrustedKeyEntry) :
    ∃ members, entry.modelDumpExcludeNone env = .obj members ∧ DumpOf env entry members :=
  ⟨_, rfl, entry.presentMembers_dumpOf env⟩

theorem lookup_setMember_same {key : Str} {value : Json F} {base : List (Str × Json F)} :
    (setMember key value base).lookup key = some value := by
  induction base with
  | nil => exact List.lookup_cons_self
  | cons e base ih =>
    unfold setMember
    split
    · exact List.lookup_cons_self
    · rename_i other
      rw [Dict.lookup_cons, if_neg (Ne.symm other), ih]

theorem lookup_setMember_other {key other : Str} (different : other ≠ key) {value : Json F} {base : List (Str × Json F)} :
    (setMember key value base).lookup other = base.lookup other := by
  induction base with
  | nil => simp [setMember, Dict.lookup_cons, different]
  | cons e base ih =>
    unfold setMember
    split
    · rename_i same
      rw [Dict.lookup_cons, if_neg different, Dict.lookup_cons, if_neg (same ▸ different)]
    · rw [Dict.lookup_cons, Dict.lookup_cons, ih]

theorem lookup_filter_other {key other : Str} (different : other ≠ key) {base : List (Str × Json F)} :
    (base.filter fun e => e.1 ≠ key).lookup other = base.lookup other := by
  induction base with
  | nil => rfl
  | cons e base ih =>
    rw [List.filter_cons]
    split
    · rw [Dict.lookup_cons, Dict.lookup_cons, ih]
    · rename_i same
      have same : e.1 = key := by simpa using same
      rw [ih, Dict.lookup_cons, if_neg (same ▸ different)]

theorem lookup_applyOverride_other {other : Str} {base : List (Str × Json F)} {change : Str × Option (Json F)}
    (different : other ≠ change.1) : (applyOverride base change).lookup other = base.lookup other := by
  unfold applyOverride
  split
  · exact lookup_filter_other different
  · exact lookup_setMember_other different

theorem lookup_overrides_other {key : Str} {overrides : List (Str × Option (Json F))}
    (different : ∀ change ∈ overrides, key ≠ change.1) (base : List (Str × Json F)) :
    (overrides.foldl applyOverride base).lookup key = base.lookup key := by
  induction overrides generalizing base with
  | nil => rfl
  | cons change overrides ih =>
    obtain ⟨first, rest⟩ := List.forall_mem_cons.mp different
    rw [List.foldl_cons, ih rest, lookup_applyOverride_other first]

/-- The fingerprint stays and the status is the new one, whatever is done to the expiry. -/
theorem updatedEntry_standing {current entry : TrustedKeyEntry} {status : TrustedKeyStatus}
    {others : List (Str × Option (Json F))} (expiry : ∀ change ∈ others, change.1 = str "not_after")
    (read : updatedEntry env current ((str "status", some (.str (str status.value))) :: others) = .ok entry) :
    entry.standing = (current.keyId, status) := by
  have keyIdApart : str "key_id" ≠ str "not_after" := by decide
  have statusApart : str "status" ≠ str "not_after" := by decide
  have keyIdStatus : str "key_id" ≠ str "status" := by decide
  unfold updatedEntry at read
  rw [TrustedKeyEntry.modelValidate_ok, List.foldl_cons] at read
  have keyId : entry.keyId = normalize env current.keyId := by
    refine read.keyId_of_text env ?_
    rw [lookup_overrides_other fun change mem => expiry change mem ▸ keyIdApart, lookup_applyOverride_other keyIdStatus]
    refine ((current.presentMembers_dumpOf env).lookup (str "key_id", .str current.keyId) ?_).resolve_right
      fun null => nomatch null.1
    simp [TrustedKeyEntry.members]
  have found : entry.status = status := by
    refine read.status_of_text env ?_
    rw [lookup_overrides_other fun change mem => expiry change mem ▸ statusApart]
    exact lookup_setMember_same
  exact Prod.ext (keyId.trans (normalize_fingerprint env current.keyIdValid)) found

theorem findEntry_ok {keyId : Str} {current : TrustedKeyEntry} (h : findEntry env config keyId = .ok current) :
    current.keyId = normalize env keyId := by
  have found := orRaise_ok.mp h
  simpa using List.find?_some found

theorem replaceKey_standings {keyId : Str} {entry : Option TrustedKeyEntry}
    (h : replaceKey env config keyId entry = .ok updated) :
    updated.keys.map (·.standing) =
      ((config.keys.filter fun key => key.keyId ≠ normalize env keyId) ++ entry.toList).map (·.standing) := by
  unfold replaceKey at h
  obtain ⟨_, -, h⟩ := bind_ok.mp h
  exact modelValidate_standings env dumps_entry (validated_ok.mp h)

/-- Replacing the entry of another key leaves a distrusted key distrusted. -/
theorem replaceKey_keeps {keyId : Str} {entry : Option TrustedKeyEntry}
    (h : replaceKey env config keyId entry = .ok updated) (other : normalize env keyId ≠ K)
    (distrusted : Distrusts config K) : Distrusts updated K := by
  obtain ⟨key, mem, named, inactive⟩ := distrusted
  rw [distrusts_iff, replaceKey_standings h]
  refine ⟨key.standing, List.mem_map_of_mem (List.mem_append_left _ (List.mem_filter.mpr ⟨mem, ?_⟩)), named, inactive⟩
  simpa [named] using Ne.symm other

/-- Replacing the entry of a key by one that is not active distrusts it. -/
theorem replaceKey_marks {keyId : Str} {entry : TrustedKeyEntry} {status : TrustedKeyStatus}
    (h : replaceKey env config keyId (some entry) = .ok updated) (standing : entry.standing = (K, status))
    (inactive : status ≠ .active) : Distrusts updated K := by
  rw [distrusts_iff, replaceKey_standings h]
  refine ⟨entry.standing, List.mem_map_of_mem (List.mem_append_right _ List.mem_cons_self), ?_⟩
  rw [standing]
  exact ⟨rfl, inactive⟩

/-- The replacement that `retire-key` and `revoke-key` make. -/
theorem replaced_by {keyId : Str} {current entry : TrustedKeyEntry} {status : TrustedKeyStatus}
    (found : findEntry env config keyId = .ok current) (standing : entry.standing = (current.keyId, status)) :
    entry.standing = (normalize env keyId, status) := by
  rw [standing, findEntry_ok found]

theorem update_retire {keyId : Str} {notAfter : Option Str}
    (h : (TrustCommand.retireKey keyId notAfter).update env config = .ok updated) :
    ∃ entry, replaceKey env config keyId (some entry) = .ok updated ∧ entry.standing = (normalize env keyId, .retired) := by
  unfold TrustCommand.update at h
  obtain ⟨current, found, h⟩ := bind_ok.mp h
  obtain ⟨entry, made, h⟩ := bind_ok.mp h
  refine ⟨entry, h, replaced_by found (updatedEntry_standing (fun change mem => ?_) (validated_ok.mp made))⟩
  rw [List.mem_singleton.mp mem]

theorem update_revoke {keyId : Str} (h : (TrustCommand.revokeKey keyId).update env config = .ok updated) :
    ∃ entry, replaceKey env config keyId (some entry) = .ok updated ∧ entry.standing = (normalize env keyId, .revoked) := by
  unfold TrustCommand.update at h
  obtain ⟨current, found, h⟩ := bind_ok.mp h
  obtain ⟨entry, made, h⟩ := bind_ok.mp h
  exact ⟨entry, h, replaced_by found (updatedEntry_standing (List.forall_mem_nil _) (validated_ok.mp made))⟩

theorem update_marks {command : TrustCommand} (marks : command.Distrusting env K)
    (h : command.update env config = .ok updated) : Distrusts updated K := by
  cases command with
  | retireKey keyId notAfter =>
    obtain ⟨entry, replaced, standing⟩ := update_retire h
    rw [marks] at standing
    exact replaceKey_marks replaced standing nofun
  | revokeKey keyId =>
    obtain ⟨entry, replaced, standing⟩ := update_revoke h
    rw [marks] at standing
    exact replaceKey_marks replaced standing nofun
  | addKey => exact marks.elim
  | removeKey => exact marks.elim

theorem update_keeps {command : TrustCommand} (kept : ¬ command.Removing env K) (distrusted : Distrusts config K)
    (h : command.update env config = .ok updated) : Distrusts updated K := by
  cases command with
  | addKey keyId algorithm status notBefore notAfter signerIdentity scopePatterns label =>
    unfold TrustCommand.update at h
    obtain ⟨entry, -, h⟩ := bind_ok.mp h
    rw [distrusts_iff, modelValidate_standings env dumps_entry (validated_ok.mp h)]
    obtain ⟨key, mem, named, inactive⟩ := distrusted
    exact ⟨key.standing, List.mem_map_of_mem (List.mem_append_left _ mem), named, inactive⟩
  | retireKey keyId notAfter =>
    by_cases same : normalize env keyId = K
    · have marks : (TrustCommand.retireKey keyId notAfter).Distrusting env K := same
      exact update_marks marks h
    · obtain ⟨entry, replaced, -⟩ := update_retire h
      exact replaceKey_keeps replaced same distrusted
  | revokeKey keyId =>
    by_cases same : normalize env keyId = K
    · have marks : (TrustCommand.revokeKey keyId).Distrusting env K := same
      exact update_marks marks h
    · obtain ⟨entry, replaced, -⟩ := update_revoke h
      exact replaceKey_keeps replaced same distrusted
  | removeKey keyId => exact replaceKey_keeps h kept distrusted

end Standing

/-! ### Runs of commands -/

variable {env} {K : Str}

/-- Whatever configuration the file holds distrusts the key. -/
def DistrustedFile (env : TrustFileEnv F) (K : Str) (file : Option Bytes) : Prop :=
  ∃ bytes, file = some bytes ∧
    ∀ path config, loadTrustConfigFile env path (.ok bytes) = .ok config → Distrusts config K

/-- What was saved distrusts the keys that the configuration in memory did. -/
theorem saved_distrusts (yaml : YamlReadsBack env) {config : TrustConfig} {disk : Except Raised Unit} {bytes : Bytes}
    (saved : saveTrustConfigFile env config disk = .ok bytes) (distrusted : Distrusts config K) :
    DistrustedFile env K (some bytes) := by
  refine ⟨bytes, rfl, fun path loaded load => ?_⟩
  obtain ⟨-, same⟩ := (save_ok yaml).mp saved
  subst same
  obtain ⟨-, read⟩ := (load_saved yaml).mp load
  rw [distrusts_iff, modelValidate_standings env.toTrustEnv presentDumps_entry read, ← distrusts_iff]
  exact distrusted

theorem run_ok {call : Invocation} {file : Option Bytes} {bytes : Bytes} (h : call.run env file = .ok bytes) :
    ∃ config updated, call.load env file = .ok config ∧ call.command.update env.toTrustEnv config = .ok updated ∧
      saveTrustConfigFile env updated call.disk = .ok bytes := by
  unfold Invocation.run at h
  obtain ⟨config, loaded, h⟩ := bind_ok.mp h
  obtain ⟨updated, changed, h⟩ := bind_ok.mp h
  exact ⟨config, updated, loaded, changed, raises_ok.mp h⟩

theorem load_distrusts {call : Invocation} {file : Option Bytes} {config : TrustConfig}
    (distrusted : DistrustedFile env K file) (loaded : call.load env file = .ok config) : Distrusts config K := by
  obtain ⟨bytes, present, holds⟩ := distrusted
  subst present
  have read := raises_ok.mp loaded
  cases failure : call.readError with
  | none => exact holds call.path config (by simpa [failure, readFile] using read)
  | some strerror =>
    rw [failure] at read
    cases read

/-- One command, other than a `remove-key` of this key that succeeds. -/
def Step (env : TrustFileEnv F) (K : Str) (file file' : Option Bytes) : Prop :=
  ∃ call : Invocation, file' = call.next env file ∧
    ¬ (call.command.Removing env.toTrustEnv K ∧ ∃ bytes, call.run env file = .ok bytes)

theorem step_keeps (yaml : YamlReadsBack env) {file file' : Option Bytes} (distrusted : DistrustedFile env K file)
    (step : Step env K file file') : DistrustedFile env K file' := by
  obtain ⟨call, next, kept⟩ := step
  subst next
  unfold Invocation.next
  cases ran : call.run env file with
  | error e => exact distrusted
  | ok bytes =>
    obtain ⟨config, updated, loaded, changed, saved⟩ := run_ok ran
    have stays := update_keeps (fun removing => kept ⟨removing, bytes, ran⟩) (load_distrusts distrusted loaded) changed
    exact saved_distrusts yaml saved stays

def withStatus (entry : TrustedKeyEntry) (status : TrustedKeyStatus) : TrustedKeyEntry := { entry with status }

theorem presentMembers_withStatus (env : TrustEnv F) (entry : TrustedKeyEntry) (status : TrustedKeyStatus) :
    setMember (str "status") (.str (str status.value)) (entry.presentMembers env) =
      (withStatus entry status).presentMembers env := by
  have keyId : str "key_id" ≠ str "status" := by decide
  have algorithm : str "algorithm" ≠ str "status" := by decide
  unfold TrustedKeyEntry.presentMembers TrustedKeyEntry.members withStatus
  dsimp only
  cases pinned : entry.algorithm with
  | none => simp [List.filter_cons, isPresent, orNull, setMember, keyId]
  | some name => simp [List.filter_cons, isPresent, orNull, setMember, keyId, algorithm]

/-- The configuration with the entry's status changed, and the entry moved to the end. -/
def restated (config : TrustConfig) (entry : TrustedKeyEntry) (status : TrustedKeyStatus) : TrustConfig where
  version := config.version
  keys := (config.keys.filter fun key => key.keyId ≠ entry.keyId) ++ [withStatus entry status]
  unique := by
    rw [List.map_append, List.nodup_append']
    refine ⟨config.unique.sublist (List.filter_sublist.map _), List.nodup_singleton _, ?_⟩
    intro keyId inRest inLast
    obtain ⟨key, mem, named⟩ := List.mem_map.mp inRest
    have other : key.keyId ≠ entry.keyId := by simpa using List.of_mem_filter mem
    exact other (named.trans (List.mem_singleton.mp inLast))

theorem findEntry_present {env : TrustEnv F} {config : TrustConfig} {entry : TrustedKeyEntry} {keyId : Str}
    (mem : entry ∈ config.keys) (spelled : normalize env keyId = entry.keyId) : findEntry env config keyId = .ok entry := by
  refine orRaise_ok.mpr ?_
  cases first : config.keys.find? fun key => key.keyId = normalize env keyId with
  | none => exact (List.find?_eq_none.mp first entry mem (by simp [spelled])).elim
  | some other =>
    have named : other.keyId = normalize env keyId := by simpa using List.find?_some first
    rw [entry_unique (List.mem_of_find?_eq_some first) mem (named.trans spelled)]

theorem replaceKey_present {env : TrustEnv F} {config : TrustConfig} {entry : TrustedKeyEntry} {keyId : Str}
    (mem : entry ∈ config.keys) (spelled : normalize env keyId = entry.keyId)
    (reads : ∀ key ∈ config.keys, key.MomentsReadBack env) (status : TrustedKeyStatus) :
    replaceKey env config keyId (some (withStatus entry status)) = .ok (restated config entry status) := by
  have shorter : ((config.keys.filter fun key => key.keyId ≠ normalize env keyId)).length ≠ config.keys.length := by
    intro same
    have all := List.length_filter_eq_length_iff.mp same entry mem
    simp [spelled] at all
  have document : TrustConfig.modelValidate env (configDocument config.version
      (((config.keys.filter fun key => key.keyId ≠ normalize env keyId) ++ [withStatus entry status]).map
        fun key => key.modelDump env)) = .ok (restated config entry status) := by
    rw [spelled, modelValidate_document, List.forall₂_map_left_iff]
    refine ⟨rfl, List.forall₂_same.mpr fun key inNew => (modelValidate_dump env).mpr ?_⟩
    rcases List.mem_append.mp inNew with old | last
    · exact reads key (List.mem_of_mem_filter old)
    · rw [List.mem_singleton.mp last]
      exact reads entry mem
  unfold replaceKey
  exact bind_ok.mpr ⟨(), ensure_ok.mpr shorter, validated_ok.mpr document⟩

theorem update_revoke_present {env : TrustEnv F} {config : TrustConfig} {entry : TrustedKeyEntry} {keyId : Str}
    (mem : entry ∈ config.keys) (spelled : normalize env keyId = entry.keyId)
    (reads : ∀ key ∈ config.keys, key.MomentsReadBack env) :
    (TrustCommand.revokeKey keyId).update env config = .ok (restated config entry .revoked) := by
  have made : updatedEntry env entry [(str "status", some (.str (str TrustedKeyStatus.revoked.value)))] =
      .ok (withStatus entry .revoked) := by
    have members : applyOverride (entry.presentMembers env)
        (str "status", some (.str (str TrustedKeyStatus.revoked.value))) =
          (withStatus entry .revoked).presentMembers env := presentMembers_withStatus env entry .revoked
    unfold updatedEntry
    rw [List.foldl_cons, members]
    exact (modelValidate_dumpExcludeNone env).mpr (reads entry mem)
  unfold TrustCommand.update
  dsimp only
  rw [findEntry_present mem spelled]
  refine bind_ok.mpr ⟨entry, rfl, bind_ok.mpr ⟨withStatus entry .revoked, validated_ok.mpr made, ?_⟩⟩
  exact replaceKey_present mem spelled reads .revoked

/-- A key of a configuration that loads can be revoked. -/
theorem run_revoke (yaml : YamlReadsBack env) {config : TrustConfig} {entry : TrustedKeyEntry} {keyId path : Str}
    (small : (config.yamlText env).length ≤ maxTrustConfigBytes) (mem : entry ∈ config.keys)
    (spelled : normalize env.toTrustEnv keyId = entry.keyId)
    (reads : ∀ key ∈ config.keys, key.MomentsReadBack env.toTrustEnv) :
    Invocation.run env ⟨.revokeKey keyId, path, none, .ok ()⟩ (some (asciiBytes (config.yamlText env))) =
      .ok (asciiBytes ((restated config entry .revoked).yamlText env)) := by
  have loaded : loadTrustConfigFile env path (.ok (asciiBytes (config.yamlText env))) = .ok config :=
    (load_saved yaml).mpr ⟨small, (TrustConfig.modelValidate_modelDump env.toTrustEnv).mpr reads⟩
  unfold Invocation.run
  refine bind_ok.mpr ⟨config, raises_ok.mpr loaded, bind_ok.mpr ⟨_, update_revoke_present mem spelled reads, ?_⟩⟩
  exact raises_ok.mpr ((save_ok yaml).mpr ⟨rfl, rfl⟩)

/-! ### A key that is revoked -/

def rotatedKeyId : Str := str "d744e1989bf0e5cf237c73cae73da03a7a3421e583bbfeeeb889d7cc1eab75fc"

def rotatedKey (status : TrustedKeyStatus) : TrustedKeyEntry where
  keyId := rotatedKeyId
  algorithm := none
  status := status
  notBefore := none
  notAfter := none
  signerIdentity := none
  scopeModelIdPatterns := []
  label := none
  keyIdValid := by decide
  algorithmValid := noScheme_valid
  windowValid := noWindow_valid
  identityValid := noLine_valid
  labelValid := noLine_valid
  scopeValid := noScope_valid

def rotatedConfig (status : TrustedKeyStatus) : TrustConfig where
  version := str "1"
  keys := [rotatedKey status]
  unique := List.nodup_singleton _

def rotatedText (status : TrustedKeyStatus) : Str :=
  str "version: '1'\nkeys:\n- key_id: " ++ rotatedKeyId ++ str "\n  status: " ++ str status.value ++
    str "\n  scope_model_id_patterns: []\n"

/-- The two texts of the file, before and after. -/
def rotatedTexts : List (Json AwareDatetime × Str) :=
  [((rotatedConfig .active).modelDump sampleTrustEnv, rotatedText .active),
    ((rotatedConfig .revoked).modelDump sampleTrustEnv, rotatedText .revoked)]

theorem rotatedTexts_known : KnownTexts rotatedTexts where
  ascii := by
    unfold rotatedTexts
    simp only [List.forall_mem_cons, List.not_mem_nil, false_implies, implies_true, and_true]
    decide
  mapping := by
    unfold rotatedTexts
    simp only [List.forall_mem_cons, List.not_mem_nil, false_implies, implies_true, and_true]
    decide
  distinct := by
    unfold rotatedTexts
    decide
  long := by
    unfold rotatedTexts
    simp only [List.forall_mem_cons, List.not_mem_nil, false_implies, implies_true, and_true]
    decide +kernel

noncomputable def rotatedEnv : TrustFileEnv AwareDatetime := sampleFileEnv rotatedTexts

/-- The spelling of the fingerprint does not matter. -/
def revokeRotated : Invocation where
  command := .revokeKey (str " SHA256:" ++ rotatedKeyId)
  path := str "trust.yaml"
  readError := none
  disk := .ok ()

theorem rotated_is_revoked :
    revokeRotated.run rotatedEnv (some (asciiBytes ((rotatedConfig .active).yamlText rotatedEnv))) =
      .ok (asciiBytes ((rotatedConfig .revoked).yamlText rotatedEnv)) := by
  have text : (rotatedConfig .active).yamlText rotatedEnv = rotatedText .active := by
    unfold TrustConfig.yamlText rotatedEnv sampleFileEnv textOf rotatedTexts
    simp
  have small : ((rotatedConfig .active).yamlText rotatedEnv).length ≤ maxTrustConfigBytes := by
    rw [text]
    decide +kernel
  have spelled : normalize sampleTrustEnv (str " SHA256:" ++ rotatedKeyId) = (rotatedKey .active).keyId := by decide +kernel
  have reads : ∀ key ∈ (rotatedConfig .active).keys, key.MomentsReadBack sampleTrustEnv := by
    intro key mem
    have same := List.mem_singleton.mp mem
    subst same
    exact ⟨nofun, nofun⟩
  exact run_revoke (sample_readsBack rotatedTexts_known) small List.mem_cons_self spelled reads

/-- An attempt to add the key again. -/
def addRotated : Invocation where
  command := .addKey (str "SHA256:" ++ rotatedKeyId) none .active none none none [] none
  path := str "trust.yaml"
  readError := none
  disk := .ok ()

end ModelGuard.Cli
