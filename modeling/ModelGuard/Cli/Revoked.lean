import ModelGuard.Cli.Trust

/-!
# The record of a revocation

`add-key`, `retire-key` and `revoke-key` keep the entry of a revoked key, but `retire-key` does not look at the
status that it overwrites.
-/

namespace ModelGuard.Cli

open Lib Lib.Fallible Lib.Validation ModelGuard.Signing

variable {F : Type} {env : TrustFileEnv F} {K : Str}

/-- The configuration has an entry for the key, with this status. -/
def HasStanding (config : TrustConfig) (K : Str) (status : TrustedKeyStatus) : Prop :=
  (K, status) ∈ config.keys.map (·.standing)

/-- The file is what the configuration was saved as, or it loads as the configuration. -/
def Represents (env : TrustFileEnv F) (bytes : Bytes) (config : TrustConfig) : Prop :=
  bytes = asciiBytes (config.yamlText env) ∨ ∃ path, loadTrustConfigFile env path (.ok bytes) = .ok config

/-- The file has an entry for the key, with this status. -/
def Records (env : TrustFileEnv F) (K : Str) (status : TrustedKeyStatus) (file : Option Bytes) : Prop :=
  ∃ bytes config, file = some bytes ∧ Represents env bytes config ∧ HasStanding config K status

/-- `retire-key` for the key, however its fingerprint is spelled. -/
def TrustCommand.Retiring (env : TrustEnv F) (K : Str) : TrustCommand → Prop
  | .retireKey keyId _ => normalize env keyId = K
  | _ => False

/-- The file after some commands, whether they succeed or fail. -/
def filesAfter (env : TrustFileEnv F) (file : Option Bytes) (calls : List Invocation) : Option Bytes :=
  calls.foldl (fun file call => call.next env file) file

/-! ### A file has one standing of a key -/

theorem load_any_path {path path' : Str} {bytes : Bytes} {config : TrustConfig}
    (loaded : loadTrustConfigFile env path (.ok bytes) = .ok config) :
    loadTrustConfigFile env path' (.ok bytes) = .ok config := by
  unfold loadTrustConfigFile parseTrustConfig at loaded ⊢
  dsimp only at loaded ⊢
  simp only [bind_ok, ensure_ok, orRaise_ok] at loaded ⊢
  obtain ⟨u, small, text, decoded, parsed⟩ := loaded
  refine ⟨u, small, text, decoded, ?_⟩
  split at parsed
  · cases parsed
  · cases parsed
  · split at parsed
    · exact parsed
    · cases parsed
  · split at parsed <;> cases parsed

theorem standing_of_dump {entry entry' : TrustedKeyEntry}
    (same : entry.modelDumpExcludeNone env.toTrustEnv = entry'.modelDumpExcludeNone env.toTrustEnv) :
    entry.standing = entry'.standing := by
  have shown (entry : TrustedKeyEntry) :
      (entry.presentMembers env.toTrustEnv).lookup (str "key_id") = some (.str entry.keyId) ∧
        (entry.presentMembers env.toTrustEnv).lookup (str "status") = some (.str (str entry.status.value)) := by
    have dump := entry.presentMembers_dumpOf env.toTrustEnv
    constructor
    · rcases dump.lookup (str "key_id", .str entry.keyId) (by simp [TrustedKeyEntry.members]) with found | ⟨null, -⟩
      · exact found
      · cases null
    · rcases dump.lookup (str "status", .str (str entry.status.value)) (by simp [TrustedKeyEntry.members]) with
        found | ⟨null, -⟩
      · exact found
      · cases null
  have members : entry.presentMembers env.toTrustEnv = entry'.presentMembers env.toTrustEnv := Json.obj.inj same
  obtain ⟨keyId, status⟩ := shown entry
  obtain ⟨keyId', status'⟩ := shown entry'
  rw [members] at keyId status
  have texts := Json.str.inj (Option.some.inj (status.symm.trans status'))
  have stands := readStatus_value (F := F) entry.status
  rw [texts, readStatus_value] at stands
  exact Prod.ext (Json.str.inj (Option.some.inj (keyId.symm.trans keyId'))) (Except.ok.inj stands).symm

theorem standings_of_dump {config config' : TrustConfig}
    (same : config.modelDump env.toTrustEnv = config'.modelDump env.toTrustEnv) :
    config.keys.map (·.standing) = config'.keys.map (·.standing) := by
  unfold TrustConfig.modelDump configDocument at same
  have keys : (config.keys.map fun key => key.modelDumpExcludeNone env.toTrustEnv) =
      config'.keys.map fun key => key.modelDumpExcludeNone env.toTrustEnv := by
    have fields := Json.obj.inj same
    simp only [List.cons.injEq, Prod.mk.injEq, true_and, and_true, Json.arr.injEq] at fields
    exact fields.2
  generalize config.keys = entries at keys ⊢
  generalize config'.keys = entries' at keys ⊢
  induction entries generalizing entries' with
  | nil =>
    rw [List.map_eq_nil_iff.mp keys.symm]
  | cons entry entries ih =>
    cases entries' with
    | nil => cases keys
    | cons entry' entries' =>
      obtain ⟨first, rest⟩ := List.cons.inj keys
      rw [List.map_cons, List.map_cons, standing_of_dump first, ih _ rest]

theorem represents_standings (yaml : YamlReadsBack env) {bytes : Bytes} {config config' : TrustConfig}
    (first : Represents env bytes config) (second : Represents env bytes config') :
    config.keys.map (·.standing) = config'.keys.map (·.standing) := by
  have reread {config config' : TrustConfig} {path : Str}
      (loaded : loadTrustConfigFile env path (.ok (asciiBytes (config.yamlText env))) = .ok config') :
      config'.keys.map (·.standing) = config.keys.map (·.standing) :=
    modelValidate_standings env.toTrustEnv presentDumps_entry ((load_saved yaml).mp loaded).2
  rcases first with saved | ⟨path, loaded⟩
  · subst saved
    rcases second with saved | ⟨path, loaded⟩
    · have text := asciiBytes_injOn (yaml.ascii config) (yaml.ascii config') saved
      have document := yaml.reads config
      rw [text, yaml.reads config'] at document
      exact standings_of_dump (Except.ok.inj document).symm
    · exact (reread loaded).symm
  · rcases second with saved | ⟨path', loaded'⟩
    · subst saved
      exact reread loaded
    · have same := (load_any_path loaded).symm.trans loaded'
      cases same
      rfl

theorem one_standing {config : TrustConfig} {status status' : TrustedKeyStatus} (first : HasStanding config K status)
    (second : HasStanding config K status') : status = status' := by
  obtain ⟨key, mem, same⟩ := List.mem_map.mp first
  obtain ⟨key', mem', same'⟩ := List.mem_map.mp second
  obtain ⟨named, stands⟩ := Prod.mk.inj same
  obtain ⟨named', stands'⟩ := Prod.mk.inj same'
  have equal := entry_unique mem mem' (named.trans named'.symm)
  subst equal
  exact stands.symm.trans stands'

theorem records_unique (yaml : YamlReadsBack env) {status status' : TrustedKeyStatus} {file : Option Bytes}
    (first : Records env K status file) (second : Records env K status' file) : status = status' := by
  obtain ⟨bytes, config, present, represents, stands⟩ := first
  obtain ⟨bytes', config', present', represents', stands'⟩ := second
  have same := Option.some.inj (present.symm.trans present')
  subst same
  unfold HasStanding at stands'
  rw [← represents_standings yaml represents represents'] at stands'
  exact one_standing stands stands'

/-! ### What one command does to the record -/

section Update

variable {env : TrustEnv F} {config updated : TrustConfig} {status : TrustedKeyStatus}

theorem replaceKey_hasStanding {keyId : Str} {entry : Option TrustedKeyEntry}
    (h : replaceKey env config keyId entry = .ok updated) (other : normalize env keyId ≠ K)
    (stands : HasStanding config K status) : HasStanding updated K status := by
  unfold HasStanding
  rw [replaceKey_standings h]
  obtain ⟨key, mem, same⟩ := List.mem_map.mp stands
  refine List.mem_map.mpr ⟨key, List.mem_append_left _ (List.mem_filter.mpr ⟨mem, ?_⟩), same⟩
  have named : key.keyId = K := congrArg Prod.fst same
  simpa [named] using Ne.symm other

theorem replaceKey_newStanding {keyId : Str} {entry : TrustedKeyEntry} (h : replaceKey env config keyId (some entry) = .ok updated)
    (standing : entry.standing = (K, status)) : HasStanding updated K status := by
  unfold HasStanding
  rw [replaceKey_standings h, ← standing]
  exact List.mem_map_of_mem (List.mem_append_right _ List.mem_cons_self)

theorem update_revoked {command : TrustCommand} (kept : ¬command.Removing env K) (spared : ¬command.Retiring env K)
    (stands : HasStanding config K .revoked) (h : command.update env config = .ok updated) :
    HasStanding updated K .revoked := by
  cases command with
  | addKey keyId algorithm status notBefore notAfter signerIdentity scopePatterns label =>
    unfold TrustCommand.update at h
    obtain ⟨entry, -, h⟩ := bind_ok.mp h
    unfold HasStanding
    rw [modelValidate_standings env dumps_entry (validated_ok.mp h), List.map_append]
    exact List.mem_append_left _ stands
  | retireKey keyId notAfter =>
    obtain ⟨entry, replaced, -⟩ := update_retire h
    exact replaceKey_hasStanding replaced spared stands
  | revokeKey keyId =>
    obtain ⟨entry, replaced, standing⟩ := update_revoke h
    by_cases same : normalize env keyId = K
    · rw [same] at standing
      exact replaceKey_newStanding replaced standing
    · exact replaceKey_hasStanding replaced same stands
  | removeKey keyId => exact replaceKey_hasStanding h kept stands

end Update

theorem load_hasStanding (yaml : YamlReadsBack env) {status : TrustedKeyStatus} {call : Invocation} {file : Option Bytes}
    {config : TrustConfig} (records : Records env K status file) (loaded : call.load env file = .ok config) :
    HasStanding config K status := by
  obtain ⟨bytes, old, present, represents, stands⟩ := records
  subst present
  have read := raises_ok.mp loaded
  cases failure : call.readError with
  | none =>
    rw [failure] at read
    unfold HasStanding at stands ⊢
    rwa [represents_standings yaml (Or.inr ⟨call.path, read⟩) represents]
  | some strerror =>
    rw [failure] at read
    cases read

theorem records_saved (yaml : YamlReadsBack env) {status : TrustedKeyStatus} {config : TrustConfig} {disk : Except Raised Unit}
    {bytes : Bytes} (saved : saveTrustConfigFile env config disk = .ok bytes) (stands : HasStanding config K status) :
    Records env K status (some bytes) :=
  ⟨bytes, config, rfl, Or.inl ((save_ok yaml).mp saved).2, stands⟩

/-- A command that neither removes nor retires the key, or that fails, keeps the record of its revocation. -/
theorem next_records (yaml : YamlReadsBack env) {call : Invocation} {file : Option Bytes}
    (kept : ¬call.command.Removing env.toTrustEnv K) (records : Records env K .revoked file)
    (spared : ¬(call.command.Retiring env.toTrustEnv K ∧ ∃ bytes, call.run env file = .ok bytes)) :
    Records env K .revoked (call.next env file) := by
  unfold Invocation.next
  cases ran : call.run env file with
  | error e => exact records
  | ok bytes =>
    obtain ⟨config, updated, loaded, changed, saved⟩ := run_ok ran
    have spared : ¬call.command.Retiring env.toTrustEnv K := fun retiring => spared ⟨retiring, bytes, ran⟩
    exact records_saved yaml saved (update_revoked kept spared (load_hasStanding yaml records loaded) changed)

/-- A key that was retired is recorded as retired, whatever it was before. -/
theorem next_retired (yaml : YamlReadsBack env) {call : Invocation} {file : Option Bytes}
    (retiring : call.command.Retiring env.toTrustEnv K) {bytes : Bytes} (ran : call.run env file = .ok bytes) :
    Records env K .retired (call.next env file) := by
  unfold Invocation.next
  rw [ran]
  obtain ⟨config, updated, -, changed, saved⟩ := run_ok ran
  cases same : call.command with
  | retireKey keyId notAfter =>
    rw [same] at changed retiring
    obtain ⟨entry, replaced, standing⟩ := update_retire changed
    rw [show normalize env.toTrustEnv keyId = K from retiring] at standing
    exact records_saved yaml saved (replaceKey_newStanding replaced standing)
  | addKey =>
    rw [same] at retiring
    exact retiring.elim
  | revokeKey =>
    rw [same] at retiring
    exact retiring.elim
  | removeKey =>
    rw [same] at retiring
    exact retiring.elim

theorem rotated_recorded {texts : List (Json AwareDatetime × Str)} (status : TrustedKeyStatus) :
    Records (sampleFileEnv texts) rotatedKeyId status
      (some (asciiBytes ((rotatedConfig status).yamlText (sampleFileEnv texts)))) :=
  ⟨_, rotatedConfig status, rfl, Or.inl rfl, List.mem_cons_self⟩

theorem update_retire_present {env : TrustEnv F} {config : TrustConfig} {entry : TrustedKeyEntry} {keyId : Str}
    (mem : entry ∈ config.keys) (spelled : normalize env keyId = entry.keyId) (unbounded : entry.notAfter = none)
    (reads : ∀ key ∈ config.keys, key.MomentsReadBack env) :
    (TrustCommand.retireKey keyId none).update env config = .ok (restated config entry .retired) := by
  have made : updatedEntry env entry [(str "status", some (.str (str TrustedKeyStatus.retired.value))),
      (str "not_after", none)] = .ok (withStatus entry .retired) := by
    have members : applyOverride (entry.presentMembers env)
        (str "status", some (.str (str TrustedKeyStatus.retired.value))) =
          (withStatus entry .retired).presentMembers env := presentMembers_withStatus env entry .retired
    have absent : applyOverride ((withStatus entry .retired).presentMembers env) (str "not_after", none) =
        (withStatus entry .retired).presentMembers env := by
      refine List.filter_eq_self.mpr fun e inside => ?_
      obtain ⟨listed, present⟩ := List.mem_filter.mp inside
      have distinct : (((withStatus entry .retired).members env).map Prod.fst).Nodup := entryKeys_nodup
      apply decide_eq_true
      intro same
      have null : (withStatus entry .retired).notAfter = none := unbounded
      have expiry : (str "not_after", Json.null) ∈ (withStatus entry .retired).members env := by
        simp [TrustedKeyEntry.members, null, orNull]
      have value := Dict.lookup_of_mem distinct expiry
      have looked := Dict.lookup_of_mem distinct listed
      rw [show e.1 = str "not_after" from same, value] at looked
      rw [← Option.some.inj looked] at present
      cases present
    unfold updatedEntry
    rw [List.foldl_cons, members, List.foldl_cons, absent]
    exact (modelValidate_dumpExcludeNone env).mpr (reads entry mem)
  unfold TrustCommand.update
  dsimp only
  rw [findEntry_present mem spelled]
  refine bind_ok.mpr ⟨entry, rfl, bind_ok.mpr ⟨withStatus entry .retired, ?_, replaceKey_present mem spelled reads .retired⟩⟩
  show validated (updatedEntry env entry [(str "status", some (.str (str TrustedKeyStatus.retired.value))),
    (str "not_after", entry.notAfter.map env.object)]) = _
  rw [unbounded]
  exact validated_ok.mpr made

/-- A key without an expiry can be retired. -/
theorem run_retire (yaml : YamlReadsBack env) {config : TrustConfig} {entry : TrustedKeyEntry} {keyId path : Str}
    (small : (config.yamlText env).length ≤ maxTrustConfigBytes) (mem : entry ∈ config.keys)
    (spelled : normalize env.toTrustEnv keyId = entry.keyId) (unbounded : entry.notAfter = none)
    (reads : ∀ key ∈ config.keys, key.MomentsReadBack env.toTrustEnv) :
    Invocation.run env ⟨.retireKey keyId none, path, none, .ok ()⟩ (some (asciiBytes (config.yamlText env))) =
      .ok (asciiBytes ((restated config entry .retired).yamlText env)) := by
  have loaded : loadTrustConfigFile env path (.ok (asciiBytes (config.yamlText env))) = .ok config :=
    (load_saved yaml).mpr ⟨small, (TrustConfig.modelValidate_modelDump env.toTrustEnv).mpr reads⟩
  have changed := update_retire_present mem spelled unbounded reads
  unfold Invocation.run
  refine bind_ok.mpr ⟨config, raises_ok.mpr loaded, bind_ok.mpr ⟨_, changed, ?_⟩⟩
  exact raises_ok.mpr ((save_ok yaml).mpr ⟨rfl, rfl⟩)

/-- The texts of the file with the key revoked, and with the key retired after that. -/
def overwrittenTexts : List (Json AwareDatetime × Str) :=
  [((rotatedConfig .revoked).modelDump sampleTrustEnv, rotatedText .revoked),
    ((rotatedConfig .retired).modelDump sampleTrustEnv, rotatedText .retired)]

theorem overwrittenTexts_known : KnownTexts overwrittenTexts where
  ascii := by
    unfold overwrittenTexts
    simp only [List.forall_mem_cons, List.not_mem_nil, false_implies, implies_true, and_true]
    decide
  mapping := by
    unfold overwrittenTexts
    simp only [List.forall_mem_cons, List.not_mem_nil, false_implies, implies_true, and_true]
    decide
  distinct := by
    unfold overwrittenTexts
    decide
  long := by
    unfold overwrittenTexts
    simp only [List.forall_mem_cons, List.not_mem_nil, false_implies, implies_true, and_true]
    decide +kernel

noncomputable def overwrittenEnv : TrustFileEnv AwareDatetime := sampleFileEnv overwrittenTexts

def retireRotated : Invocation where
  command := .retireKey rotatedKeyId none
  path := str "trust.yaml"
  readError := none
  disk := .ok ()

end ModelGuard.Cli
