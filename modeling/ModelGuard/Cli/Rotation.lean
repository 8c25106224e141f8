import ModelGuard.Cli.Trust

/-!
# `modelguard trust`: what a rotation leaves alone

The new text is written under a temporary name and renamed into place, and the command then says what it
did. Only the entry of the key it names may differ in what it writes.
-/

namespace ModelGuard.Cli

open Lib Lib.Fallible Lib.Validation ModelGuard.Signing

variable {F : Type}

/-! ### The whole command -/

/-- The configuration file, and the file of the temporary name beside it. -/
structure TrustDirectory where
  file : Option Bytes
  temporary : Option Bytes

/-- How the system calls of a run go, and the terminal. -/
structure RotationSystem where
  write : Except Raised Unit
  /-- What a failing write leaves under the temporary name. -/
  torn : Option Bytes
  replace : Except Raised Unit
  unlink : Except Raised Unit
  echo : Str → Except Raised Unit

structure Rotation where
  command : TrustCommand
  path : Str
  readError : Option Str
  system : RotationSystem

/-- What `save_trust_config_file` tries: `write_text`, then `replace`. -/
def RotationSystem.tryWrite (system : RotationSystem) (text : Str) (dir : TrustDirectory) :
    Except Raised Unit × TrustDirectory :=
  match encodeUtf8 text with
  | none => (.error (.external (str "UnicodeEncodeError") text), { dir with temporary := some [] })
  | some bytes =>
    match system.write with
    | .error e => (.error e, { dir with temporary := system.torn })
    | .ok () =>
      match system.replace with
      | .error e => (.error e, { dir with temporary := some bytes })
      | .ok () => (.ok (), { file := some bytes, temporary := none })

/-- `save_trust_config_file`. An error of the `finally` block replaces the one before. -/
def RotationSystem.save (system : RotationSystem) (text : Str) (dir : TrustDirectory) :
    Except Raised Unit × TrustDirectory :=
  let tried := system.tryWrite text dir
  match system.unlink with
  | .error e => (.error e, tried.2)
  | .ok () => (tried.1, { tried.2 with temporary := none })

section Commands

variable (env : TrustEnv F)

/-- The fingerprint that a command names. -/
def TrustCommand.fingerprint : TrustCommand → Str
  | .addKey keyId .. => normalize env keyId
  | .retireKey keyId _ => normalize env keyId
  | .revokeKey keyId => normalize env keyId
  | .removeKey keyId => normalize env keyId

/-- What the command prints at its end. An entry that was accepted has the fingerprint as normalized. -/
def TrustCommand.confirmation (path : Str) (command : TrustCommand) : Str :=
  let keyId := command.fingerprint env
  match command with
  | .addKey _ _ status .. => str "Added " ++ keyId ++ str " [" ++ str status.value ++ str "] to " ++ path ++ str "."
  | .retireKey .. => str "Retired " ++ keyId ++ str " in " ++ path ++ str "."
  | .revokeKey _ => str "Revoked " ++ keyId ++ str " in " ++ path ++ str "."
  | .removeKey _ => str "Removed " ++ keyId ++ str " from " ++ path ++ str "."

end Commands

variable (env : TrustFileEnv F)

/-- The configuration to be written, and the one it was made of. -/
def Rotation.prepare (run : Rotation) (file : Option Bytes) : Except CommandError (TrustConfig × TrustConfig) := do
  let call : Invocation := { command := run.command, path := run.path, readError := run.readError, disk := .ok () }
  let config ← call.load env file
  let updated ← run.command.update env.toTrustEnv config
  return (config, updated)

/-- A rotation command from its start to its end. -/
def Rotation.execute (run : Rotation) (dir : TrustDirectory) : Except CommandError Unit × TrustDirectory :=
  match run.prepare env dir.file with
  | .error e => (.error e, dir)
  | .ok (_, updated) =>
    let saved := run.system.save (updated.yamlText env) dir
    match saved.1 with
    | .error e => (.error (.raised e), saved.2)
    | .ok () => (raises (run.system.echo (run.command.confirmation env.toTrustEnv run.path)), saved.2)

/-! ### The entries of the other keys -/

section Frame

variable {env : TrustEnv F} {config updated : TrustConfig} {K : Str}

/-- The same version, and the same entries in the same order for every key but one. -/
structure SameOthers (K : Str) (config updated : TrustConfig) : Prop where
  version : updated.version = config.version
  entries : (updated.keys.filter fun key => key.keyId ≠ K) = config.keys.filter fun key => key.keyId ≠ K

/-- The entries that a dump was read as: those whose moments read back, and then the rest. -/
theorem entries_reread {keys rest found : List TrustedKeyEntry} (reads : ∀ key ∈ keys, key.MomentsReadBack env)
    (entries : List.Forall₂ (fun key entry => TrustedKeyEntry.modelValidate env (key.modelDump env) = .ok entry)
      (keys ++ rest) found) :
    ∃ last, found = keys ++ last ∧
      List.Forall₂ (fun key entry => TrustedKeyEntry.modelValidate env (key.modelDump env) = .ok entry) rest last := by
  induction keys generalizing found with
  | nil => exact ⟨found, rfl, entries⟩
  | cons key keys ih =>
    obtain ⟨first, others⟩ := List.forall_mem_cons.mp reads
    cases entries with
    | cons read entries =>
      obtain ⟨last, same, tail⟩ := ih others entries
      have again := (modelValidate_dump env).mpr first
      rw [again] at read
      have same_key := Except.ok.inj read
      subst same_key same
      exact ⟨last, rfl, tail⟩

theorem entry_reread_keyId {key entry : TrustedKeyEntry}
    (read : TrustedKeyEntry.modelValidate env (key.modelDump env) = .ok entry) : entry.keyId = key.keyId := by
  have fields := (TrustedKeyEntry.modelValidate_ok env).mp read
  exact congrArg Prod.fst ((key.members_dumpOf env).standing env fields)

/-- A document of the old entries, followed by entries of one key. -/
theorem document_sameOthers {version : Str} {keys rest : List TrustedKeyEntry}
    (reads : ∀ key ∈ keys, key.MomentsReadBack env) (named : ∀ key ∈ rest, key.keyId = K)
    (read : TrustConfig.modelValidate env (configDocument version ((keys ++ rest).map fun key => key.modelDump env)) =
      .ok updated) :
    updated.version = version ∧
      (updated.keys.filter fun key => key.keyId ≠ K) = keys.filter fun key => key.keyId ≠ K := by
  obtain ⟨same, entries⟩ := (modelValidate_document env).mp read
  rw [List.forall₂_map_left_iff] at entries
  obtain ⟨last, made, tail⟩ := entries_reread reads entries
  refine ⟨same, ?_⟩
  have gone : (last.filter fun key => key.keyId ≠ K) = [] := by
    clear made read entries same
    induction tail with
    | nil => rfl
    | cons first _ ih =>
      obtain ⟨here, others⟩ := List.forall_mem_cons.mp named
      have there := (entry_reread_keyId first).trans here
      rw [List.filter_cons_of_neg (by simpa using there)]
      exact ih others
  rw [made, List.filter_append, gone, List.append_nil]

theorem replaceKey_sameOthers {keyId : Str} {entry : Option TrustedKeyEntry}
    (reads : ∀ key ∈ config.keys, key.MomentsReadBack env) (named : ∀ key ∈ entry, key.keyId = normalize env keyId)
    (h : replaceKey env config keyId entry = .ok updated) : SameOthers (normalize env keyId) config updated := by
  unfold replaceKey at h
  obtain ⟨_, -, h⟩ := bind_ok.mp h
  have kept : ∀ key ∈ config.keys.filter fun key => key.keyId ≠ normalize env keyId, key.MomentsReadBack env := by
    intro key mem
    exact reads key (List.mem_of_mem_filter mem)
  have last : ∀ key ∈ entry.toList, key.keyId = normalize env keyId := by
    intro key mem
    exact named key (Option.mem_toList.mp mem)
  obtain ⟨version, entries⟩ := document_sameOthers kept last (validated_ok.mp h)
  rw [List.filter_filter] at entries
  simp only [Bool.and_self] at entries
  exact ⟨version, entries⟩

theorem addedEntry_keyId {keyId : Str} {algorithm : Option Str} {status : TrustedKeyStatus}
    {notBefore notAfter signerIdentity : Option Str} {scopePatterns : List Str} {label : Option Str} {entry : TrustedKeyEntry}
    (read : TrustedKeyEntry.modelValidate env (.obj (argumentMembers keyId algorithm status notBefore notAfter
      signerIdentity scopePatterns label)) = .ok entry) : entry.keyId = normalize env keyId := by
  have fields := (TrustedKeyEntry.modelValidate_ok env).mp read
  exact fields.keyId_of_text env List.lookup_cons_self

/-- No command changes the entry of a key that it does not name. -/
theorem update_sameOthers {command : TrustCommand} (reads : ∀ key ∈ config.keys, key.MomentsReadBack env)
    (h : command.update env config = .ok updated) : SameOthers (command.fingerprint env) config updated := by
  cases command with
  | addKey keyId algorithm status notBefore notAfter signerIdentity scopePatterns label =>
    unfold TrustCommand.update at h
    obtain ⟨entry, made, h⟩ := bind_ok.mp h
    have named : ∀ key ∈ [entry], key.keyId = normalize env keyId := by
      intro key mem
      rw [List.mem_singleton.mp mem]
      exact addedEntry_keyId (validated_ok.mp made)
    obtain ⟨version, entries⟩ := document_sameOthers reads named (validated_ok.mp h)
    exact ⟨version, entries⟩
  | retireKey keyId notAfter =>
    obtain ⟨entry, replaced, standing⟩ := update_retire h
    apply replaceKey_sameOthers reads _ replaced
    intro key mem
    rw [← Option.mem_some.mp mem]
    exact congrArg Prod.fst standing
  | revokeKey keyId =>
    obtain ⟨entry, replaced, standing⟩ := update_revoke h
    apply replaceKey_sameOthers reads _ replaced
    intro key mem
    rw [← Option.mem_some.mp mem]
    exact congrArg Prod.fst standing
  | removeKey keyId => exact replaceKey_sameOthers reads (fun key mem => (Option.not_mem_none key mem).elim) h

/-- The verdict on a key depends on the entries for it only. -/
theorem SameOthers.evaluateTrust (same : SameOthers K config updated) (host : Host) {query : TrustQuery}
    (other : query.keyFingerprint ≠ K) : evaluateTrust host updated query = evaluateTrust host config query := by
  have narrow (keys : List TrustedKeyEntry) : (keys.filter fun key => key.keyId = query.keyFingerprint) =
      (keys.filter fun key => key.keyId ≠ K).filter fun key => key.keyId = query.keyFingerprint := by
    rw [List.filter_filter]
    refine List.filter_congr fun key _ => ?_
    by_cases asked : key.keyId = query.keyFingerprint
    · simp [asked, other]
    · simp [asked]
  unfold Signing.evaluateTrust
  rw [narrow updated.keys, same.entries, ← narrow config.keys]

end Frame

/-! ### A run leaves the file, or replaces it -/

variable {env}

theorem tryWrite_cases (system : RotationSystem) (text : Str) (dir : TrustDirectory) :
    (∃ e, (system.tryWrite text dir).1 = .error e) ∧ (system.tryWrite text dir).2.file = dir.file ∨
      ∃ bytes, encodeUtf8 text = some bytes ∧ (system.write = .ok () ∧ system.replace = .ok ()) ∧
        system.tryWrite text dir = (.ok (), { file := some bytes, temporary := none }) := by
  unfold RotationSystem.tryWrite
  split
  · exact Or.inl ⟨⟨_, rfl⟩, rfl⟩
  · rename_i bytes encoded
    split
    · exact Or.inl ⟨⟨_, rfl⟩, rfl⟩
    · rename_i written
      split
      · exact Or.inl ⟨⟨_, rfl⟩, rfl⟩
      · rename_i replaced
        exact Or.inr ⟨bytes, encoded, ⟨written, replaced⟩, rfl⟩

/-- A file that was not replaced is as it was, and saving has failed. After the replacement, only taking the
temporary name away can fail. -/
theorem save_cases (system : RotationSystem) (text : Str) (dir : TrustDirectory) :
    (∃ e, (system.save text dir).1 = .error e) ∧ (system.save text dir).2.file = dir.file ∨
      ∃ bytes, encodeUtf8 text = some bytes ∧ (system.write = .ok () ∧ system.replace = .ok ()) ∧
        (system.save text dir).2.file = some bytes ∧ (system.save text dir).1 = system.unlink := by
  unfold RotationSystem.save
  dsimp only
  rcases tryWrite_cases system text dir with ⟨⟨e, failed⟩, kept⟩ | ⟨bytes, encoded, written, done⟩
  · refine Or.inl ?_
    split
    · rename_i e' _
      exact ⟨⟨e', rfl⟩, kept⟩
    · exact ⟨⟨e, failed⟩, kept⟩
  · refine Or.inr ⟨bytes, encoded, written, ?_⟩
    rw [done]
    split
    · rename_i e' unlinked
      exact ⟨rfl, unlinked.symm⟩
    · rename_i unlinked
      exact ⟨rfl, unlinked.symm⟩

/-- PyYAML gives a `datetime` an offset of whole minutes, and so does pydantic for a text. Such a moment pydantic
reads back from the text it dumps. -/
def LoadedMomentsReadBack (env : TrustFileEnv F) : Prop :=
  ∀ text document config, env.safeLoad text = .ok document →
    TrustConfig.modelValidate env.toTrustEnv document = .ok config →
      ∀ key ∈ config.keys, key.MomentsReadBack env.toTrustEnv

theorem load_moments (moments : LoadedMomentsReadBack env) {call : Invocation} {file : Option Bytes} {config : TrustConfig}
    (loaded : call.load env file = .ok config) : ∀ key ∈ config.keys, key.MomentsReadBack env.toTrustEnv := by
  unfold Invocation.load at loaded
  split at loaded
  · have read := raises_ok.mp loaded
    unfold loadTrustConfigFile at read
    split at read
    · unfold parseTrustConfig at read
      dsimp only at read
      obtain ⟨_, -, read⟩ := bind_ok.mp read
      obtain ⟨text, -, read⟩ := bind_ok.mp read
      split at read
      · cases read
      · cases read
      · rename_i members parsed
        split at read
        · rename_i found valid
          have same := Except.ok.inj read
          subst same
          exact moments text _ found parsed valid
        · cases read
      · split at read <;> cases read
    · cases read
  · have same := Except.ok.inj loaded
    subst same
    exact fun key mem => (List.not_mem_nil mem).elim
  · cases loaded

theorem prepare_ok {run : Rotation} {file : Option Bytes} {config updated : TrustConfig} :
    run.prepare env file = .ok (config, updated) ↔
      Invocation.load env ⟨run.command, run.path, run.readError, .ok ()⟩ file = .ok config ∧
        run.command.update env.toTrustEnv config = .ok updated := by
  unfold Rotation.prepare
  simp only [bind_ok, pure_ok, Prod.mk.injEq]
  constructor
  · intro ⟨found, loaded, made, changed, sameFound, sameMade⟩
    subst sameFound sameMade
    exact ⟨loaded, changed⟩
  · intro ⟨loaded, changed⟩
    exact ⟨config, loaded, updated, changed, rfl, rfl⟩

/-- A command that fails before it has replaced the file leaves it as it was. One that has replaced it has
changed nothing about any other key, whatever fails after that. -/
theorem rotation_frame (moments : LoadedMomentsReadBack env) (run : Rotation) (dir : TrustDirectory) :
    ((∃ e, (run.execute env dir).1 = .error e) ∧ (run.execute env dir).2.file = dir.file) ∨
      ∃ config updated bytes, run.prepare env dir.file = .ok (config, updated) ∧
        encodeUtf8 (updated.yamlText env) = some bytes ∧ (run.system.write = .ok () ∧ run.system.replace = .ok ()) ∧
        (run.execute env dir).2.file = some bytes ∧
        (∀ e, (run.execute env dir).1 = .error e → raises run.system.unlink = .error e ∨
          raises (run.system.echo (run.command.confirmation env.toTrustEnv run.path)) = .error e) ∧
        SameOthers (run.command.fingerprint env.toTrustEnv) config updated ∧
        ∀ host query, query.keyFingerprint ≠ run.command.fingerprint env.toTrustEnv →
          evaluateTrust host updated query = evaluateTrust host config query := by
  unfold Rotation.execute
  split
  · rename_i e _
    exact Or.inl ⟨⟨e, rfl⟩, rfl⟩
  · rename_i config updated prepared
    dsimp only
    rcases save_cases run.system (updated.yamlText env) dir with ⟨⟨e, failed⟩, kept⟩ | ⟨bytes, encoded, written, replaced, left⟩
    · refine Or.inl ?_
      rw [failed]
      exact ⟨⟨.raised e, rfl⟩, kept⟩
    · obtain ⟨loaded, changed⟩ := prepare_ok.mp prepared
      have same := update_sameOthers (load_moments moments loaded) changed
      refine Or.inr ⟨config, updated, bytes, prepared, encoded, written, ?_, ?_, same, fun host _ => same.evaluateTrust host⟩
      · rw [left]
        cases run.system.unlink <;> exact replaced
      · intro e raised
        rw [left] at raised
        cases unlinked : run.system.unlink with
        | error e' =>
          rw [unlinked] at raised
          exact Or.inl raised
        | ok _ =>
          rw [unlinked] at raised
          exact Or.inr raised

/-- Once the text is written and renamed, the outcome is that of the confirmation. -/
theorem execute_replaced {run : Rotation} {dir : TrustDirectory} {config updated : TrustConfig} {bytes : Bytes}
    (prepared : run.prepare env dir.file = .ok (config, updated)) (encoded : encodeUtf8 (updated.yamlText env) = some bytes)
    (written : run.system.write = .ok ()) (replaced : run.system.replace = .ok ()) (unlinked : run.system.unlink = .ok ()) :
    run.execute env dir = (raises (run.system.echo (run.command.confirmation env.toTrustEnv run.path)),
      { file := some bytes, temporary := none }) := by
  have saved : run.system.save (updated.yamlText env) dir = (.ok (), { file := some bytes, temporary := none }) := by
    unfold RotationSystem.save RotationSystem.tryWrite
    simp only [encoded, written, replaced, unlinked]
  unfold Rotation.execute
  rw [prepared]
  dsimp only
  rw [saved]

/-! ### Two keys, one with an expiry -/

/-- Midnight of a new year, in a zone of half hours. -/
def newYear : AwareDatetime where
  moment := 1798741800000000
  offset := 19800

def newYearText : Str := str "2027-01-01T00:00:00+05:30"

def newYearEnv : TrustEnv AwareDatetime where
  host := sampleTrustEnv.host
  caseTable := sampleTrustEnv.caseTable
  text := sampleTrustEnv.text
  datetime := fun
    | .float moment => .ok (some moment)
    | .str s => if s = newYearText then .ok (some newYear) else .error (str "Input should be a valid datetime")
    | _ => .error (str "Input should be a valid datetime")
  tuple := sampleTrustEnv.tuple
  object := .float
  dumpDatetime := fun _ => newYearText

def partnerKeyId : Str := str "9c1185a5c5e9fc54612808977ee8f548b2258d31a1d3b4e9a3a1b1c4d2e3f405"

def partnerKey : TrustedKeyEntry where
  keyId := partnerKeyId
  algorithm := none
  status := .active
  notBefore := none
  notAfter := some newYear
  signerIdentity := none
  scopeModelIdPatterns := []
  label := none
  keyIdValid := by decide
  algorithmValid := noScheme_valid
  windowValid := nofun
  identityValid := noLine_valid
  labelValid := noLine_valid
  scopeValid := noScope_valid

def partnersConfig : TrustConfig where
  version := str "1"
  keys := [rotatedKey .active, partnerKey]
  unique := by decide

def rotatedLines (status : TrustedKeyStatus) : Str :=
  str "- key_id: " ++ rotatedKeyId ++ str "\n  status: " ++ str status.value ++ str "\n  scope_model_id_patterns: []\n"

def partnerLines : Str :=
  str "- key_id: " ++ partnerKeyId ++ str "\n  status: active\n  not_after: '" ++ newYearText ++
    str "'\n  scope_model_id_patterns: []\n"

/-- The file with both keys active. -/
def partnersText : Str := str "version: '1'\nkeys:\n" ++ rotatedLines .active ++ partnerLines

/-- The file after the first of them is revoked. -/
def partnersRevokedText : Str := str "version: '1'\nkeys:\n" ++ partnerLines ++ rotatedLines .revoked

def partnersEnv : TrustFileEnv AwareDatetime where
  toTrustEnv := newYearEnv
  safeLoad text :=
    if text = partnersText then .ok (partnersConfig.modelDump newYearEnv)
    else .error (.yamlError (str "could not determine a constructor"))
  safeDump := fun _ => partnersRevokedText
  decodeError := fun _ => str "invalid start byte"
  otherMapping := fun _ => none

theorem partners_read_back : ∀ key ∈ partnersConfig.keys, key.MomentsReadBack newYearEnv := by
  intro key mem
  rcases List.mem_cons.mp mem with same | mem
  · subst same
    exact ⟨nofun, nofun⟩
  · have same := List.mem_singleton.mp mem
    subst same
    refine ⟨nofun, ?_⟩
    intro moment expiry
    have value := Option.mem_some.mp expiry
    subst value
    unfold ReadsBack dumpMoment newYearEnv
    dsimp only
    rw [if_pos rfl]

theorem partners_moments : LoadedMomentsReadBack partnersEnv := by
  intro text document config parsed valid
  unfold partnersEnv at parsed
  dsimp only at parsed
  split at parsed
  · have same := Except.ok.inj parsed
    subst same
    have again := (TrustConfig.modelValidate_modelDump newYearEnv).mpr partners_read_back
    have found := Except.ok.inj (again.symm.trans valid)
    subst found
    exact partners_read_back
  · cases parsed

theorem partners_ascii : Ascii partnersText ∧ Ascii partnersRevokedText := by decide +kernel

theorem partners_load (path : Str) :
    loadTrustConfigFile partnersEnv path (.ok (asciiBytes partnersText)) = .ok partnersConfig := by
  have small : (asciiBytes partnersText).length ≤ maxTrustConfigBytes := by
    rw [show (asciiBytes partnersText).length = partnersText.length from List.length_map ..]
    decide +kernel
  have parsed : partnersEnv.safeLoad partnersText = .ok (partnersConfig.modelDump newYearEnv) := by
    unfold partnersEnv
    dsimp only
    rw [if_pos rfl]
  unfold loadTrustConfigFile parseTrustConfig
  dsimp only
  rw [decodeUtf8_ascii partners_ascii.1]
  refine bind_ok.mpr ⟨(), ensure_ok.mpr small, ?_⟩
  rw [orRaise_some_bind, parsed]
  have valid := (TrustConfig.modelValidate_modelDump newYearEnv).mpr partners_read_back
  unfold TrustConfig.modelDump configDocument at valid ⊢
  dsimp only
  rw [show partnersEnv.toTrustEnv = newYearEnv from rfl, valid]

/-- A terminal in UTF-8, which takes no lone surrogate. -/
def utf8Echo (text : Str) : Except Raised Unit :=
  match encodeUtf8 text with
  | some _ => .ok ()
  | none => .error (.external (str "UnicodeEncodeError") (str "surrogates not allowed"))

def soundSystem : RotationSystem where
  write := .ok ()
  torn := none
  replace := .ok ()
  unlink := .ok ()
  echo := utf8Echo

def revokeBeside (path : Str) : Rotation where
  command := .revokeKey rotatedKeyId
  path := path
  readError := none
  system := soundSystem

def partnersDirectory : TrustDirectory where
  file := some (asciiBytes partnersText)
  temporary := none

theorem load_readable (command : TrustCommand) (path : Str) (bytes : Bytes) :
    Invocation.load env ⟨command, path, none, .ok ()⟩ (some bytes) = raises (loadTrustConfigFile env path (.ok bytes)) := rfl

/-- The first key is revoked, and what follows is up to the terminal. -/
theorem revokeBeside_execute (path : Str) :
    (revokeBeside path).execute partnersEnv partnersDirectory =
      (raises (utf8Echo ((revokeBeside path).command.confirmation newYearEnv path)),
        { file := some (asciiBytes partnersRevokedText), temporary := none }) := by
  have spelled : normalize newYearEnv rotatedKeyId = (rotatedKey .active).keyId := by decide
  have mem : rotatedKey .active ∈ partnersConfig.keys := List.mem_cons_self
  have changed := update_revoke_present mem spelled partners_read_back
  have prepared : (revokeBeside path).prepare partnersEnv partnersDirectory.file =
      .ok (partnersConfig, restated partnersConfig (rotatedKey .active) .revoked) := by
    refine prepare_ok.mpr ⟨?_, changed⟩
    unfold revokeBeside partnersDirectory
    dsimp only
    rw [load_readable, partners_load path]
    rfl
  exact execute_replaced prepared (encodeUtf8_ascii partners_ascii.2) rfl rfl rfl

theorem revocation_leaves_partner :
    ∃ config updated, ((revokeBeside (str "trust.yaml")).execute partnersEnv partnersDirectory).1 = .ok () ∧
      (revokeBeside (str "trust.yaml")).prepare partnersEnv partnersDirectory.file = .ok (config, updated) ∧
      SameOthers rotatedKeyId config updated ∧
      ∀ host query, query.keyFingerprint = partnerKeyId → evaluateTrust host updated query = evaluateTrust host config query := by
  have printed : utf8Echo ((revokeBeside (str "trust.yaml")).command.confirmation newYearEnv (str "trust.yaml")) = .ok () := by
    decide
  have done : ((revokeBeside (str "trust.yaml")).execute partnersEnv partnersDirectory).1 = .ok () := by
    rw [revokeBeside_execute, printed]
    rfl
  have named : (revokeBeside (str "trust.yaml")).command.fingerprint newYearEnv = rotatedKeyId := by decide
  have apart : partnerKeyId ≠ rotatedKeyId := by decide
  rcases rotation_frame partners_moments (revokeBeside (str "trust.yaml")) partnersDirectory with
    ⟨⟨e, failed⟩, -⟩ | ⟨config, updated, -, prepared, -, -, -, -, same, verdicts⟩
  · rw [done] at failed
    cases failed
  · refine ⟨config, updated, done, prepared, named ▸ same, ?_⟩
    intro host query asked
    apply verdicts
    rw [asked]
    exact fun h => apart (h.trans named)

/-- A file name with an octet that is no UTF-8. -/
theorem undecodable_codePoint : 0xdcff < 0x110000 := by decide

def undecodablePath : Str := str "trust" ++ [⟨0xdcff, undecodable_codePoint⟩] ++ str ".yaml"

/-- The file is replaced, and only then does the confirmation fail. -/
theorem failed_command_replaces :
    LoadedMomentsReadBack partnersEnv ∧ ¬ ∀ (run : Rotation) (dir : TrustDirectory) (e : CommandError),
      (run.execute partnersEnv dir).1 = .error e → (run.execute partnersEnv dir).2.file = dir.file := by
  refine ⟨partners_moments, ?_⟩
  intro unchanged
  have unprinted : utf8Echo ((revokeBeside undecodablePath).command.confirmation newYearEnv undecodablePath) =
      .error (.external (str "UnicodeEncodeError") (str "surrogates not allowed")) := by decide
  have kept := unchanged (revokeBeside undecodablePath) partnersDirectory
    (.raised (.external (str "UnicodeEncodeError") (str "surrogates not allowed"))) (by
      rw [revokeBeside_execute, unprinted]
      rfl)
  rw [revokeBeside_execute] at kept
  have lengths := congrArg List.length (Option.some.inj kept)
  unfold asciiBytes at lengths
  rw [List.length_map, List.length_map] at lengths
  have longer : partnersRevokedText.length ≠ partnersText.length := by decide +kernel
  exact longer lengths

end ModelGuard.Cli
