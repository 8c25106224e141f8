import ModelGuard.Audit.Append
import ModelGuard.Lib.JsonJoin
import ModelGuard.Registry.Ledger
import ModelGuard.Registry.Local

/-!
# The revocation log of the file-backed registry
-/

namespace ModelGuard.Registry

open Lib Lib.Fallible

abbrev LogEntry := Audit.ChainEntry SpecialFloat

/-- A log record of texts. The log line writes a character and its two surrogates alike, so the record has the
character. -/
def logRecord (members : List (String × Str)) : Audit.Record SpecialFloat where
  fields := Dict.ofPairs (members.map fun e => (str e.1, .str (Json.joinText e.2)))
  wf := by
    refine .obj (Dict.ofPairs_sorted _) ?_ ?_
    · intro e mem
      obtain ⟨member, -, same⟩ := List.mem_map.mp (Dict.mem_ofPairs mem)
      exact same ▸ Json.joined_str member.1
    · intro e mem
      obtain ⟨member, -, same⟩ := List.mem_map.mp (Dict.mem_ofPairs mem)
      exact same ▸ .str (Json.joinText_joined member.2)

namespace RevocationCall

def members : RevocationCall → List (String × Str)
  | .revoke r => [("action", str "revoke"), ("model_id", r.modelId), ("version", r.version),
      ("revoked_by", r.revokedBy), ("reason", r.reason), ("revoked_at", r.revokedAt)]
  | .unrevoke modelId version actor reason _ => [("action", str "unrevoke"), ("model_id", modelId), ("version", version),
      ("revoked_by", actor), ("reason", reason)]

def logRecord (call : RevocationCall) : Audit.Record SpecialFloat := Registry.logRecord call.members

theorem members_distinct (call : RevocationCall) : (call.members.map Prod.fst).Nodup := by
  cases call with
  | revoke r =>
    show ["action", "model_id", "version", "revoked_by", "reason", "revoked_at"].Nodup
    decide
  | unrevoke _ _ _ _ _ =>
    show ["action", "model_id", "version", "revoked_by", "reason"].Nodup
    decide

theorem members_joined {call : RevocationCall} (joined : ∀ s ∈ call.texts, Json.Joined s) :
    ∀ e ∈ call.members, Json.Joined e.2 := by
  have fixed (s : String) : Json.Joined (str s) := Json.joined_str s
  cases call <;> simp_all [members, texts]

end RevocationCall

/-- The exception that the log raises. -/
def logError : Audit.ChainError SpecialFloat → Raised
  | .integrity index reason =>
    .external (str "ChainIntegrityError") (str "Hash chain broken at entry " ++ index.dumps ++ str ": " ++ str reason)
  | .valueError => .external (str "ValueError") []
  | .keyError => .external (str "KeyError") []
  | .typeError => .external (str "TypeError") []
  | .attributeError => .external (str "AttributeError") []

def raiseLogError {α : Type} : Except (Audit.ChainError SpecialFloat) α → Except Raised α
  | .ok a => .ok a
  | .error e => .error (logError e)

namespace LocalStore

variable (env : RegistryEnv) (store : LocalStore)

/-- `revoke` and `unrevoke`, which write different records. -/
def appendCall (call : RevocationCall) : Except Raised Unit × LocalStore :=
  match validateNames env.nfc env.host call.modelId call.version with
  | .error e => (.error e, store)
  | .ok () =>
    match Audit.appendEntry env.sha store.revocationLog call.logRecord with
    | .error e => (.error (logError e), store)
    | .ok (_, content) => (.ok (), { store with revocationLog := some content })

/-- A member of a record as a field of `RevocationRecord`. -/
def revocationField (record : Json SpecialFloat) (key : String) : Except Raised Str := do
  match ← raiseLogError (Audit.getItem (str key) record) with
  | .str s => return s
  | _ => .error (.external (str "ValidationError") (str "Input should be a valid string"))

/-- `RevocationRecord(model_id=r["model_id"], …)`. -/
def revocationOf (record : Json SpecialFloat) : Except Raised RevocationRecord := do
  return { modelId := ← revocationField record "model_id", version := ← revocationField record "version"
           revokedBy := ← revocationField record "revoked_by", reason := ← revocationField record "reason"
           revokedAt := ← revocationField record "revoked_at" }

/-- The body of the loop of `is_revoked`. -/
def replayEntry (modelId version : Str) (latest : Option RevocationRecord) (record : Json SpecialFloat) :
    Except Raised (Option RevocationRecord) := do
  let model ← raiseLogError (Audit.getItem (str "model_id") record)
  if ¬Audit.isText modelId model then return latest
  let other ← raiseLogError (Audit.getItem (str "version") record)
  if ¬Audit.isText version other then return latest
  let action ← raiseLogError (Audit.getItem (str "action") record)
  if Audit.isText (str "revoke") action then return some (← revocationOf record)
  if Audit.isText (str "unrevoke") action then return none
  return latest

/-- The loop of `is_revoked`. -/
def replay (modelId version : Str) : Option RevocationRecord → List LogEntry → Except Raised (Option RevocationRecord)
  | latest, [] => .ok latest
  | latest, entry :: rest => do replay modelId version (← replayEntry modelId version latest entry.record) rest

def isRevoked (modelId version : Str) : Except Raised (Option RevocationRecord) := do
  validateNames env.nfc env.host modelId version
  let entries ← raiseLogError (Audit.readAllEntries store.revocationLog)
  replay modelId version none entries

/-! ### The log and the calls it holds -/

/-- The log verifies and holds one entry for each call. -/
def LogHolds (events : List RevocationCall) : Prop :=
  ∃ entries : List LogEntry, Audit.Appendable env.sha store.revocationLog entries ∧
    entries.map (·.record) = events.map fun e => e.logRecord.json

theorem logHolds_empty : LogHolds env .empty [] := ⟨[], Audit.appendable_none env.sha, rfl⟩

variable {env store}

/-- Registering does not touch the log. -/
theorem register_log (env : RegistryEnv) (store : LocalStore) (faults : WriteFaults) (record : RegistryRecord) :
    (register env store faults record).2.revocationLog = store.revocationLog := by
  unfold register
  split
  · rfl
  · split
    · rfl
    · dsimp only
      split
      · rfl
      · split
        · rfl
        · split
          · rfl
          · split <;> rfl

theorem LogHolds.of_log {events : List RevocationCall} {other : LocalStore} (h : LogHolds env store events)
    (same : other.revocationLog = store.revocationLog) : LogHolds env other events := by
  obtain ⟨entries, appendable, records⟩ := h
  exact ⟨entries, same ▸ appendable, records⟩

theorem LogHolds.append {events : List RevocationCall} (h : LogHolds env store events) {call : RevocationCall}
    (valid : Valid env.nfc call.modelId ∧ Valid env.nfc call.version) :
    ∃ content, appendCall env store call = (.ok (), { store with revocationLog := some content }) ∧
      LogHolds env { store with revocationLog := some content } (events ++ [call]) := by
  obtain ⟨entries, appendable, records⟩ := h
  obtain ⟨entry, content, appended, record, next⟩ := Audit.append_step appendable call.logRecord
  have checked : validateNames env.nfc env.host call.modelId call.version = .ok () := validateNames_ok.mpr valid
  refine ⟨content, ?_, entries ++ [entry], next, ?_⟩
  · unfold appendCall
    rw [checked, appended]
  · rw [List.map_append, List.map_append, records, List.map_singleton, record]
    rfl

theorem appendCall_invalid (env : RegistryEnv) (store : LocalStore) {call : RevocationCall}
    (invalid : ¬(Valid env.nfc call.modelId ∧ Valid env.nfc call.version)) :
    ∃ message, appendCall env store call = (.error (.modelGuard .invalidIdentifierError message), store) := by
  obtain ⟨message, raised⟩ := validateNames_invalid env.host invalid
  exact ⟨message, by unfold appendCall; rw [raised]⟩

theorem replay_append (modelId version : Str) (latest : Option RevocationRecord) (entries : List LogEntry)
    (entry : LogEntry) : replay modelId version latest (entries ++ [entry]) =
      replay modelId version latest entries >>= fun r => replayEntry modelId version r entry.record := by
  induction entries generalizing latest with
  | nil =>
    show (replayEntry modelId version latest entry.record >>= pure) = replayEntry modelId version latest entry.record
    exact bind_pure _
  | cons first entries ih =>
    rw [List.cons_append]
    unfold replay
    cases replayEntry modelId version latest first.record with
    | error _ => rfl
    | ok next => exact ih next

/-- A member of a log record, when its text has no surrogate pair. -/
theorem logRecord_item {members : List (String × Str)} (distinct : (members.map Prod.fst).Nodup) {e : String × Str}
    (mem : e ∈ members) (joined : Json.Joined e.2) :
    raiseLogError (Audit.getItem (str e.1) (Registry.logRecord members).json) = .ok (.str e.2) := by
  have found : (Registry.logRecord members).fields.lookup (str e.1) = some (.str (Json.joinText e.2)) := by
    show (Dict.ofPairs _).lookup (str e.1) = _
    let field (e : String × Str) : Str × Json SpecialFloat := (str e.1, .str (Json.joinText e.2))
    have keys : ((members.reverse.map field).map Prod.fst).Nodup := by
      have names := (List.nodup_reverse.mpr distinct).map str_injective
      rw [← List.map_reverse, List.map_map] at names
      rw [List.map_map]
      exact names
    rw [Dict.lookup_ofPairs, ← List.map_reverse]
    exact Dict.lookup_of_mem keys (List.mem_map_of_mem (List.mem_reverse.mpr mem))
  show raiseLogError (orRaise _ ((Registry.logRecord members).fields.lookup (str e.1))) = _
  rw [found, Json.joinText_of_joined joined]
  rfl

theorem revocationField_text {record : Json SpecialFloat} {key : String} {s : Str}
    (item : raiseLogError (Audit.getItem (str key) record) = .ok (.str s)) : revocationField record key = .ok s := by
  unfold revocationField
  rw [item]
  rfl

theorem replayEntry_items {record : Json SpecialFloat} {model other action : Str} (modelId version : Str)
    (latest : Option RevocationRecord) (modelItem : raiseLogError (Audit.getItem (str "model_id") record) = .ok (.str model))
    (versionItem : raiseLogError (Audit.getItem (str "version") record) = .ok (.str other))
    (actionItem : raiseLogError (Audit.getItem (str "action") record) = .ok (.str action)) :
    replayEntry modelId version latest record =
      if model = modelId ∧ other = version then
        if action = str "revoke" then (revocationOf record).map some
        else if action = str "unrevoke" then .ok none
        else .ok latest
      else .ok latest := by
  have text (s t : Str) : Audit.isText (F := SpecialFloat) s (.str t) = true ↔ t = s := by
    unfold Audit.isText
    exact beq_iff_eq
  unfold replayEntry
  rw [modelItem, versionItem, actionItem]
  show (if ¬Audit.isText modelId (.str model) = true then _ else _) = _
  by_cases sameModel : model = modelId
  · rw [if_neg (not_not.mpr ((text _ _).mpr sameModel))]
    show (if ¬Audit.isText version (.str other) = true then _ else _) = _
    by_cases sameVersion : other = version
    · rw [if_neg (not_not.mpr ((text _ _).mpr sameVersion)), if_pos ⟨sameModel, sameVersion⟩]
      show (if Audit.isText (str "revoke") (.str action) = true then _ else _) = _
      by_cases revokes : action = str "revoke"
      · rw [if_pos ((text _ _).mpr revokes), if_pos revokes]
        rfl
      · rw [if_neg (fun h => revokes ((text _ _).mp h)), if_neg revokes]
        show (if Audit.isText (str "unrevoke") (.str action) = true then _ else _) = _
        by_cases withdraws : action = str "unrevoke"
        · rw [if_pos ((text _ _).mpr withdraws), if_pos withdraws]
          rfl
        · rw [if_neg (fun h => withdraws ((text _ _).mp h)), if_neg withdraws]
          rfl
    · rw [if_pos (fun h => sameVersion ((text _ _).mp h)), if_neg (fun h => sameVersion h.2)]
      rfl
  · rw [if_pos (fun h => sameModel ((text _ _).mp h)), if_neg (fun h => sameModel h.1)]
    rfl

/-- An entry counts when it is about the version. -/
theorem replayEntry_call {call : RevocationCall} (joined : ∀ s ∈ call.texts, Json.Joined s) (modelId version : Str)
    (latest : Option RevocationRecord) : replayEntry modelId version latest call.logRecord.json =
      .ok (if call.About modelId version then call.revocation else latest) := by
  have item (key : String) (s : Str) (mem : (key, s) ∈ call.members) :
      raiseLogError (Audit.getItem (str key) call.logRecord.json) = .ok (.str s) :=
    logRecord_item call.members_distinct mem (RevocationCall.members_joined joined _ mem)
  cases call with
  | revoke r =>
    have model := item "model_id" r.modelId (by simp [RevocationCall.members])
    have other := item "version" r.version (by simp [RevocationCall.members])
    have actor := item "revoked_by" r.revokedBy (by simp [RevocationCall.members])
    have reason := item "reason" r.reason (by simp [RevocationCall.members])
    have moment := item "revoked_at" r.revokedAt (by simp [RevocationCall.members])
    have action := item "action" (str "revoke") (by simp [RevocationCall.members])
    have whole : revocationOf (RevocationCall.revoke r).logRecord.json = .ok r := by
      unfold revocationOf
      rw [revocationField_text model, revocationField_text other, revocationField_text actor,
        revocationField_text reason, revocationField_text moment]
      rfl
    rw [replayEntry_items modelId version latest model other action, if_pos rfl, whole]
    show (if r.modelId = modelId ∧ r.version = version then _ else _) =
      Except.ok (if r.modelId = modelId ∧ r.version = version then _ else _)
    split <;> rfl
  | unrevoke modelId' version' actor reason now =>
    have model := item "model_id" modelId' (by simp [RevocationCall.members])
    have other := item "version" version' (by simp [RevocationCall.members])
    have action := item "action" (str "unrevoke") (by simp [RevocationCall.members])
    have kind : str "unrevoke" ≠ str "revoke" := by decide
    rw [replayEntry_items modelId version latest model other action, if_neg kind, if_pos rfl]
    show (if modelId' = modelId ∧ version' = version then _ else _) =
      Except.ok (if modelId' = modelId ∧ version' = version then _ else _)
    split <;> rfl

theorem LogHolds.isRevoked {events : List RevocationCall} (h : LogHolds env store events)
    (joined : ∀ e ∈ events, ∀ s ∈ e.texts, Json.Joined s) {modelId version : Str}
    (valid : Valid env.nfc modelId ∧ Valid env.nfc version) :
    isRevoked env store modelId version = .ok (Ledger.activeRevocation events modelId version) := by
  obtain ⟨entries, appendable, records⟩ := h
  have checked : validateNames env.nfc env.host modelId version = .ok () := validateNames_ok.mpr valid
  have replayed : replay modelId version none entries = .ok (Ledger.activeRevocation events modelId version) := by
    clear appendable
    induction events using List.reverseRecOn generalizing entries with
    | nil =>
      rw [List.map_eq_nil_iff.mp records]
      rfl
    | append_singleton events call ih =>
      rw [List.map_append] at records
      obtain ⟨earlier, last, split, earlierRecords, lastRecord⟩ := List.map_eq_append_iff.mp records
      obtain ⟨entry, single⟩ := List.length_eq_one_iff.mp (by simpa using congrArg List.length lastRecord)
      subst split single
      have own : entry.record = call.logRecord.json := by simpa using lastRecord
      rw [replay_append, ih (fun e mem => joined e (List.mem_append_left _ mem)) earlier earlierRecords, own,
        Ledger.activeRevocation_append]
      exact replayEntry_call (joined call (by simp)) modelId version _
  unfold LocalStore.isRevoked
  rw [checked, appendable.read]
  exact replayed

end LocalStore

end ModelGuard.Registry
