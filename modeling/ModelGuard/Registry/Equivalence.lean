import ModelGuard.Lib.Transition
import ModelGuard.Registry.LocalLog
import ModelGuard.Registry.LocalRows
import ModelGuard.Registry.Revocations

/-!
# Two backends of one registry

Each backend answers every call as the abstract registry does.
-/

namespace ModelGuard.Registry

open Lib Lib.Fallible Lib.Transition

/-! ### The calls -/

def LocalStore.step (env : RegistryEnv) (store : LocalStore) : Operation → Except Raised Answer × LocalStore
  | .register record =>
    let (result, next) := LocalStore.register env store .none record
    (result.map .registered, next)
  | .get modelId version => ((LocalStore.get env store modelId version).map .found, store)
  | .getByDigest digest => ((store.getByDigest env digest).map .found, store)
  | .listVersions modelId => ((LocalStore.listVersions env store modelId).map .versions, store)
  | .revoke record =>
    let (result, next) := LocalStore.appendCall env store (.revoke record)
    (result.map fun _ => .revocation record, next)
  | .unrevoke modelId version actor reason now =>
    let (result, next) := LocalStore.appendCall env store (.unrevoke modelId version actor reason now)
    (result.map fun _ => .nothing, next)
  | .isRevoked modelId version => ((LocalStore.isRevoked env store modelId version).map .revoked, store)

def Database.step (env : RegistryEnv) (db : Database) : Operation → Except Raised Answer × Database
  | .register record =>
    let (result, next) := Database.register env db record
    (result.map .registered, next)
  | .get modelId version => ((Database.get env db modelId version).map .found, db)
  | .getByDigest digest => ((db.getByDigest env digest).map .found, db)
  | .listVersions modelId => ((Database.listVersions env db modelId).map .versions, db)
  | .revoke record =>
    let (result, next) := Database.appendEvent env db (RevocationCall.revoke record).body
    (result.map fun _ => .revocation record, next)
  | .unrevoke modelId version actor reason now =>
    let (result, next) := Database.appendEvent env db (RevocationCall.unrevoke modelId version actor reason now).body
    (result.map fun _ => .nothing, next)
  | .isRevoked modelId version => ((db.isRevoked env modelId version).map .revoked, db)

/-- The same value, or errors of one of the two classes that callers know. -/
def SameResult (a b : Except Raised Answer) : Prop :=
  (∃ value, a = .ok value ∧ b = .ok value) ∨
    ∃ cls ∈ [ErrorClass.invalidIdentifierError, .duplicateRegistrationError], ∃ text text',
      a = .error (.modelGuard cls text) ∧ b = .error (.modelGuard cls text')

/-! ### Which calls are considered -/

def noNul (s : Str) : Prop := ∀ c ∈ s, c.val ≠ 0

theorem storable_iff {s : Str} : storable s = true ↔ noNul s ∧ Scalars s := by
  unfold storable noNul Scalars
  simp only [List.all_eq_true, Bool.and_eq_true, decide_eq_true_eq, Bool.not_eq_true']
  exact ⟨fun h => ⟨fun c mem => (h c mem).1, fun c mem => (h c mem).2⟩, fun h c mem => ⟨h.1 c mem, h.2 c mem⟩⟩

/-- No string has a NUL, and those that pydantic or the clock gives are Unicode text. -/
def Operation.WellFormed : Operation → Prop
  | .register record => jsonbAccepts record.modelDump = true
  | .get modelId version => ∀ s ∈ [modelId, version], noNul s
  | .getByDigest digest => ∀ s ∈ [digest], noNul s
  | .listVersions modelId => ∀ s ∈ [modelId], noNul s
  | .revoke record => ∀ s ∈ (RevocationCall.revoke record).texts, storable s = true
  | .unrevoke modelId version actor reason now =>
    (∀ s ∈ [modelId, version, actor, reason], noNul s) ∧ storable now = true
  | .isRevoked modelId version => ∀ s ∈ [modelId, version], noNul s

/-- No string that comes as far as the database has a surrogate. -/
def Operation.Encodable (nfc : Str → Str) : Operation → Prop
  | .register _ => True
  | .get modelId version => Valid nfc modelId ∧ Valid nfc version → ∀ s ∈ [modelId, version], Scalars s
  | .getByDigest digest => ∀ s ∈ [digest], Scalars s
  | .listVersions modelId => Valid nfc modelId → ∀ s ∈ [modelId], Scalars s
  | .revoke _ => True
  | .unrevoke modelId version actor reason _ =>
    Valid nfc modelId ∧ Valid nfc version → ∀ s ∈ [modelId, version, actor, reason], Scalars s
  | .isRevoked modelId version => Valid nfc modelId ∧ Valid nfc version → ∀ s ∈ [modelId, version], Scalars s

/-- A registered record reads back from its dump. -/
def Operation.ReadsBack (codec : RecordCodec) : Operation → Prop
  | .register record => codec.ReadsBack record
  | _ => True

/-- What an outcome of the abstract registry says about the outcome of a backend. -/
def Matches : Except ErrorClass Answer → Except Raised Answer → Prop
  | .ok value, .ok value' => value = value'
  | .error cls, .error (.modelGuard cls' _) => cls = cls'
  | _, _ => False

/-- A query that needs a valid name and version. -/
theorem named_query {S α : Type} {R : Ledger → S → Prop} {nfc : Str → Str} {ledger : Ledger} {state : S} (h : R ledger state)
    {modelId version : Str} {x : Except Raised α} {wrap : α → Answer} {value : α}
    (valid : Valid nfc modelId ∧ Valid nfc version → x = .ok value)
    (invalid : ¬(Valid nfc modelId ∧ Valid nfc version) →
      ∃ message, x = .error (.modelGuard .invalidIdentifierError message)) :
    Matches (Ledger.named nfc ledger modelId version (wrap value, ledger)).1 (x.map wrap) ∧
      R (Ledger.named nfc ledger modelId version (wrap value, ledger)).2 state := by
  unfold Ledger.named
  by_cases names : Valid nfc modelId ∧ Valid nfc version
  · rw [if_pos names, valid names]
    exact ⟨rfl, h⟩
  · obtain ⟨message, raised⟩ := invalid names
    rw [if_neg names, raised]
    exact ⟨rfl, h⟩

theorem listing_query {S : Type} {R : Ledger → S → Prop} {nfc : Str → Str} {ledger : Ledger} {state : S} (h : R ledger state)
    {modelId : Str} {x : Except Raised (List Str)} (valid : Valid nfc modelId → x = .ok (Ledger.versionsOf ledger.rows modelId))
    (invalid : ¬Valid nfc modelId → ∃ message, x = .error (.modelGuard .invalidIdentifierError message)) :
    Matches (Ledger.step nfc ledger (.listVersions modelId)).1 (x.map .versions) ∧
      R (Ledger.step nfc ledger (.listVersions modelId)).2 state := by
  show Matches (if Valid nfc modelId then _ else _ : Except ErrorClass Answer × Ledger).1 _ ∧
    R (if Valid nfc modelId then _ else _ : Except ErrorClass Answer × Ledger).2 _
  by_cases name : Valid nfc modelId
  · rw [if_pos name, valid name]
    exact ⟨rfl, h⟩
  · obtain ⟨message, raised⟩ := invalid name
    rw [if_neg name, raised]
    exact ⟨rfl, h⟩

/-! ### The file-backed registry -/

section Local

variable {env : RegistryEnv} {store : LocalStore} {ledger : Ledger}

/-- The files hold what the abstract registry holds. -/
structure LocalStore.Refines (env : RegistryEnv) (ledger : Ledger) (store : LocalStore) : Prop where
  rows : LocalStore.Holds env ledger.rows store
  log : LocalStore.LogHolds env store ledger.events
  joined : ∀ e ∈ ledger.events, ∀ s ∈ e.texts, Json.Joined s

theorem LocalStore.refines_empty (env : RegistryEnv) : Refines env .empty .empty where
  rows := holds_empty
  log := logHolds_empty env
  joined _ mem := (List.not_mem_nil mem).elim

theorem LocalStore.Refines.register (h : Refines env ledger store) {record : RegistryRecord}
    (readsBack : env.codec.ReadsBack record) :
    Matches (Ledger.registerRow env.nfc ledger record).1 ((register env store .none record).1.map .registered) ∧
      Refines env (Ledger.registerRow env.nfc ledger record).2 (register env store .none record).2 := by
  have log := register_log env store .none record
  unfold Ledger.registerRow
  by_cases valid : Valid env.nfc record.modelId ∧ Valid env.nfc record.version
  · rw [if_neg (not_not.mpr valid)]
    by_cases taken : record.key ∈ ledger.rows.map RegistryRecord.key
    · rw [if_pos taken, h.rows.register_duplicate .none valid taken]
      exact ⟨rfl, h⟩
    · obtain ⟨store', made, holds⟩ := h.rows.register_ok valid taken readsBack (rfl : WriteFaults.none.record = none) (Or.inl rfl)
      rw [made] at log
      rw [if_neg taken, made]
      exact ⟨rfl, holds, h.log.of_log log, h.joined⟩
  · obtain ⟨message, raised⟩ := register_invalid env store .none valid
    rw [if_pos valid, raised]
    exact ⟨rfl, h⟩

/-- A call that appends to the log. -/
theorem LocalStore.Refines.record (h : Refines env ledger store) (call : RevocationCall) (answer : Answer)
    (joined : Valid env.nfc call.modelId ∧ Valid env.nfc call.version → ∀ s ∈ call.texts, Json.Joined s) :
    Matches (Ledger.record env.nfc ledger call answer).1 ((appendCall env store call).1.map fun _ => answer) ∧
      Refines env (Ledger.record env.nfc ledger call answer).2 (appendCall env store call).2 := by
  unfold Ledger.record Ledger.named
  by_cases valid : Valid env.nfc call.modelId ∧ Valid env.nfc call.version
  · obtain ⟨content, appended, log⟩ := h.log.append valid
    rw [if_pos valid, appended]
    refine ⟨rfl, ⟨h.rows.records, h.rows.dirs, h.rows.index, h.rows.valid, h.rows.distinct, h.rows.readsBack⟩, log, ?_⟩
    intro e mem
    rcases List.mem_append.mp mem with old | new
    · exact h.joined e old
    · exact List.mem_singleton.mp new ▸ joined valid
  · obtain ⟨message, raised⟩ := appendCall_invalid env store valid
    rw [if_neg valid, raised]
    exact ⟨rfl, h⟩

theorem LocalStore.Refines.step (h : Refines env ledger store) {op : Operation} (wellFormed : op.WellFormed)
    (encodable : op.Encodable env.nfc) (readsBack : op.ReadsBack env.codec) :
    Matches (Ledger.step env.nfc ledger op).1 (LocalStore.step env store op).1 ∧
      Refines env (Ledger.step env.nfc ledger op).2 (LocalStore.step env store op).2 := by
  cases op with
  | register record => exact h.register readsBack
  | get modelId version =>
    exact named_query h (fun valid => h.rows.get_valid valid.1 valid.2) (get_invalid store)
  | getByDigest digest =>
    show Matches (.ok (.found (Ledger.firstWithDigest ledger.rows digest))) ((store.getByDigest env digest).map _) ∧ _
    rw [h.rows.getByDigest]
    exact ⟨rfl, h⟩
  | listVersions modelId => exact listing_query h h.rows.listVersions_valid listVersions_invalid
  | revoke record =>
    refine h.record (.revoke record) (.revocation record) fun _ s mem => ?_
    exact Json.joined_of_scalars (storable_iff.mp (wellFormed s mem)).2
  | unrevoke modelId version actor reason now =>
    refine h.record (.unrevoke modelId version actor reason now) .nothing fun valid s mem => ?_
    apply Json.joined_of_scalars
    have split : s ∈ [modelId, version, actor, reason] ++ [now] := mem
    rcases List.mem_append.mp split with own | clock
    · exact encodable valid s own
    · exact List.mem_singleton.mp clock ▸ (storable_iff.mp wellFormed.2).2
  | isRevoked modelId version =>
    refine named_query h (h.log.isRevoked h.joined) fun invalid => ?_
    obtain ⟨message, raised⟩ := validateNames_invalid env.host invalid
    exact ⟨message, by unfold LocalStore.isRevoked; rw [raised]; rfl⟩

end Local

/-! ### The PostgreSQL registry -/

section Postgres

variable {env : RegistryEnv} {db : Database} {ledger : Ledger}

/-- The hashes of consecutive events. -/
def eventHashes (sha : Sha256) : Str → List EventBody → List Str
  | _, [] => []
  | prev, body :: rest => eventHash sha prev body :: eventHashes sha (eventHash sha prev body) rest

theorem eventHashes_append (sha : Sha256) (prev : Str) (bodies : List EventBody) (body : EventBody) :
    eventHashes sha prev (bodies ++ [body]) =
      eventHashes sha prev bodies ++ [eventHash sha ((eventHashes sha prev bodies).getLast?.getD prev) body] := by
  induction bodies generalizing prev with
  | nil => rfl
  | cons first bodies ih =>
    rw [List.cons_append, eventHashes, eventHashes, ih, List.cons_append, List.getLast?_cons]
    rfl

/-- SHA-256 gives 64 digits, and tells the events of the chain apart. -/
structure HashesFit (sha : Sha256) (events : List RevocationCall) : Prop where
  size : ∀ hash ∈ eventHashes sha genesisHash (events.map RevocationCall.body), hash.length = 64
  apart : (eventHashes sha genesisHash (events.map RevocationCall.body)).Nodup

/-- A row without its number. -/
def RecordRow.content (row : RecordRow) : RecordRow := { row with id := 0 }

/-- The tables hold what the abstract registry holds. -/
structure Database.Refines (env : RegistryEnv) (ledger : Ledger) (db : Database) : Prop where
  records : db.records.map RecordRow.content = ledger.rows.map fun r => recordRow r 0
  recordSerial : SerialTable.Serial RecordRow.id db.nextRecordId db.records
  readsBack : ∀ r ∈ ledger.rows, env.codec.ReadsBack r
  bodies : db.events.map EventRow.body = ledger.events.map RevocationCall.body
  hashes : db.events.map EventRow.eventHash = eventHashes env.sha genesisHash (ledger.events.map RevocationCall.body)
  eventSerial : SerialTable.Serial EventRow.id db.nextEventId db.events

theorem Database.refines_empty (env : RegistryEnv) : Refines env .empty .empty where
  records := rfl
  recordSerial := SerialTable.serial_nil
  readsBack _ mem := (List.not_mem_nil mem).elim
  bodies := rfl
  hashes := rfl
  eventSerial := SerialTable.serial_nil

/-- Looking a row up in the table is looking its registration up. -/
theorem Database.Refines.find (h : Refines env ledger db) (p : RecordRow → Bool)
    (content : ∀ row, p row.content = p row) :
    (db.records.find? p).map RecordRow.content =
      (ledger.rows.find? fun r => p (recordRow r 0)).map fun r => recordRow r 0 := by
  have rows : (db.records.map RecordRow.content).find? p = (ledger.rows.map fun r => recordRow r 0).find? p := by
    rw [h.records]
  rw [List.find?_map, List.find?_map] at rows
  have same : p ∘ RecordRow.content = p := funext content
  rw [same] at rows
  exact rows

theorem rowToRecord_of_content {row : RecordRow} {r : RegistryRecord} (readsBack : env.codec.ReadsBack r)
    (content : row.content = recordRow r 0) : Database.rowToRecord env row = .ok r := by
  have value : env.codec.modelValidate row.record = some r :=
    (congrArg (fun row => env.codec.modelValidate row.record) content).trans readsBack.value
  have modelId : row.modelId = r.modelId := congrArg RecordRow.modelId content
  have version : row.version = r.version := congrArg RecordRow.version content
  have digest : row.artifactDigest = r.artifactDigest := congrArg RecordRow.artifactDigest content
  unfold Database.rowToRecord
  rw [value, modelId, version, digest, orRaise_some_bind, ensure, if_pos rfl]
  rfl

theorem foundRecord_of_content {row : Option RecordRow} {r : Option RegistryRecord}
    (readsBack : ∀ r' ∈ r, env.codec.ReadsBack r')
    (same : row.map RecordRow.content = r.map fun r => recordRow r 0) : Database.foundRecord env row = .ok r := by
  cases r with
  | none =>
    rw [Option.map_none, Option.map_eq_none_iff] at same
    rw [same]
    rfl
  | some r =>
    obtain ⟨row, rfl, content⟩ := Option.map_eq_some_iff.mp same
    show (do return some (← Database.rowToRecord env row)) = _
    rw [rowToRecord_of_content (readsBack r rfl) content]
    rfl

theorem sqlTexts_storable {action : String} {texts : List Str} (h : ∀ s ∈ texts, storable s = true) :
    sqlTexts action texts = .ok () := sqlTexts_ok.mpr h

theorem Database.Refines.get (h : Refines env ledger db) {modelId version : Str}
    (valid : Valid env.nfc modelId ∧ Valid env.nfc version) (text : ∀ s ∈ [modelId, version], storable s = true) :
    get env db modelId version = .ok (Ledger.find ledger.rows modelId version) := by
  have checked : validateNames env.nfc env.host modelId version = .ok () := validateNames_ok.mpr valid
  unfold Database.get
  rw [checked, sqlTexts_storable text]
  refine foundRecord_of_content (fun r mem => h.readsBack r (Ledger.find_some mem).1) ?_
  have found := h.find (fun r => r.modelId = modelId ∧ r.version = version) fun _ => rfl
  rw [found]
  unfold Ledger.find
  congr 2
  funext r
  exact decide_eq_decide.mpr (by unfold RegistryRecord.key; rw [Prod.mk.injEq]; exact Iff.rfl)

theorem Database.Refines.getByDigest (h : Refines env ledger db) {digest : Str} (text : ∀ s ∈ [digest], storable s = true) :
    db.getByDigest env digest = .ok (Ledger.firstWithDigest ledger.rows digest) := by
  have sub : (db.records.filter fun r => r.artifactDigest = digest).Sublist db.records := List.filter_sublist
  unfold Database.getByDigest
  rw [sqlTexts_storable text, (h.recordSerial.sublist sub).oldest, List.head?_filter]
  refine foundRecord_of_content (fun r mem => h.readsBack r (Ledger.firstWithDigest_some mem).1) ?_
  have found := h.find (fun r => r.artifactDigest = digest) fun _ => rfl
  rw [found]
  unfold Ledger.firstWithDigest
  congr 2
  funext r
  exact Bool.eq_iff_iff.mpr (decide_eq_true_iff.trans beq_iff_eq.symm)

theorem Database.Refines.listVersions (h : Refines env ledger db) {modelId : Str} (valid : Valid env.nfc modelId)
    (text : ∀ s ∈ [modelId], storable s = true) : listVersions env db modelId = .ok (Ledger.versionsOf ledger.rows modelId) := by
  have versions : (db.records.filter fun r => r.modelId = modelId).map (·.version) =
      (ledger.rows.filter fun r => r.modelId = modelId).map (·.version) := by
    have rows := congrArg (fun rows : List RecordRow => (rows.filter fun r => r.modelId = modelId).map (·.version)) h.records
    rw [List.filter_map, List.filter_map, List.map_map, List.map_map] at rows
    exact rows
  unfold Database.listVersions
  rw [validateIdentifier_valid valid, sqlTexts_storable text, versions, insertionSort_utf8Octets]
  rfl

/-- What the last row about a version says is what the last call about it says. -/
theorem revocationIn_call {row : EventRow} {call : RevocationCall} {modelId version : Str} (body : row.body = call.body)
    (about : call.About modelId version) : revocationIn modelId version row = call.revocation := by
  have action : row.action = call.body.action := congrArg EventBody.action body
  have actor : row.actor = call.body.actor := congrArg EventBody.actor body
  have reason : row.reason = call.body.reason := congrArg EventBody.reason body
  have moment : row.revokedAt = call.body.revokedAt := congrArg EventBody.revokedAt body
  unfold revocationIn
  rw [action, actor, reason, moment]
  cases call with
  | revoke record =>
    have revokes : ¬(str "revoke" ≠ str "revoke") := not_not.mpr rfl
    show (if str "revoke" ≠ str "revoke" then none else _) = some record
    rw [if_neg revokes, ← about.1, ← about.2]
    rfl
  | unrevoke _ _ _ _ _ =>
    have kind : str "unrevoke" ≠ str "revoke" := by decide
    exact if_pos kind

theorem Database.Refines.isRevoked (h : Refines env ledger db) {modelId version : Str}
    (valid : Valid env.nfc modelId ∧ Valid env.nfc version) (text : ∀ s ∈ [modelId, version], storable s = true) :
    db.isRevoked env modelId version = .ok (Ledger.activeRevocation ledger.events modelId version) := by
  have bodies : (eventsAbout db.events modelId version).map EventRow.body =
      (ledger.events.filter fun e => e.About modelId version).map RevocationCall.body := by
    have filtered := congrArg (List.filter fun b : EventBody => b.modelId = modelId ∧ b.version = version) h.bodies
    rw [List.filter_map, List.filter_map] at filtered
    have names : (fun b : EventBody => decide (b.modelId = modelId ∧ b.version = version)) ∘ RevocationCall.body =
        fun e => decide (e.About modelId version) := by
      funext e
      cases e <;> rfl
    rw [names] at filtered
    exact filtered
  rw [isRevoked_valid h.eventSerial valid text]
  unfold Ledger.activeRevocation
  have last := congrArg List.getLast? bodies
  rw [List.getLast?_map, List.getLast?_map] at last
  cases found : (ledger.events.filter fun e => e.About modelId version).getLast? with
  | none =>
    rw [found, Option.map_none, Option.map_eq_none_iff] at last
    rw [last]
    rfl
  | some call =>
    rw [found] at last
    obtain ⟨row, rowLast, body⟩ := Option.map_eq_some_iff.mp last
    have about : call.About modelId version :=
      of_decide_eq_true (List.mem_filter.mp (List.mem_of_getLast? found)).2
    rw [rowLast, Option.bind_some, Option.bind_some, revocationIn_call body about]

/-! Inserting -/

theorem registerParameters_ok {record : RegistryRecord} (text : jsonbAccepts record.modelDump = true) :
    Database.registerParameters record = .ok () := by
  have columns : ∀ s ∈ [record.modelId, record.version, record.artifactDigest, record.registeredBy], storable s = true := by
    simp only [RegistryRecord.modelDump, jsonbAccepts, jsonbFields, Bool.and_eq_true] at text
    obtain ⟨⟨_, digest⟩, _, _, ⟨_, modelId⟩, _, ⟨_, registeredBy⟩, ⟨_, version⟩, _⟩ := text
    simp [modelId, version, digest, registeredBy]
  unfold Database.registerParameters
  rw [sqlTexts_storable columns, ensure, if_pos text]
  rfl

theorem lengthCheck_valid {nfc : Str → Str} {s : Str} (h : Valid nfc s) : lengthCheck s = true := by
  have length := h.length
  unfold lengthCheck
  simp [length.1, length.2]

/-- The unique constraint looks at the registered names. -/
theorem Database.Refines.taken (h : Refines env ledger db) (record : RegistryRecord) :
    (db.records.any fun r => r.modelId = record.modelId && r.version = record.version) = true ↔
      record.key ∈ ledger.rows.map RegistryRecord.key := by
  have rows := congrArg (List.any · fun r => r.modelId = record.modelId && r.version = record.version) h.records
  simp only [List.any_map] at rows
  have any : (db.records.any fun r => r.modelId = record.modelId && r.version = record.version) =
      ledger.rows.any fun r => r.modelId = record.modelId && r.version = record.version := rows
  rw [any]
  simp [RegistryRecord.key]

theorem Database.Refines.register (h : Refines env ledger db) {record : RegistryRecord}
    (text : jsonbAccepts record.modelDump = true) (readsBack : env.codec.ReadsBack record) :
    Matches (Ledger.registerRow env.nfc ledger record).1 ((register env db record).1.map .registered) ∧
      Refines env (Ledger.registerRow env.nfc ledger record).2 (register env db record).2 := by
  have next : Refines env ledger { db with nextRecordId := db.nextRecordId + 1 } :=
    { h with recordSerial := h.recordSerial.mono (Nat.le_succ _) }
  unfold Ledger.registerRow Database.register
  by_cases valid : Valid env.nfc record.modelId ∧ Valid env.nfc record.version
  · have checked : validateNames env.nfc env.host record.modelId record.version = .ok () := validateNames_ok.mpr valid
    have checks : ¬¬(lengthCheck (recordRow record db.nextRecordId).modelId ∧
        lengthCheck (recordRow record db.nextRecordId).version ∧
        IsArtifactDigest (recordRow record db.nextRecordId).artifactDigest) :=
      not_not.mpr ⟨lengthCheck_valid valid.1, lengthCheck_valid valid.2, record.digestShape⟩
    rw [if_neg (not_not.mpr valid), checked, registerParameters_ok text]
    dsimp only
    unfold Database.insertRecord
    dsimp only
    rw [if_neg checks]
    by_cases taken : record.key ∈ ledger.rows.map RegistryRecord.key
    · have refused := (h.taken record).mpr taken
      have again : (db.records.any fun r => r.modelId = (recordRow record db.nextRecordId).modelId &&
          r.version = (recordRow record db.nextRecordId).version) = true := refused
      rw [if_pos taken, if_pos again]
      exact ⟨rfl, next⟩
    · have fresh : ¬(db.records.any fun r => r.modelId = (recordRow record db.nextRecordId).modelId &&
          r.version = (recordRow record db.nextRecordId).version) = true := fun refused => taken ((h.taken record).mp refused)
      rw [if_neg taken, if_neg fresh]
      refine ⟨rfl, { next with records := ?_, recordSerial := ?_, readsBack := ?_ }⟩
      · show (db.records ++ [recordRow record db.nextRecordId]).map RecordRow.content = _
        rw [List.map_append, List.map_append, h.records]
        rfl
      · exact h.recordSerial.mono (Nat.le_succ _) |>.append h.recordSerial.below (Nat.lt_succ_self _)
      · intro r mem
        rcases List.mem_append.mp mem with old | new
        · exact h.readsBack r old
        · exact List.mem_singleton.mp new ▸ readsBack
  · obtain ⟨message, raised⟩ := validateNames_invalid env.host valid
    rw [if_pos valid, raised]
    exact ⟨rfl, h⟩

theorem eventHashes_hex (sha : Sha256) (prev : Str) (bodies : List EventBody) :
    ∀ hash ∈ eventHashes sha prev bodies, IsHex hash := by
  induction bodies generalizing prev with
  | nil => exact fun _ mem => (List.not_mem_nil mem).elim
  | cons body bodies ih =>
    intro hash mem
    rcases List.mem_cons.mp mem with same | later
    · exact same ▸ sha.hex _
    · exact ih _ hash later

theorem hashCheck_iff {s : Str} : hashCheck s = true ↔ IsHex s ∧ s.length = 64 := by
  unfold hashCheck
  rw [Bool.and_eq_true, decide_eq_true_iff, List.all_eq_true]
  rfl

theorem eventParameters_call {call : RevocationCall} (text : ∀ s ∈ call.texts, storable s = true) :
    eventParameters call.body = .ok () := by
  have words : storable (str "revoke") = true ∧ storable (str "unrevoke") = true := by decide
  refine sqlTexts_storable fun s mem => ?_
  cases call <;> simp_all [RevocationCall.texts, RevocationCall.body] <;> rcases mem with rfl | rfl | rfl | rfl | rfl | rfl <;>
    simp_all

/-- The hash that the next event names. -/
theorem Database.Refines.lastEventHash (h : Refines env ledger db) : lastEventHash db.events =
    (eventHashes env.sha genesisHash (ledger.events.map RevocationCall.body)).getLast?.getD genesisHash := by
  unfold Registry.lastEventHash
  rw [h.eventSerial.newest, ← h.hashes, List.getLast?_map]

/-- The table takes the row of a valid call. -/
theorem Database.Refines.accepts (h : Refines env ledger db) {call : RevocationCall}
    (valid : Valid env.nfc call.modelId ∧ Valid env.nfc call.version)
    (fit : HashesFit env.sha (ledger.events ++ [call])) (id : Nat) :
    acceptsEvent db.events (eventRow env.sha call.body (Registry.lastEventHash db.events) id) = .ok () := by
  obtain ⟨size, apart⟩ := fit
  have hex := eventHashes_hex env.sha genesisHash ((ledger.events ++ [call]).map RevocationCall.body)
  rw [List.map_append, List.map_singleton, eventHashes_append, ← h.lastEventHash, ← h.hashes] at size apart hex
  have names : lengthCheck call.body.modelId = true ∧ lengthCheck call.body.version = true := by
    cases call <;> exact ⟨lengthCheck_valid valid.1, lengthCheck_valid valid.2⟩
  have action : call.body.action ∈ [str "revoke", str "unrevoke"] := by
    cases call with
    | revoke _ => exact List.mem_cons_self
    | unrevoke _ _ _ _ _ => exact List.mem_cons_of_mem _ List.mem_cons_self
  have previous : hashCheck (Registry.lastEventHash db.events) = true := by
    unfold Registry.lastEventHash
    rw [h.eventSerial.newest]
    cases last : db.events.getLast? with
    | none => decide
    | some row =>
      have mem : row.eventHash ∈ db.events.map EventRow.eventHash := List.mem_map_of_mem (List.mem_of_getLast? last)
      exact hashCheck_iff.mpr ⟨hex _ (List.mem_append_left _ mem), size _ (List.mem_append_left _ mem)⟩
  have own : hashCheck (eventHash env.sha (Registry.lastEventHash db.events) call.body) = true :=
    hashCheck_iff.mpr ⟨hex _ (by simp), size _ (by simp)⟩
  have fresh : ∀ r ∈ db.events, r.eventHash ≠ eventHash env.sha (Registry.lastEventHash db.events) call.body := by
    intro r mem same
    obtain ⟨_, _, disjoint⟩ := List.nodup_append.mp apart
    exact disjoint _ (List.mem_map_of_mem mem) _ List.mem_cons_self same
  have checks : (lengthCheck call.body.modelId && lengthCheck call.body.version &&
      decide (call.body.action ∈ [str "revoke", str "unrevoke"]) && hashCheck (Registry.lastEventHash db.events) &&
      hashCheck (eventHash env.sha (Registry.lastEventHash db.events) call.body)) = true := by
    rw [names.1, names.2, previous, own, decide_eq_true action]
    rfl
  unfold acceptsEvent
  show (do ensure (_ = true) checkViolation; ensure (∀ r ∈ db.events, r.eventHash ≠ _) uniqueViolation) = _
  exact bind_ok.mpr ⟨(), ensure_ok.mpr checks, ensure_ok.mpr fresh⟩

theorem Database.Refines.record (h : Refines env ledger db) (call : RevocationCall) (answer : Answer)
    (text : Valid env.nfc call.modelId ∧ Valid env.nfc call.version → ∀ s ∈ call.texts, storable s = true)
    (fit : HashesFit env.sha (Ledger.record env.nfc ledger call answer).2.events) :
    Matches (Ledger.record env.nfc ledger call answer).1 ((appendEvent env db call.body).1.map fun _ => answer) ∧
      Refines env (Ledger.record env.nfc ledger call answer).2 (appendEvent env db call.body).2 := by
  have names : call.body.modelId = call.modelId ∧ call.body.version = call.version := by cases call <;> exact ⟨rfl, rfl⟩
  unfold Ledger.record Ledger.named at fit ⊢
  unfold Database.appendEvent
  rw [names.1, names.2]
  by_cases valid : Valid env.nfc call.modelId ∧ Valid env.nfc call.version
  · have checked : validateNames env.nfc env.host call.modelId call.version = .ok () := validateNames_ok.mpr valid
    rw [if_pos valid] at fit ⊢
    rw [checked, eventParameters_call (text valid)]
    dsimp only
    rw [h.accepts valid fit]
    refine ⟨rfl, { h with bodies := ?_, hashes := ?_, eventSerial := ?_ }⟩
    · show (db.events ++ [_]).map EventRow.body = (ledger.events ++ [call]).map RevocationCall.body
      rw [List.map_append, List.map_append, h.bodies]
      rfl
    · show (db.events ++ [_]).map EventRow.eventHash = eventHashes _ _ ((ledger.events ++ [call]).map RevocationCall.body)
      rw [List.map_append, List.map_append, List.map_singleton, List.map_singleton, eventHashes_append, h.hashes,
        ← h.lastEventHash]
      rfl
    · exact h.eventSerial.mono (Nat.le_succ _) |>.append h.eventSerial.below (Nat.lt_succ_self _)
  · obtain ⟨message, raised⟩ := validateNames_invalid env.host valid
    rw [if_neg valid, raised]
    exact ⟨rfl, h⟩

theorem Database.Refines.step (h : Refines env ledger db) {op : Operation} (wellFormed : op.WellFormed)
    (encodable : op.Encodable env.nfc) (readsBack : op.ReadsBack env.codec)
    (fit : HashesFit env.sha (Ledger.step env.nfc ledger op).2.events) :
    Matches (Ledger.step env.nfc ledger op).1 (Database.step env db op).1 ∧
      Refines env (Ledger.step env.nfc ledger op).2 (Database.step env db op).2 := by
  have invalidNames {α : Type} {modelId version : Str} (f : Unit → Except Raised α)
      (invalid : ¬(Valid env.nfc modelId ∧ Valid env.nfc version)) :
      ∃ message, validateNames env.nfc env.host modelId version >>= f =
        .error (.modelGuard .invalidIdentifierError message) := by
    obtain ⟨message, raised⟩ := validateNames_invalid env.host invalid
    exact ⟨message, by rw [raised]; rfl⟩
  have texts {l : List Str} (plain : ∀ s ∈ l, noNul s) (scalars : ∀ s ∈ l, Scalars s) : ∀ s ∈ l, storable s = true :=
    fun s mem => storable_iff.mpr ⟨plain s mem, scalars s mem⟩
  cases op with
  | register record => exact h.register wellFormed readsBack
  | get modelId version =>
    refine named_query h (fun valid => h.get valid ?_) (invalidNames _)
    exact texts wellFormed (encodable valid)
  | getByDigest digest =>
    show Matches (.ok (.found (Ledger.firstWithDigest ledger.rows digest))) ((db.getByDigest env digest).map _) ∧ _
    rw [h.getByDigest (texts wellFormed encodable)]
    exact ⟨rfl, h⟩
  | listVersions modelId =>
    refine listing_query h (fun valid => h.listVersions valid (texts wellFormed (encodable valid))) fun invalid => ?_
    obtain ⟨message, raised⟩ := validateIdentifier_invalid env.host "model_id" invalid
    exact ⟨message, by unfold Database.listVersions; rw [raised]; rfl⟩
  | revoke record => exact h.record (.revoke record) (.revocation record) (fun _ => wellFormed) fit
  | unrevoke modelId version actor reason now =>
    refine h.record (.unrevoke modelId version actor reason now) .nothing (fun valid s mem => ?_) fit
    have split : s ∈ [modelId, version, actor, reason] ++ [now] := mem
    rcases List.mem_append.mp split with own | clock
    · exact texts wellFormed.1 (encodable valid) s own
    · exact List.mem_singleton.mp clock ▸ wellFormed.2
  | isRevoked modelId version =>
    refine named_query h (fun valid => h.isRevoked valid ?_) (invalidNames _)
    exact texts wellFormed (encodable valid)

end Postgres

/-! ### Text that the database cannot take -/

variable {env : RegistryEnv}

theorem sqlTexts_unicode {action : String} {texts : List Str} (plain : ∀ s ∈ texts, noNul s)
    (surrogates : ¬∀ s ∈ texts, Scalars s) : sqlTexts action texts = .error unicodeEncodeError := by
  induction texts with
  | nil => exact (surrogates fun _ mem => (List.not_mem_nil mem).elim).elim
  | cons s rest ih =>
    obtain ⟨here, later⟩ := List.forall_mem_cons.mp plain
    have noZero : (s.any fun c => c.val = 0) = false := by
      rw [List.any_eq_false]
      exact fun c mem zero => here c mem (of_decide_eq_true zero)
    unfold sqlTexts sqlText
    rw [if_neg (Bool.eq_false_iff.mp noZero)]
    by_cases scalars : Scalars s
    · have none : s.any isSurrogate = false := by
        rw [List.any_eq_false]
        exact fun c mem => Bool.eq_false_iff.mp (scalars c mem)
      rw [if_neg (Bool.eq_false_iff.mp none)]
      exact ih later fun all => surrogates (List.forall_mem_cons.mpr ⟨scalars, all⟩)
    · have some : s.any isSurrogate = true := by
        unfold Scalars at scalars
        push Not at scalars
        obtain ⟨c, mem, surrogate⟩ := scalars
        exact List.any_eq_true.mpr ⟨c, mem, by simpa using surrogate⟩
      rw [if_pos some]
      rfl

theorem eventParameters_unicode {modelId version actor reason now : Str}
    (plain : ∀ s ∈ [modelId, version, actor, reason], noNul s) (clock : storable now = true)
    (surrogates : ¬∀ s ∈ [modelId, version, actor, reason], Scalars s) :
    eventParameters (RevocationCall.unrevoke modelId version actor reason now).body = .error unicodeEncodeError := by
  have word : noNul (str "unrevoke") := (storable_iff.mp (by decide)).1
  refine sqlTexts_unicode ?_ ?_
  · have now := (storable_iff.mp clock).1
    simp_all [RevocationCall.body]
  · intro all
    refine surrogates fun s mem => all s ?_
    simp only [RevocationCall.body, List.mem_cons, List.not_mem_nil, or_false] at mem ⊢
    rcases mem with same | same | same | same <;> simp [same]

/-- A call with such a text raises in the database, whatever it holds. -/
theorem Database.step_unicode {op : Operation} (wellFormed : op.WellFormed) (surrogates : ¬op.Encodable env.nfc)
    (db : Database) : (Database.step env db op).1 = .error unicodeEncodeError := by
  cases op with
  | register _ => exact (surrogates trivial).elim
  | revoke _ => exact (surrogates trivial).elim
  | get modelId version =>
    obtain ⟨valid, foreign⟩ := Classical.not_imp.mp surrogates
    have checked : validateNames env.nfc env.host modelId version = .ok () := validateNames_ok.mpr valid
    show (Database.get env db modelId version).map _ = _
    unfold Database.get
    rw [checked, sqlTexts_unicode wellFormed foreign]
    rfl
  | getByDigest digest =>
    show (db.getByDigest env digest).map _ = _
    unfold Database.getByDigest
    rw [sqlTexts_unicode wellFormed surrogates]
    rfl
  | listVersions modelId =>
    obtain ⟨valid, foreign⟩ := Classical.not_imp.mp surrogates
    show (Database.listVersions env db modelId).map _ = _
    unfold Database.listVersions
    rw [validateIdentifier_valid valid, sqlTexts_unicode wellFormed foreign]
    rfl
  | unrevoke modelId version actor reason now =>
    obtain ⟨valid, foreign⟩ := Classical.not_imp.mp surrogates
    let body := (RevocationCall.unrevoke modelId version actor reason now).body
    have checked : validateNames env.nfc env.host body.modelId body.version = .ok () := validateNames_ok.mpr valid
    show ((Database.appendEvent env db body).1.map _) = _
    unfold Database.appendEvent
    rw [checked, eventParameters_unicode wellFormed.1 wellFormed.2 foreign]
    rfl
  | isRevoked modelId version =>
    obtain ⟨valid, foreign⟩ := Classical.not_imp.mp surrogates
    have checked : validateNames env.nfc env.host modelId version = .ok () := validateNames_ok.mpr valid
    show (db.isRevoked env modelId version).map _ = _
    unfold Database.isRevoked
    rw [checked, sqlTexts_unicode wellFormed foreign]
    rfl

theorem not_sameResult_unicode (a : Except Raised Answer) : ¬SameResult a (.error unicodeEncodeError) := by
  intro same
  rcases same with ⟨_, _, same⟩ | ⟨_, _, _, _, _, same⟩
  · cases same
  · cases same

/-! ### Runs -/

theorem Ledger.step_events (nfc : Str → Str) (ledger : Ledger) (op : Operation) :
    ledger.events <+: (Ledger.step nfc ledger op).2.events := by
  have recorded (call : RevocationCall) (answer : Answer) :
      ledger.events <+: (Ledger.record nfc ledger call answer).2.events := by
    unfold Ledger.record Ledger.named
    split
    · exact List.prefix_append _ _
    · exact List.prefix_refl _
  cases op with
  | register record =>
    show ledger.events <+: (Ledger.registerRow nfc ledger record).2.events
    unfold Ledger.registerRow
    split
    · exact List.prefix_refl _
    · split <;> exact List.prefix_refl _
  | get _ _ =>
    show ledger.events <+: (Ledger.named nfc ledger _ _ (_, ledger)).2.events
    unfold Ledger.named
    split <;> exact List.prefix_refl _
  | getByDigest _ => exact List.prefix_refl _
  | listVersions modelId =>
    show ledger.events <+: (if Valid nfc modelId then _ else _ : Except ErrorClass Answer × Ledger).2.events
    split <;> exact List.prefix_refl _
  | revoke record => exact recorded _ _
  | unrevoke modelId version actor reason now => exact recorded _ _
  | isRevoked _ _ =>
    show ledger.events <+: (Ledger.named nfc ledger _ _ (_, ledger)).2.events
    unfold Ledger.named
    split <;> exact List.prefix_refl _

theorem HashesFit.of_prefix {sha : Sha256} {events more : List RevocationCall} (h : HashesFit sha more)
    (before : events <+: more) : HashesFit sha events := by
  obtain ⟨rest, split⟩ := before
  have hashes : eventHashes sha genesisHash (events.map RevocationCall.body) <+:
      eventHashes sha genesisHash (more.map RevocationCall.body) := by
    rw [← split]
    clear split
    induction rest using List.reverseRecOn with
    | nil => rw [List.append_nil]
    | append_singleton rest call ih =>
      rw [← List.append_assoc, List.map_append, List.map_singleton, eventHashes_append]
      exact ih.trans (List.prefix_append _ _)
  exact ⟨fun hash mem => h.size hash (hashes.subset mem), h.apart.sublist hashes.sublist⟩

/-- The outcomes of some calls, from empty. -/
def localResults (env : RegistryEnv) (ops : List Operation) : List (Except Raised Answer) :=
  outputs (LocalStore.step env) .empty ops

def postgresResults (env : RegistryEnv) (ops : List Operation) : List (Except Raised Answer) :=
  outputs (Database.step env) .empty ops

/-- The revocations and withdrawals that some calls record. -/
def recordedCalls (env : RegistryEnv) (ops : List Operation) : List RevocationCall :=
  (final (Ledger.step env.nfc) .empty ops).events

/-- A call that both backends serve. -/
structure Operation.Served (env : RegistryEnv) (op : Operation) : Prop where
  wellFormed : op.WellFormed
  encodable : op.Encodable env.nfc
  readsBack : op.ReadsBack env.codec

theorem local_refines {ops : List Operation} (served : ∀ op ∈ ops, op.Served env) :
    List.Forall₂ Matches (outputs (Ledger.step env.nfc) .empty ops) (localResults env ops) := by
  refine outputs_related (fun _ op => op.Served env) ?_ (LocalStore.refines_empty env) ?_
  · intro ledger store op h fit
    exact h.step fit.wellFormed fit.encodable fit.readsBack
  · exact along_of_final (fun _ _ => True) (fun _ => trivial) (fun _ _ _ _ _ => trivial) (fun _ _ => trivial)
      fun _ op mem _ => served op mem

theorem postgres_refines {ops : List Operation} (served : ∀ op ∈ ops, op.Served env)
    (fit : HashesFit env.sha (recordedCalls env ops)) :
    List.Forall₂ Matches (outputs (Ledger.step env.nfc) .empty ops) (postgresResults env ops) := by
  refine outputs_related
    (fun ledger op => op.Served env ∧ HashesFit env.sha (Ledger.step env.nfc ledger op).2.events) ?_
    (Database.refines_empty env) ?_
  · intro ledger db op h ⟨well, hashes⟩
    exact h.step well.wellFormed well.encodable well.readsBack hashes
  · exact along_of_final (fun s t : Ledger => s.events <+: t.events) (fun _ => List.prefix_refl _)
      (fun _ _ _ => List.IsPrefix.trans) (Ledger.step_events env.nfc) fun _ op mem before =>
        ⟨served op mem, fit.of_prefix before⟩

/-- The abstract registry raises two classes only. -/
theorem Ledger.step_raises {nfc : Str → Str} {ledger : Ledger} {op : Operation} {cls : ErrorClass}
    (h : (Ledger.step nfc ledger op).1 = .error cls) :
    cls ∈ [ErrorClass.invalidIdentifierError, .duplicateRegistrationError] := by
  have named {modelId version : Str} {next : Answer × Ledger}
      (h : (Ledger.named nfc ledger modelId version next).1 = .error cls) :
      cls ∈ [ErrorClass.invalidIdentifierError, .duplicateRegistrationError] := by
    unfold Ledger.named at h
    split at h
    · cases h
    · exact Except.error.inj h ▸ List.mem_cons_self
  cases op with
  | register record =>
    have row : (Ledger.registerRow nfc ledger record).1 = .error cls := h
    unfold Ledger.registerRow at row
    split at row
    · exact Except.error.inj row ▸ List.mem_cons_self
    · split at row
      · exact Except.error.inj row ▸ List.mem_cons_of_mem _ List.mem_cons_self
      · cases row
  | get _ _ => exact named h
  | getByDigest _ => cases h
  | listVersions modelId =>
    have listed : (if Valid nfc modelId then (.ok (.versions (versionsOf ledger.rows modelId)), ledger)
      else (.error .invalidIdentifierError, ledger) : Except ErrorClass Answer × Ledger).1 = .error cls := h
    split at listed
    · cases listed
    · exact Except.error.inj listed ▸ List.mem_cons_self
  | revoke _ => exact named h
  | unrevoke _ _ _ _ _ => exact named h
  | isRevoked _ _ => exact named h

theorem matches_ok {value : Answer} {a : Except Raised Answer} (h : Matches (.ok value) a) : a = .ok value := by
  cases a with
  | ok other => exact congrArg Except.ok (h : value = other).symm
  | error _ => exact h.elim

theorem matches_error {cls : ErrorClass} {a : Except Raised Answer} (h : Matches (.error cls) a) :
    ∃ text, a = .error (.modelGuard cls text) := by
  cases a with
  | ok _ => exact h.elim
  | error e =>
    cases e with
    | modelGuard other text => exact ⟨text, by rw [(h : cls = other)]⟩
    | external _ _ => exact h.elim

theorem sameResult_of_matches {outcome : Except ErrorClass Answer} {a b : Except Raised Answer}
    (raises : ∀ cls, outcome = .error cls → cls ∈ [ErrorClass.invalidIdentifierError, .duplicateRegistrationError])
    (ha : Matches outcome a) (hb : Matches outcome b) : SameResult a b := by
  cases outcome with
  | ok value => exact Or.inl ⟨value, matches_ok ha, matches_ok hb⟩
  | error cls =>
    obtain ⟨text, raisedA⟩ := matches_error ha
    obtain ⟨text', raisedB⟩ := matches_error hb
    exact Or.inr ⟨cls, raises cls rfl, text, text', raisedA, raisedB⟩

theorem sameResults_of_matches {outcomes : List (Except ErrorClass Answer)} {as bs : List (Except Raised Answer)}
    (raises : ∀ outcome ∈ outcomes, ∀ cls, outcome = .error cls →
      cls ∈ [ErrorClass.invalidIdentifierError, .duplicateRegistrationError])
    (ha : List.Forall₂ Matches outcomes as) (hb : List.Forall₂ Matches outcomes bs) : List.Forall₂ SameResult as bs := by
  induction ha generalizing bs with
  | nil =>
    cases hb
    exact .nil
  | cons first _ ih =>
    cases hb with
    | cons first' rest' =>
      exact .cons (sameResult_of_matches (raises _ List.mem_cons_self) first first')
        (ih (fun outcome mem => raises outcome (List.mem_cons_of_mem _ mem)) rest')

/-- A version is revoked, looked up and found revoked. -/
def sampleCalls : List Operation :=
  [.revoke System.sampleRevocation, .get (str "m") (str "1"), .isRevoked (str "m") (str "1")]

theorem sampleCalls_recorded :
    recordedCalls (sampleEnv System.sampleSha) sampleCalls = [.revoke System.sampleRevocation] := by
  have valid : Valid (sampleEnv System.sampleSha).nfc (str "m") ∧ Valid (sampleEnv System.sampleSha).nfc (str "1") := by
    decide
  have first : Ledger.step (sampleEnv System.sampleSha).nfc .empty (.revoke System.sampleRevocation) =
      (.ok (.revocation System.sampleRevocation), ⟨[], [.revoke System.sampleRevocation]⟩) := by
    show Ledger.named (sampleEnv System.sampleSha).nfc .empty (str "m") (str "1")
      (.revocation System.sampleRevocation, ⟨[], [.revoke System.sampleRevocation]⟩) = _
    rw [Ledger.named, if_pos valid]
  have kept (op : Operation) (ledger : Ledger) (value : Answer)
      (h : Ledger.step (sampleEnv System.sampleSha).nfc ledger op =
        Ledger.named (sampleEnv System.sampleSha).nfc ledger (str "m") (str "1") (value, ledger)) :
      (Ledger.step (sampleEnv System.sampleSha).nfc ledger op).2 = ledger := by
    rw [h, Ledger.named, if_pos valid]
  unfold recordedCalls final sampleCalls
  rw [List.foldl_cons, first, List.foldl_cons, kept _ _ _ rfl, List.foldl_cons, kept _ _ _ rfl]
  rfl

/-- What Python reads the byte 0x80 of a file name as. -/
def loneSurrogate : Str := [⟨0xdc80, by decide⟩]

end ModelGuard.Registry
