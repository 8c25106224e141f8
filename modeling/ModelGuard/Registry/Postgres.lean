import ModelGuard.Lib.SerialTable
import ModelGuard.Lib.Utf8Order
import ModelGuard.Registry.Identifiers
import ModelGuard.Registry.Ledger

/-!
# The PostgreSQL registry

Two append-only tables of the shipped schema and the statements that the registry runs on them. A row has the
columns that some statement reads or checks.
-/

namespace ModelGuard.Registry

open Lib Lib.Fallible

structure RecordRow where
  id : Nat
  modelId : Str
  version : Str
  artifactDigest : Str
  record : Json SpecialFloat
  registeredBy : Str

structure EventRow where
  id : Nat
  modelId : Str
  version : Str
  action : Str
  actor : Str
  reason : Str
  revokedAt : Str
  prevHash : Str
  eventHash : Str
deriving DecidableEq

/-- The rows that were committed, and the next numbers of the two sequences. -/
structure Database where
  records : List RecordRow
  events : List EventRow
  nextRecordId : Nat
  nextEventId : Nat

def Database.empty : Database where
  records := []
  events := []
  nextRecordId := 1
  nextEventId := 1

/-- A `psycopg.Error`: its class and its SQLSTATE. -/
structure PgError where
  name : String
  sqlstate : String
deriving DecidableEq

def dataError : PgError := ⟨"DataError", "none"⟩

def untranslatableCharacter : PgError := ⟨"UntranslatableCharacter", "22P05"⟩

def uniqueViolation : PgError := ⟨"UniqueViolation", "23505"⟩

def checkViolation : PgError := ⟨"CheckViolation", "23514"⟩

/-- What `_connect` makes of a `psycopg.Error` that is none of the named categories. -/
def backendError (action : String) (e : PgError) : Raised :=
  .modelGuard .registryBackendError (str "PostgreSQL registry " ++ str action ++ str " failed: database error (" ++
    str e.name ++ str ", sqlstate=" ++ str e.sqlstate ++ str ").")

/-! ### Parameters -/

/-- No NUL and no surrogate. -/
def storable (s : Str) : Bool := s.all fun c => c.val ≠ 0 && !isSurrogate c

def unicodeEncodeError : Raised := .external (str "UnicodeEncodeError") (str "surrogates not allowed")

/-- A text parameter: psycopg refuses NUL and encodes the rest as UTF-8. -/
def sqlText (action : String) (s : Str) : Except Raised Unit :=
  if s.any fun c => c.val = 0 then .error (backendError action dataError)
  else if s.any isSurrogate then .error unicodeEncodeError
  else .ok ()

/-- The text parameters of a statement, in order. -/
def sqlTexts (action : String) : List Str → Except Raised Unit
  | [] => .ok ()
  | s :: rest => do
    sqlText action s
    sqlTexts action rest

theorem sqlText_ok {action : String} {s : Str} {u : Unit} : sqlText action s = .ok u ↔ storable s = true := by
  have split : storable s = true ↔ s.any (fun c => c.val = 0) = false ∧ s.any isSurrogate = false := by
    unfold storable
    simp only [List.all_eq_true, List.any_eq_false, Bool.and_eq_true, decide_eq_true_eq, Bool.not_eq_true']
    exact ⟨fun h => ⟨fun c mem => (h c mem).1, fun c mem => by simp [(h c mem).2]⟩,
      fun h c mem => ⟨h.1 c mem, by simpa using h.2 c mem⟩⟩
  unfold sqlText
  rw [split]
  cases s.any fun c => c.val = 0 <;> cases s.any isSurrogate <;> simp

theorem sqlTexts_ok {action : String} {texts : List Str} {u : Unit} :
    sqlTexts action texts = .ok u ↔ ∀ s ∈ texts, storable s = true := by
  induction texts with
  | nil => exact ⟨fun _ _ mem => (List.not_mem_nil mem).elim, fun _ => rfl⟩
  | cons s rest ih =>
    unfold sqlTexts
    simp only [bind_ok, sqlText_ok, exists_const, ih, List.forall_mem_cons]

mutual
/-- Whether `jsonb` takes the value: each of its strings has to be text. -/
def jsonbAccepts : Json SpecialFloat → Bool
  | .str s => storable s
  | .arr items => jsonbItems items
  | .obj fields => jsonbFields fields
  | _ => true

def jsonbItems : List (Json SpecialFloat) → Bool
  | [] => true
  | v :: items => jsonbAccepts v && jsonbItems items

def jsonbFields : List (Str × Json SpecialFloat) → Bool
  | [] => true
  | (k, v) :: fields => storable k && jsonbAccepts v && jsonbFields fields
end

/-! ### Registrations -/

/-- `char_length(value) BETWEEN 1 AND 200`. -/
def lengthCheck (s : Str) : Bool := 1 ≤ s.length && s.length ≤ 200

/-- `INSERT INTO registry_records`: the number is taken also when a constraint refuses the row. -/
def Database.insertRecord (db : Database) (row : Nat → RecordRow) : Except PgError Unit × Database :=
  let new := row db.nextRecordId
  let taken := { db with nextRecordId := db.nextRecordId + 1 }
  if ¬(lengthCheck new.modelId ∧ lengthCheck new.version ∧ IsArtifactDigest new.artifactDigest) then
    (.error checkViolation, taken)
  else if db.records.any fun r => r.modelId = new.modelId && r.version = new.version then
    (.error uniqueViolation, taken)
  else (.ok (), { taken with records := db.records ++ [new] })

def recordRow (record : RegistryRecord) (id : Nat) : RecordRow where
  id := id
  modelId := record.modelId
  version := record.version
  artifactDigest := record.artifactDigest
  record := record.modelDump
  registeredBy := record.registeredBy

namespace Database

variable (env : RegistryEnv) (db : Database)

def registerParameters (record : RegistryRecord) : Except Raised Unit := do
  sqlTexts "registration" [record.modelId, record.version, record.artifactDigest, record.registeredBy]
  ensure (jsonbAccepts record.modelDump = true) (backendError "registration" untranslatableCharacter)

def register (record : RegistryRecord) : Except Raised RegistryRecord × Database :=
  match validateNames env.nfc env.host record.modelId record.version with
  | .error e => (.error e, db)
  | .ok () =>
    match registerParameters record with
    | .error e => (.error e, db)
    | .ok () =>
      match db.insertRecord (recordRow record) with
      | (.ok (), db) => (.ok record, db)
      | (.error e, db) =>
        if e.sqlstate = uniqueViolation.sqlstate then (.error (duplicateRegistrationError record.modelId record.version), db)
        else (.error (backendError "registration" e), db)

def corruptRecord : Raised :=
  .modelGuard .registryBackendError
    (str "A stored registry record failed validation; " ++ str "the registry data may be corrupt.")

def disagreeingRecord : Raised :=
  .modelGuard .registryBackendError
    (str "A stored registry record disagrees with its indexed columns; " ++ str "refusing to trust it.")

/-- `_row_to_record`. -/
def rowToRecord (row : RecordRow) : Except Raised RegistryRecord := do
  let record ← orRaise corruptRecord (env.codec.modelValidate row.record)
  ensure ((record.modelId, record.version, record.artifactDigest) = (row.modelId, row.version, row.artifactDigest))
    disagreeingRecord
  return record

def foundRecord : Option RecordRow → Except Raised (Option RegistryRecord)
  | none => .ok none
  | some row => do return some (← rowToRecord env row)

def get (modelId version : Str) : Except Raised (Option RegistryRecord) := do
  validateNames env.nfc env.host modelId version
  sqlTexts "lookup" [modelId, version]
  foundRecord env (db.records.find? fun r => r.modelId = modelId ∧ r.version = version)

def getByDigest (artifactDigest : Str) : Except Raised (Option RegistryRecord) := do
  sqlTexts "lookup" [artifactDigest]
  foundRecord env (SerialTable.oldest RecordRow.id (db.records.filter fun r => r.artifactDigest = artifactDigest))

/-- `COLLATE "C"` compares the octets. -/
def listVersions (modelId : Str) : Except Raised (List Str) := do
  let _ ← validateIdentifier env.nfc env.host "model_id" modelId
  sqlTexts "lookup" [modelId]
  return ((db.records.filter fun r => r.modelId = modelId).map (·.version)).insertionSort
    fun a b => utf8Octets a ≤ utf8Octets b

end Database

/-! ### Revocations -/

/-- The arguments of `_append_event`. -/
structure EventBody where
  action : Str
  modelId : Str
  version : Str
  actor : Str
  reason : Str
  revokedAt : Str
deriving DecidableEq

def RevocationCall.body : RevocationCall → EventBody
  | .revoke r => ⟨str "revoke", r.modelId, r.version, r.revokedBy, r.reason, r.revokedAt⟩
  | .unrevoke modelId version actor reason now => ⟨str "unrevoke", modelId, version, actor, reason, now⟩

def EventBody.json (body : EventBody) : Json SpecialFloat :=
  .obj [(str "action", .str body.action), (str "actor", .str body.actor), (str "model_id", .str body.modelId),
    (str "reason", .str body.reason), (str "revoked_at", .str body.revokedAt), (str "version", .str body.version)]

/-- `_event_hash`. -/
def eventHash (sha : Sha256) (prev : Str) (body : EventBody) : Str :=
  sha.hexdigest (asciiBytes prev ++ asciiBytes body.json.dumps)

/-- `_GENESIS_HASH`. -/
def genesisHash : Str := List.replicate 64 (cp '0')

def EventRow.body (row : EventRow) : EventBody :=
  ⟨row.action, row.modelId, row.version, row.actor, row.reason, row.revokedAt⟩

/-- The row that `_append_event` inserts behind the hash it read. -/
def eventRow (sha : Sha256) (body : EventBody) (prev : Str) (id : Nat) : EventRow where
  id := id
  modelId := body.modelId
  version := body.version
  action := body.action
  actor := body.actor
  reason := body.reason
  revokedAt := body.revokedAt
  prevHash := prev
  eventHash := eventHash sha prev body

/-- `SELECT event_hash FROM revocation_events ORDER BY id DESC LIMIT 1`, or the genesis hash. -/
def lastEventHash (rows : List EventRow) : Str := ((SerialTable.newest EventRow.id rows).map (·.eventHash)).getD genesisHash

/-- `value ~ '^[0-9a-f]{64}$'`. -/
def hashCheck (s : Str) : Bool := s.all isHexDigit && s.length = 64

/-- Whether `revocation_events` takes a row beside the ones that it has. -/
def acceptsEvent (rows : List EventRow) (row : EventRow) : Except PgError Unit := do
  ensure ((lengthCheck row.modelId && lengthCheck row.version && row.action ∈ [str "revoke", str "unrevoke"] &&
    hashCheck row.prevHash && hashCheck row.eventHash) = true) checkViolation
  ensure (∀ r ∈ rows, r.eventHash ≠ row.eventHash) uniqueViolation

def eventParameters (body : EventBody) : Except Raised Unit :=
  sqlTexts "revocation" [body.modelId, body.version, body.action, body.actor, body.reason, body.revokedAt]

/-- `SELECT … WHERE model_id = … AND version = …`. -/
def eventsAbout (rows : List EventRow) (modelId version : Str) : List EventRow :=
  rows.filter fun r => r.modelId = modelId ∧ r.version = version

namespace Database

variable (env : RegistryEnv) (db : Database)

/-- `_append_event`, in a transaction that nothing interrupts. -/
def appendEvent (body : EventBody) : Except Raised Unit × Database :=
  match validateNames env.nfc env.host body.modelId body.version with
  | .error e => (.error e, db)
  | .ok () =>
    match eventParameters body with
    | .error e => (.error e, db)
    | .ok () =>
      let row := eventRow env.sha body (lastEventHash db.events) db.nextEventId
      let taken := { db with nextEventId := db.nextEventId + 1 }
      match acceptsEvent db.events row with
      | .error e => (.error (backendError "revocation" e), taken)
      | .ok () => (.ok (), { taken with events := db.events ++ [row] })

def isRevoked (modelId version : Str) : Except Raised (Option RevocationRecord) := do
  validateNames env.nfc env.host modelId version
  sqlTexts "revocation lookup" [modelId, version]
  match SerialTable.newest EventRow.id (eventsAbout db.events modelId version) with
  | none => return none
  | some row =>
    if row.action ≠ str "revoke" then return none
    else return some { modelId, version, revokedBy := row.actor, reason := row.reason, revokedAt := row.revokedAt }

end Database

/-- What the last row about a version says. -/
def revocationIn (modelId version : Str) (row : EventRow) : Option RevocationRecord :=
  if row.action ≠ str "revoke" then none
  else some { modelId, version, revokedBy := row.actor, reason := row.reason, revokedAt := row.revokedAt }

theorem Database.isRevoked_valid {env : RegistryEnv} {db : Database} {next : Nat}
    (serial : SerialTable.Serial EventRow.id next db.events) {modelId version : Str}
    (valid : Valid env.nfc modelId ∧ Valid env.nfc version) (text : ∀ s ∈ [modelId, version], storable s = true) :
    db.isRevoked env modelId version =
      .ok ((eventsAbout db.events modelId version).getLast?.bind (revocationIn modelId version)) := by
  have sub : (eventsAbout db.events modelId version).Sublist db.events := List.filter_sublist
  have checked : validateNames env.nfc env.host modelId version = .ok () := validateNames_ok.mpr valid
  have adapted : sqlTexts "revocation lookup" [modelId, version] = .ok () := sqlTexts_ok.mpr text
  unfold Database.isRevoked
  rw [checked, adapted, (serial.sublist sub).newest]
  cases (eventsAbout db.events modelId version).getLast? with
  | none => rfl
  | some row =>
    show (if row.action ≠ str "revoke" then _ else _) = Except.ok (revocationIn modelId version row)
    unfold revocationIn
    split <;> rfl

/-- The loop of `verify_revocation_chain`, from the hash the next row must name. -/
def verifyRows (sha : Sha256) : Nat → Str → List EventRow → Except (Nat × String) Unit
  | _, _, [] => .ok ()
  | index, prev, row :: rest => do
    ensure (row.prevHash = prev) (index, "prev_hash does not match the preceding event")
    ensure (eventHash sha prev row.body = row.eventHash) (index, "event contents do not match their hash")
    verifyRows sha (index + 1) row.eventHash rest

/-- The hash that the next row must name. -/
def headHash (prev : Str) (rows : List EventRow) : Str := (rows.getLast?.map (·.eventHash)).getD prev

/-- One more row is checked against the last hash. -/
theorem verifyRows_append {sha : Sha256} {index : Nat} {prev : Str} {rows : List EventRow} {row : EventRow} :
    verifyRows sha index prev (rows ++ [row]) = .ok () ↔
      verifyRows sha index prev rows = .ok () ∧ row.prevHash = headHash prev rows ∧
        eventHash sha (headHash prev rows) row.body = row.eventHash := by
  induction rows generalizing index prev with
  | nil => simp [verifyRows, headHash, bind_ok, ensure_ok]
  | cons first rows ih =>
    have last : headHash first.eventHash rows = headHash prev (first :: rows) := by
      cases rows with
      | nil => rfl
      | cons second rows =>
        unfold headHash
        rw [List.getLast?_cons_cons]
        simp [List.getLast?_cons]
    rw [List.cons_append, verifyRows, verifyRows]
    simp only [bind_ok, ensure_ok, exists_const, ih, last, and_assoc]

/-- `verify_revocation_chain`: a `ChainIntegrityError` has an index and a reason. -/
def verifyRevocationChain (sha : Sha256) (rows : List EventRow) : Except (Nat × String) Unit :=
  verifyRows sha 0 genesisHash (SerialTable.ascending EventRow.id rows)

end ModelGuard.Registry
