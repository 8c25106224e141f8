import ModelGuard.Registry.LocalLog

/-!
# Provenance events and their log

An event is an edge between two texts. Nothing checks the texts when it is recorded.
-/

namespace ModelGuard.Provenance

open Lib Lib.Fallible ModelGuard.Registry

inductive RelationshipType where
  | derivedFrom
  | trainedOn
  | fineTunedFrom
  | mergedFrom
  | quantizedFrom
  | exportedFrom
  | packagedIn
  | signedBy
  | builtBy
  | evaluatedBy
  | deployedTo
  | revokedBy
deriving DecidableEq

def RelationshipType.value : RelationshipType → String
  | .derivedFrom => "DERIVED_FROM"
  | .trainedOn => "TRAINED_ON"
  | .fineTunedFrom => "FINE_TUNED_FROM"
  | .mergedFrom => "MERGED_FROM"
  | .quantizedFrom => "QUANTIZED_FROM"
  | .exportedFrom => "EXPORTED_FROM"
  | .packagedIn => "PACKAGED_IN"
  | .signedBy => "SIGNED_BY"
  | .builtBy => "BUILT_BY"
  | .evaluatedBy => "EVALUATED_BY"
  | .deployedTo => "DEPLOYED_TO"
  | .revokedBy => "REVOKED_BY"

/-- `LINEAGE_RELATIONSHIPS`. -/
def lineageRelationships : List RelationshipType :=
  [.derivedFrom, .trainedOn, .fineTunedFrom, .mergedFrom, .quantizedFrom, .exportedFrom, .packagedIn]

structure ProvenanceEvent where
  subjectId : Str
  /-- A `RelationshipType` where the caller keeps to the annotation. -/
  relationship : Str
  objectId : Str
  actor : Str
  evidence : Str
  eventId : Str
  timestamp : Str
deriving DecidableEq

namespace ProvenanceEvent

def members (e : ProvenanceEvent) : List (String × Str) :=
  [("event_id", e.eventId), ("subject_id", e.subjectId), ("relationship", e.relationship), ("object_id", e.objectId),
    ("actor", e.actor), ("evidence", e.evidence), ("timestamp", e.timestamp)]

def toRecord (e : ProvenanceEvent) : Audit.Record SpecialFloat := Registry.logRecord e.members

/-- `record[key]`. A log that `record` wrote has texts; Python would take any value and use it later. -/
def textMember (record : Json SpecialFloat) (key : String) : Except Raised Str := do
  match ← raiseLogError (Audit.getItem (str key) record) with
  | .str s => return s
  | _ => .error (.external (str "TypeError") (str "a text is expected"))

def fromRecord (record : Json SpecialFloat) : Except Raised ProvenanceEvent := do
  return { eventId := ← textMember record "event_id", subjectId := ← textMember record "subject_id"
           relationship := ← textMember record "relationship", objectId := ← textMember record "object_id"
           actor := ← textMember record "actor", evidence := ← textMember record "evidence"
           timestamp := ← textMember record "timestamp" }

def IsLineage (e : ProvenanceEvent) : Prop := e.relationship ∈ lineageRelationships.map fun r => str r.value

instance (e : ProvenanceEvent) : Decidable e.IsLineage := inferInstanceAs (Decidable (_ ∈ _))

def IsDeployment (e : ProvenanceEvent) : Prop := e.relationship = str RelationshipType.deployedTo.value

instance (e : ProvenanceEvent) : Decidable e.IsDeployment := inferInstanceAs (Decidable (_ = _))

end ProvenanceEvent

/-! ### The store: one log file -/

/-- `LocalProvenanceStore.record`. -/
def record (sha : Sha256) (log : Option Bytes) (event : ProvenanceEvent) :
    Except Raised ProvenanceEvent × Option Bytes :=
  match Audit.appendEntry sha log event.toRecord with
  | .error e => (.error (logError e), log)
  | .ok (_, content) => (.ok event, some content)

/-- `LocalProvenanceStore.all_events`. -/
def allEvents (log : Option Bytes) : Except Raised (List ProvenanceEvent) := do
  let entries ← raiseLogError (Audit.readAllEntries log)
  entries.mapM fun entry => ProvenanceEvent.fromRecord entry.record

/-- The log after some calls of `record`. -/
def recorded (sha : Sha256) (events : List ProvenanceEvent) : Option Bytes :=
  events.foldl (fun log event => (record sha log event).2) none

/-! ### What was recorded is read -/

/-- The event as it is read back: the log does not tell a character from its two surrogates. -/
def ProvenanceEvent.readBack (e : ProvenanceEvent) : ProvenanceEvent where
  subjectId := Json.joinText e.subjectId
  relationship := Json.joinText e.relationship
  objectId := Json.joinText e.objectId
  actor := Json.joinText e.actor
  evidence := Json.joinText e.evidence
  eventId := Json.joinText e.eventId
  timestamp := Json.joinText e.timestamp

theorem fromRecord_toRecord (e : ProvenanceEvent) : ProvenanceEvent.fromRecord e.toRecord.json = .ok e.readBack := by
  have twice (s : Str) : Json.joinText (Json.joinText s) = Json.joinText s :=
    Json.joinText_of_joined (Json.joinText_joined s)
  have same : e.toRecord.json = e.readBack.toRecord.json := by
    simp [ProvenanceEvent.toRecord, ProvenanceEvent.members, ProvenanceEvent.readBack, Registry.logRecord,
      Audit.Record.json, twice]
  have distinct : (e.readBack.members.map Prod.fst).Nodup := by
    show ["event_id", "subject_id", "relationship", "object_id", "actor", "evidence", "timestamp"].Nodup
    decide
  have member (key : String) (s : Str) (mem : (key, Json.joinText s) ∈ e.readBack.members) :
      ProvenanceEvent.textMember e.readBack.toRecord.json key = .ok (Json.joinText s) := by
    have item := LocalStore.logRecord_item distinct mem (Json.joinText_joined s)
    unfold ProvenanceEvent.textMember ProvenanceEvent.toRecord
    rw [item]
    rfl
  rw [same]
  unfold ProvenanceEvent.fromRecord
  rw [member "event_id" e.eventId (by simp [ProvenanceEvent.members, ProvenanceEvent.readBack]),
    member "subject_id" e.subjectId (by simp [ProvenanceEvent.members, ProvenanceEvent.readBack]),
    member "relationship" e.relationship (by simp [ProvenanceEvent.members, ProvenanceEvent.readBack]),
    member "object_id" e.objectId (by simp [ProvenanceEvent.members, ProvenanceEvent.readBack]),
    member "actor" e.actor (by simp [ProvenanceEvent.members, ProvenanceEvent.readBack]),
    member "evidence" e.evidence (by simp [ProvenanceEvent.members, ProvenanceEvent.readBack]),
    member "timestamp" e.timestamp (by simp [ProvenanceEvent.members, ProvenanceEvent.readBack])]
  rfl

/-- The log verifies and holds one entry for each event. -/
def LogHolds (sha : Sha256) (log : Option Bytes) (events : List ProvenanceEvent) : Prop :=
  ∃ entries : List LogEntry, Audit.Appendable sha log entries ∧
    entries.map (·.record) = events.map fun e => e.toRecord.json

theorem LogHolds.record {sha : Sha256} {log : Option Bytes} {events : List ProvenanceEvent} (h : LogHolds sha log events)
    (event : ProvenanceEvent) :
    (record sha log event).1 = .ok event ∧ LogHolds sha (record sha log event).2 (events ++ [event]) := by
  obtain ⟨entries, appendable, records⟩ := h
  obtain ⟨entry, content, appended, same, next⟩ := Audit.append_step appendable event.toRecord
  unfold Provenance.record
  rw [appended]
  refine ⟨rfl, entries ++ [entry], next, ?_⟩
  rw [List.map_append, List.map_append, records, List.map_singleton, List.map_singleton, same]

theorem logHolds_recorded (sha : Sha256) (events : List ProvenanceEvent) : LogHolds sha (recorded sha events) events := by
  induction events using List.reverseRecOn with
  | nil => exact ⟨[], Audit.appendable_none sha, rfl⟩
  | append_singleton events event ih =>
    have next := (ih.record event).2
    unfold recorded at next ⊢
    rw [List.foldl_append]
    exact next

theorem LogHolds.allEvents {sha : Sha256} {log : Option Bytes} {events : List ProvenanceEvent} (h : LogHolds sha log events) :
    allEvents log = .ok (events.map ProvenanceEvent.readBack) := by
  obtain ⟨entries, appendable, records⟩ := h
  have read : ∀ (entries : List LogEntry) (events : List ProvenanceEvent),
      entries.map (·.record) = events.map (fun e => e.toRecord.json) →
        (entries.mapM fun entry => ProvenanceEvent.fromRecord entry.record) = .ok (events.map ProvenanceEvent.readBack) := by
    intro entries events records
    induction events generalizing entries with
    | nil =>
      rw [List.map_eq_nil_iff.mp records]
      rfl
    | cons event events ih =>
      obtain ⟨entry, rest, split, first, others⟩ := List.map_eq_cons_iff.mp records
      subst split
      refine mapM_ok_cons.mpr ⟨_, _, ?_, ih rest others, rfl⟩
      rw [first]
      exact fromRecord_toRecord event
  unfold Provenance.allEvents
  rw [appendable.read]
  exact read entries events records

end ModelGuard.Provenance
