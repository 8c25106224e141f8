import ModelGuard.Deployment.Gate
import ModelGuard.Registry.LocalLog

/-!
# The recorded decision

`admit` with the file of its audit log. What it decides, what it answers and what it records are three
values that agree on every path.
-/

namespace ModelGuard.Deployment

open Lib Lib.Fallible ModelGuard.Policy ModelGuard.Sdk

/-- The exceptions of one `append_entry` that come from the file system. -/
structure AppendFaults where
  /-- Making the directory, or reading the log. -/
  before : Option Raised
  /-- Writing, with what has reached the file by then. -/
  write : Option (Raised × Bytes)
deriving DecidableEq

/-- The path of an audit log: what is there, and how writing to it goes. -/
structure AuditFile where
  log : Option Bytes
  faults : AppendFaults

/-- `AuditEvent.to_record`. -/
def AuditEvent.toRecord (event : AuditEvent) (timestamp : Str) : Audit.Record SpecialFloat where
  fields := Dict.ofPairs
    [(str "event_type", .str (Json.joinText (str "deployment.admission"))),
      (str "actor", .str (Json.joinText event.actor)),
      (str "subject", .str (Json.joinText event.subject)),
      (str "artifact_digest", (event.artifactDigest.map fun digest => .str (Json.joinText digest)).getD .null),
      (str "result", .str (Json.joinText (str (if event.success then "success" else "failure")))),
      (str "reason", .str (Json.joinText event.reason)),
      (str "correlation_id", .str (Json.joinText event.correlationId)),
      (str "timestamp", .str (Json.joinText timestamp))]
  wf := by
    refine .obj (Dict.ofPairs_sorted _) ?_ ?_
    · intro e mem
      have key := Dict.mem_ofPairs mem
      simp only [List.mem_cons, List.not_mem_nil, or_false] at key
      rcases key with rfl | rfl | rfl | rfl | rfl | rfl | rfl | rfl <;> exact Json.joined_str _
    · intro e mem
      have value := Dict.mem_ofPairs mem
      simp only [List.mem_cons, List.not_mem_nil, or_false] at value
      rcases value with rfl | rfl | rfl | rfl | rfl | rfl | rfl | rfl
      all_goals try exact .str (Json.joinText_joined _)
      cases event.artifactDigest with
      | none => exact .null
      | some digest => exact .str (Json.joinText_joined _)

/-- `LocalAuditLog.record`, with the content of the file after it. -/
def AuditFile.record (sha : Sha256) (timestamp : Str) (file : AuditFile) (event : AuditEvent) :
    Except Raised Unit × Option Bytes :=
  match file.faults.before with
  | some e => (.error e, file.log)
  | none =>
    match Audit.appendEntry sha file.log (event.toRecord timestamp) with
    | .error e => (.error (Registry.logError e), file.log)
    | .ok (_, content) =>
      match file.faults.write with
      | some (e, written) => (.error e, some (file.log.getD [] ++ written))
      | none => (.ok (), some content)

/-- What `admit` hands to `_finish`, after a check that went in any way. -/
def proposal (trustConfigured : Bool) (checked : Except Raised PolicyCheck) (correlationId : Str) : AdmissionDecision :=
  if trustConfigured then
    match checked with
    | .error e =>
      { undecided correlationId with
        reasons := [str "Admission check failed with " ++ e.className ++ str ": " ++ e.message]
        error := some e.className }
    | .ok check => admissionOf check correlationId
  else { undecided correlationId with reasons := [noTrustRoots] }

/-- `admit`, with the audit log it leaves where one was asked for. -/
def admitAudited (sha : Sha256) (trustConfigured : Bool) (checked : Except Raised PolicyCheck)
    (correlationId timestamp actor : Str) (audit : Option AuditFile) : AdmissionDecision × Option (Option Bytes) :=
  let proposed := proposal trustConfigured checked correlationId
  (finish proposed actor (audit.map fun file event => (file.record sha timestamp event).1),
    audit.map fun file => (file.record sha timestamp (auditEvent proposed actor)).2)

/-- The checks of `admit` are one behaviour among those considered. -/
theorem admitArtifact_eq {α : Type} (env : Env α) (guard : Guard α) (scanners : List (Scanning.Scanner α))
    (clock : AwareDatetime) (correlationId evaluationId timestamp : Str) (artifact : Artifact α) (files : Files)
    (actor : Str) (audit : Option AuditFile) :
    (admitAudited env.sha guard.trust.isSome
      (checkPolicyDetailed env guard scanners clock evaluationId artifact files) correlationId timestamp actor audit).1 =
      admitArtifact env guard scanners clock correlationId evaluationId artifact files actor
        (audit.map fun file event => (file.record env.sha timestamp event).1) := by
  unfold admitAudited proposal admitArtifact
  cases guard.trust with
  | none => rfl
  | some trust => cases checkPolicyDetailed env guard scanners clock evaluationId artifact files <;> rfl

/-! ### The record -/

variable {sha : Sha256} {timestamp : Str}

/-- One line was added to the log: an entry with this correlation id and this result. Where the old log could be
read and its last line was closed, the new one reads as the old entries and this one. -/
def Appended (log log' : Option Bytes) (correlationId : Str) (result : String) : Prop :=
  ∃ entry : Audit.ChainEntry SpecialFloat,
    log' = some (log.getD [] ++ asciiBytes (Audit.lineText entry ++ [newline])) ∧
    entry.record.get (str "correlation_id") = some (.str (Json.joinText correlationId)) ∧
    entry.record.get (str "result") = some (.str (str result)) ∧
    ∀ entries, Audit.Terminated log → Audit.readAllEntries log = .ok entries →
      Audit.readAllEntries log' = .ok (entries ++ [entry])

theorem AuditEvent.toRecord_correlationId (event : AuditEvent) :
    (event.toRecord timestamp).json.get (str "correlation_id") = some (.str (Json.joinText event.correlationId)) := by
  unfold Audit.Record.json Json.get AuditEvent.toRecord
  dsimp only
  rw [Dict.lookup_ofPairs]
  simp [Dict.lookup_cons, str_injective.eq_iff]

theorem AuditEvent.toRecord_result (event : AuditEvent) :
    (event.toRecord timestamp).json.get (str "result") =
      some (.str (str (if event.success then "success" else "failure"))) := by
  have joined : Json.joinText (str (if event.success then "success" else "failure")) =
      str (if event.success then "success" else "failure") := Json.joinText_of_joined (Json.joined_str _)
  unfold Audit.Record.json Json.get AuditEvent.toRecord
  dsimp only
  rw [Dict.lookup_ofPairs, joined]
  simp [Dict.lookup_cons, str_injective.eq_iff]

theorem AuditFile.record_ok {file : AuditFile} {event : AuditEvent} (ok : (file.record sha timestamp event).1 = .ok ()) :
    Appended file.log (file.record sha timestamp event).2 event.correlationId
      (if event.success then "success" else "failure") := by
  unfold AuditFile.record at ok ⊢
  cases before : file.faults.before with
  | some e =>
    rw [before] at ok
    cases ok
  | none =>
    rw [before] at ok
    dsimp only at ok ⊢
    cases appended : Audit.appendEntry sha file.log (event.toRecord timestamp) with
    | error e =>
      rw [appended] at ok
      cases ok
    | ok written =>
      obtain ⟨entry, content⟩ := written
      rw [appended] at ok
      dsimp only at ok ⊢
      cases write : file.faults.write with
      | some fault =>
        rw [write] at ok
        cases ok
      | none =>
        obtain ⟨prev, index, bytes, -, -, same, line⟩ := Audit.appendEntry_ok.mp appended
        have record : entry.record = (event.toRecord timestamp).json := by rw [same]
        refine ⟨entry, congrArg some line, ?_, ?_, ?_⟩
        · rw [record, AuditEvent.toRecord_correlationId]
        · rw [record, AuditEvent.toRecord_result]
        · exact fun entries terminated read => Audit.appendEntry_reads terminated read appended

/-! ### Decision, answer and record -/

variable {trustConfigured : Bool} {checked : Except Raised PolicyCheck} {correlationId actor : Str}

theorem proposal_correlationId : (proposal trustConfigured checked correlationId).correlationId = correlationId := by
  unfold proposal
  split
  · split <;> rfl
  · rfl

theorem proposal_audited : (proposal trustConfigured checked correlationId).audited = false := by
  unfold proposal
  split
  · split <;> rfl
  · rfl

/-- What is proposed for admission carries no reason against it. -/
theorem proposal_admitted_iff :
    (proposal trustConfigured checked correlationId).admitted = true ↔
      (proposal trustConfigured checked correlationId).reasons = [] := by
  unfold proposal
  split
  · split
    · exact ⟨nofun, nofun⟩
    · exact List.isEmpty_iff
  · exact ⟨nofun, nofun⟩

theorem proposal_admitted (h : (proposal trustConfigured checked correlationId).admitted = true) :
    trustConfigured = true ∧ ∃ check, checked = .ok check ∧ objections check = [] := by
  unfold proposal at h
  split at h
  · rename_i configured
    split at h
    · cases h
    · exact ⟨configured, _, rfl, List.isEmpty_iff.mp h⟩
  · cases h

theorem objections_clear {check : PolicyCheck} (clear : objections check = []) :
    (check.decision.decision = .allow ∨ check.decision.decision = .allowWithWarnings) ∧
      check.verification.digestMatches = true ∧ check.verification.signerTrusted = some true := by
  obtain ⟨allowed, digest, signer⟩ := objections_nil.mp clear
  refine ⟨?_, digest, signer⟩
  unfold Decision.isAllowed at allowed
  simpa using allowed

theorem finish_none (decision : AdmissionDecision) : finish decision actor none = decision := rfl

theorem finish_recorded {record : AuditEvent → Except Raised Unit} {decision : AdmissionDecision}
    (ok : record (auditEvent decision actor) = .ok ()) :
    finish decision actor (some record) = { decision with audited := true } := by
  unfold finish
  dsimp only
  rw [ok]

theorem finish_unrecorded (record : AuditEvent → Except Raised Unit) {decision : AdmissionDecision} {e : Raised}
    (failed : record (auditEvent decision actor) = .error e) :
    (finish decision actor (some record)).admitted = false ∧ (finish decision actor (some record)).audited = false ∧
      (finish decision actor (some record)).reasons ≠ [] := by
  unfold finish
  dsimp only
  rw [failed]
  exact ⟨rfl, rfl, List.append_ne_nil_of_right_ne_nil _ (List.cons_ne_nil _ _)⟩

end ModelGuard.Deployment
