import ModelGuard.Audit.Torn
import ModelGuard.Deployment.Audited

/-!
# A history of admissions in one audit log

Deployments are admitted one after another with the same log. An append may fail before it writes, or after any
number of octets. As long as the log verifies it holds every deployment that was admitted; once it does not, no
deployment is admitted with it.
-/

namespace ModelGuard.Deployment

open Lib Lib.Fallible ModelGuard.Audit ModelGuard.Sdk

/-- One call of `admit` with an audit log: its inputs, how its checks go, and how its append goes. -/
structure Attempt where
  trustConfigured : Bool
  checked : Except Raised PolicyCheck
  correlationId : Str
  timestamp : Str
  actor : Str
  /-- The exception of making the directory or reading the log. -/
  before : Option Raised
  /-- The exception of writing, and how many octets have reached the file by then. -/
  cut : Option (Raised × Nat)

/-- The record that the call wants in the log. -/
def Attempt.record (a : Attempt) : Record SpecialFloat :=
  (auditEvent (proposal a.trustConfigured a.checked a.correlationId) a.actor).toRecord a.timestamp

/-- What `append_entry` writes behind the log. -/
def newLine (sha : Sha256) (log : Option Bytes) (record : Record SpecialFloat) : Bytes :=
  match appendEntry sha log record with
  | .error _ => []
  | .ok (_, content) => content.drop (log.getD []).length

def Attempt.file (sha : Sha256) (log : Option Bytes) (a : Attempt) : AuditFile where
  log := log
  faults :=
    { before := a.before
      write := a.cut.map fun cut => (cut.1, (newLine sha log a.record).take cut.2) }

/-- The log, and the calls that were made with it. -/
structure History where
  log : Option Bytes
  decided : List (Attempt × AdmissionDecision)

def History.call (sha : Sha256) (h : History) (a : Attempt) : History :=
  let outcome := admitAudited sha a.trustConfigured a.checked a.correlationId a.timestamp a.actor (some (a.file sha h.log))
  { log := outcome.2.getD h.log
    decided := h.decided ++ [(a, outcome.1)] }

def History.run (sha : Sha256) (h : History) (attempts : List Attempt) : History := attempts.foldl (History.call sha) h

/-- No file, and no call. -/
def History.start : History where
  log := none
  decided := []

/-- The records of the calls. -/
def History.proposed (h : History) : List (Json SpecialFloat) := h.decided.map fun d => d.1.record.json

/-- The records of the calls that admitted a deployment. -/
def History.admitted (h : History) : List (Json SpecialFloat) := (h.decided.filter fun d => d.2.admitted).map fun d => d.1.record.json

/-! ### One call -/

variable {sha : Sha256} {h : History} {a : Attempt}

/-- What a call does, by how its append goes. -/
inductive Recorded (sha : Sha256) (log : Option Bytes) (a : Attempt) (log' : Option Bytes) (decision : AdmissionDecision) : Prop
  | written (entry : ChainEntry SpecialFloat) (content : Bytes) (appended : appendEntry sha log a.record = .ok (entry, content))
      (after : log' = some content)
  | cut (entry : ChainEntry SpecialFloat) (content : Bytes) (n : Nat)
      (appended : appendEntry sha log a.record = .ok (entry, content))
      (after : log' = some (log.getD [] ++ (newLine sha log a.record).take n)) (refused : decision.admitted = false)
  | unwritten (after : log' = log) (refused : decision.admitted = false)

theorem recorded_of_file (sha : Sha256) (a : Attempt) (log : Option Bytes) {result : Except Raised Unit × Option Bytes}
    (same : (a.file sha log).record sha a.timestamp (auditEvent (proposal a.trustConfigured a.checked a.correlationId) a.actor) =
      result) :
    (∃ entry content, appendEntry sha log a.record = .ok (entry, content) ∧ result = (.ok (), some content)) ∨
      (∃ e entry content n, appendEntry sha log a.record = .ok (entry, content) ∧
        result = (.error e, some (log.getD [] ++ (newLine sha log a.record).take n))) ∨
      ∃ e, result = (.error e, log) := by
  unfold AuditFile.record Attempt.file at same
  dsimp only at same
  cases before : a.before with
  | some e =>
    rw [before] at same
    exact .inr (.inr ⟨e, same.symm⟩)
  | none =>
    rw [before] at same
    dsimp only at same
    cases appended : appendEntry sha log a.record with
    | error e =>
      have appended' := appended
      unfold Attempt.record at appended'
      rw [appended'] at same
      exact .inr (.inr ⟨_, same.symm⟩)
    | ok written =>
      obtain ⟨entry, content⟩ := written
      have appended' := appended
      unfold Attempt.record at appended'
      rw [appended'] at same
      dsimp only at same
      cases cut : a.cut with
      | none =>
        rw [cut] at same
        exact .inl ⟨entry, content, rfl, same.symm⟩
      | some fault =>
        rw [cut] at same
        exact .inr (.inl ⟨_, entry, content, fault.2, rfl, same.symm⟩)

theorem admit_recorded (sha : Sha256) (h : History) (a : Attempt) : ∃ decision, (h.call sha a).decided = h.decided ++ [(a, decision)] ∧
    Recorded sha h.log a (h.call sha a).log decision := by
  refine ⟨_, rfl, ?_⟩
  unfold History.call admitAudited
  dsimp only [Option.map_some, Option.getD_some]
  rcases recorded_of_file sha a h.log rfl with
    ⟨entry, content, appended, same⟩ | ⟨e, entry, content, n, appended, same⟩ | ⟨e, same⟩
  · exact .written entry content appended (congrArg Prod.snd same)
  · exact .cut entry content n appended (congrArg Prod.snd same)
      (finish_unrecorded (fun event => ((a.file sha h.log).record sha a.timestamp event).1) (congrArg Prod.fst same)).1
  · exact .unwritten (congrArg Prod.snd same)
      (finish_unrecorded (fun event => ((a.file sha h.log).record sha a.timestamp event).1) (congrArg Prod.fst same)).1

/-! ### What every call keeps -/

/-- The entries of a log hold what was admitted, in order, and nothing that no call proposed. -/
structure Holds (entries : List (ChainEntry SpecialFloat)) (h : History) : Prop where
  admitted : h.admitted.Sublist (entries.map (·.record))
  proposed : (entries.map (·.record)).Sublist h.proposed

/-- The log is stuck, or it verifies with these entries. -/
def Kept (sha : Sha256) (h : History) : Prop :=
  Stuck SpecialFloat h.log ∨ ∃ entries, (Appendable sha h.log entries ∨ Unclosed sha h.log entries) ∧ Holds entries h

section Step

variable {h' : History} {decision : AdmissionDecision} {entries : List (ChainEntry SpecialFloat)}

theorem proposed_next (decided : h'.decided = h.decided ++ [(a, decision)]) : h'.proposed = h.proposed ++ [a.record.json] := by
  unfold History.proposed
  rw [decided, List.map_append]
  rfl

theorem admitted_next (decided : h'.decided = h.decided ++ [(a, decision)]) :
    h'.admitted = h.admitted ++ if decision.admitted then [a.record.json] else [] := by
  unfold History.admitted
  rw [decided, List.filter_append, List.map_append]
  congr 1
  cases answer : decision.admitted <;> simp [answer]

/-- A record behind the others. -/
theorem Holds.added (holds : Holds entries h) (decided : h'.decided = h.decided ++ [(a, decision)])
    {entry : ChainEntry SpecialFloat} (own : entry.record = a.record.json) : Holds (entries ++ [entry]) h' := by
  have records : (entries ++ [entry]).map (·.record) = entries.map (·.record) ++ [a.record.json] := by
    rw [List.map_append, List.map_singleton, own]
  refine ⟨?_, ?_⟩
  · rw [admitted_next decided, records]
    refine holds.admitted.append ?_
    cases decision.admitted with
    | true => exact List.Sublist.refl _
    | false => exact List.nil_sublist _
  · rw [proposed_next decided, records]
    exact holds.proposed.append (List.Sublist.refl _)

/-- A refusal without a record. -/
theorem Holds.refused (holds : Holds entries h) (decided : h'.decided = h.decided ++ [(a, decision)])
    (refused : decision.admitted = false) : Holds entries h' := by
  refine ⟨?_, ?_⟩
  · rw [admitted_next decided, refused]
    simpa using holds.admitted
  · rw [proposed_next decided]
    exact holds.proposed.trans (List.sublist_append_left _ _)

end Step

theorem newLine_of_append {log : Option Bytes} {record : Record SpecialFloat} {entry : ChainEntry SpecialFloat} {line : Bytes}
    (appended : appendEntry sha log record = .ok (entry, log.getD [] ++ line)) : newLine sha log record = line := by
  unfold newLine
  rw [appended]
  exact List.drop_left

/-- A log that is stuck stays as it is, and admits nothing. -/
theorem admit_stuck (sha : Sha256) (a : Attempt) (stuck : Stuck SpecialFloat h.log) :
    (h.call sha a).log = h.log ∧ (h.call sha a).admitted = h.admitted := by
  obtain ⟨decision, decided, recorded⟩ := admit_recorded sha h a
  obtain ⟨e, raises⟩ := stuck.append sha a.record
  cases recorded with
  | written entry content appended after =>
    rw [raises] at appended
    cases appended
  | cut entry content n appended after refused =>
    rw [raises] at appended
    cases appended
  | unwritten after refused =>
    refine ⟨after, ?_⟩
    rw [admitted_next decided, refused]
    exact List.append_nil _

theorem admit_kept (kept : Kept sha h) : Kept sha (h.call sha a) := by
  obtain ⟨decision, decided, recorded⟩ := admit_recorded sha h a
  rcases kept with stuck | ⟨entries, appendable | unclosed, holds⟩
  · left
    rw [(admit_stuck sha a stuck).1]
    exact stuck
  · obtain ⟨entry, line, appended, own, after, cuts⟩ := append_cut appendable a.record
    cases recorded with
    | written entry' content appended' same =>
      rw [appended] at appended'
      cases appended'
      refine .inr ⟨entries ++ [entry], .inl ?_, holds.added decided own⟩
      rwa [same]
    | cut entry' content n appended' same refused =>
      rw [newLine_of_append appended] at same
      unfold Kept
      rw [same]
      cases cuts n with
      | nowhere unchanged => exact .inr ⟨entries, .inl unchanged, holds.refused decided refused⟩
      | whole added => exact .inr ⟨entries ++ [entry], .inl added, holds.added decided own⟩
      | unclosed added => exact .inr ⟨entries ++ [entry], .inr added, holds.added decided own⟩
      | stuck cut => exact .inl cut
    | unwritten same refused =>
      refine .inr ⟨entries, .inl ?_, holds.refused decided refused⟩
      rwa [same]
  · cases recorded with
    | written entry content appended same =>
      obtain ⟨line, -, stuck, -⟩ := unclosed.append_cut appended
      left
      rwa [same]
    | cut entry content n appended same refused =>
      obtain ⟨line, whole, -, cuts⟩ := unclosed.append_cut appended
      rw [whole] at appended
      rw [newLine_of_append appended] at same
      unfold Kept
      rw [same]
      rcases cuts n with none | stuck
      · rw [none]
        exact .inr ⟨entries, .inr (unclosed.congr (List.append_nil _)), holds.refused decided refused⟩
      · exact .inl stuck
    | unwritten same refused =>
      refine .inr ⟨entries, .inr ?_, holds.refused decided refused⟩
      rwa [same]

/-! ### A whole history -/

theorem run_kept (attempts : List Attempt) (kept : Kept sha h) : Kept sha (h.run sha attempts) := by
  induction attempts generalizing h with
  | nil => exact kept
  | cons a attempts ih => exact ih (admit_kept kept)

theorem run_stuck (attempts : List Attempt) (stuck : Stuck SpecialFloat h.log) :
    (h.run sha attempts).log = h.log ∧ (h.run sha attempts).admitted = h.admitted := by
  induction attempts generalizing h with
  | nil => exact ⟨rfl, rfl⟩
  | cons a attempts ih =>
    obtain ⟨log, admitted⟩ := admit_stuck sha a stuck
    obtain ⟨log', admitted'⟩ := ih (log ▸ stuck : Stuck SpecialFloat (h.call sha a).log)
    exact ⟨log'.trans log, admitted'.trans admitted⟩

/-- While the log of a history verifies, no admitted deployment is missing from it; when it no longer does, none is
admitted with it. -/
theorem audited_history (sha : Sha256) (attempts more : List Attempt) :
    let h := History.start.run sha attempts
    (verifyChain (F := SpecialFloat) sha h.log = .ok () →
      ∃ entries, readAllEntries h.log = .ok entries ∧ Holds entries h) ∧
    (verifyChain (F := SpecialFloat) sha h.log ≠ .ok () →
      (h.run sha more).log = h.log ∧ (h.run sha more).admitted = h.admitted) := by
  have kept : Kept sha (History.start.run sha attempts) :=
    run_kept attempts (.inr ⟨[], .inl (appendable_none sha), List.nil_sublist _, List.nil_sublist _⟩)
  dsimp only
  rcases kept with stuck | ⟨entries, sound, holds⟩
  · exact ⟨fun verified => (stuck.verify verified).elim, fun _ => run_stuck more stuck⟩
  · have sound : Sound sha (History.start.run sha attempts).log entries := by
      rcases sound with appendable | unclosed
      · exact appendable.toSound
      · exact unclosed.toSound
    exact ⟨fun _ => ⟨entries, sound.read, holds⟩, fun broken => (broken (sound_iff.mp sound).1).elim⟩

end ModelGuard.Deployment
