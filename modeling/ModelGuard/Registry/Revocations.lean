import ModelGuard.Lib.Transition
import ModelGuard.Registry.Postgres

/-!
# Revocations by concurrent clients

Every call of `revoke` and `unrevoke` is one transaction at READ COMMITTED that takes the advisory lock, reads the
last hash, inserts and commits. The steps of different calls interleave in any order, and a transaction may abort
at any of them.
-/

namespace ModelGuard.Registry

open Lib Lib.Fallible SerialTable

/-- How far a call has come. -/
inductive Phase where
  | idle
  /-- `SELECT pg_advisory_xact_lock` was sent. -/
  | waiting
  | locked
  | read (prev : Str)
  | inserted (row : EventRow)
  | returned
  | raised

def Phase.HoldsLock : Phase → Prop
  | .locked => True
  | .read _ => True
  | .inserted _ => True
  | _ => False

/-- The phases after `validate_identifier` has passed. -/
def Phase.Connected : Phase → Prop
  | .idle => False
  | .raised => False
  | _ => True

/-- The calls, named by `C`, and what they share. -/
structure System (C : Type) where
  phase : C → Phase
  /-- The session that holds the advisory lock. -/
  holder : Option C
  /-- The committed rows, each with the call that inserted it. -/
  committed : List (C × EventRow)
  nextEventId : Nat

namespace System

variable {C : Type} [DecidableEq C]

def start : System C where
  phase _ := .idle
  holder := none
  committed := []
  nextEventId := 1

def rows (s : System C) : List EventRow := s.committed.map Prod.snd

def enter (s : System C) (c : C) (phase : Phase) : System C := { s with phase := Function.update s.phase c phase }

/-- A transaction that ends gives up its lock. -/
def release (s : System C) (c : C) : System C := { s with holder := if s.holder = some c then none else s.holder }

variable (env : RegistryEnv) (calls : C → RevocationCall)

/-- One step of one call. -/
inductive Step : System C → System C → Prop
  /-- `validate_identifier` raises before there is a connection. -/
  | refuse {s : System C} (c : C) (idle : s.phase c = .idle) {e : Raised}
      (invalid : validateNames env.nfc env.host (calls c).body.modelId (calls c).body.version = .error e) : Step s (s.enter c .raised)
  | connect {s : System C} (c : C) (idle : s.phase c = .idle)
      (valid : validateNames env.nfc env.host (calls c).body.modelId (calls c).body.version = .ok ()) : Step s (s.enter c .waiting)
  | lock {s : System C} (c : C) (waiting : s.phase c = .waiting) (free : s.holder = none) :
      Step s { s.enter c .locked with holder := some c }
  | read {s : System C} (c : C) (locked : s.phase c = .locked) : Step s (s.enter c (.read (lastEventHash s.rows)))
  | insert {s : System C} (c : C) {prev : Str} (read : s.phase c = .read prev)
      (adapted : eventParameters (calls c).body = .ok ())
      (accepted : acceptsEvent s.rows (eventRow env.sha (calls c).body prev s.nextEventId) = .ok ()) :
      Step s { s.enter c (.inserted (eventRow env.sha (calls c).body prev s.nextEventId)) with
        nextEventId := s.nextEventId + 1 }
  /-- A refused row has used up a number of the sequence. -/
  | reject {s : System C} (c : C) {prev : Str} (read : s.phase c = .read prev) {e : PgError}
      (refused : acceptsEvent s.rows (eventRow env.sha (calls c).body prev s.nextEventId) = .error e) :
      Step s { (s.enter c .raised).release c with nextEventId := s.nextEventId + 1 }
  | commit {s : System C} (c : C) {row : EventRow} (inserted : s.phase c = .inserted row) :
      Step s { (s.enter c .returned).release c with committed := s.committed ++ [(c, row)] }
  | abort {s : System C} (c : C) (running : s.phase c ≠ .idle ∧ s.phase c ≠ .returned ∧ s.phase c ≠ .raised) :
      Step s ((s.enter c .raised).release c)

abbrev Run : System C → System C → Prop := Relation.ReflTransGen (Step env calls)

/-- The rows that a call has put into the table. -/
def contributions (s : System C) (c : C) : List EventRow := (s.committed.filter fun e => e.1 = c).map Prod.snd

/-! ### What every step keeps -/

/-- A row of valid names that are text. -/
def Admitted (env : RegistryEnv) (row : EventRow) : Prop :=
  (Valid env.nfc row.modelId ∧ Valid env.nfc row.version) ∧ ∀ s ∈ [row.modelId, row.version], storable s = true

/-- A row that may be committed behind the ones there are. -/
structure Follows (env : RegistryEnv) (rows : List EventRow) (body : EventBody) (row : EventRow) : Prop where
  made : row = eventRow env.sha body (headHash genesisHash rows) row.id
  above : ∀ r ∈ rows, r.id < row.id
  admitted : Admitted env row

structure Consistent (s : System C) : Prop where
  lock : ∀ c, (s.phase c).HoldsLock → s.holder = some c
  serial : Serial EventRow.id s.nextEventId s.rows
  chain : verifyRows env.sha 0 genesisHash s.rows = .ok ()
  admitted : ∀ row ∈ s.rows, Admitted env row
  valid : ∀ c, (s.phase c).Connected → Valid env.nfc (calls c).body.modelId ∧ Valid env.nfc (calls c).body.version
  current : ∀ c prev, s.phase c = .read prev → prev = headHash genesisHash s.rows
  pending : ∀ c row, s.phase c = .inserted row →
    Follows env s.rows (calls c).body row ∧ row.id < s.nextEventId
  contributed : ∀ c, s.phase c = .returned → ∃ row, s.contributions c = [row] ∧ row.body = (calls c).body
  absent : ∀ c, s.phase c ≠ .returned → s.contributions c = []

theorem lastEventHash_serial {next : Nat} {rows : List EventRow} (h : Serial EventRow.id next rows) :
    lastEventHash rows = headHash genesisHash rows := by
  unfold lastEventHash headHash
  rw [h.newest]

theorem enter_self (s : System C) (c : C) (phase : Phase) : (s.enter c phase).phase c = phase :=
  Function.update_self ..

theorem enter_other (s : System C) {c d : C} (h : d ≠ c) (phase : Phase) : (s.enter c phase).phase d = s.phase d :=
  Function.update_of_ne h ..

theorem consistent_start : Consistent env calls (start : System C) where
  lock _ holds := holds.elim
  serial := serial_nil
  chain := rfl
  admitted _ mem := (List.not_mem_nil mem).elim
  valid _ connected := connected.elim
  current _ _ same := by cases same
  pending _ _ same := by cases same
  contributed _ same := by cases same
  absent _ _ := rfl

variable {env calls} {s : System C} {c : C}

/-- What a step of `c` leaves of the others: their phases, the rows, and the lock they may hold. -/
structure Frame (s t : System C) (c : C) : Prop where
  phase : ∀ d, d ≠ c → t.phase d = s.phase d
  committed : t.committed = s.committed
  holder : ∀ d, d ≠ c → s.holder = some d → t.holder = some d
  next : s.nextEventId ≤ t.nextEventId

/-- A step that commits nothing keeps the invariant when the new phase of `c` fits it. -/
theorem Consistent.frame {t : System C} {phase : Phase} (h : Consistent env calls s) (f : Frame s t c)
    (now : t.phase c = phase) (notDone : s.phase c ≠ .returned ∧ phase ≠ .returned)
    (lock : phase.HoldsLock → t.holder = some c)
    (valid : phase.Connected → Valid env.nfc (calls c).body.modelId ∧ Valid env.nfc (calls c).body.version)
    (current : ∀ prev, phase = .read prev → prev = headHash genesisHash s.rows)
    (pending : ∀ row, phase = .inserted row → Follows env s.rows (calls c).body row ∧ row.id < t.nextEventId) :
    Consistent env calls t := by
  subst now
  have rows : t.rows = s.rows := congrArg (List.map Prod.snd) f.committed
  have own (d : C) : t.contributions d = s.contributions d := by
    unfold contributions
    rw [f.committed]
  constructor
  · intro d holds
    by_cases same : d = c
    · subst same
      exact lock holds
    · rw [f.phase d same] at holds
      exact f.holder d same (h.lock d holds)
  · rw [rows]
    exact h.serial.mono f.next
  · rw [rows]
    exact h.chain
  · rw [rows]
    exact h.admitted
  · intro d connected
    by_cases same : d = c
    · subst same
      exact valid connected
    · rw [f.phase d same] at connected
      exact h.valid d connected
  · intro d prev at_
    rw [rows]
    by_cases same : d = c
    · subst same
      exact current prev at_
    · rw [f.phase d same] at at_
      exact h.current d prev at_
  · intro d row at_
    rw [rows]
    by_cases same : d = c
    · subst same
      exact pending row at_
    · rw [f.phase d same] at at_
      obtain ⟨follows, inSequence⟩ := h.pending d row at_
      exact ⟨follows, Nat.lt_of_lt_of_le inSequence f.next⟩
  · intro d done
    rw [own]
    by_cases same : d = c
    · subst same
      exact (notDone.2 done).elim
    · rw [f.phase d same] at done
      exact h.contributed d done
  · intro d unfinished
    rw [own]
    by_cases same : d = c
    · subst same
      exact h.absent d notDone.1
    · rw [f.phase d same] at unfinished
      exact h.absent d unfinished

theorem frame_enter (s : System C) (c : C) (phase : Phase) : Frame s (s.enter c phase) c where
  phase _ other := enter_other s other phase
  committed := rfl
  holder _ _ held := held
  next := Nat.le_refl _

theorem Frame.release {t : System C} (f : Frame s t c) : Frame s (t.release c) c where
  phase := f.phase
  committed := f.committed
  holder d other held := by
    have kept := f.holder d other held
    have elsewhere : t.holder ≠ some c := fun same => other (Option.some.inj (kept.symm.trans same))
    show (if t.holder = some c then none else t.holder) = some d
    rw [if_neg elsewhere, kept]
  next := f.next

/-- A call that raises keeps the invariant. -/
theorem Consistent.giveUp {t : System C} (h : Consistent env calls s) (f : Frame s t c)
    (notDone : s.phase c ≠ .returned) (raised : t.phase c = .raised) : Consistent env calls t :=
  h.frame f raised ⟨notDone, nofun⟩ False.elim False.elim (fun _ same => by cases same) fun _ same => by cases same

/-- While one call holds the lock, no other call is past it. -/
theorem Consistent.alone (h : Consistent env calls s) (holds : (s.phase c).HoldsLock) {d : C} (other : d ≠ c) :
    ¬(s.phase d).HoldsLock := by
  intro holds'
  have same := (h.lock d holds').symm.trans (h.lock c holds)
  exact other (Option.some.inj same)

theorem eventParameters_names {body : EventBody} {u : Unit} (h : eventParameters body = .ok u) :
    ∀ s ∈ [body.modelId, body.version], storable s = true := by
  have texts := sqlTexts_ok.mp h
  exact fun s mem => texts s (List.mem_append_left [body.action, body.actor, body.reason, body.revokedAt] mem)

/-- The row that a call inserts follows the committed ones. -/
theorem Consistent.insert_follows (h : Consistent env calls s) {prev : Str} (read : s.phase c = .read prev)
    (adapted : eventParameters (calls c).body = .ok ()) :
    Follows env s.rows (calls c).body (eventRow env.sha (calls c).body prev s.nextEventId) where
  made := by
    rw [h.current c prev read]
    rfl
  above r mem := h.serial.below r mem
  admitted := ⟨h.valid c (by rw [read]; trivial), eventParameters_names adapted⟩

theorem contributions_append {s t : System C} {row : EventRow} (more : t.committed = s.committed ++ [(c, row)]) (d : C) :
    t.contributions d = s.contributions d ++ if c = d then [row] else [] := by
  unfold contributions
  rw [more, List.filter_append, List.map_append]
  congr 1
  by_cases same : c = d
  · simp [same]
  · simp [same]

/-- A commit puts the row of the lock holder behind the others. -/
theorem Consistent.commit {t : System C} (h : Consistent env calls s) {row : EventRow}
    (inserted : s.phase c = .inserted row) (now : t.phase c = .returned) (others : ∀ d, d ≠ c → t.phase d = s.phase d)
    (more : t.committed = s.committed ++ [(c, row)]) (next : t.nextEventId = s.nextEventId) :
    Consistent env calls t := by
  obtain ⟨⟨made, above, admitted⟩, inSequence⟩ := h.pending c row inserted
  have holds : (s.phase c).HoldsLock := by rw [inserted]; trivial
  have own : row.body = (calls c).body := by rw [made]; rfl
  have rows : t.rows = s.rows ++ [row] := by
    unfold System.rows
    rw [more, List.map_append]
    rfl
  have free (d : C) : ¬(t.phase d).HoldsLock := by
    by_cases same : d = c
    · rw [same, now]
      exact id
    · rw [others d same]
      exact h.alone holds same
  constructor
  · intro d holding
    exact (free d holding).elim
  · rw [rows, next]
    exact h.serial.append above inSequence
  · rw [rows]
    refine verifyRows_append.mpr ⟨h.chain, by rw [made]; rfl, ?_⟩
    rw [own, made]
    rfl
  · intro r mem
    rw [rows, List.mem_append, List.mem_singleton] at mem
    rcases mem with old | new
    · exact h.admitted r old
    · exact new ▸ admitted
  · intro d connected
    by_cases same : d = c
    · subst same
      exact h.valid d (by rw [inserted]; trivial)
    · rw [others d same] at connected
      exact h.valid d connected
  · intro d prev read
    exact (free d (by rw [read]; trivial)).elim
  · intro d other inserted'
    exact (free d (by rw [inserted']; trivial)).elim
  · intro d done
    rw [contributions_append more]
    by_cases same : c = d
    · subst same
      rw [if_pos rfl, h.absent c (by rw [inserted]; exact nofun)]
      exact ⟨row, rfl, own⟩
    · rw [others d (Ne.symm same)] at done
      rw [if_neg same, List.append_nil]
      exact h.contributed d done
  · intro d unfinished
    rw [contributions_append more]
    by_cases same : c = d
    · subst same
      exact (unfinished now).elim
    · rw [others d (Ne.symm same)] at unfinished
      rw [if_neg same, List.append_nil]
      exact h.absent d unfinished

theorem Consistent.step {t : System C} (h : Consistent env calls s) (step : Step env calls s t) :
    Consistent env calls t := by
  cases step with
  | refuse c idle _ => exact h.giveUp (frame_enter s c _) (by rw [idle]; exact nofun) (enter_self ..)
  | connect c idle valid =>
    exact h.frame (frame_enter s c .waiting) (enter_self ..) ⟨by rw [idle]; exact nofun, nofun⟩ False.elim
      (fun _ => validateNames_ok.mp valid) (fun _ same => by cases same) fun _ same => by cases same
  | lock c waiting free =>
    have f : Frame s { s.enter c .locked with holder := some c } c :=
      { frame_enter s c .locked with holder := fun d _ held => by rw [free] at held; cases held }
    exact h.frame f (enter_self s c .locked) ⟨by rw [waiting]; exact nofun, nofun⟩ (fun _ => rfl)
      (fun _ => h.valid c (by rw [waiting]; trivial)) (fun _ same => by cases same) fun _ same => by cases same
  | read c locked =>
    have held : s.holder = some c := h.lock c (by rw [locked]; trivial)
    refine h.frame (frame_enter s c _) (enter_self ..) ⟨by rw [locked]; exact nofun, nofun⟩ (fun _ => held)
      (fun _ => h.valid c (by rw [locked]; trivial)) ?_ fun _ same => by cases same
    intro prev same
    rw [← Phase.read.inj same]
    exact lastEventHash_serial h.serial
  | insert c read adapted accepted =>
    rename_i prev
    have held : s.holder = some c := h.lock c (by rw [read]; trivial)
    let row := eventRow env.sha (calls c).body prev s.nextEventId
    have f : Frame s { s.enter c (.inserted row) with nextEventId := s.nextEventId + 1 } c :=
      { frame_enter s c (.inserted row) with next := Nat.le_succ _ }
    refine h.frame f (enter_self s c (.inserted row)) ⟨by rw [read]; exact nofun, nofun⟩ (fun _ => held)
      (fun _ => h.valid c (by rw [read]; trivial)) (fun _ same => by cases same) ?_
    intro other same
    rw [← Phase.inserted.inj same]
    exact ⟨h.insert_follows read adapted, Nat.lt_succ_self _⟩
  | reject c read refused =>
    have f : Frame s { (s.enter c .raised).release c with nextEventId := s.nextEventId + 1 } c :=
      { (frame_enter s c .raised).release with next := Nat.le_succ _ }
    exact h.giveUp f (by rw [read]; exact nofun) (enter_self s c .raised)
  | commit c inserted =>
    exact h.commit inserted (enter_self s c .returned) (fun d other => enter_other s other .returned) rfl rfl
  | abort c running => exact h.giveUp (frame_enter s c _).release running.2.1 (enter_self s c .raised)

theorem consistent_run (run : Run env calls start s) : Consistent env calls s :=
  Transition.holds_after (fun _ _ h step => h.step step) run (consistent_start env calls)

/-! ### What the registry then says -/

/-- The last event about a version, in the order of the ids. -/
def lastEvent (rows : List EventRow) (modelId version : Str) : Option EventRow :=
  (eventsAbout (ascending EventRow.id rows) modelId version).getLast?

/-- `is_revoked` goes by the last event. About a name that is refused there is none. -/
theorem isRevoked_iff (db : Database) {next : Nat} (serial : Serial EventRow.id next db.events)
    (admitted : ∀ row ∈ db.events, Admitted env row) (modelId version : Str) :
    (∃ record, db.isRevoked env modelId version = .ok (some record)) ↔
      ∃ row, lastEvent db.events modelId version = some row ∧ row.action = str "revoke" := by
  unfold lastEvent
  rw [serial.ascending]
  by_cases sound : (Valid env.nfc modelId ∧ Valid env.nfc version) ∧ ∀ s ∈ [modelId, version], storable s = true
  · rw [Database.isRevoked_valid serial sound.1 sound.2]
    cases (eventsAbout db.events modelId version).getLast? with
    | none => simp
    | some row =>
      rw [Option.bind_some]
      unfold revocationIn
      by_cases revoked : row.action = str "revoke"
      · simp [revoked]
      · simp [revoked]
  · constructor
    · intro ⟨record, answer⟩
      unfold Database.isRevoked at answer
      obtain ⟨_, valid, answer⟩ := bind_ok.mp answer
      obtain ⟨_, text, _⟩ := bind_ok.mp answer
      exact (sound ⟨validateNames_ok.mp valid, sqlTexts_ok.mp text⟩).elim
    · intro ⟨row, last, _⟩
      have mem := List.mem_filter.mp (List.mem_of_getLast? last)
      obtain ⟨sameModel, sameVersion⟩ := of_decide_eq_true mem.2
      have known := admitted row mem.1
      unfold Admitted at known
      rw [sameModel, sameVersion] at known
      exact (sound known).elim

/-- The database that a new session sees. -/
def database (s : System C) : Database where
  records := []
  events := s.rows
  nextRecordId := 1
  nextEventId := s.nextEventId

def sampleRevocation : RevocationRecord where
  modelId := str "m"
  version := str "1"
  revokedBy := str "r"
  reason := str "x"
  revokedAt := str "t"

def sampleCall (_ : Unit) : RevocationCall := .revoke sampleRevocation

def sampleBody : EventBody := (sampleCall ()).body

/-- Knows the hash of the first event. -/
def sampleSha : Sha256 :=
  .ofTable [(asciiBytes genesisHash ++ asciiBytes sampleBody.json.dumps,
    str "029bc5f8f715ec227463c9e1354ede5c0e9ddcf32a56d597f40417ed362a184b")] (by decide +kernel)

def sampleRow : EventRow := eventRow sampleSha sampleBody genesisHash 1

theorem sample_run : ∃ s : System Unit, Run (sampleEnv sampleSha) sampleCall start s ∧ s.phase () = .returned := by
  have valid : validateNames (sampleEnv sampleSha).nfc (sampleEnv sampleSha).host (str "m") (str "1") = .ok () := by decide +kernel
  have adapted : eventParameters sampleBody = .ok () := by decide +kernel
  have accepted : acceptsEvent [] sampleRow = .ok () := by decide +kernel
  let connected := start.enter () .waiting
  let locked : System Unit := { connected.enter () .locked with holder := some () }
  let read := locked.enter () (.read genesisHash)
  let inserted : System Unit := { read.enter () (.inserted sampleRow) with nextEventId := 2 }
  have toConnected : Step (sampleEnv sampleSha) sampleCall start connected := .connect () rfl valid
  have toLocked : Step (sampleEnv sampleSha) sampleCall connected locked := .lock () rfl rfl
  have toRead : Step (sampleEnv sampleSha) sampleCall locked read := .read () rfl
  have toInserted : Step (sampleEnv sampleSha) sampleCall read inserted := .insert () rfl adapted accepted
  exact ⟨_, (((Relation.ReflTransGen.single toConnected).tail toLocked |>.tail toRead).tail toInserted).tail
    (.commit () rfl), rfl⟩

end System

end ModelGuard.Registry
