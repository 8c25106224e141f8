import ModelGuard.Registry.Equivalence

/-!
# Registrations at the same time

Calls of `PostgresRegistry.register` on connections of their own. A call draws a number of the sequence before the
unique index makes it wait for another one, so numbers do not follow the order of the commits.
-/

namespace ModelGuard.Registry

open Lib Lib.Fallible

/-- How far a call of `register` has come. -/
inductive Registering where
  | idle
  /-- The names are valid, and there is a connection. -/
  | connected
  /-- The row has its number. The index may make it wait. -/
  | numbered (id : Nat)
  /-- The row is in the index. Others see it once it is committed. -/
  | inserted (id : Nat)
  | returned
  | raised (e : Raised)

/-- The number of a row that is not committed yet. -/
def Registering.ticket : Registering → Option Nat
  | .numbered id => some id
  | .inserted id => some id
  | _ => none

/-- The call has ended. -/
def Registering.Over : Registering → Prop
  | .returned => True
  | .raised _ => True
  | _ => False

/-- The calls, named by `C`, and what they share. -/
structure Registrations (C : Type) where
  phase : C → Registering
  /-- The committed rows, in the order of their commits: each has the record of a call and a number. -/
  committed : List (C × Nat)
  nextRecordId : Nat

namespace Registrations

variable {C : Type} [DecidableEq C]

def start : Registrations C where
  phase _ := .idle
  committed := []
  nextRecordId := 1

def enter (s : Registrations C) (c : C) (phase : Registering) : Registrations C :=
  { s with phase := Function.update s.phase c phase }

/-- The call takes the next number. -/
def draw (s : Registrations C) (c : C) : Registrations C :=
  { s.enter c (.numbered s.nextRecordId) with nextRecordId := s.nextRecordId + 1 }

/-- A commit, after which the call is in the phase. -/
def publish (s : Registrations C) (c : C) (id : Nat) (phase : Registering) : Registrations C :=
  { s.enter c phase with committed := s.committed ++ [(c, id)] }

variable (env : RegistryEnv) (calls : C → RegistryRecord)

/-- What a statement on a new connection finds. -/
def database (s : Registrations C) : Database where
  records := s.committed.map fun e => recordRow (calls e.1) e.2
  events := []
  nextRecordId := s.nextRecordId
  nextEventId := 1

/-- A committed row has the name. -/
def Taken (s : Registrations C) (key : Str × Str) : Prop := ∃ e ∈ s.committed, (calls e.1).key = key

/-- The constraints of the columns. -/
def Checked (record : RegistryRecord) : Prop :=
  lengthCheck record.modelId ∧ lengthCheck record.version ∧ IsArtifactDigest record.artifactDigest

def duplicateOf (record : RegistryRecord) : Raised := duplicateRegistrationError record.modelId record.version

/-- One step of one call. -/
inductive Step : Registrations C → Registrations C → Prop
  | refuse {s : Registrations C} (c : C) (idle : s.phase c = .idle) {e : Raised}
      (invalid : validateNames env.nfc env.host (calls c).modelId (calls c).version = .error e) :
      Step s (s.enter c (.raised e))
  | connect {s : Registrations C} (c : C) (idle : s.phase c = .idle)
      (valid : validateNames env.nfc env.host (calls c).modelId (calls c).version = .ok ()) : Step s (s.enter c .connected)
  | adapt {s : Registrations C} (c : C) (connected : s.phase c = .connected) {e : Raised}
      (refused : Database.registerParameters (calls c) = .error e) : Step s (s.enter c (.raised e))
  | draw {s : Registrations C} (c : C) (connected : s.phase c = .connected)
      (adapted : Database.registerParameters (calls c) = .ok ()) : Step s (s.draw c)
  | check {s : Registrations C} (c : C) {id : Nat} (numbered : s.phase c = .numbered id) (violated : ¬Checked (calls c)) :
      Step s (s.enter c (.raised (backendError "registration" checkViolation)))
  /-- No row has the name, whether it is committed or not. -/
  | insert {s : Registrations C} (c : C) {id : Nat} (numbered : s.phase c = .numbered id) (checked : Checked (calls c))
      (free : ¬s.Taken calls (calls c).key) (alone : ∀ d other, s.phase d = .inserted other → (calls d).key ≠ (calls c).key) :
      Step s (s.enter c (.inserted id))
  | duplicate {s : Registrations C} (c : C) {id : Nat} (numbered : s.phase c = .numbered id) (checked : Checked (calls c))
      (taken : s.Taken calls (calls c).key) : Step s (s.enter c (.raised (duplicateOf (calls c))))
  | commit {s : Registrations C} (c : C) {id : Nat} (inserted : s.phase c = .inserted id) : Step s (s.publish c id .returned)
  /-- The connection is lost after the commit, before the client hears of it. -/
  | unacknowledged {s : Registrations C} (c : C) {id : Nat} (inserted : s.phase c = .inserted id) (message : Str) :
      Step s (s.publish c id (.raised (.modelGuard .registryBackendError message)))
  | abort {s : Registrations C} (c : C) (running : s.phase c ≠ .idle ∧ ¬(s.phase c).Over) (message : Str) :
      Step s (s.enter c (.raised (.modelGuard .registryBackendError message)))

abbrev Run : Registrations C → Registrations C → Prop := Relation.ReflTransGen (Step env calls)

/-! ### What every step keeps -/

/-- The texts of the record can be stored. -/
def Admissible (env : RegistryEnv) (record : RegistryRecord) : Prop :=
  (Valid env.nfc record.modelId ∧ Valid env.nfc record.version) ∧ Database.registerParameters record = .ok ()

/-- Each number is given once, and committed once. -/
structure Numbered (s : Registrations C) : Prop where
  drawn : ∀ c, ∀ id ∈ (s.phase c).ticket, id < s.nextRecordId
  own : ∀ c d id, id ∈ (s.phase c).ticket → id ∈ (s.phase d).ticket → c = d
  pending : ∀ c, ∀ id ∈ (s.phase c).ticket, id ∉ s.committed.map Prod.snd
  below : ∀ e ∈ s.committed, e.2 < s.nextRecordId
  distinct : (s.committed.map Prod.snd).Nodup

/-- Each name is committed once. -/
structure Named (s : Registrations C) : Prop where
  distinct : (s.committed.map fun e => (calls e.1).key).Nodup
  reserved : ∀ c id, s.phase c = .inserted id → ¬s.Taken calls (calls c).key
  alone : ∀ c d i j, s.phase c = .inserted i → s.phase d = .inserted j → (calls c).key = (calls d).key → c = d

structure Consistent (s : Registrations C) : Prop where
  numbers : s.Numbered
  names : s.Named calls
  settled : ∀ e ∈ s.committed, (s.phase e.1).Over
  valid : ∀ c, s.phase c = .connected → Valid env.nfc (calls c).modelId ∧ Valid env.nfc (calls c).version
  admitted : ∀ c, (s.phase c).ticket.isSome → Admissible env (calls c)
  stored : ∀ e ∈ s.committed, Admissible env (calls e.1)
  returned : ∀ c, s.phase c = .returned → ∃ id, (c, id) ∈ s.committed
  refused : ∀ c, s.phase c = .raised (duplicateOf (calls c)) →
    ∃ e ∈ s.committed, e.1 ≠ c ∧ (calls e.1).key = (calls c).key

omit [DecidableEq C] in
theorem consistent_start : Consistent env calls (start : Registrations C) where
  numbers := ⟨nofun, nofun, nofun, nofun, List.nodup_nil⟩
  names := ⟨List.nodup_nil, nofun, nofun⟩
  settled := nofun
  valid := nofun
  admitted := nofun
  stored := nofun
  returned := nofun
  refused := nofun

section States

variable {env calls} {s t : Registrations C} {c : C} {phase : Registering}

theorem enter_self (s : Registrations C) (c : C) (phase : Registering) : (s.enter c phase).phase c = phase :=
  Function.update_self ..

theorem enter_other (s : Registrations C) {c d : C} (other : d ≠ c) (phase : Registering) :
    (s.enter c phase).phase d = s.phase d := Function.update_of_ne other ..

/-- A phase that holds after a call has gone on. -/
theorem enter_cases {P : C → Registering → Prop} (own : P c phase) (others : ∀ d, d ≠ c → P d (s.phase d)) (d : C) :
    P d ((s.enter c phase).phase d) := by
  by_cases same : d = c
  · rw [same, enter_self]
    exact own
  · rw [enter_other s same]
    exact others d same

theorem numbers_enter (h : s.Numbered) (kept : ∀ id ∈ phase.ticket, id ∈ (s.phase c).ticket) :
    (s.enter c phase).Numbered := by
  have before (d : C) : ∀ id ∈ ((s.enter c phase).phase d).ticket, id ∈ (s.phase d).ticket :=
    enter_cases (P := fun d phase => ∀ id ∈ phase.ticket, id ∈ (s.phase d).ticket) kept (fun _ _ _ => id) d
  exact {
    drawn := fun d id mem => h.drawn d id (before d id mem)
    own := fun d e id mem mem' => h.own d e id (before d id mem) (before e id mem')
    pending := fun d id mem => h.pending d id (before d id mem)
    below := h.below
    distinct := h.distinct }

theorem numbers_draw (h : s.Numbered) (c : C) : (s.draw c).Numbered := by
  have cases (d : C) : ∀ id ∈ ((s.draw c).phase d).ticket, (d = c ∧ id = s.nextRecordId) ∨ id ∈ (s.phase d).ticket := by
    refine enter_cases (P := fun d phase => ∀ id ∈ phase.ticket, (d = c ∧ id = s.nextRecordId) ∨ id ∈ (s.phase d).ticket)
      (fun id mem => .inl ⟨rfl, (Option.mem_some_iff.mp mem).symm⟩) (fun d _ id mem => .inr mem) d
  refine ⟨fun d id mem => ?_, fun d e id mem mem' => ?_, fun d id mem => ?_, fun e mem => ?_, h.distinct⟩
  · rcases cases d id mem with ⟨_, new⟩ | old
    · exact new ▸ Nat.lt_succ_self _
    · exact Nat.lt_succ_of_lt (h.drawn d id old)
  · rcases cases d id mem with ⟨first, new⟩ | old <;> rcases cases e id mem' with ⟨second, new'⟩ | old'
    · rw [first, second]
    · exact absurd (new ▸ h.drawn e id old') (Nat.lt_irrefl _)
    · exact absurd (new' ▸ h.drawn d id old) (Nat.lt_irrefl _)
    · exact h.own d e id old old'
  · rcases cases d id mem with ⟨_, new⟩ | old
    · intro committed
      obtain ⟨e, inTable, same⟩ := List.mem_map.mp committed
      exact absurd (h.below e inTable) (by rw [same, new]; exact Nat.lt_irrefl _)
    · exact h.pending d id old
  · exact Nat.lt_succ_of_lt (h.below e mem)

theorem numbers_publish (h : s.Numbered) {id : Nat} (own : id ∈ (s.phase c).ticket) (done : phase.ticket = none) :
    (s.publish c id phase).Numbered := by
  have left : (s.enter c phase).Numbered := numbers_enter h (by rw [done]; exact nofun)
  have other (d : C) : ∀ i ∈ ((s.enter c phase).phase d).ticket, d ≠ c ∧ i ∈ (s.phase d).ticket :=
    enter_cases (P := fun d phase => ∀ i ∈ phase.ticket, d ≠ c ∧ i ∈ (s.phase d).ticket) (by rw [done]; exact nofun)
      (fun d other i mem => ⟨other, mem⟩) d
  refine ⟨left.drawn, left.own, fun d i mem => ?_, fun e mem => ?_, ?_⟩
  · show i ∉ (s.committed ++ [(c, id)]).map Prod.snd
    rw [List.map_append, List.mem_append]
    rintro (old | new)
    · exact left.pending d i mem old
    · have same : i = id := List.mem_singleton.mp new
      rw [same] at mem
      exact (other d id mem).1 (h.own d c id (other d id mem).2 own)
  · rcases List.mem_append.mp mem with old | new
    · exact h.below e old
    · rw [List.mem_singleton.mp new]
      exact h.drawn c id own
  · show ((s.committed ++ [(c, id)]).map Prod.snd).Nodup
    rw [List.map_append, List.map_singleton, List.nodup_append]
    refine ⟨h.distinct, List.nodup_singleton _, fun i mem j single same => ?_⟩
    have drawn : i = id := same.trans (List.mem_singleton.mp single)
    exact h.pending c id own (drawn ▸ mem)

theorem names_enter (h : s.Named calls) (kept : ∀ id, phase ≠ .inserted id) : (s.enter c phase).Named calls := by
  have before (d : C) : ∀ id, (s.enter c phase).phase d = .inserted id → s.phase d = .inserted id :=
    enter_cases (P := fun d phase => ∀ id, phase = .inserted id → s.phase d = .inserted id)
      (fun id same => (kept id same).elim) (fun _ _ _ => id) d
  exact {
    distinct := h.distinct
    reserved := fun d id inserted => h.reserved d id (before d id inserted)
    alone := fun d e i j first second => h.alone d e i j (before d i first) (before e j second) }

theorem names_insert (h : s.Named calls) {id : Nat} (free : ¬s.Taken calls (calls c).key)
    (alone : ∀ d other, s.phase d = .inserted other → (calls d).key ≠ (calls c).key) :
    (s.enter c (.inserted id)).Named calls := by
  have cases (d : C) : ∀ i, (s.enter c (.inserted id)).phase d = .inserted i → d = c ∨ s.phase d = .inserted i :=
    enter_cases (P := fun d phase => ∀ i, phase = .inserted i → d = c ∨ s.phase d = .inserted i)
      (fun _ _ => .inl rfl) (fun _ _ _ same => .inr same) d
  refine ⟨h.distinct, fun d i inserted => ?_, fun d e i j first second same => ?_⟩
  · rcases cases d i inserted with new | old
    · rw [new]
      exact free
    · exact h.reserved d i old
  · rcases cases d i first with new | old <;> rcases cases e j second with new' | old'
    · rw [new, new']
    · exact absurd same.symm (new ▸ alone e j old')
    · exact absurd same (new' ▸ alone d i old)
    · exact h.alone d e i j old old' same

theorem names_publish (h : s.Named calls) {id : Nat} (inserted : s.phase c = .inserted id)
    (kept : ∀ id, phase ≠ .inserted id) : (s.publish c id phase).Named calls := by
  have left : (s.enter c phase).Named calls := names_enter h kept
  have other (d : C) : ∀ i, (s.enter c phase).phase d = .inserted i → d ≠ c ∧ s.phase d = .inserted i :=
    enter_cases (P := fun d phase => ∀ i, phase = .inserted i → d ≠ c ∧ s.phase d = .inserted i)
      (fun i same => (kept i same).elim) (fun _ other _ same => ⟨other, same⟩) d
  refine ⟨?_, fun d i pending => ?_, left.alone⟩
  · show ((s.committed ++ [(c, id)]).map fun e => (calls e.1).key).Nodup
    rw [List.map_append, List.map_singleton, List.nodup_append]
    refine ⟨h.distinct, List.nodup_singleton _, fun key mem own single same => ?_⟩
    obtain ⟨e, inTable, named⟩ := List.mem_map.mp mem
    rw [List.mem_singleton.mp single] at same
    exact h.reserved c id inserted ⟨e, inTable, named.trans same⟩
  · rintro ⟨e, mem, same⟩
    rcases List.mem_append.mp mem with old | new
    · exact left.reserved d i pending ⟨e, old, same⟩
    · rw [List.mem_singleton.mp new] at same
      exact (other d i pending).1 (h.alone d c i id (other d i pending).2 inserted same.symm)

/-- A call goes on, and commits nothing. -/
theorem Consistent.enter (h : Consistent env calls s) {next : Nat}
    (numbers : ({ s.enter c phase with nextRecordId := next } : Registrations C).Numbered)
    (names : (s.enter c phase).Named calls) (settled : (s.phase c).Over → phase.Over)
    (valid : phase = .connected → Valid env.nfc (calls c).modelId ∧ Valid env.nfc (calls c).version)
    (admitted : phase.ticket.isSome → Admissible env (calls c)) (running : phase ≠ .returned)
    (refused : phase = .raised (duplicateOf (calls c)) → ∃ e ∈ s.committed, e.1 ≠ c ∧ (calls e.1).key = (calls c).key) :
    Consistent env calls { s.enter c phase with nextRecordId := next } where
  numbers := numbers
  names := ⟨names.distinct, names.reserved, names.alone⟩
  settled e mem := enter_cases (P := fun d phase => (s.phase d).Over → phase.Over) settled (fun _ _ => id) e.1 (h.settled e mem)
  valid := enter_cases (P := fun d phase =>
    phase = .connected → Valid env.nfc (calls d).modelId ∧ Valid env.nfc (calls d).version) valid fun d _ => h.valid d
  admitted := enter_cases (P := fun d phase => phase.ticket.isSome → Admissible env (calls d)) admitted
    fun d _ => h.admitted d
  stored := h.stored
  returned := enter_cases (P := fun d phase => phase = .returned → ∃ id, (d, id) ∈ s.committed)
    (fun same => (running same).elim) fun d _ => h.returned d
  refused := enter_cases (P := fun d phase => phase = .raised (duplicateOf (calls d)) →
    ∃ e ∈ s.committed, e.1 ≠ d ∧ (calls e.1).key = (calls d).key) refused fun d _ => h.refused d

theorem Consistent.raises (h : Consistent env calls s) {e : Raised}
    (refused : e = duplicateOf (calls c) → ∃ e ∈ s.committed, e.1 ≠ c ∧ (calls e.1).key = (calls c).key) :
    Consistent env calls (s.enter c (.raised e)) :=
  h.enter (numbers_enter h.numbers nofun) (names_enter h.names nofun) (fun _ => trivial) nofun nofun nofun
    fun same => refused (Registering.raised.inj same)

theorem Consistent.publish (h : Consistent env calls s) {id : Nat} (inserted : s.phase c = .inserted id)
    (done : phase.ticket = none) (settled : phase.Over) (accepted : phase ≠ .raised (duplicateOf (calls c))) :
    Consistent env calls (s.publish c id phase) := by
  have own : id ∈ (s.phase c).ticket := by rw [inserted]; rfl
  have kept : ∀ i, phase ≠ .inserted i := by
    intro i same
    rw [same] at done
    cases done
  have grows {e : C × Nat} (mem : e ∈ s.committed) : e ∈ s.committed ++ [(c, id)] := List.mem_append_left _ mem
  refine ⟨numbers_publish h.numbers own done, names_publish h.names inserted kept, fun e mem => ?_, ?_, ?_, fun e mem => ?_, ?_, ?_⟩
  · refine enter_cases (P := fun d phase => (s.phase d).Over ∨ d = c → phase.Over) (fun _ => settled) (fun d other => ?_) e.1 ?_
    · rintro (earlier | same)
      · exact earlier
      · exact (other same).elim
    · rcases List.mem_append.mp mem with old | new
      · exact .inl (h.settled e old)
      · exact .inr (congrArg Prod.fst (List.mem_singleton.mp new))
  · refine enter_cases (P := fun d phase =>
      phase = .connected → Valid env.nfc (calls d).modelId ∧ Valid env.nfc (calls d).version) (fun same => ?_) fun d _ => h.valid d
    rw [same] at settled
    exact settled.elim
  · refine enter_cases (P := fun d phase => phase.ticket.isSome → Admissible env (calls d)) (fun some => ?_)
      fun d _ => h.admitted d
    rw [done] at some
    cases some
  · rcases List.mem_append.mp mem with old | new
    · exact h.stored e old
    · rw [List.mem_singleton.mp new]
      exact h.admitted c (Option.isSome_iff_exists.mpr ⟨id, own⟩)
  · refine enter_cases (P := fun d phase => phase = .returned → ∃ i, (d, i) ∈ s.committed ++ [(c, id)])
      (fun _ => ⟨id, List.mem_append_right _ (List.mem_singleton_self _)⟩) fun d _ same => ?_
    obtain ⟨i, mem⟩ := h.returned d same
    exact ⟨i, grows mem⟩
  · refine enter_cases (P := fun d phase => phase = .raised (duplicateOf (calls d)) →
      ∃ e ∈ s.committed ++ [(c, id)], e.1 ≠ d ∧ (calls e.1).key = (calls d).key) (fun same => (accepted same).elim)
      fun d _ same => ?_
    obtain ⟨e, mem, found⟩ := h.refused d same
    exact ⟨e, grows mem, found⟩

end States

/-! ### What happens between two states -/

/-- A call that has ended stays as it is, and a row that is committed later has a number that was drawn by then or
is a later one. -/
structure Later (s t : Registrations C) : Prop where
  settled : ∀ c, (s.phase c).Over → t.phase c = s.phase c
  tickets : ∀ c, ∀ id ∈ (t.phase c).ticket, id ∈ (s.phase c).ticket ∨ s.nextRecordId ≤ id
  committed : ∃ more, t.committed = s.committed ++ more ∧
    ∀ e ∈ more, e.2 ∈ (s.phase e.1).ticket ∨ s.nextRecordId ≤ e.2
  drawn : s.nextRecordId ≤ t.nextRecordId

omit [DecidableEq C] in
theorem later_refl (s : Registrations C) : Later s s where
  settled _ _ := rfl
  tickets _ _ := .inl
  committed := ⟨[], (List.append_nil _).symm, List.forall_mem_nil _⟩
  drawn := Nat.le_refl _

omit [DecidableEq C] in
theorem Later.trans {s t u : Registrations C} (first : Later s t) (second : Later t u) : Later s u where
  settled c done := by
    have kept := first.settled c done
    rw [second.settled c (kept ▸ done), kept]
  tickets c id mem := by
    rcases second.tickets c id mem with old | new
    · exact first.tickets c id old
    · exact .inr (first.drawn.trans new)
  committed := by
    obtain ⟨more, grown, known⟩ := first.committed
    obtain ⟨more', grown', known'⟩ := second.committed
    refine ⟨more ++ more', by rw [grown', grown, List.append_assoc], fun e mem => ?_⟩
    rcases List.mem_append.mp mem with early | late
    · exact known e early
    · rcases known' e late with old | new
      · exact first.tickets e.1 e.2 old
      · exact .inr (first.drawn.trans new)
  drawn := first.drawn.trans second.drawn

section Steps

variable {env calls} {s t : Registrations C} {c : C} {phase : Registering}

theorem later_enter (running : ¬(s.phase c).Over) (kept : ∀ id ∈ phase.ticket, id ∈ (s.phase c).ticket) :
    Later s (s.enter c phase) where
  settled := enter_cases (P := fun d phase => (s.phase d).Over → phase = s.phase d) (fun done => (running done).elim)
    fun _ _ _ => rfl
  tickets := enter_cases (P := fun d phase => ∀ id ∈ phase.ticket, id ∈ (s.phase d).ticket ∨ s.nextRecordId ≤ id)
    (fun id mem => .inl (kept id mem)) fun _ _ _ => .inl
  committed := ⟨[], (List.append_nil _).symm, List.forall_mem_nil _⟩
  drawn := Nat.le_refl _

theorem later_raises (running : ¬(s.phase c).Over) {e : Raised} : Later s (s.enter c (.raised e)) :=
  later_enter running nofun

theorem later_publish {id : Nat} (inserted : s.phase c = .inserted id) (done : phase.ticket = none) :
    Later s (s.publish c id phase) := by
  have left : Later s (s.enter c phase) := later_enter (by rw [inserted]; exact nofun) (by rw [done]; exact nofun)
  refine ⟨left.settled, left.tickets, ⟨[(c, id)], rfl, fun e mem => ?_⟩, left.drawn⟩
  rw [List.mem_singleton.mp mem]
  exact .inl (by rw [inserted]; rfl)

theorem Step.later (step : Step env calls s t) : Later s t := by
  cases step with
  | refuse c idle _ => exact later_raises (by rw [idle]; exact id)
  | connect c idle _ => exact later_enter (by rw [idle]; exact id) nofun
  | adapt c connected _ => exact later_raises (by rw [connected]; exact id)
  | draw c connected _ =>
    refine ⟨?_, ?_, ⟨[], (List.append_nil _).symm, List.forall_mem_nil _⟩, Nat.le_succ _⟩
    · refine enter_cases (P := fun d phase => (s.phase d).Over → phase = s.phase d) (fun done => ?_) fun _ _ _ => rfl
      rw [connected] at done
      exact done.elim
    · refine enter_cases (P := fun d phase => ∀ id ∈ phase.ticket, id ∈ (s.phase d).ticket ∨ s.nextRecordId ≤ id)
        (fun id mem => .inr ?_) fun _ _ _ => .inl
      exact Nat.le_of_eq (Option.mem_some_iff.mp mem)
  | check c numbered _ => exact later_raises (by rw [numbered]; exact id)
  | insert c numbered _ _ _ => exact later_enter (by rw [numbered]; exact id) (by rw [numbered]; exact fun _ => id)
  | duplicate c numbered _ _ => exact later_raises (by rw [numbered]; exact id)
  | commit c inserted => exact later_publish inserted rfl
  | unacknowledged c inserted _ => exact later_publish inserted rfl
  | abort c running _ => exact later_raises running.2

theorem Run.later (run : Run env calls s t) : Later s t := by
  induction run with
  | refl => exact later_refl s
  | tail _ step ih => exact ih.trans step.later

/-- Only the unique index raises `DuplicateRegistrationError`. -/
theorem not_duplicateOf {cls : ErrorClass} (other : cls ≠ .duplicateRegistrationError) (message : Str)
    (record : RegistryRecord) : Raised.modelGuard cls message ≠ duplicateOf record :=
  fun same => other (Raised.modelGuard.inj same).1

theorem sqlTexts_error {action : String} {texts : List Str} :
    RaisesOnly (fun e => e = backendError action dataError ∨ e = unicodeEncodeError) (sqlTexts action texts) := by
  induction texts with
  | nil => exact raisesOnly_ok
  | cons s rest ih =>
    unfold sqlTexts
    rw [raisesOnly_bind]
    refine ⟨?_, fun _ _ => ih⟩
    unfold sqlText
    split
    · exact raisesOnly_error.mpr (.inl rfl)
    · split
      · exact raisesOnly_error.mpr (.inr rfl)
      · exact raisesOnly_ok

theorem registerParameters_error {record : RegistryRecord} :
    RaisesOnly (fun e => e ≠ duplicateOf record) (Database.registerParameters record) := by
  unfold Database.registerParameters
  rw [raisesOnly_bind, raisesOnly_ensure]
  refine ⟨fun e raised => ?_, fun _ _ _ => not_duplicateOf (by decide) _ _⟩
  rcases sqlTexts_error e raised with known | known
  · rw [known]
    exact not_duplicateOf (by decide) _ _
  · rw [known]
    exact nofun

theorem Consistent.step (h : Consistent env calls s) (step : Step env calls s t) : Consistent env calls t := by
  cases step with
  | refuse c idle invalid =>
    refine h.raises fun same => ?_
    have names : ¬(Valid env.nfc (calls c).modelId ∧ Valid env.nfc (calls c).version) := by
      intro valid
      have checked : validateNames env.nfc env.host (calls c).modelId (calls c).version = .ok () := validateNames_ok.mpr valid
      rw [checked] at invalid
      cases invalid
    obtain ⟨message, raised⟩ := validateNames_invalid env.host names
    rw [raised] at invalid
    exact (not_duplicateOf (by decide) _ _ ((Except.error.inj invalid).trans same)).elim
  | connect c idle valid =>
    refine h.enter (numbers_enter h.numbers nofun) (names_enter h.names nofun) ?_ (fun _ => validateNames_ok.mp valid) nofun
      nofun nofun
    rw [idle]
    exact id
  | adapt c connected refused => exact h.raises fun same => (registerParameters_error _ refused same).elim
  | draw c connected adapted =>
    refine h.enter (numbers_draw h.numbers c) (names_enter h.names nofun) ?_ nofun (fun _ => ⟨h.valid c connected, adapted⟩)
      nofun nofun
    rw [connected]
    exact id
  | check c numbered violated => exact h.raises fun same => (not_duplicateOf (by decide) _ _ same).elim
  | insert c numbered checked free alone =>
    refine h.enter (numbers_enter h.numbers ?_) (names_insert h.names free alone) ?_ nofun (fun _ => ?_) nofun nofun
    · rw [numbered]
      exact fun _ => id
    · rw [numbered]
      exact id
    · exact h.admitted c (by rw [numbered]; rfl)
  | duplicate c numbered checked taken =>
    refine h.raises fun _ => ?_
    obtain ⟨e, mem, named⟩ := taken
    refine ⟨e, mem, fun own => ?_, named⟩
    have done := h.settled e mem
    rw [own, numbered] at done
    exact done
  | commit c inserted => exact h.publish inserted rfl trivial nofun
  | unacknowledged c inserted message =>
    refine h.publish inserted rfl trivial fun same => ?_
    exact not_duplicateOf (by decide) _ _ (Registering.raised.inj same)
  | abort c running message => exact h.raises fun same => (not_duplicateOf (by decide) _ _ same).elim

theorem consistent_run (run : Run env calls start s) : Consistent env calls s := by
  induction run with
  | refl => exact consistent_start env calls
  | tail _ step ih => exact ih.step step

end Steps

/-! ### What a lookup finds -/

section Lookups

omit [DecidableEq C]

variable {env calls} {s t : Registrations C}

theorem foundRecord_committed (restores : ∀ c, env.codec.modelValidate (calls c).modelDump = some (calls c))
    (e : Option (C × Nat)) :
    Database.foundRecord env (e.map fun e => recordRow (calls e.1) e.2) = .ok (e.map fun e => calls e.1) := by
  cases e with
  | none => rfl
  | some e =>
    have value : env.codec.modelValidate (recordRow (calls e.1) e.2).record = some (calls e.1) := restores e.1
    show (do return some (← Database.rowToRecord env (recordRow (calls e.1) e.2))) = _
    unfold Database.rowToRecord
    rw [value, orRaise_some_bind, ensure, if_pos (by rfl)]
    rfl

theorem get_some (restores : ∀ c, env.codec.modelValidate (calls c).modelDump = some (calls c)) {modelId version : Str}
    {r : RegistryRecord} (found : Database.get env (s.database calls) modelId version = .ok (some r)) :
    ∃ e ∈ s.committed, calls e.1 = r ∧ r.key = (modelId, version) := by
  unfold Database.get database at found
  simp only [bind_ok, List.find?_map, foundRecord_committed restores] at found
  obtain ⟨_, _, _, _, found⟩ := found
  obtain ⟨e, first, same⟩ := Option.map_eq_some_iff.mp (Except.ok.inj found)
  have named : (calls e.1).modelId = modelId ∧ (calls e.1).version = version := by simpa [recordRow] using List.find?_some first
  refine ⟨e, List.mem_of_find?_eq_some first, same, ?_⟩
  rw [← same]
  exact Prod.ext named.1 named.2

theorem Consistent.get (h : Consistent env calls s)
    (restores : ∀ c, env.codec.modelValidate (calls c).modelDump = some (calls c)) {e : C × Nat} (mem : e ∈ s.committed) :
    Database.get env (s.database calls) (calls e.1).modelId (calls e.1).version = .ok (some (calls e.1)) := by
  obtain ⟨valid, adapted⟩ := h.stored e mem
  have texts : ∀ text ∈ [(calls e.1).modelId, (calls e.1).version], storable text = true := by
    unfold Database.registerParameters at adapted
    simp only [bind_ok, sqlTexts_ok] at adapted
    obtain ⟨_, columns, _⟩ := adapted
    intro text inNames
    exact columns text (by simp only [List.mem_cons, List.not_mem_nil, or_false] at inNames ⊢; tauto)
  have row : (s.committed.find? fun e' => decide ((calls e'.1).modelId = (calls e.1).modelId ∧
      (calls e'.1).version = (calls e.1).version)) = some e := by
    cases first : s.committed.find? _ with
    | none =>
      have none := List.find?_eq_none.mp first e mem
      simp at none
    | some other =>
      have named : (calls other.1).key = (calls e.1).key := by
        have same := List.find?_some first
        exact Prod.ext (of_decide_eq_true same).1 (of_decide_eq_true same).2
      rw [List.inj_on_of_nodup_map h.names.distinct (List.mem_of_find?_eq_some first) mem named]
  have checked : validateNames env.nfc env.host (calls e.1).modelId (calls e.1).version = .ok () := validateNames_ok.mpr valid
  unfold Database.get
  rw [checked, sqlTexts_storable texts]
  show Database.foundRecord env ((s.committed.map fun e => recordRow (calls e.1) e.2).find? _) = _
  rw [List.find?_map]
  show Database.foundRecord env ((s.committed.find? fun e' => decide ((calls e'.1).modelId = (calls e.1).modelId ∧
    (calls e'.1).version = (calls e.1).version)).map _) = _
  rw [row, foundRecord_committed restores]
  rfl

/-- The committed rows of an artifact. -/
def ofDigest (calls : C → RegistryRecord) (s : Registrations C) (digest : Str) : List (C × Nat) :=
  s.committed.filter fun e => (calls e.1).artifactDigest = digest

theorem getByDigest_eq (restores : ∀ c, env.codec.modelValidate (calls c).modelDump = some (calls c)) {digest : Str}
    (text : storable digest = true) :
    (s.database calls).getByDigest env digest = .ok ((SerialTable.oldest Prod.snd (s.ofDigest calls digest)).map fun e => calls e.1) := by
  have adapted : sqlTexts "lookup" [digest] = .ok () := sqlTexts_storable (List.forall_mem_singleton.mpr text)
  have rows : (s.database calls).records.filter (fun r => r.artifactDigest = digest) =
      (s.ofDigest calls digest).map fun e => recordRow (calls e.1) e.2 := List.filter_map
  unfold Database.getByDigest
  rw [adapted, rows, SerialTable.oldest_map RecordRow.id]
  exact foundRecord_committed restores _

/-- What a digest names changes only when a registration that had its number by then is committed. -/
theorem Consistent.getByDigest_later (h : Consistent env calls s) (h' : Consistent env calls t) (later : Later s t)
    (restores : ∀ c, env.codec.modelValidate (calls c).modelDump = some (calls c)) {digest : Str} {r : RegistryRecord}
    (found : (s.database calls).getByDigest env digest = .ok (some r)) :
    (t.database calls).getByDigest env digest = .ok (some r) ∨
      ∃ c, ∃ id ∈ (s.phase c).ticket, (c, id) ∈ t.committed ∧ (t.database calls).getByDigest env digest = .ok (some (calls c)) := by
  have text : storable digest = true := by
    unfold Database.getByDigest at found
    simp only [bind_ok, sqlTexts_ok] at found
    exact found.choose_spec.1 digest (List.mem_singleton_self _)
  rw [getByDigest_eq restores text] at found
  rw [getByDigest_eq restores text]
  obtain ⟨e, first, same⟩ := Option.map_eq_some_iff.mp (Except.ok.inj found)
  have distinct (s : Registrations C) (numbers : s.Numbered) : ((s.ofDigest calls digest).map Prod.snd).Nodup :=
    numbers.distinct.sublist (List.filter_sublist.map _)
  obtain ⟨mem, least⟩ := (SerialTable.oldest_eq_some (distinct s h.numbers)).mp first
  obtain ⟨inTable, named⟩ := List.mem_filter.mp mem
  obtain ⟨more, grown, known⟩ := later.committed
  have stays : e ∈ t.ofDigest calls digest :=
    List.mem_filter.mpr ⟨grown ▸ List.mem_append_left _ inTable, named⟩
  cases now : SerialTable.oldest Prod.snd (t.ofDigest calls digest) with
  | none =>
    rw [SerialTable.oldest_eq_none.mp now] at stays
    exact (List.not_mem_nil stays).elim
  | some e' =>
    obtain ⟨mem', least'⟩ := (SerialTable.oldest_eq_some (distinct t h'.numbers)).mp now
    obtain ⟨inTable', named'⟩ := List.mem_filter.mp mem'
    rw [Option.map_some]
    have split := inTable'
    rw [grown] at split
    rcases List.mem_append.mp split with old | new
    · have both : e'.2 = e.2 := Nat.le_antisymm (least' e stays) (least e' (List.mem_filter.mpr ⟨old, named'⟩))
      rw [List.inj_on_of_nodup_map h.numbers.distinct old inTable both, same]
      exact .inl rfl
    · rcases known e' new with drawn | fresh
      · exact .inr ⟨e'.1, e'.2, drawn, inTable', rfl⟩
      · exact absurd (fresh.trans (least' e stays)) (Nat.not_le.mpr (h.numbers.below e inTable))

theorem Consistent.listVersions (h : Consistent env calls s)
    (restores : ∀ c, env.codec.modelValidate (calls c).modelDump = some (calls c)) {modelId : Str} {versions : List Str}
    (listed : Database.listVersions env (s.database calls) modelId = .ok versions) :
    versions.Nodup ∧ ∀ version, version ∈ versions ↔
      ∃ r, Database.get env (s.database calls) modelId version = .ok (some r) := by
  let own := s.committed.filter fun e => (calls e.1).modelId = modelId
  have names : versions.Perm (own.map fun e => (calls e.1).version) := by
    unfold Database.listVersions at listed
    simp only [bind_ok] at listed
    obtain ⟨_, _, _, _, sorted⟩ := listed
    have rows : (s.database calls).records.filter (fun r => r.modelId = modelId) = own.map fun e => recordRow (calls e.1) e.2 :=
      List.filter_map
    rw [← pure_ok.mp sorted, rows, List.map_map]
    exact List.perm_insertionSort _ _
  constructor
  · have keys : (own.map fun e => (calls e.1).key) = (own.map fun e => (calls e.1).version).map fun v => (modelId, v) := by
      rw [List.map_map]
      refine List.map_congr_left fun e mem => ?_
      exact Prod.ext (of_decide_eq_true (List.mem_filter.mp mem).2) rfl
    have distinct : (own.map fun e => (calls e.1).key).Nodup := h.names.distinct.sublist (List.filter_sublist.map _)
    rw [keys] at distinct
    exact names.nodup_iff.mpr distinct.of_map
  · intro version
    rw [names.mem_iff, List.mem_map]
    constructor
    · rintro ⟨e, mem, same⟩
      obtain ⟨inTable, named⟩ := List.mem_filter.mp mem
      have found := h.get restores inTable
      rw [of_decide_eq_true named, same] at found
      exact ⟨_, found⟩
    · rintro ⟨r, found⟩
      obtain ⟨e, mem, same, named⟩ := get_some restores found
      rw [← same] at named
      exact ⟨e, List.mem_filter.mpr ⟨mem, decide_eq_true (congrArg Prod.fst named)⟩, congrArg Prod.snd named⟩

theorem taken_iff {record : RegistryRecord} {id : Nat} :
    ((s.database calls).records.any fun r =>
      r.modelId = (recordRow record id).modelId && r.version = (recordRow record id).version) = true ↔
      s.Taken calls record.key := by
  unfold database Taken RegistryRecord.key
  rw [List.any_map, List.any_eq_true]
  refine exists_congr fun e => and_congr_right fun _ => ?_
  rw [Prod.mk.injEq]
  exact (Bool.and_eq_true _ _).to_iff.trans (and_congr decide_eq_true_iff decide_eq_true_iff)

end Lookups

/-! ### A call that runs alone -/

section Alone

variable {env calls} {s : Registrations C} {c : C}

/-- How a call of `register` ends. -/
def ended : Except Raised RegistryRecord → Registering
  | .ok _ => .returned
  | .error e => .raised e

theorem enter_enter (s : Registrations C) (c : C) (first second : Registering) :
    (s.enter c first).enter c second = s.enter c second := by
  unfold enter
  rw [Function.update_idem]

/-- While no other call has a number, a call does what `register` does. -/
theorem run_alone (idle : s.phase c = .idle) (alone : ∀ d, (s.phase d).ticket = none) :
    ∃ t, Run env calls s t ∧ t.database calls = (Database.register env (s.database calls) (calls c)).2 ∧
      t.phase c = ended (Database.register env (s.database calls) (calls c)).1 ∧ ∀ d, d ≠ c → t.phase d = s.phase d := by
  unfold Database.register
  split
  · rename_i e invalid
    exact ⟨_, .single (.refuse c idle invalid), rfl, enter_self s c _, fun d other => enter_other s other _⟩
  · rename_i valid
    have connected : Run env calls s (s.enter c .connected) := .single (.connect c idle valid)
    split
    · rename_i e refused
      refine ⟨_, connected.tail (.adapt c (enter_self s c _) refused), rfl, ?_⟩
      rw [enter_enter]
      exact ⟨enter_self s c _, fun d other => enter_other s other _⟩
    · rename_i adapted
      have numbered : Run env calls s ((s.enter c .connected).draw c) := connected.tail (.draw c (enter_self s c _) adapted)
      have drawn : ((s.enter c .connected).draw c).phase c = .numbered s.nextRecordId := enter_self (s.enter c .connected) c _
      have others (phase : Registering) (d : C) (other : d ≠ c) :
          (((s.enter c .connected).draw c).enter c phase).phase d = s.phase d := by
        rw [enter_other _ other]
        exact (enter_other _ other _).trans (enter_other s other _)
      unfold Database.insertRecord
      dsimp only
      by_cases checked : Checked (calls c)
      · have checks : ¬¬(lengthCheck (recordRow (calls c) (s.database calls).nextRecordId).modelId ∧
            lengthCheck (recordRow (calls c) (s.database calls).nextRecordId).version ∧
            IsArtifactDigest (recordRow (calls c) (s.database calls).nextRecordId).artifactDigest) := not_not.mpr checked
        rw [if_neg checks]
        by_cases taken : s.Taken calls (calls c).key
        · rw [if_pos (taken_iff.mpr taken)]
          refine ⟨_, numbered.tail (.duplicate c drawn checked taken), rfl, enter_self _ c _, others _⟩
        · rw [if_neg fun found => taken (taken_iff.mp found)]
          have inserted : Run env calls s (((s.enter c .connected).draw c).enter c (.inserted s.nextRecordId)) := by
            refine numbered.tail (.insert c drawn checked taken fun d other pending => ?_)
            by_cases own : d = c
            · rw [own, drawn] at pending
              cases pending
            · have none := alone d
              rw [← others (.inserted s.nextRecordId) d own, enter_other _ own, pending] at none
              cases none
          refine ⟨_, inserted.tail (.commit c (enter_self _ c _)), ?_, ?_⟩
          · unfold database publish
            rw [List.map_append]
            rfl
          · unfold publish
            rw [enter_enter]
            exact ⟨enter_self _ c _, others _⟩
      · have violated : ¬(lengthCheck (recordRow (calls c) (s.database calls).nextRecordId).modelId ∧
            lengthCheck (recordRow (calls c) (s.database calls).nextRecordId).version ∧
            IsArtifactDigest (recordRow (calls c) (s.database calls).nextRecordId).artifactDigest) := checked
        have other : checkViolation.sqlstate ≠ uniqueViolation.sqlstate := by decide
        rw [if_pos violated]
        dsimp only
        rw [if_neg other]
        exact ⟨_, numbered.tail (.check c drawn checked), rfl, enter_self _ c _, others _⟩

end Alone

/-! ### The guarantees -/

variable {env calls}

/-- Calls of `register` that run at the same time: one of them has a name, and it keeps it. An artifact can be found
under another record later only when that one had its number already. -/
theorem concurrent_registrations (restores : ∀ c, env.codec.modelValidate (calls c).modelDump = some (calls c))
    {s t : Registrations C} (run : Run env calls start s) (later : Run env calls s t) :
    (∀ c d, t.phase c = .returned → t.phase d = .returned → (calls c).key = (calls d).key → c = d) ∧
      (∀ c, t.phase c = .returned →
        Database.get env (t.database calls) (calls c).modelId (calls c).version = .ok (some (calls c))) ∧
      (∀ c, t.phase c = .raised (duplicateOf (calls c)) → ∃ d, d ≠ c ∧ (calls d).key = (calls c).key ∧
        Database.get env (t.database calls) (calls c).modelId (calls c).version = .ok (some (calls d))) ∧
      (∀ modelId version r, Database.get env (s.database calls) modelId version = .ok (some r) →
        Database.get env (t.database calls) modelId version = .ok (some r)) ∧
      (∀ modelId versions, Database.listVersions env (t.database calls) modelId = .ok versions →
        versions.Nodup ∧ ∀ version, version ∈ versions ↔
          ∃ r, Database.get env (t.database calls) modelId version = .ok (some r)) ∧
      ∀ digest r, (s.database calls).getByDigest env digest = .ok (some r) →
        (t.database calls).getByDigest env digest = .ok (some r) ∨
          ∃ c, ∃ id ∈ (s.phase c).ticket, (c, id) ∈ t.committed ∧
            (t.database calls).getByDigest env digest = .ok (some (calls c)) := by
  have h := consistent_run run
  have h' := consistent_run (run.trans later)
  refine ⟨fun c d first second same => ?_, fun c returned => ?_, fun c refused => ?_, fun modelId version r found => ?_,
    fun _ _ => h'.listVersions restores, fun _ _ => h.getByDigest_later h' later.later restores⟩
  · obtain ⟨i, mem⟩ := h'.returned c first
    obtain ⟨j, mem'⟩ := h'.returned d second
    exact congrArg Prod.fst (List.inj_on_of_nodup_map h'.names.distinct mem mem' same)
  · obtain ⟨id, mem⟩ := h'.returned c returned
    exact h'.get restores mem
  · obtain ⟨e, mem, other, same⟩ := h'.refused c refused
    have found := h'.get restores mem
    rw [show (calls e.1).modelId = (calls c).modelId from congrArg Prod.fst same,
      show (calls e.1).version = (calls c).version from congrArg Prod.snd same] at found
    exact ⟨e.1, other, same, found⟩
  · obtain ⟨e, mem, same, named⟩ := get_some restores found
    obtain ⟨more, grown, -⟩ := later.later.committed
    have inTable : e ∈ t.committed := grown ▸ List.mem_append_left _ mem
    have kept := h'.get restores inTable
    rw [same] at kept
    rw [show modelId = r.modelId from (congrArg Prod.fst named).symm,
      show version = r.version from (congrArg Prod.snd named).symm]
    exact kept

/-! ### Two names for one artifact -/

theorem secondTexts_scalars : ∀ s ∈ [str "m", str "2", str "r", str "t"], Scalars s := by
  simp only [List.forall_mem_cons, List.not_mem_nil, false_implies, implies_true, and_true]
  refine ⟨?_, ?_, ?_, ?_⟩ <;> exact Json.Printable.scalars (by decide)

/-- `sampleRecord` with another version. -/
def secondRecord : RegistryRecord := { sampleRecord with version := str "2", scalars := secondTexts_scalars }

/-- The call `true` is the one with the other version. -/
def pairCalls (second : Bool) : RegistryRecord := bif second then secondRecord else sampleRecord

/-- A codec that knows both records. -/
def pairEnv : RegistryEnv := { sampleEnv System.sampleSha with codec :=
  { modelDumpJson := fun _ => []
    modelValidate := fun data =>
      if data = sampleRecord.modelDump then some sampleRecord
      else if data = secondRecord.modelDump then some secondRecord
      else none } }

theorem pair_restores (second : Bool) :
    pairEnv.codec.modelValidate (pairCalls second).modelDump = some (pairCalls second) := by
  unfold pairEnv
  dsimp only
  cases second with
  | false => exact if_pos rfl
  | true =>
    have other : secondRecord.modelDump ≠ sampleRecord.modelDump := by
      intro same
      have last := congrArg List.getLast? (Json.obj.inj same)
      have version : str "2" = str "1" := Json.str.inj (congrArg Prod.snd (Option.some.inj last))
      exact absurd version (by decide)
    exact (if_neg other).trans (if_pos rfl)

/-- The call that drew the second number commits first. -/
def secondCommitted : Registrations Bool :=
  ((((start.enter false .connected).draw false).enter true .connected).draw true |>.enter true (.inserted 2)).publish true 2 .returned

def bothCommitted : Registrations Bool := (secondCommitted.enter false (.inserted 1)).publish false 1 .returned

theorem pair_connects (c : Bool) :
    validateNames pairEnv.nfc pairEnv.host (pairCalls c).modelId (pairCalls c).version = .ok () ∧
      Database.registerParameters (pairCalls c) = .ok () := by
  cases c <;> exact ⟨by decide +kernel, by decide +kernel⟩

theorem pair_checked (c : Bool) : Checked (pairCalls c) := by
  cases c <;> exact ⟨by decide +kernel, by decide +kernel, RegistryRecord.digestShape _⟩

theorem pair_named : (pairCalls true).key ≠ (pairCalls false).key := by decide

theorem run_secondCommitted : Run pairEnv pairCalls start secondCommitted := by
  have first : Run pairEnv pairCalls start ((start.enter false .connected).draw false) :=
    (Relation.ReflTransGen.single (.connect false rfl (pair_connects false).1)).tail (.draw false rfl (pair_connects false).2)
  have second := (first.tail (.connect true rfl (pair_connects true).1)).tail (.draw true rfl (pair_connects true).2)
  refine (second.tail (.insert true rfl (pair_checked true) nofun ?_)).tail (.commit true rfl)
  intro d other pending
  cases d <;> cases pending

theorem run_bothCommitted : Run pairEnv pairCalls secondCommitted bothCommitted := by
  refine (Relation.ReflTransGen.single (.insert false rfl (pair_checked false) ?_ ?_)).tail (.commit false rfl)
  · rintro ⟨e, mem, same⟩
    rw [List.mem_singleton.mp mem] at same
    exact pair_named same
  · intro d other pending
    cases d <;> cases pending

/-- The artifact was found under the second name, and is found under the first one once its call has committed. -/
theorem concurrent_registrations_repointed :
    Database.get pairEnv (bothCommitted.database pairCalls) (str "m") (str "2") = .ok (some secondRecord) ∧
      (secondCommitted.database pairCalls).getByDigest pairEnv sampleRecord.artifactDigest = .ok (some secondRecord) ∧
      (bothCommitted.database pairCalls).getByDigest pairEnv sampleRecord.artifactDigest = .ok (some sampleRecord) := by
  obtain ⟨-, returned, -⟩ := concurrent_registrations pair_restores run_secondCommitted run_bothCommitted
  have text : storable sampleRecord.artifactDigest = true := by decide +kernel
  refine ⟨returned true rfl, ?_, ?_⟩
  · rw [getByDigest_eq pair_restores text]
    have oldest : SerialTable.oldest Prod.snd (secondCommitted.ofDigest pairCalls sampleRecord.artifactDigest) = some (true, 2) := by
      decide +kernel
    rw [oldest]
    rfl
  · rw [getByDigest_eq pair_restores text]
    have oldest : SerialTable.oldest Prod.snd (bothCommitted.ofDigest pairCalls sampleRecord.artifactDigest) = some (false, 1) := by
      decide +kernel
    rw [oldest]
    rfl

end Registrations

end ModelGuard.Registry
