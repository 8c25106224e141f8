import ModelGuard.Registry.Revocations

/-!
# How long a revocation lasts

A revocation that was committed is what `is_revoked` goes by until a call of `unrevoke` about the version returns.
-/

namespace ModelGuard.Registry

open Lib Lib.Fallible SerialTable

/-- A call of `unrevoke` for this version. -/
def RevocationCall.Unrevokes (modelId version : Str) : RevocationCall → Prop
  | .revoke _ => False
  | .unrevoke modelId' version' .. => modelId' = modelId ∧ version' = version

/-- A call of `revoke` for this version. -/
def RevocationCall.Revokes (modelId version : Str) : RevocationCall → Prop
  | .revoke record => record.modelId = modelId ∧ record.version = version
  | .unrevoke .. => False

namespace System

section States

variable {C : Type} {s t : System C} {c : C}

/-- The last event about the version is a revocation. -/
def Revoked (s : System C) (modelId version : Str) : Prop :=
  ∃ row, lastEvent s.rows modelId version = some row ∧ row.action = str "revoke"

/-- The call returns between the two states. -/
def Returns (s t : System C) (c : C) : Prop := s.phase c ≠ .returned ∧ t.phase c = .returned

/-- What happens between two states: calls return, each with the row that it commits. -/
structure Later (s t : System C) : Prop where
  returned : ∀ c, s.phase c = .returned → t.phase c = .returned
  committed : ∃ more, t.committed = s.committed ++ more ∧
    ∀ e ∈ more, Returns s t e.1

theorem later_refl (s : System C) : Later s s where
  returned _ same := same
  committed := ⟨[], (List.append_nil _).symm, List.forall_mem_nil _⟩

theorem Later.trans {u : System C} (first : Later s t) (second : Later t u) : Later s u where
  returned c same := second.returned c (first.returned c same)
  committed := by
    obtain ⟨more, grown, new⟩ := first.committed
    obtain ⟨more', grown', new'⟩ := second.committed
    refine ⟨more ++ more', by rw [grown', grown, List.append_assoc], fun e mem => ?_⟩
    rcases List.mem_append.mp mem with early | late
    · exact ⟨(new e early).1, second.returned e.1 (new e early).2⟩
    · exact ⟨fun already => (new' e late).1 (first.returned e.1 already), (new' e late).2⟩

/-- A step of a call that has not returned, and commits nothing. -/
theorem later_frame (f : Frame s t c) (running : s.phase c ≠ .returned) : Later s t where
  returned d same := by
    have other : d ≠ c := fun own => running (own ▸ same)
    rw [f.phase d other, same]
  committed := ⟨[], by rw [f.committed, List.append_nil], List.forall_mem_nil _⟩

end States

section Steps

variable {C : Type} [DecidableEq C] {env : RegistryEnv} {calls : C → RevocationCall} {s t : System C} {c : C}

theorem Step.later (step : Step env calls s t) : Later s t := by
  cases step with
  | refuse c idle _ => exact later_frame (frame_enter s c _) (by rw [idle]; exact nofun)
  | connect c idle _ => exact later_frame (frame_enter s c _) (by rw [idle]; exact nofun)
  | lock c waiting free =>
    have f : Frame s { s.enter c .locked with holder := some c } c :=
      { frame_enter s c .locked with holder := fun d _ held => by rw [free] at held; cases held }
    exact later_frame f (by rw [waiting]; exact nofun)
  | read c locked => exact later_frame (frame_enter s c _) (by rw [locked]; exact nofun)
  | insert c read _ _ =>
    exact later_frame { frame_enter s c (.inserted _) with next := Nat.le_succ _ } (by rw [read]; exact nofun)
  | reject c read _ =>
    exact later_frame { (frame_enter s c .raised).release with next := Nat.le_succ _ } (by rw [read]; exact nofun)
  | commit c inserted =>
    refine ⟨fun d same => ?_, ⟨[(c, _)], rfl, fun e mem => ?_⟩⟩
    · have other : d ≠ c := fun own => by rw [own, inserted] at same; cases same
      exact (enter_other s other .returned).trans same
    · rw [List.mem_singleton.mp mem]
      exact ⟨by rw [inserted]; exact nofun, enter_self s c .returned⟩
  | abort c running => exact later_frame (frame_enter s c _).release running.2.1

theorem Run.later (run : Run env calls s t) : Later s t := by
  induction run with
  | refl => exact later_refl s
  | tail _ step ih => exact ih.trans step.later

/-- A committed row is that of a call which returned. -/
theorem Consistent.committed_body (h : Consistent env calls s) {e : C × EventRow} (mem : e ∈ s.committed) :
    e.2.body = (calls e.1).body := by
  have own : e.2 ∈ s.contributions e.1 :=
    List.mem_map_of_mem (List.mem_filter.mpr ⟨mem, decide_eq_true rfl⟩)
  by_cases returned : s.phase e.1 = .returned
  · obtain ⟨row, only, body⟩ := h.contributed e.1 returned
    rw [only] at own
    rw [List.mem_singleton.mp own, body]
  · rw [h.absent e.1 returned] at own
    exact (List.not_mem_nil own).elim

/-- The events about a version, of a table that has grown. -/
theorem Consistent.lastEvent_grown (h : Consistent env calls s) (h' : Consistent env calls t) {more : List (C × EventRow)}
    (grown : t.committed = s.committed ++ more) (modelId version : Str) :
    lastEvent t.rows modelId version =
      (eventsAbout (more.map Prod.snd) modelId version).getLast?.or (lastEvent s.rows modelId version) := by
  have rows : t.rows = s.rows ++ more.map Prod.snd := by
    unfold System.rows
    rw [grown, List.map_append]
  unfold lastEvent
  rw [h.serial.ascending, h'.serial.ascending, rows]
  unfold eventsAbout
  rw [List.filter_append, List.getLast?_append]

theorem body_revokes {call : RevocationCall} {row : EventRow} (body : row.body = call.body) {modelId version : Str}
    (about : row.modelId = modelId ∧ row.version = version) :
    (row.action = str "revoke" ↔ call.Revokes modelId version) ∧ (row.action ≠ str "revoke" ↔ call.Unrevokes modelId version) := by
  have action : row.action = call.body.action := congrArg EventBody.action body
  have model : row.modelId = call.body.modelId := congrArg EventBody.modelId body
  have versioned : row.version = call.body.version := congrArg EventBody.version body
  rw [model, versioned] at about
  rw [action]
  cases call with
  | revoke record => exact ⟨iff_of_true rfl about, iff_of_false (fun other => other rfl) id⟩
  | unrevoke =>
    have other : str "unrevoke" ≠ str "revoke" := str_injective.ne (by decide)
    exact ⟨iff_of_false other id, iff_of_true other about⟩

theorem body_named {call : RevocationCall} {row : EventRow} (body : row.body = call.body) {modelId version : Str}
    (revokes : call.Revokes modelId version) : row.modelId = modelId ∧ row.version = version := by
  have model : row.modelId = call.body.modelId := congrArg EventBody.modelId body
  have versioned : row.version = call.body.version := congrArg EventBody.version body
  rw [model, versioned]
  cases call with
  | revoke record => exact revokes
  | unrevoke => exact revokes.elim

/-- While no `unrevoke` about a version returns, it is revoked when it was or when a `revoke` returns. -/
theorem revoked_iff (run : Run env calls start s) (later : Run env calls s t) {modelId version : Str}
    (spared : ∀ c, Returns s t c → ¬(calls c).Unrevokes modelId version) :
    Revoked t modelId version ↔ Revoked s modelId version ∨ ∃ c, Returns s t c ∧ (calls c).Revokes modelId version := by
  have h := consistent_run run
  have h' := consistent_run (run.trans later)
  obtain ⟨more, grown, new⟩ := (Run.later later).committed
  unfold Revoked
  rw [h.lastEvent_grown h' grown]
  have known {row : EventRow} (mem : row ∈ eventsAbout (more.map Prod.snd) modelId version) :
      row.action = str "revoke" ∧ ∃ c, Returns s t c ∧ (calls c).Revokes modelId version := by
    obtain ⟨inMore, named⟩ := List.mem_filter.mp mem
    obtain ⟨e, added, same⟩ := List.mem_map.mp inMore
    subst same
    have inTable : e ∈ t.committed := grown ▸ List.mem_append_right _ added
    obtain ⟨revokes, unrevokes⟩ := body_revokes (h'.committed_body inTable) (of_decide_eq_true named)
    have revoked : e.2.action = str "revoke" := by
      by_contra other
      exact spared e.1 (new e added) (unrevokes.mp other)
    exact ⟨revoked, e.1, new e added, revokes.mp revoked⟩
  cases last : (eventsAbout (more.map Prod.snd) modelId version).getLast? with
  | some row =>
    obtain ⟨revoked, returned⟩ := known (List.mem_of_getLast? last)
    exact iff_of_true ⟨row, rfl, revoked⟩ (.inr returned)
  | none =>
    have none := List.getLast?_eq_none_iff.mp last
    rw [Option.none_or]
    refine (or_iff_left ?_).symm
    rintro ⟨c, returns, revokes⟩
    -- The call that returned has put its row among the new ones.
    obtain ⟨row, only, body⟩ := h'.contributed c returns.2
    have own : row ∈ t.contributions c := only ▸ List.mem_singleton_self row
    have split : t.contributions c = s.contributions c ++ (more.filter fun e => e.1 = c).map Prod.snd := by
      unfold contributions
      rw [grown, List.filter_append, List.map_append]
    rw [split, h.absent c returns.1, List.nil_append] at own
    obtain ⟨e, inMore, same⟩ := List.mem_map.mp own
    have named : row.modelId = modelId ∧ row.version = version := body_named body revokes
    have mem : row ∈ eventsAbout (more.map Prod.snd) modelId version :=
      List.mem_filter.mpr ⟨same ▸ List.mem_map_of_mem (List.mem_of_mem_filter inMore), decide_eq_true named⟩
    rw [none] at mem
    exact List.not_mem_nil mem

end Steps

end System

end ModelGuard.Registry
