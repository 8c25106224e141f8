import ModelGuard.Audit.Tamper

/-!
# Appends at the same time

Nothing locks a log. A call of `append_entry` looks at the last line of the file and writes its own line later,
behind whatever has come between. No line is lost, but two calls that overlap have left a fork.
-/

namespace ModelGuard.Audit

open Lib Lib.Fallible

variable {F : Type} [FloatText F]

/-- What a call takes from the last line: the hash that its line will name, and its index. -/
def lastLink (content : Bytes) : Except (ChainError F) (Json F × Json F) := do
  let last ← readLastEntry content
  let index ← plusOne last.index
  return (last.recordHash, index)

/-- The entry that a call makes. -/
def nextEntry (sha : Sha256) (record : Record F) (prev index : Json F) : Except (ChainError F) (ChainEntry F) := do
  let bytes ← encodeText prev
  return { index, record := record.json, recordHash := .str (recordHash sha record.json bytes), prevHash := prev }

/-- How far a call of `append_entry` has come. -/
inductive Appending (F : Type) where
  | idle
  /-- The file exists, and is not empty. -/
  | shown
  /-- It knows what its line will name. The file had `seen` lines then. -/
  | linked (prev index : Json F) (seen : Nat)
  | returned (entry : ChainEntry F)
  | raised (e : ChainError F)
  /-- The file system failed, before anything was written. -/
  | aborted

/-- The line of a call that has returned. -/
def Appending.lines : Appending F → List (ChainEntry F)
  | .returned entry => [entry]
  | _ => []

/-- A line, whose it is, and how many lines its call had seen. -/
structure Written (C F : Type) where
  call : C
  seen : Nat
  entry : ChainEntry F

/-- The calls, named by `C`, and the file that they share. -/
structure Appends (C F : Type) where
  phase : C → Appending F
  log : Option Bytes
  added : List (Written C F)

namespace Appends

variable {C : Type} [DecidableEq C]

/-- No file. -/
def start : Appends C F where
  phase _ := .idle
  log := none
  added := []

def enter (s : Appends C F) (c : C) (phase : Appending F) : Appends C F :=
  { s with phase := Function.update s.phase c phase }

/-- The line is written in one piece, at the end of the file. -/
def write (s : Appends C F) (c : C) (seen : Nat) (entry : ChainEntry F) : Appends C F where
  phase := Function.update s.phase c (.returned entry)
  log := some (s.log.getD [] ++ asciiBytes (lineText entry ++ [newline]))
  added := s.added ++ [⟨c, seen, entry⟩]

variable (sha : Sha256) (records : C → Record F)

inductive Step : Appends C F → Appends C F → Prop
  | first {s : Appends C F} (c : C) (idle : s.phase c = .idle) (empty : s.log.getD [] = []) :
      Step s (s.enter c (.linked (.str genesisHash) (.int 0) s.added.length))
  | look {s : Appends C F} (c : C) (idle : s.phase c = .idle) (nonempty : s.log.getD [] ≠ []) : Step s (s.enter c .shown)
  | read {s : Appends C F} (c : C) (shown : s.phase c = .shown) {prev index : Json F}
      (last : lastLink (s.log.getD []) = .ok (prev, index)) : Step s (s.enter c (.linked prev index s.added.length))
  | unreadable {s : Appends C F} (c : C) (shown : s.phase c = .shown) {e : ChainError F}
      (failed : lastLink (F := F) (s.log.getD []) = .error e) : Step s (s.enter c (.raised e))
  | write {s : Appends C F} (c : C) {prev index : Json F} {seen : Nat} (linked : s.phase c = .linked prev index seen)
      {entry : ChainEntry F} (made : nextEntry sha (records c) prev index = .ok entry) : Step s (s.write c seen entry)
  | unencodable {s : Appends C F} (c : C) {prev index : Json F} {seen : Nat} (linked : s.phase c = .linked prev index seen)
      {e : ChainError F} (failed : nextEntry sha (records c) prev index = .error e) : Step s (s.enter c (.raised e))
  | abort {s : Appends C F} (c : C) (running : s.phase c = .idle ∨ s.phase c = .shown ∨
      ∃ prev index seen, s.phase c = .linked prev index seen) : Step s (s.enter c .aborted)

abbrev Run : Appends C F → Appends C F → Prop := Relation.ReflTransGen (Step sha records)

/-- The entries of the lines, in the order of the file. -/
def entries (s : Appends C F) : List (ChainEntry F) := s.added.map (·.entry)

/-- The lines of a call. -/
def linesOf (s : Appends C F) (c : C) : List (ChainEntry F) := (s.added.filter fun w => w.call = c).map (·.entry)

/-- Each call had seen every line before its own. -/
def Undisturbed (s : Appends C F) : Prop := s.added.map (·.seen) = List.range s.added.length

/-! ### What every step keeps -/

/-- The hash that the next entry names. -/
def headOf (entries : List (ChainEntry F)) : Json F := (entries.getLast?.map (·.recordHash)).getD (.str genesisHash)

/-- A line behind the others: it names the hash of the last one that its call had seen. -/
structure Made (before : List (Written C F)) (w : Written C F) : Prop where
  seen : w.seen ≤ before.length
  prev : w.entry.prevHash = headOf ((before.take w.seen).map (·.entry))
  hashed : ∃ p, Ascii p ∧ w.entry.prevHash = .str p ∧
    w.entry.recordHash = .str (recordHash sha w.entry.record (asciiBytes p))
  own : w.entry.record = (records w.call).json
  wf : w.entry.WF
  counts : ∃ next, plusOne w.entry.index = .ok next

/-- What a call knows that is about to write. -/
structure Knows (added : List (Written C F)) (prev index : Json F) (seen : Nat) : Prop where
  inside : seen ≤ added.length
  last : prev = headOf ((added.take seen).map (·.entry))
  wf : index.WF
  counts : ∃ next, plusOne index = .ok next

inductive Chronicle : List (Written C F) → Prop
  | nil : Chronicle []
  | snoc {before : List (Written C F)} {w : Written C F} (earlier : Chronicle before) (made : Made sha records before w) :
      Chronicle (before ++ [w])

structure Consistent (s : Appends C F) : Prop where
  chronicle : Chronicle sha records s.added
  read : readAllEntries s.log = .ok s.entries
  terminated : Terminated s.log
  filled : s.log.getD [] = [] ↔ s.added = []
  shown : ∀ c, s.phase c = .shown → s.added ≠ []
  linked : ∀ c prev index seen, s.phase c = .linked prev index seen → Knows s.added prev index seen
  lines : ∀ c, s.linesOf c = (s.phase c).lines
  raised : ∀ c e, s.phase c ≠ .raised e

section Lines

omit [DecidableEq C]

variable {sha records} {added : List (Written C F)}

omit [FloatText F] in
theorem headOf_append (entries : List (ChainEntry F)) (e : ChainEntry F) : headOf (entries ++ [e]) = e.recordHash := by
  unfold headOf
  rw [List.getLast?_concat]
  rfl

theorem Chronicle.head (h : Chronicle sha records added) : ∃ p, Ascii p ∧ headOf (added.map (·.entry)) = .str p := by
  cases h with
  | nil => exact ⟨genesisHash, ascii_genesisHash, rfl⟩
  | @snoc before w earlier made =>
    obtain ⟨p, ascii, -, hash⟩ := made.hashed
    rw [List.map_append, List.map_singleton, headOf_append]
    exact ⟨_, recordHash_ascii sha _ _, hash⟩

theorem Chronicle.take (h : Chronicle sha records added) (n : Nat) : Chronicle sha records (added.take n) := by
  induction h with
  | nil =>
    rw [List.take_nil]
    exact .nil
  | @snoc before w earlier made ih =>
    by_cases inside : n ≤ before.length
    · rw [List.take_append_of_le_length inside]
      exact ih
    · rw [List.take_of_length_le]
      · exact .snoc earlier made
      · rw [List.length_append, List.length_singleton]
        omega

theorem Chronicle.last (h : Chronicle sha records added) (some : added ≠ []) :
    ∃ before w, added = before ++ [w] ∧ Made sha records before w := by
  cases h with
  | nil => exact (some rfl).elim
  | snoc earlier made => exact ⟨_, _, rfl, made⟩

theorem nextEntry_eq (sha : Sha256) (record : Record F) {p : Str} (ascii : Ascii p) (index : Json F) :
    nextEntry sha record (.str p) index =
      .ok ⟨index, record.json, .str (recordHash sha record.json (asciiBytes p)), .str p⟩ := by
  have encoded : encodeText (.str p : Json F) = .ok (asciiBytes p) := by
    rw [encodeText, encodeUtf8_ascii ascii]
    rfl
  unfold nextEntry
  rw [encoded]
  rfl

theorem Knows.grown {prev index : Json F} {seen : Nat} (knows : Knows added prev index seen) (more : List (Written C F)) :
    Knows (added ++ more) prev index seen where
  inside := by
    rw [List.length_append]
    exact Nat.le_add_right_of_le knows.inside
  last := by
    rw [List.take_append_of_le_length knows.inside]
    exact knows.last
  wf := knows.wf
  counts := knows.counts

/-- The entry that a call makes, behind the lines that it saw. -/
theorem Knows.makes {prev index : Json F} {seen : Nat} (knows : Knows added prev index seen) (h : Chronicle sha records added)
    (c : C) : ∃ entry, nextEntry sha (records c) prev index = .ok entry ∧ Made sha records added ⟨c, seen, entry⟩ := by
  obtain ⟨inside, last, wf, counts⟩ := knows
  obtain ⟨p, ascii, head⟩ := (h.take seen).head
  rw [head] at last
  subst last
  refine ⟨_, nextEntry_eq sha (records c) ascii index, inside, head.symm, ⟨p, ascii, rfl, rfl⟩, rfl, ?_, counts⟩
  refine ⟨wf, (records c).wf, .str (Json.joined_of_scalars (sha.hex _).scalars), .str (Json.joined_of_scalars ?_)⟩
  intro c mem
  have small := ascii c mem
  simp only [isSurrogate, Bool.and_eq_false_iff, decide_eq_false_iff_not]
  omega

end Lines

section States

variable {sha records} {s : Appends C F} {c : C} {phase : Appending F}

omit [FloatText F] in
theorem enter_cases {P : C → Appending F → Prop} (own : P c phase) (others : ∀ d, d ≠ c → P d (s.phase d)) (d : C) :
    P d (Function.update s.phase c phase d) := by
  by_cases same : d = c
  · rw [same, Function.update_self]
    exact own
  · rw [Function.update_of_ne same]
    exact others d same

/-- A call goes on, and writes nothing. -/
theorem Consistent.enter (h : Consistent sha records s) (unwritten : (s.phase c).lines = []) (empty : phase.lines = [])
    (shown : phase = .shown → s.added ≠ [])
    (linked : ∀ prev index seen, phase = .linked prev index seen → Knows s.added prev index seen)
    (quiet : ∀ e, phase ≠ .raised e) : Consistent sha records (s.enter c phase) where
  chronicle := h.chronicle
  read := h.read
  terminated := h.terminated
  filled := h.filled
  shown := enter_cases (P := fun _ phase => phase = .shown → s.added ≠ []) shown fun d _ => h.shown d
  linked := enter_cases (P := fun _ phase => ∀ prev index seen, phase = .linked prev index seen → Knows s.added prev index seen)
    linked fun d _ => h.linked d
  lines := enter_cases (P := fun d phase => s.linesOf d = phase.lines) ((h.lines c).trans (unwritten.trans empty.symm))
    fun d _ => h.lines d
  raised := enter_cases (P := fun _ phase => ∀ e, phase ≠ .raised e) quiet fun d _ => h.raised d

/-- The last line of the file can be read. -/
theorem Consistent.lastLink (h : Consistent sha records s) (some : s.added ≠ []) :
    ∃ index, Audit.lastLink (s.log.getD []) = .ok (headOf s.entries, index) ∧ index.WF ∧ ∃ next, plusOne index = .ok next := by
  obtain ⟨before, w, split, made⟩ := h.chronicle.last some
  obtain ⟨next, counts⟩ := made.counts
  have entries : s.entries = before.map (·.entry) ++ [w.entry] := by
    unfold Appends.entries
    rw [split, List.map_append, List.map_singleton]
  have lines := h.read
  rw [readAllEntries_getD] at lines
  obtain ⟨text, decoded, lines⟩ := readAllEntries_ok.mp lines
  rw [entries] at lines
  refine ⟨next, ?_, plusOne_numeric counts⟩
  unfold Audit.lastLink
  rw [readLastEntry_ok decoded lines, entries, headOf_append]
  show (do
    let index ← plusOne w.entry.index
    return (w.entry.recordHash, index)) = _
  rw [counts]
  rfl

theorem Consistent.write (h : Consistent sha records s) {seen : Nat} {entry : ChainEntry F} (unwritten : (s.phase c).lines = [])
    (made : Made sha records s.added ⟨c, seen, entry⟩) : Consistent sha records (s.write c seen entry) := by
  have lines := h.read
  rw [readAllEntries_getD] at lines
  obtain ⟨text, decoded, lines⟩ := readAllEntries_ok.mp lines
  obtain ⟨text', decoded', blank⟩ := h.terminated
  rw [decoded] at decoded'
  cases decoded'
  have entries : (s.write c seen entry).entries = s.entries ++ [entry] := by
    unfold Appends.entries Appends.write
    rw [List.map_append, List.map_singleton]
  refine ⟨h.chronicle.snoc made, ?_, terminated_appended decoded entry, iff_of_false ?_ ?_, ?_, ?_, ?_, ?_⟩
  · rw [entries]
    exact read_appended decoded lines blank made.wf
  · intro none
    obtain ⟨rest, brace⟩ := lineText_cons entry
    have line : asciiBytes (lineText entry ++ [newline]) = [] := (List.append_eq_nil_iff.mp none).2
    rw [brace] at line
    cases line
  · exact List.append_ne_nil_of_right_ne_nil _ (List.cons_ne_nil _ _)
  · exact fun _ _ => List.append_ne_nil_of_right_ne_nil _ (List.cons_ne_nil _ _)
  · refine enter_cases (P := fun _ phase => ∀ prev index other, phase = .linked prev index other →
      Knows (s.added ++ [⟨c, seen, entry⟩]) prev index other) ?_
      fun d _ prev index other linked => (h.linked d prev index other linked).grown _
    intro _ _ _ same
    cases same
  · have before := h.lines
    have whole (d : C) : (s.write c seen entry).linesOf d = s.linesOf d ++ if c = d then [entry] else [] := by
      unfold linesOf Appends.write
      rw [List.filter_append, List.map_append]
      by_cases own : c = d <;> simp [own]
    refine enter_cases (P := fun d phase => (s.write c seen entry).linesOf d = phase.lines) ?_ fun d other => ?_
    · rw [whole, before, unwritten, if_pos rfl]
      rfl
    · rw [whole, before, if_neg (Ne.symm other), List.append_nil]
  · exact enter_cases (P := fun _ phase => ∀ e, phase ≠ .raised e) nofun fun d _ => h.raised d

end States

section Runs

variable {sha records} {s t : Appends C F}

theorem consistent_start : Consistent sha records (start : Appends C F) where
  chronicle := .nil
  read := rfl
  terminated := ⟨[], rfl, rfl⟩
  filled := iff_of_true rfl rfl
  shown := nofun
  linked := nofun
  lines _ := rfl
  raised := nofun

theorem Consistent.step (h : Consistent sha records s) (step : Step sha records s t) : Consistent sha records t := by
  cases step with
  | first c idle empty =>
    have none : s.added = [] := h.filled.mp empty
    refine h.enter (by rw [idle]; rfl) rfl nofun ?_ nofun
    rintro prev index seen same
    cases same
    refine ⟨Nat.le_refl _, ?_, .int 0, _, rfl⟩
    rw [none]
    rfl
  | look c idle nonempty =>
    exact h.enter (by rw [idle]; rfl) rfl (fun _ none => nonempty (h.filled.mpr none)) nofun nofun
  | read c shown last =>
    obtain ⟨index, known, wf, counts⟩ := h.lastLink (h.shown c shown)
    rw [known] at last
    refine h.enter (by rw [shown]; rfl) rfl nofun ?_ nofun
    rintro prev index' seen same
    cases same
    cases last
    refine ⟨Nat.le_refl _, ?_, wf, counts⟩
    rw [List.take_length]
    rfl
  | unreadable c shown failed =>
    obtain ⟨index, known, -⟩ := h.lastLink (h.shown c shown)
    rw [known] at failed
    cases failed
  | write c linked made =>
    obtain ⟨entry, own, behind⟩ := (h.linked c _ _ _ linked).makes h.chronicle c
    rw [own] at made
    cases made
    exact h.write (by rw [linked]; rfl) behind
  | unencodable c linked failed =>
    obtain ⟨entry, own, -⟩ := (h.linked c _ _ _ linked).makes h.chronicle c
    rw [own] at failed
    cases failed
  | abort c running =>
    refine h.enter ?_ rfl nofun nofun nofun
    rcases running with idle | shown | ⟨_, _, _, linked⟩
    · rw [idle]
      rfl
    · rw [shown]
      rfl
    · rw [linked]
      rfl

theorem consistent_run (run : Run sha records start s) : Consistent sha records s := by
  induction run with
  | refl => exact consistent_start
  | tail _ step ih => exact ih.step step

end Runs

/-! ### What verification finds -/

section Chains

omit [DecidableEq C]

variable {sha records} {added : List (Written C F)}

theorem linked_split {p q : Str} {es fs : List (ChainEntry F)} (h : Linked sha p (es ++ fs) q) :
    ∃ m, Linked sha p es m ∧ Linked sha m fs q := by
  induction es generalizing p with
  | nil => exact ⟨p, .nil p, h⟩
  | cons e es ih =>
    cases h with
    | cons prev hash rest =>
      obtain ⟨m, first, second⟩ := ih rest
      exact ⟨m, .cons prev hash first, second⟩

theorem headOf_linked {es : List (ChainEntry F)} {q : Str} (linked : Linked sha genesisHash es q) : headOf es = .str q := by
  rcases linked.last with ⟨none, same⟩ | ⟨before, e, split, hash⟩
  · rw [none, same]
    rfl
  · rw [split, headOf_append, hash]

omit [FloatText F] in
theorem seen_snoc {before : List (Written C F)} {w : Written C F} :
    (before ++ [w]).map (·.seen) = List.range (before ++ [w]).length ↔
      before.map (·.seen) = List.range before.length ∧ w.seen = before.length := by
  rw [List.length_append, List.length_singleton, List.range_succ, List.map_append, List.map_singleton]
  constructor
  · intro same
    obtain ⟨first, last⟩ := List.append_inj' same rfl
    exact ⟨first, List.singleton_inj.mp last⟩
  · rintro ⟨first, last⟩
    rw [first, last]

/-- Where each call had seen every line before its own, each entry names the one before it. -/
theorem Chronicle.linked (h : Chronicle sha records added) (undisturbed : added.map (·.seen) = List.range added.length) :
    ∃ q, Linked sha genesisHash (added.map (·.entry)) q := by
  induction h with
  | nil => exact ⟨genesisHash, .nil _⟩
  | @snoc before w earlier made ih =>
    obtain ⟨first, all⟩ := seen_snoc.mp undisturbed
    obtain ⟨q, linked⟩ := ih first
    obtain ⟨p, -, prev, hash⟩ := made.hashed
    have own := made.prev
    rw [all, List.take_length, headOf_linked linked, prev] at own
    cases own
    rw [List.map_append, List.map_singleton]
    exact ⟨_, linked.append (.cons prev hash (.nil _))⟩

theorem Chronicle.objects (h : Chronicle sha records added) :
    (added.map (·.entry)).map (·.record) = (added.map fun w => records w.call).map Record.json := by
  induction h with
  | nil => rfl
  | snoc _ made ih =>
    simp only [List.map_append, List.map_singleton] at ih ⊢
    rw [ih, made.own]

theorem Chronicle.made (h : Chronicle sha records added) {w : Written C F} (mem : w ∈ added) :
    w.entry.WF ∧ w.entry.record = (records w.call).json := by
  induction h with
  | nil => exact (List.not_mem_nil mem).elim
  | snoc _ made ih =>
    rcases List.mem_append.mp mem with old | new
    · exact ih old
    · rw [List.mem_singleton.mp new]
      exact ⟨made.wf, made.own⟩

theorem Chronicle.wf (h : Chronicle sha records added) : ∀ e ∈ added.map (·.entry), e.WF := by
  intro e mem
  obtain ⟨w, inside, same⟩ := List.mem_map.mp mem
  rw [← same]
  exact (h.made inside).1

/-- A call that has missed a line names another hash than the last one. -/
theorem Chronicle.undisturbed (injective : Function.Injective sha.hexdigest) (fresh : ∀ data, sha.hexdigest data ≠ genesisHash)
    (h : Chronicle sha records added) {q : Str} (linked : Linked sha genesisHash (added.map (·.entry)) q) :
    added.map (·.seen) = List.range added.length := by
  induction h generalizing q with
  | nil => rfl
  | @snoc before w earlier made ih =>
    rw [List.map_append, List.map_singleton] at linked
    obtain ⟨m, first, last⟩ := linked_split linked
    refine seen_snoc.mpr ⟨ih first, ?_⟩
    have prev : w.entry.prevHash = .str m := by
      cases last with
      | cons prev _ _ => exact prev
    have cut := first
    rw [← List.take_append_drop w.seen before, List.map_append] at cut
    obtain ⟨k, part, -⟩ := linked_split cut
    have head := made.prev
    rw [headOf_linked part, prev] at head
    cases head
    have same := records_unique injective fresh (earlier.take w.seen).objects earlier.wf part first
    have sizes := congrArg List.length same
    simp only [List.length_map, List.length_take] at sizes
    have inside := made.seen
    omega

end Chains

/-! ### A call that runs alone -/

section Alone

variable {sha records} {s t : Appends C F} {c : C}

/-- What a call leaves by which nothing comes between. -/
def Leaves (s : Appends C F) (c : C) (t : Appends C F) : Except (ChainError F) (ChainEntry F × Bytes) → Prop
  | .ok (entry, content) => t.log = some content ∧ t.phase c = .returned entry
  | .error e => t.log = s.log ∧ t.phase c = .raised e

omit [FloatText F] in
theorem enter_self (s : Appends C F) (c : C) (phase : Appending F) : (s.enter c phase).phase c = phase :=
  Function.update_self ..

theorem run_linked {prev index : Json F} {seen : Nat} (run : Run sha records s t) (same : t.log = s.log)
    (linked : t.phase c = .linked prev index seen) :
    ∃ u, Run sha records s u ∧ Leaves s c u ((nextEntry sha (records c) prev index).map fun entry =>
      (entry, s.log.getD [] ++ asciiBytes (lineText entry ++ [newline]))) := by
  cases made : nextEntry sha (records c) prev index with
  | ok entry =>
    refine ⟨_, run.tail (.write c linked made), ?_, Function.update_self ..⟩
    unfold Appends.write
    rw [same]
  | error e => exact ⟨_, run.tail (.unencodable c linked made), same, enter_self t c _⟩

/-- `append_entry` of an empty file, and of one that is not, in the steps of a call. -/
theorem appendEntry_empty (sha : Sha256) {log : Option Bytes} (record : Record F) (empty : log.getD [] = []) :
    appendEntry sha log record = (nextEntry sha record (.str genesisHash) (.int 0)).map fun entry =>
      (entry, log.getD [] ++ asciiBytes (lineText entry ++ [newline])) := by
  simp only [appendEntry, nextEntry, empty, List.isEmpty_nil, if_true, pure_bind]
  cases encodeText (.str genesisHash : Json F) <;> rfl

theorem appendEntry_nonempty (sha : Sha256) {log : Option Bytes} (record : Record F) (nonempty : log.getD [] ≠ []) :
    appendEntry sha log record = lastLink (log.getD []) >>= fun link =>
      (nextEntry sha record link.1 link.2).map fun entry =>
        (entry, log.getD [] ++ asciiBytes (lineText entry ++ [newline])) := by
  have shown : (log.getD []).isEmpty = false := by simpa using nonempty
  simp only [appendEntry, lastLink, nextEntry, shown, Bool.false_eq_true, if_false, pure_bind, bind_assoc]
  cases readLastEntry (F := F) (log.getD []) with
  | error e => rfl
  | ok last =>
    refine congrArg (plusOne last.index >>= ·) (funext fun index => ?_)
    cases encodeText last.recordHash <;> rfl

theorem run_alone (idle : s.phase c = .idle) : ∃ t, Run sha records s t ∧ Leaves s c t (appendEntry sha s.log (records c)) := by
  by_cases empty : s.log.getD [] = []
  · rw [appendEntry_empty sha (records c) empty]
    exact run_linked (.single (.first c idle empty)) rfl (enter_self s c _)
  · rw [appendEntry_nonempty sha (records c) empty]
    have shown : Run sha records s (s.enter c .shown) := .single (.look c idle empty)
    cases last : lastLink (F := F) (s.log.getD []) with
    | error e => exact ⟨_, shown.tail (.unreadable c (enter_self s c _) last), rfl, enter_self _ c _⟩
    | ok link => exact run_linked (shown.tail (.read c (enter_self s c _) last)) rfl (enter_self _ c _)

end Alone

/-! ### The guarantees -/

section Guarantees

variable {sha records} {s t : Appends C F}

theorem Step.grows (step : Step sha records s t) : s.added <+: t.added := by
  cases step with
  | write => exact List.prefix_append _ _
  | _ => exact List.prefix_refl _

theorem Run.grows (run : Run sha records s t) : s.added <+: t.added := by
  induction run with
  | refl => exact List.prefix_refl _
  | tail _ step ih => exact ih.trans step.grows

omit [DecidableEq C] [FloatText F] in
theorem Undisturbed.earlier (h : t.Undisturbed) (grown : s.added <+: t.added) : s.Undisturbed := by
  obtain ⟨more, split⟩ := grown
  unfold Undisturbed at h ⊢
  have first := congrArg (List.take s.added.length) h
  rw [← split, List.map_append, List.take_left' (List.length_map _), List.take_range, List.length_append,
    Nat.min_eq_left (Nat.le_add_right _ _)] at first
  exact first

theorem Consistent.verify_iff (injective : Function.Injective sha.hexdigest) (fresh : ∀ data, sha.hexdigest data ≠ genesisHash)
    (h : Consistent sha records s) : verifyChain (F := F) sha s.log = .ok () ↔ s.Undisturbed := by
  rw [verifyChain_ok]
  constructor
  · rintro ⟨entries, read, q, linked⟩
    rw [h.read] at read
    cases read
    exact h.chronicle.undisturbed injective fresh linked
  · intro undisturbed
    exact ⟨s.entries, h.read, h.chronicle.linked undisturbed⟩

/-- Any number of appends to one log at the same time: none fails because of another one, and no line is lost. The
log verifies exactly while each call had seen every line before its own. -/
theorem concurrent_appends (injective : Function.Injective sha.hexdigest) (fresh : ∀ data, sha.hexdigest data ≠ genesisHash)
    (run : Run sha records start s) :
    readAllEntries s.log = .ok s.entries ∧
      (∀ c entry, s.phase c = .returned entry → s.linesOf c = [entry] ∧ entry.record = (records c).json) ∧
      (∀ c, (∀ entry, s.phase c ≠ .returned entry) → s.linesOf c = []) ∧
      (∀ c e, s.phase c ≠ .raised e) ∧
      (verifyChain (F := F) sha s.log = .ok () ↔ s.Undisturbed) ∧
      ∀ t, Run sha records s t → verifyChain (F := F) sha t.log = .ok () → verifyChain (F := F) sha s.log = .ok () := by
  have h := consistent_run run
  have verify := h.verify_iff injective fresh
  refine ⟨h.read, fun c entry returned => ?_, fun c unwritten => ?_, h.raised, verify, fun t later verified => ?_⟩
  · have own := h.lines c
    rw [returned] at own
    refine ⟨own, ?_⟩
    have mem : entry ∈ s.linesOf c := own ▸ List.mem_singleton_self entry
    obtain ⟨w, inside, same⟩ := List.mem_map.mp mem
    obtain ⟨line, call⟩ := List.mem_filter.mp inside
    rw [← same, ← of_decide_eq_true call]
    exact (h.chronicle.made line).2
  · rw [h.lines c]
    cases phase : s.phase c with
    | returned entry => exact (unwritten entry phase).elim
    | _ => rfl
  · rw [verify]
    rw [(consistent_run (run.trans later)).verify_iff injective fresh] at verified
    exact verified.earlier (Run.grows later)

end Guarantees

/-! ### Two appends to a new file -/

def firstEntry : ChainEntry SpecialFloat where
  index := .int 0
  record := (emptyRecord SpecialFloat).json
  recordHash := .str (recordHash firstLinkSha (emptyRecord SpecialFloat).json (asciiBytes genesisHash))
  prevHash := .str genesisHash

/-- Both calls have found no file. -/
def bothLinked : Appends Bool SpecialFloat :=
  (start.enter false (.linked (.str genesisHash) (.int 0) 0)).enter true (.linked (.str genesisHash) (.int 0) 0)

def forked : Appends Bool SpecialFloat := (bothLinked.write false 0 firstEntry).write true 0 firstEntry

theorem run_forked : Run firstLinkSha (fun _ => emptyRecord SpecialFloat) start forked := by
  have made : nextEntry firstLinkSha (emptyRecord SpecialFloat) (.str genesisHash) (.int 0) = .ok firstEntry :=
    nextEntry_eq firstLinkSha (emptyRecord SpecialFloat) ascii_genesisHash (.int 0)
  have linked : Run firstLinkSha (fun _ => emptyRecord SpecialFloat) start bothLinked :=
    (Relation.ReflTransGen.single (.first false rfl rfl)).tail (.first true rfl rfl)
  exact (linked.tail (.write false rfl made)).tail (.write true rfl made)

/-- The log has both lines, and no longer verifies. -/
theorem concurrent_appends_forked :
    readAllEntries forked.log = .ok [firstEntry, firstEntry] ∧
      verifyChain (F := SpecialFloat) firstLinkSha forked.log ≠ .ok () := by
  obtain ⟨read, -, -, -, verify, -⟩ := concurrent_appends
    (ofTable_injective _ (by simp only [List.mem_singleton, forall_eq]; decide) (by simp))
    (ofTable_fresh _ (by decide) (by simp only [List.mem_singleton, forall_eq]; decide)) run_forked
  refine ⟨read, fun verified => ?_⟩
  have seen : [0, 0] = List.range 2 := verify.mp verified
  revert seen
  decide

end Appends

end ModelGuard.Audit
