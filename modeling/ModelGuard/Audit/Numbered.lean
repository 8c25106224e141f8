import ModelGuard.Audit.Intact

/-!
# The indices of a log

An append counts on from the index of the last entry. No hash covers an index, and verification compares
none with its place.
-/

namespace ModelGuard.Audit

open Lib Lib.Fallible

variable {F : Type} [FloatText F]

/-- Consecutive indices, from `n` on. -/
inductive Numbered : Nat → List (ChainEntry F) → Prop
  | nil (n : Nat) : Numbered n []
  | cons {n : Nat} {e : ChainEntry F} {rest : List (ChainEntry F)} :
      e.index = .int n → Numbered (n + 1) rest → Numbered n (e :: rest)

/-- The entries of the log carry the indices 0, 1, 2 and so on. -/
def NumberedLog (F : Type) [FloatText F] (log : Option Bytes) : Prop :=
  ∃ entries : List (ChainEntry F), readAllEntries log = .ok entries ∧ Numbered 0 entries

/-- The two entries differ in the index at most. -/
structure SameButIndex (e e' : ChainEntry F) : Prop where
  record : e'.record = e.record
  recordHash : e'.recordHash = e.recordHash
  prevHash : e'.prevHash = e.prevHash

/-- The second log is the first with other indices. -/
def Reindexed (F : Type) [FloatText F] (log log' : Option Bytes) : Prop :=
  ∃ entries entries' : List (ChainEntry F), readAllEntries log = .ok entries ∧ readAllEntries log' = .ok entries' ∧
    List.Forall₂ SameButIndex entries entries'

omit [FloatText F] in
theorem numbered_append {n : Nat} {entries : List (ChainEntry F)} {e : ChainEntry F} :
    Numbered n (entries ++ [e]) ↔ Numbered n entries ∧ e.index = .int ↑(n + entries.length) := by
  induction entries generalizing n with
  | nil =>
    constructor
    · intro h
      cases h with
      | cons index _ => exact ⟨.nil n, index⟩
    · intro ⟨_, index⟩
      exact .cons index (.nil _)
  | cons first rest ih =>
    have count : n + 1 + rest.length = n + (first :: rest).length := by
      rw [List.length_cons]
      omega
    constructor
    · intro h
      cases h with
      | cons index tail =>
        obtain ⟨before, last⟩ := ih.mp tail
        exact ⟨.cons index before, count ▸ last⟩
    · intro ⟨before, last⟩
      cases before with
      | cons index tail => exact .cons index (ih.mpr ⟨tail, count.symm ▸ last⟩)

/-! ### Appends count on -/

theorem appended_index {sha : Sha256} {log : Option Bytes} {entries : List (ChainEntry F)} (sound : Sound sha log entries)
    (numbered : Numbered 0 entries) {record : Record F} {entry : ChainEntry F} {content : Bytes}
    (appended : appendEntry sha log record = .ok (entry, content)) : entry.index = .int entries.length := by
  obtain ⟨prev, index, bytes, source, -, made, -⟩ := appendEntry_ok.mp appended
  subst made
  show index = .int entries.length
  rcases source with ⟨empty, -, zero⟩ | ⟨-, last, readLast, -, plus⟩
  · rw [sound.nil_of_empty empty]
    exact zero
  · obtain ⟨text, decoded, read⟩ := sound.text
    rcases List.eq_nil_or_concat entries with none | ⟨before, last', split⟩
    · subst none
      rw [readLastEntry_none decoded read] at readLast
      cases readLast
    · rw [List.concat_eq_append] at split
      subst split
      rw [readLastEntry_ok decoded read] at readLast
      have same := Except.ok.inj readLast
      subst same
      rw [(numbered_append.mp numbered).2] at plus
      have next := Except.ok.inj plus
      rw [← next, List.length_append, List.length_singleton, Nat.zero_add]
      rfl

/-- One append keeps the entries numbered, and makes a log numbered only if it was. -/
theorem append_numbered_iff {sha : Sha256} {log : Option Bytes} {entries : List (ChainEntry F)}
    (sound : Sound sha log entries) {record : Record F} {entry : ChainEntry F} {content : Bytes}
    (appended : appendEntry sha log record = .ok (entry, content)) :
    Numbered 0 (entries ++ [entry]) ↔ Numbered 0 entries := by
  rw [numbered_append, Nat.zero_add]
  constructor
  · intro h
    exact h.1
  · intro h
    exact ⟨h, appended_index sound h appended⟩

/-- So do any number of them. -/
theorem appendAll_numbered {sha : Sha256} {log log' : Option Bytes} {entries : List (ChainEntry F)}
    {records : List (Record F)} (h : Appendable sha log entries) (numbered : Numbered 0 entries)
    (run : appendAll sha log records = .ok log') :
    ∃ entries' : List (ChainEntry F), Appendable sha log' entries' ∧ Numbered 0 entries' := by
  induction records generalizing log entries with
  | nil =>
    have same := Except.ok.inj run
    subst same
    exact ⟨entries, h, numbered⟩
  | cons record rest ih =>
    obtain ⟨entry, content, appended, -, next⟩ := append_step h record
    unfold appendAll at run
    rw [appended] at run
    exact ih next ((append_numbered_iff h.toSound appended).mpr numbered) run

/-! ### Verification does not look at an index -/

theorem linked_reindexed {sha : Sha256} {p q : Str} {entries entries' : List (ChainEntry F)}
    (linked : Linked sha p entries q) (same : List.Forall₂ SameButIndex entries entries') : Linked sha p entries' q := by
  induction linked generalizing entries' with
  | nil =>
    cases same
    exact .nil _
  | cons prev hash _ ih =>
    cases same with
    | cons first rest =>
      apply Linked.cons (first.prevHash.trans prev)
      · rw [first.recordHash, first.record]
        exact hash
      · rw [first.record]
        exact ih rest

omit [FloatText F] in
theorem SameButIndex.symm {e e' : ChainEntry F} (h : SameButIndex e e') : SameButIndex e' e :=
  ⟨h.record.symm, h.recordHash.symm, h.prevHash.symm⟩

theorem verify_reindexed {sha : Sha256} {log log' : Option Bytes} (edited : Reindexed F log log') :
    verifyChain (F := F) sha log = .ok () ↔ verifyChain (F := F) sha log' = .ok () := by
  obtain ⟨entries, entries', read, read', same⟩ := edited
  have back : List.Forall₂ SameButIndex entries' entries := same.flip.imp fun _ _ h => h.symm
  rw [verifyChain_ok, verifyChain_ok]
  constructor
  · intro ⟨found, this, q, linked⟩
    rw [read] at this
    cases this
    exact ⟨entries', read', q, linked_reindexed linked same⟩
  · intro ⟨found, this, q, linked⟩
    rw [read'] at this
    cases this
    exact ⟨entries, read, q, linked_reindexed linked back⟩

/-! ### A file for given entries -/

/-- The lines of the entries. -/
def linesOf (entries : List (ChainEntry F)) : Bytes := entries.flatMap fun e => asciiBytes (lineText e ++ [newline])

theorem linesOf_append (entries : List (ChainEntry F)) (e : ChainEntry F) :
    linesOf (entries ++ [e]) = linesOf entries ++ asciiBytes (lineText e ++ [newline]) := by
  unfold linesOf
  rw [List.flatMap_append, List.flatMap_singleton]

theorem read_linesOf {entries : List (ChainEntry F)} (wf : ∀ e ∈ entries, e.WF) :
    readAllEntries (some (linesOf entries)) = .ok entries ∧ Terminated (some (linesOf entries)) := by
  induction entries using List.reverseRecOn with
  | nil => exact ⟨rfl, [], rfl, rfl⟩
  | append_singleton before e ih =>
    obtain ⟨read, text, decoded, blank⟩ := ih fun e' mem => wf e' (List.mem_append_left _ mem)
    obtain ⟨text', decoded', lines⟩ := readAllEntries_ok.mp read
    have same := Option.some.inj (decoded.symm.trans decoded')
    subst same
    rw [linesOf_append]
    have own := wf e (List.mem_append_right _ (List.mem_singleton_self e))
    exact ⟨read_appended decoded lines blank own, terminated_appended decoded e⟩

/-- The entry with another index. -/
def ChainEntry.withIndex (index : Json F) (e : ChainEntry F) : ChainEntry F := { e with index }

omit [FloatText F] in
theorem withIndex_same (index : Json F) (entries : List (ChainEntry F)) :
    List.Forall₂ SameButIndex entries (entries.map (·.withIndex index)) := by
  rw [List.forall₂_map_right_iff, List.forall₂_same]
  exact fun _ _ => ⟨rfl, rfl, rfl⟩

/-- Every readable log can be given one index throughout. -/
theorem reindexed_file {log : Option Bytes} {entries : List (ChainEntry F)} (read : readAllEntries log = .ok entries)
    {index : Json F} (wf : index.WF) :
    readAllEntries (some (linesOf (entries.map (·.withIndex index)))) = .ok (entries.map (·.withIndex index)) := by
  apply (read_linesOf ?_).1
  intro e mem
  obtain ⟨old, inLog, made⟩ := List.mem_map.mp mem
  obtain ⟨-, record, hash, prev⟩ := readAllEntries_wf read old inLog
  rw [← made]
  exact ⟨wf, record, hash, prev⟩

/-- The entry that a first append writes, with the index 7. -/
def seventhEntry : ChainEntry SpecialFloat where
  index := .int 7
  record := (emptyRecord SpecialFloat).json
  recordHash := .str (recordHash firstLinkSha (emptyRecord SpecialFloat).json (asciiBytes genesisHash))
  prevHash := .str genesisHash

end ModelGuard.Audit
