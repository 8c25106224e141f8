import ModelGuard.Audit.Verify

/-!
# Appending to a log that verifies

An append keeps a verified log verified when the last line is closed and the last index can be
counted on from. A log file without entries is refused.
-/

namespace ModelGuard.Audit

open Lib Lib.Fallible

variable {F : Type} [FloatText F]

/-- A log that verifies, with the entries it holds. -/
structure Sound (sha : Sha256) (log : Option Bytes) (entries : List (ChainEntry F)) : Prop where
  read : readAllEntries log = .ok entries
  linked : ∃ q, Linked sha genesisHash entries q

/-- Nothing but white space follows the last line break of the file. -/
def Terminated (log : Option Bytes) : Prop :=
  ∃ text, decodeUtf8 (log.getD []) = some text ∧ Json.skipWs (lastLine text) = []

/-- The file is empty or missing, or its last entry has an index that `append_entry` can add 1 to. -/
def Countable (log : Option Bytes) (entries : List (ChainEntry F)) : Prop :=
  log.getD [] = [] ∨ ∃ before last next, entries = before ++ [last] ∧ plusOne last.index = .ok next

theorem sound_iff {sha : Sha256} {log : Option Bytes} {entries : List (ChainEntry F)} :
    Sound sha log entries ↔ verifyChain (F := F) sha log = .ok () ∧ readAllEntries log = .ok entries := by
  rw [verifyChain_ok]
  constructor
  · rintro ⟨read, linked⟩
    exact ⟨⟨entries, read, linked⟩, read⟩
  · rintro ⟨⟨entries', read', linked⟩, read⟩
    rw [read'] at read
    cases read
    exact ⟨read', linked⟩

theorem Sound.text {sha : Sha256} {log : Option Bytes} {entries : List (ChainEntry F)} (h : Sound sha log entries) :
    ∃ text, decodeUtf8 (log.getD []) = some text ∧ (entryLines text).mapM readLine = .ok entries := by
  have read := h.read
  rw [readAllEntries_getD] at read
  exact readAllEntries_ok.mp read

theorem Sound.nil_of_empty {sha : Sha256} {log : Option Bytes} {entries : List (ChainEntry F)}
    (h : Sound sha log entries) (empty : log.getD [] = []) : entries = [] := by
  have read := h.read
  rw [readAllEntries_getD, empty] at read
  exact (Except.ok.inj read).symm

/-! ### The last entry -/

theorem mapM_ok_last {α β ε : Type} {f : α → Except ε β} {l : List α} {before : List β} {last : β}
    (h : l.mapM f = .ok (before ++ [last])) : ∃ l' a, l = l' ++ [a] ∧ f a = .ok last := by
  rcases List.eq_nil_or_concat l with rfl | ⟨l', a, rfl⟩
  · have := mapM_ok_nil.mp h
    simp at this
  · rw [List.concat_eq_append] at h ⊢
    obtain ⟨bs, cs, -, single, same⟩ := mapM_ok_append.mp h
    obtain ⟨b, rest, value, nil, rfl⟩ := mapM_ok_cons.mp single
    rw [mapM_ok_nil.mp nil] at same
    obtain ⟨-, lastSame⟩ := List.append_inj' same rfl
    exact ⟨l', a, rfl, by rw [value, List.singleton_inj.mp lastSame]⟩

theorem readLastEntry_ok {content : Bytes} {text : Str} {before : List (ChainEntry F)} {last : ChainEntry F}
    (decoded : decodeUtf8 content = some text) (read : (entryLines text).mapM readLine = .ok (before ++ [last])) :
    readLastEntry content = .ok last := by
  obtain ⟨lines, line, split, value⟩ := mapM_ok_last read
  rw [readLastEntry, decoded, orRaise_some_bind, split, List.getLast?_append, List.getLast?_singleton, Option.some_or]
  exact value

theorem readLastEntry_none {content : Bytes} {text : Str} (decoded : decodeUtf8 content = some text)
    (read : (entryLines text).mapM (readLine (F := F)) = .ok []) :
    readLastEntry (F := F) content = .error (.integrity (.int 0) "log file exists but contains no entries") := by
  have none : entryLines text = [] := by
    cases lines : entryLines text with
    | nil => rfl
    | cons line rest =>
      rw [lines] at read
      obtain ⟨e, es, -, -, same⟩ := mapM_ok_cons.mp read
      cases same
  rw [readLastEntry, decoded, orRaise_some_bind, none]
  rfl

/-! ### What an append writes -/

theorem appendEntry_ok {sha : Sha256} {log : Option Bytes} {record : Record F} {entry : ChainEntry F} {content : Bytes} :
    appendEntry sha log record = .ok (entry, content) ↔
      ∃ prev index bytes,
        ((log.getD [] = [] ∧ prev = .str genesisHash ∧ index = .int 0) ∨
          (log.getD [] ≠ [] ∧ ∃ last, readLastEntry (log.getD []) = .ok last ∧ prev = last.recordHash ∧
            plusOne last.index = .ok index)) ∧
        encodeText prev = .ok bytes ∧
        entry = ⟨index, record.json, .str (recordHash sha record.json bytes), prev⟩ ∧
        content = log.getD [] ++ asciiBytes (lineText entry ++ [newline]) := by
  by_cases empty : log.getD [] = []
  · simp only [appendEntry, bind_ok, pure_ok, empty, List.isEmpty_nil, if_true, Prod.mk.injEq]
    constructor
    · rintro ⟨_, rfl, bytes, encoded, rfl, rfl⟩
      exact ⟨_, _, bytes, Or.inl ⟨trivial, rfl, rfl⟩, encoded, rfl, rfl⟩
    · rintro ⟨prev, index, bytes, ⟨-, rfl, rfl⟩ | ⟨no, -⟩, encoded, rfl, rfl⟩
      · exact ⟨_, rfl, bytes, encoded, rfl, rfl⟩
      · exact (no rfl).elim
  · have shown : (log.getD []).isEmpty = false := by simpa using empty
    simp only [appendEntry, bind_ok, pure_ok, empty, shown, Bool.false_eq_true, if_false, Prod.mk.injEq, false_and,
      false_or]
    constructor
    · rintro ⟨last, read, next, plus, _, rfl, bytes, encoded, rfl, rfl⟩
      exact ⟨_, _, bytes, ⟨empty, last, read, rfl, plus⟩, encoded, rfl, rfl⟩
    · rintro ⟨prev, index, bytes, ⟨-, last, read, rfl, plus⟩, encoded, rfl, rfl⟩
      exact ⟨last, read, _, plus, _, rfl, bytes, encoded, rfl, rfl⟩

theorem decode_appended {content : Bytes} {text : Str} (decoded : decodeUtf8 content = some text) (entry : ChainEntry F) :
    decodeUtf8 (content ++ asciiBytes (lineText entry ++ [newline])) =
      some (text ++ (lineText entry ++ [newline])) := by
  have ascii : Ascii (lineText entry ++ [newline]) :=
    ascii_append.mpr ⟨(lineText_printable entry).ascii, by decide⟩
  rw [decodeUtf8_append decoded, decodeUtf8_ascii ascii, Option.map_some]

/-- After an append the text after the last line break is empty. -/
theorem terminated_appended {content : Bytes} {text : Str} (decoded : decodeUtf8 content = some text)
    (entry : ChainEntry F) : Terminated (some (content ++ asciiBytes (lineText entry ++ [newline]))) := by
  refine ⟨_, decode_appended decoded entry, ?_⟩
  rw [lastLine, universalNewlines_add, ← List.append_assoc, openLine, List.rtakeWhile_concat_neg _ _ _ (by simp)]
  rfl

theorem plusOne_numeric {v w : Json F} (h : plusOne v = .ok w) : w.WF ∧ ∃ next, plusOne w = .ok next := by
  cases v with
  | int n => cases h; exact ⟨.int _, _, rfl⟩
  | bool b => cases h; exact ⟨.int _, _, rfl⟩
  | float x => cases h; exact ⟨.float _, _, rfl⟩
  | _ => cases h

/-! ### One append -/

/-- A log that an append keeps sound. -/
structure Appendable (sha : Sha256) (log : Option Bytes) (entries : List (ChainEntry F)) : Prop
    extends Sound sha log entries where
  terminated : Terminated log
  countable : Countable log entries

/-- The hash and the index that the next entry of a countable log names. -/
theorem next_link {sha : Sha256} {log : Option Bytes} {entries : List (ChainEntry F)} (sound : Sound sha log entries)
    (countable : Countable log entries) :
    ∃ (q : Str) (index : Json F), Linked sha genesisHash entries q ∧ index.WF ∧ (∃ next, plusOne index = .ok next) ∧
      ((log.getD [] = [] ∧ q = genesisHash ∧ index = .int 0) ∨
        (log.getD [] ≠ [] ∧ ∃ last, readLastEntry (log.getD []) = .ok last ∧ last.recordHash = .str q ∧
          plusOne last.index = .ok index)) := by
  obtain ⟨q, linked⟩ := sound.linked
  by_cases empty : log.getD [] = []
  · have none := sound.nil_of_empty empty
    subst none
    rcases linked.last with ⟨-, rfl⟩ | ⟨before, e, split, -⟩
    · exact ⟨_, .int 0, linked, .int 0, ⟨_, rfl⟩, Or.inl ⟨empty, rfl, rfl⟩⟩
    · simp at split
  · obtain ⟨before, last, next, rfl, plus⟩ := countable.resolve_left empty
    obtain ⟨text, decoded, read⟩ := sound.text
    obtain ⟨wf, numeric⟩ := plusOne_numeric plus
    refine ⟨q, next, linked, wf, numeric, Or.inr ⟨empty, last, readLastEntry_ok decoded read, ?_, plus⟩⟩
    rcases linked.last with ⟨nil, -⟩ | ⟨before', e, split, hash⟩
    · simp at nil
    · rw [List.singleton_inj.mp (List.append_inj' split rfl).2]
      exact hash

/-- The entry that an append writes is well formed and extends the chain. -/
theorem appended_entry {sha : Sha256} {entries : List (ChainEntry F)} {q : Str} {index : Json F}
    (record : Record F) (linked : Linked sha genesisHash entries q) (wf : index.WF) :
    let entry : ChainEntry F := ⟨index, record.json, .str (recordHash sha record.json (asciiBytes q)), .str q⟩
    entry.WF ∧ Linked sha genesisHash (entries ++ [entry]) (recordHash sha record.json (asciiBytes q)) := by
  refine ⟨⟨wf, record.wf, .str (Json.joined_of_scalars (sha.hex _).scalars), .str (Json.joined_of_scalars ?_)⟩,
    linked.append (.cons rfl rfl (.nil _))⟩
  have ascii := linked.ascii ascii_genesisHash
  intro c hc
  have := ascii c hc
  simp only [isSurrogate, Bool.and_eq_false_iff, decide_eq_false_iff_not]
  omega

/-- A line added behind white space is one more entry. -/
theorem read_appended {content : Bytes} {text : Str} {entries : List (ChainEntry F)} {entry : ChainEntry F}
    (decoded : decodeUtf8 content = some text) (read : (entryLines text).mapM readLine = .ok entries)
    (blank : Json.skipWs (lastLine text) = []) (wf : entry.WF) :
    readAllEntries (some (content ++ asciiBytes (lineText entry ++ [newline]))) = .ok (entries ++ [entry]) := by
  have spaces : isBlank (lastLine text) = true := by
    refine List.all_eq_true.mpr fun c hc => ?_
    have ws := List.dropWhile_eq_nil_iff.mp blank c hc
    simp only [Json.isWs, Bool.or_eq_true, beq_iff_eq] at ws
    rcases ws with ((rfl | rfl) | rfl) | rfl <;> decide
  rw [entryLines_eq, spaces, if_pos rfl, List.append_nil] at read
  refine readAllEntries_ok.mpr ⟨_, decode_appended decoded entry, ?_⟩
  rw [entryLines_add]
  exact mapM_ok_append.mpr ⟨entries, [entry], read,
    mapM_ok_cons.mpr ⟨entry, [], readLine_lineText wf blank, rfl, rfl⟩, rfl⟩

/-- Whatever the log is, an append that returns on a closed log adds its entry to those read. -/
theorem appendEntry_reads {sha : Sha256} {log : Option Bytes} {record : Record F} {entry : ChainEntry F}
    {content : Bytes} {entries : List (ChainEntry F)} (terminated : Terminated log)
    (read : readAllEntries log = .ok entries) (appended : appendEntry sha log record = .ok (entry, content)) :
    readAllEntries (some content) = .ok (entries ++ [entry]) := by
  obtain ⟨text, decoded, blank⟩ := terminated
  have lines := read
  rw [readAllEntries_getD] at lines
  obtain ⟨text', decoded', lines⟩ := readAllEntries_ok.mp lines
  rw [decoded] at decoded'
  cases decoded'
  obtain ⟨prev, index, bytes, source, encoded, rfl, rfl⟩ := appendEntry_ok.mp appended
  have hashWf : (Json.str (recordHash sha record.json bytes) : Json F).WF :=
    .str (Json.joined_of_scalars (sha.hex _).scalars)
  refine read_appended decoded lines blank ?_
  rcases source with ⟨-, rfl, rfl⟩ | ⟨shown, last, readLast, rfl, plus⟩
  · have genesis : Scalars genesisHash := fun c mem => by
      have := ascii_genesisHash c mem
      simp only [isSurrogate, Bool.and_eq_false_iff, decide_eq_false_iff_not]
      omega
    exact ⟨.int 0, record.wf, hashWf, .str (Json.joined_of_scalars genesis)⟩
  · have own : last.WF := by
      rcases List.eq_nil_or_concat entries with rfl | ⟨before, last', split⟩
      · rw [readLastEntry_none decoded lines] at readLast
        cases readLast
      · rw [List.concat_eq_append] at split
        rw [split] at lines
        rw [readLastEntry_ok decoded lines] at readLast
        rw [← Except.ok.inj readLast]
        exact readAllEntries_wf read last' (split ▸ List.mem_append_right _ (List.mem_singleton_self _))
    exact ⟨(plusOne_numeric plus).1, record.wf, hashWf, own.recordHash⟩

theorem append_step {sha : Sha256} {log : Option Bytes} {entries : List (ChainEntry F)}
    (h : Appendable sha log entries) (record : Record F) :
    ∃ entry content, appendEntry sha log record = .ok (entry, content) ∧ entry.record = record.json ∧
      Appendable sha (some content) (entries ++ [entry]) := by
  obtain ⟨q, index, linked, wf, numeric, source⟩ := next_link h.toSound h.countable
  obtain ⟨text, decoded, read⟩ := h.text
  obtain ⟨text', decoded', blank⟩ := h.terminated
  rw [decoded] at decoded'
  cases decoded'
  obtain ⟨entryWf, extended⟩ := appended_entry record linked wf
  refine ⟨_, _, appendEntry_ok.mpr ⟨.str q, index, asciiBytes q, ?_, ?_, rfl, rfl⟩, rfl, ⟨?_, _, extended⟩, ?_, ?_⟩
  · rcases source with ⟨empty, rfl, rfl⟩ | ⟨shown, last, readLast, hash, plus⟩
    · exact Or.inl ⟨empty, rfl, rfl⟩
    · exact Or.inr ⟨shown, last, readLast, hash.symm, plus⟩
  · rw [encodeText, orRaise_ok, encodeUtf8_ascii (linked.ascii ascii_genesisHash)]
  · exact read_appended decoded read blank entryWf
  · exact terminated_appended decoded _
  · exact Or.inr ⟨entries, _, numeric.choose, rfl, numeric.choose_spec⟩

theorem appendable_none (sha : Sha256) : Appendable (F := F) sha none [] where
  read := rfl
  linked := ⟨_, .nil _⟩
  terminated := ⟨[], rfl, rfl⟩
  countable := Or.inl rfl

/-- Any number of appends: the log stays sound and holds the new records behind the old ones. -/
theorem append_run {sha : Sha256} {log : Option Bytes} {entries : List (ChainEntry F)} (records : List (Record F))
    (h : Appendable sha log entries) :
    ∃ log' added, appendAll sha log records = .ok log' ∧ Appendable sha log' (entries ++ added) ∧
      added.map (·.record) = records.map Record.json := by
  induction records generalizing log entries with
  | nil => exact ⟨log, [], rfl, by rwa [List.append_nil], rfl⟩
  | cons record rest ih =>
    obtain ⟨entry, content, appended, same, next⟩ := append_step h record
    obtain ⟨log', added, run, last, records⟩ := ih next
    refine ⟨log', entry :: added, ?_, by simpa using last, by rw [List.map_cons, same, records, List.map_cons]⟩
    rw [appendAll, appended]
    exact run

end ModelGuard.Audit
