import ModelGuard.Audit.Intact

/-!
# Appends that fail part-way

What reaches the file is the start of the line. A start without the last brace cannot be read, and the log takes
no further entry. Where only the line break is missing the line can be read, and the next one runs on from it.
-/

namespace ModelGuard.Audit

open Lib Lib.Fallible

variable {F : Type} [FloatText F] {sha : Sha256} {log : Option Bytes} {entries : List (ChainEntry F)} {entry : ChainEntry F}

/-- The last line of the log cannot be read. -/
def Stuck (F : Type) [FloatText F] (log : Option Bytes) : Prop :=
  ∃ text line, decodeUtf8 (log.getD []) = some text ∧ (entryLines text).getLast? = some line ∧
    ∀ e : ChainEntry F, readLine line ≠ .ok e

/-- The log verifies, and something follows its last line break. -/
structure Unclosed (sha : Sha256) (log : Option Bytes) (entries : List (ChainEntry F)) : Prop
    extends Sound sha log entries where
  shown : ∃ text, decodeUtf8 (log.getD []) = some text ∧ isBlank (lastLine text) = false

/-! ### A log that is stuck -/

theorem Stuck.append (stuck : Stuck F log) (sha : Sha256) (record : Record F) : ∃ e, appendEntry sha log record = .error e := by
  obtain ⟨text, line, decoded, last, unreadable⟩ := stuck
  cases appended : appendEntry sha log record with
  | error e => exact ⟨e, rfl⟩
  | ok written =>
    obtain ⟨prev, index, bytes, source, -⟩ := appendEntry_ok.mp appended
    rcases source with ⟨empty, -⟩ | ⟨-, e, read, -⟩
    · rw [empty] at decoded
      cases decoded
      cases last
    · unfold readLastEntry at read
      rw [decoded, orRaise_some_bind, last] at read
      exact (unreadable e read).elim

theorem Stuck.verify (stuck : Stuck F log) : verifyChain (F := F) sha log ≠ .ok () := by
  obtain ⟨text, line, decoded, last, unreadable⟩ := stuck
  intro verified
  obtain ⟨entries, read, -⟩ := verifyChain_ok.mp verified
  rw [readAllEntries_getD] at read
  obtain ⟨text', decoded', lines⟩ := readAllEntries_ok.mp read
  rw [decoded] at decoded'
  cases decoded'
  obtain ⟨before, split⟩ := List.getLast?_eq_some_iff.mp last
  rw [split] at lines
  obtain ⟨_, _, -, single, -⟩ := mapM_ok_append.mp lines
  obtain ⟨e, _, value, -, -⟩ := mapM_ok_cons.mp single
  exact unreadable e value

/-! ### The start of a line -/

theorem dumpsFields_last (fields : List (Str × Json F)) : ∃ start, Json.dumpsFields fields = start ++ [cp '\x7d'] := by
  induction fields with
  | nil => exact ⟨[], rfl⟩
  | cons field rest ih =>
    obtain ⟨start, same⟩ := ih
    refine ⟨cp ',' :: Json.quote field.1 ++ cp ':' :: Json.dumps field.2 ++ start, ?_⟩
    rw [Json.dumpsFields, same]
    simp only [List.append_assoc, List.cons_append]

theorem lineText_last (e : ChainEntry F) : ∃ start, lineText e = start ++ [cp '\x7d'] := by
  obtain ⟨start, same⟩ := dumpsFields_last [(str "prev_hash", e.prevHash), (str "record", e.record), (str "record_hash", e.recordHash)]
  refine ⟨cp '\x7b' :: Json.quote (str "index") ++ cp ':' :: Json.dumps e.index ++ start, ?_⟩
  rw [lineText, Json.dumps, same]
  simp only [List.append_assoc, List.cons_append]

/-- The start of a line has a brace and no line break. -/
structure IsStart (e : ChainEntry F) (s : Str) : Prop where
  part : s <+: lineText e
  nonempty : s ≠ []

theorem IsStart.head {s : Str} (h : IsStart entry s) : ∃ rest, s = cp '\x7b' :: rest := by
  obtain ⟨rest, brace⟩ := lineText_cons entry
  obtain ⟨after, whole⟩ := h.part
  cases s with
  | nil => exact (h.nonempty rfl).elim
  | cons c s =>
    rw [brace] at whole
    exact ⟨s, by rw [(List.cons.inj whole).1]⟩

theorem IsStart.printable {s : Str} (h : IsStart entry s) : Json.Printable s :=
  fun c mem => lineText_printable entry c (h.part.subset mem)

theorem IsStart.noBreak {s : Str} (h : IsStart entry s) : newline ∉ s := printable_not_mem h.printable (by decide)

theorem shown_start {s : Str} (h : IsStart entry s) (line : Str) : isBlank (line ++ s) = false := by
  obtain ⟨rest, brace⟩ := h.head
  have mark : isSpace (cp '\x7b') = false := by decide
  rw [brace, isBlank_append, isBlank, isBlank, List.all_cons, mark, Bool.false_and, Bool.and_false]

theorem universalNewlines_start {s : Str} (h : IsStart entry s) (text : Str) :
    universalNewlines (text ++ s) = universalNewlines text ++ s := by
  obtain ⟨rest, brace⟩ := h.head
  apply universalNewlines_append
  · intro c mem same
    exact printable_not_mem h.printable (by decide) (same ▸ mem)
  · rw [brace, List.head?_cons]
    decide

theorem lastLine_start {s : Str} (h : IsStart entry s) (text : Str) : lastLine (text ++ s) = lastLine text ++ s := by
  have all : ∀ c ∈ s.reverse, decide (c ≠ newline) = true := fun c mem =>
    decide_eq_true fun same => h.noBreak (same ▸ List.mem_reverse.mp mem)
  unfold lastLine openLine List.rtakeWhile
  rw [universalNewlines_start h, List.reverse_append, List.takeWhile_append_of_pos all, List.reverse_append,
    List.reverse_reverse]

/-- The start of a line runs on from what follows the last line break. -/
theorem lines_start {s : Str} (h : IsStart entry s) (text : Str) :
    entryLines (text ++ s) = closedEntryLines text ++ [lastLine text ++ s] := by
  have shown := shown_start h (lastLine text)
  have noBreak' : newline ∉ lastLine text ++ s := by
    rw [List.mem_append, not_or]
    exact ⟨newline_not_mem_openLine _, h.noBreak⟩
  have nonempty : lastLine text ++ s ≠ [] := List.append_ne_nil_of_right_ne_nil _ h.nonempty
  have lines : splitLines (universalNewlines text ++ s) =
      splitLines (closedLines (universalNewlines text)) ++ [lastLine text ++ s] := by
    conv_lhs => rw [← closed_append_open (universalNewlines text), List.append_assoc]
    rw [splitLines_append (closedLines_terminated _)]
    exact congrArg _ (splitLines_open noBreak' nonempty)
  rw [entryLines, textLines, universalNewlines_start h, lines, List.filter_append, List.filter_cons_of_pos (by simpa using shown), List.filter_nil]
  rfl

theorem decode_start {s : Str} (h : IsStart entry s) {content : Bytes} {text : Str} (decoded : decodeUtf8 content = some text) :
    decodeUtf8 (content ++ asciiBytes s) = some (text ++ s) := by
  rw [decodeUtf8_append decoded, decodeUtf8_ascii h.printable.ascii, Option.map_some]

/-! ### Where a line is cut -/

theorem blank_of_skipWs {s : Str} (none : Json.skipWs s = []) : isBlank s = true := by
  refine List.all_eq_true.mpr fun c hc => ?_
  have ws := List.dropWhile_eq_nil_iff.mp none c hc
  simp only [Json.isWs, Bool.or_eq_true, beq_iff_eq] at ws
  rcases ws with ((same | same) | same) | same
  all_goals
    subst same
    decide

/-- A line that is cut before its last brace is no JSON text. -/
theorem cut_unreadable (wf : entry.WF) {s : Str} (h : IsStart entry s) (cut : s ≠ lineText entry) {pad : Str}
    (blank : Json.skipWs pad = []) (e : ChainEntry F) : readLine (pad ++ s) ≠ .ok e := by
  intro read
  obtain ⟨fields, decoded, -⟩ := readLine_ok.mp read
  obtain ⟨_, whole, -⟩ := readLine_ok.mp (readLine_lineText wf blank)
  obtain ⟨rest, split⟩ := h.part
  rw [← split, List.append_assoc, ← List.append_assoc, Json.loads_append decoded fun h => h] at whole
  have tail : Json.skipWs (rest ++ [newline]) = [] := by
    split at whole
    · rename_i none
      exact List.isEmpty_iff.mp none
    · cases whole
  have spaces := List.all_eq_true.mp (blank_of_skipWs tail)
  obtain ⟨start, last⟩ := lineText_last entry
  rcases List.eq_nil_or_concat rest with none | ⟨before, c, same⟩
  · subst none
    exact cut (by rw [← split, List.append_nil])
  · rw [same, List.concat_eq_append] at split spaces
    rw [last, ← List.append_assoc] at split
    have brace : c = cp '\x7d' := List.singleton_inj.mp (List.append_inj' split rfl).2
    have space := spaces c (by simp)
    rw [brace] at space
    revert space
    decide

theorem readLine_unbroken (wf : entry.WF) {pad : Str} (blank : Json.skipWs pad = []) :
    readLine (pad ++ lineText entry) = .ok entry := by
  have read := Json.loads_padded (line_wf wf) blank (t := []) rfl
  rw [List.append_nil] at read
  refine readLine_ok.mpr ⟨_, read, ?_⟩
  simp [Dict.lookup_cons, str_injective.eq_iff]

/-- What runs on from an entry is no JSON text. -/
theorem joined_unreadable {line : Str} {e' : ChainEntry F} (own : readLine line = .ok e') {s : Str} {rest : Str}
    (brace : s = cp '\x7b' :: rest) (e : ChainEntry F) : readLine (line ++ s) ≠ .ok e := by
  intro read
  obtain ⟨_, decoded, -⟩ := readLine_ok.mp read
  obtain ⟨_, object, -⟩ := readLine_ok.mp own
  rw [Json.loads_append object (fun h => h), brace, Json.skipWs_cons (by decide)] at decoded
  cases decoded

theorem stuck_of_last {content : Bytes} {text line : Str} {s : Str} (decoded : decodeUtf8 content = some (text ++ s))
    {before : List Str} (lines : entryLines (text ++ s) = before ++ [line]) (unreadable : ∀ e : ChainEntry F, readLine line ≠ .ok e) :
    Stuck F (some content) :=
  ⟨text ++ s, line, decoded, by rw [lines, List.getLast?_concat], unreadable⟩

/-- A log after the start of a line: whole but for the line break, or stuck. -/
theorem cut_log (h : Appendable sha log entries) (wf : entry.WF) (linked : ∃ q, Linked sha genesisHash (entries ++ [entry]) q)
    {s : Str} (start : IsStart entry s) :
    (s = lineText entry ∧ Unclosed sha (some (log.getD [] ++ asciiBytes s)) (entries ++ [entry])) ∨
      Stuck F (some (log.getD [] ++ asciiBytes s)) := by
  obtain ⟨text, decoded, read⟩ := h.text
  obtain ⟨text', decoded', blank⟩ := h.terminated
  rw [decoded] at decoded'
  cases decoded'
  have lines := lines_start start text
  by_cases cut : s = lineText entry
  · refine .inl ⟨cut, ⟨?_, linked⟩, _, decode_start start decoded, ?_⟩
    · refine readAllEntries_ok.mpr ⟨_, decode_start start decoded, ?_⟩
      rw [entryLines_eq, blank_of_skipWs blank, if_pos rfl, List.append_nil] at read
      rw [lines, cut]
      exact mapM_ok_append.mpr ⟨entries, [entry], read, mapM_ok_cons.mpr ⟨entry, [], readLine_unbroken wf blank, rfl, rfl⟩, rfl⟩
    · rw [lastLine_start start]
      exact shown_start start _
  · exact .inr (stuck_of_last (decode_start start decoded) lines fun e => cut_unreadable wf start cut blank e)

/-- Nothing can be added behind a line that is not closed. -/
theorem Unclosed.stuck (h : Unclosed sha log entries) {s rest : Str} (brace : s = cp '\x7b' :: rest)
    (lines : ∀ text, entryLines (text ++ s) = closedEntryLines text ++ [lastLine text ++ s])
    (ascii : Ascii s) : Stuck F (some (log.getD [] ++ asciiBytes s)) := by
  obtain ⟨text, decoded, read⟩ := h.text
  obtain ⟨text', decoded', shown⟩ := h.shown
  rw [decoded] at decoded'
  cases decoded'
  rw [entryLines_eq, shown] at read
  obtain ⟨_, _, -, last, -⟩ := mapM_ok_append.mp read
  obtain ⟨e', _, value, -, -⟩ := mapM_ok_cons.mp last
  have decoded' : decodeUtf8 (log.getD [] ++ asciiBytes s) = some (text ++ s) := by
    rw [decodeUtf8_append decoded, decodeUtf8_ascii ascii, Option.map_some]
  exact stuck_of_last decoded' (lines text) fun e => joined_unreadable value brace e

/-! ### One append, cut anywhere -/

/-- What the first octets of a line are. -/
theorem take_line (entry : ChainEntry F) (n : Nat) :
    (asciiBytes (lineText entry ++ [newline])).take n = [] ∨
      (asciiBytes (lineText entry ++ [newline])).take n = asciiBytes (lineText entry ++ [newline]) ∨
      ∃ s, (asciiBytes (lineText entry ++ [newline])).take n = asciiBytes s ∧ IsStart entry s := by
  by_cases all : (lineText entry ++ [newline]).length ≤ n
  · exact .inr (.inl (List.take_of_length_le (by rwa [asciiBytes, List.length_map])))
  · have inside : n ≤ (lineText entry).length := by
      rw [List.length_append, List.length_singleton] at all
      omega
    have part : (asciiBytes (lineText entry ++ [newline])).take n = asciiBytes ((lineText entry).take n) := by
      rw [asciiBytes, ← List.map_take, List.take_append_of_le_length inside]
      rfl
    cases n with
    | zero => exact .inl rfl
    | succ n =>
      refine .inr (.inr ⟨_, part, List.take_prefix _ _, ?_⟩)
      obtain ⟨rest, brace⟩ := lineText_cons entry
      rw [brace, List.take_succ_cons]
      exact List.cons_ne_nil _ _

theorem Appendable.congr {log' : Option Bytes} (h : Appendable sha log entries) (same : log'.getD [] = log.getD []) :
    Appendable sha log' entries := by
  refine ⟨⟨?_, h.linked⟩, ?_, ?_⟩
  · have read := h.read
    rw [readAllEntries_getD] at read ⊢
    rwa [same]
  · have closed := h.terminated
    unfold Terminated at closed ⊢
    rwa [same]
  · have counts := h.countable
    unfold Countable at counts ⊢
    rwa [same]

theorem Unclosed.congr {log' : Option Bytes} (h : Unclosed sha log entries) (same : log'.getD [] = log.getD []) :
    Unclosed sha log' entries := by
  refine ⟨⟨?_, h.linked⟩, ?_⟩
  · have read := h.read
    rw [readAllEntries_getD] at read ⊢
    rwa [same]
  · rw [same]
    exact h.shown

/-- How far an append to a log came. -/
inductive Came (sha : Sha256) (entries : List (ChainEntry F)) (entry : ChainEntry F) (log : Option Bytes) : Prop
  | nowhere (unchanged : Appendable sha log entries)
  | whole (added : Appendable sha log (entries ++ [entry]))
  | unclosed (added : Unclosed sha log (entries ++ [entry]))
  | stuck (cut : Stuck F log)

theorem append_cut (h : Appendable sha log entries) (record : Record F) :
    ∃ entry line, appendEntry sha log record = .ok (entry, log.getD [] ++ line) ∧ entry.record = record.json ∧
      Appendable sha (some (log.getD [] ++ line)) (entries ++ [entry]) ∧
      ∀ n, Came sha entries entry (some (log.getD [] ++ line.take n)) := by
  obtain ⟨entry, content, appended, same, after⟩ := append_step h record
  obtain ⟨-, -, -, -, -, -, whole⟩ := appendEntry_ok.mp appended
  subst whole
  have wf : entry.WF := readAllEntries_wf after.read entry (List.mem_append_right _ List.mem_cons_self)
  refine ⟨entry, _, appended, same, after, fun n => ?_⟩
  rcases take_line entry n with none | all | ⟨s, part, start⟩
  · rw [none, List.append_nil]
    exact .nowhere (h.congr rfl)
  · rw [all]
    exact .whole after
  · rw [part]
    rcases cut_log h wf after.linked start with ⟨-, unclosed⟩ | stuck
    · exact .unclosed unclosed
    · exact .stuck stuck

theorem Unclosed.append_cut (h : Unclosed sha log entries) {record : Record F} {content : Bytes}
    (appended : appendEntry sha log record = .ok (entry, content)) :
    ∃ line, content = log.getD [] ++ line ∧ Stuck F (some content) ∧
      ∀ n, line.take n = [] ∨ Stuck F (some (log.getD [] ++ line.take n)) := by
  obtain ⟨-, -, -, -, -, -, whole⟩ := appendEntry_ok.mp appended
  subst whole
  obtain ⟨rest, brace⟩ := lineText_cons entry
  have ascii : Ascii (lineText entry ++ [newline]) := ascii_append.mpr ⟨(lineText_printable entry).ascii, by decide⟩
  have stuck : Stuck F (some (log.getD [] ++ asciiBytes (lineText entry ++ [newline]))) :=
    h.stuck (by rw [brace, List.cons_append]) (fun text => entryLines_add text entry) ascii
  refine ⟨_, rfl, stuck, fun n => ?_⟩
  rcases take_line entry n with none | all | ⟨s, part, start⟩
  · exact .inl none
  · rw [all]
    exact .inr stuck
  · rw [part]
    obtain ⟨rest, brace⟩ := start.head
    exact .inr (h.stuck brace (lines_start start) start.printable.ascii)

end ModelGuard.Audit
