import ModelGuard.Audit.Append

/-!
# When an append keeps the log intact

Verification and appending do not read the end of a file alike. A blank file verifies and is refused;
a last line without a break verifies and runs into the line that is added.
-/

namespace ModelGuard.Audit

open Lib Lib.Fallible

variable {F : Type} [FloatText F]

/-! ### What an append needs -/

theorem countable_of_append {sha : Sha256} {log : Option Bytes} {entries : List (ChainEntry F)}
    (sound : Sound sha log entries) {record : Record F} {entry : ChainEntry F} {content : Bytes}
    (h : appendEntry sha log record = .ok (entry, content)) : Countable log entries := by
  obtain ⟨prev, index, bytes, source, -⟩ := appendEntry_ok.mp h
  rcases source with ⟨empty, -⟩ | ⟨-, last, readLast, -, plus⟩
  · exact Or.inl empty
  · obtain ⟨text, decoded, read⟩ := sound.text
    refine Or.inr ?_
    rcases List.eq_nil_or_concat entries with rfl | ⟨before, last', rfl⟩
    · rw [readLastEntry_none decoded read] at readLast
      cases readLast
    · rw [List.concat_eq_append] at read ⊢
      rw [readLastEntry_ok decoded read] at readLast
      cases readLast
      exact ⟨before, _, index, rfl, plus⟩

theorem startsValue_notSpace {c : CodePoint} (h : Json.startsValue c = true) : isSpace c = false := by
  simp only [Json.startsValue, Bool.or_eq_true, List.contains_eq_mem, decide_eq_true_eq] at h
  rcases h with number | mark
  · rcases Json.startsNumber_cases number with rfl | digit
    · decide
    · simp only [isSpace, Bool.or_eq_false_iff, Bool.and_eq_false_iff, decide_eq_false_iff_not, beq_eq_false_iff_ne]
      omega
  · have marks : (str "\"[\x7bntfNI").all (fun c => !isSpace c) = true := by decide
    simpa using List.all_eq_true.mp marks c mark

/-- A line that runs on from text after the last line break is no JSON object. -/
theorem joined_line_unreadable {text : Str} {entries : List (ChainEntry F)}
    (read : (entryLines text).mapM readLine = .ok entries) (shown : Json.skipWs (lastLine text) ≠ [])
    (entry e : ChainEntry F) : readLine (lastLine text ++ (lineText entry ++ [newline])) ≠ .ok e := by
  intro h
  obtain ⟨fields, decoded, -⟩ := readLine_ok.mp h
  by_cases blank : isBlank (lastLine text) = true
  · -- White space that is not JSON's: no value starts with it.
    obtain ⟨c, rest, head, start⟩ := Json.loads_head decoded
    rw [Json.skipWs_append _ shown] at head
    cases after : Json.skipWs (lastLine text) with
    | nil => exact shown after
    | cons d more =>
      rw [after] at head
      cases head
      have mem : c ∈ lastLine text := (List.dropWhile_sublist _).subset (after ▸ List.mem_cons_self)
      have space := List.all_eq_true.mp blank c mem
      rw [startsValue_notSpace start] at space
      cases space
  · -- The unterminated line is itself an object, and nothing may follow an object.
    rw [entryLines_eq, if_neg blank] at read
    obtain ⟨_, _, -, last, -⟩ := mapM_ok_append.mp read
    obtain ⟨e', _, value, -, -⟩ := mapM_ok_cons.mp last
    obtain ⟨fields', object, -⟩ := readLine_ok.mp value
    obtain ⟨rest, brace⟩ := lineText_cons entry
    rw [Json.loads_append object (fun h => h), brace, List.cons_append, Json.skipWs_cons (by decide)] at decoded
    cases decoded

theorem terminated_of_read {log : Option Bytes} {text : Str} {entries entries' : List (ChainEntry F)}
    {entry : ChainEntry F} (decoded : decodeUtf8 (log.getD []) = some text)
    (read : (entryLines text).mapM readLine = .ok entries)
    (after : readAllEntries (some (log.getD [] ++ asciiBytes (lineText entry ++ [newline]))) = .ok entries') :
    Terminated log := by
  refine ⟨text, decoded, ?_⟩
  by_contra shown
  obtain ⟨text', decoded', read'⟩ := readAllEntries_ok.mp after
  rw [decode_appended decoded entry] at decoded'
  cases decoded'
  rw [entryLines_add] at read'
  obtain ⟨_, _, -, last, -⟩ := mapM_ok_append.mp read'
  obtain ⟨e, _, value, -, -⟩ := mapM_ok_cons.mp last
  exact joined_line_unreadable read shown entry e value

/-- Exactly which verified logs an append keeps verified, with the new entry behind the old ones. -/
theorem append_keeps_sound_iff {sha : Sha256} {log : Option Bytes} {entries : List (ChainEntry F)}
    (sound : Sound sha log entries) (record : Record F) :
    (∃ entry content, appendEntry sha log record = .ok (entry, content) ∧ entry.record = record.json ∧
      Sound sha (some content) (entries ++ [entry])) ↔ Terminated log ∧ Countable log entries := by
  constructor
  · rintro ⟨entry, content, appended, -, after⟩
    obtain ⟨text, decoded, read⟩ := sound.text
    obtain ⟨-, -, -, -, -, -, rfl⟩ := appendEntry_ok.mp appended
    exact ⟨terminated_of_read decoded read after.read, countable_of_append sound appended⟩
  · rintro ⟨terminated, countable⟩
    obtain ⟨entry, content, appended, same, after⟩ := append_step ⟨sound, terminated, countable⟩ record
    exact ⟨entry, content, appended, same, after.toSound⟩

/-- A log file that holds no entry is refused, although it verifies. -/
theorem append_refuses_no_entries {sha : Sha256} {log : Option Bytes} (sound : Sound (F := F) sha log [])
    (shown : log.getD [] ≠ []) (record : Record F) :
    appendEntry sha log record = .error (.integrity (.int 0) "log file exists but contains no entries") := by
  obtain ⟨text, decoded, read⟩ := sound.text
  have some : (log.getD []).isEmpty = false := by simpa using shown
  simp only [appendEntry, some, Bool.false_eq_true, if_false, readLastEntry_none decoded read]
  rfl

/-! ### The guarantee -/

/-- SHA-256 of the empty object linked to the genesis hash. -/
def firstLinkSha : Sha256 := .ofTable
  [(asciiBytes (str "\x7b\x7d" ++ genesisHash), str "cb3911e88a0028045bf6361631bcdf823b25abc0df9c2939b0205cabf890ef72")]
  (by simp only [List.mem_singleton, forall_eq]; decide)

def emptyRecord (F : Type) : Record F := ⟨[], .obj List.Pairwise.nil (by simp) (by simp)⟩

end ModelGuard.Audit
