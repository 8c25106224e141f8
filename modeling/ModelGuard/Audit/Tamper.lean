import ModelGuard.Audit.Intact

/-!
# Tamper evidence

Without hash collisions the last `record_hash` of a log that verifies determines every record in it.
-/

namespace ModelGuard.Audit

open Lib Lib.Fallible

variable {F : Type} [FloatText F]

/-! ### The hashed bytes -/

/-- Only the text of an object starts with a brace. -/
theorem notNumber_of_brace {v : Json F} {s t : Str} (h : Json.dumps v ++ s = cp '\x7b' :: t) : ¬Json.IsNumber v := by
  intro number
  have lexed {l : NumberLexeme} {text r : Str} (value : Json.dumps v = text)
      (lex : Json.lexNumber text = some (l, r)) : False := by
    obtain ⟨c, rest, same, start, -⟩ := Json.lexNumber_head lex
    rw [value, same] at h
    cases h
    revert start
    decide
  have word (ch : Char) {rest : Str} (value : Json.dumps v = cp ch :: rest) (other : ch ≠ '\x7b') : False := by
    rw [value] at h
    exact other (cp_inj.mp (List.cons.inj h).1)
  cases v with
  | int n =>
    have lex := Json.lexNumber_intText n (Json.stopsAt_nil Json.inNumber)
    exact lexed (by rw [Json.dumps, List.append_nil]) lex
  | float x =>
    rcases Json.repr_cases x with ⟨-, text⟩ | ⟨-, text⟩ | ⟨-, text⟩ | ⟨lex, -⟩
    · exact word 'N' (by rw [Json.dumps, text]; rfl) (by decide)
    · exact word 'I' (by rw [Json.dumps, text]; rfl) (by decide)
    · exact word '-' (by rw [Json.dumps, text]; rfl) (by decide)
    · exact lexed (by rw [Json.dumps]) lex
  | _ => exact number

/-- The hashed bytes tell the record and the hash before it apart when one of the records is an object. -/
theorem recordBytes_append_inj {record : Record F} {v : Json F} (wf : v.WF) {a b : Bytes}
    (h : recordBytes record.json ++ a = recordBytes v ++ b) : record.json = v ∧ a = b := by
  have text : Json.dumps record.json ++ latin1 a = Json.dumps v ++ latin1 b := by
    have := congrArg latin1 h
    rwa [latin1_append, latin1_append, recordBytes, recordBytes, latin1_asciiBytes (Json.dumps_printable _).ascii,
      latin1_asciiBytes (Json.dumps_printable _).ascii] at this
  have brace : ∃ rest, Json.dumps record.json = cp '\x7b' :: rest := by
    obtain ⟨fields, wf⟩ := record
    cases fields with
    | nil => exact ⟨_, by rw [Record.json, Json.dumps]; rfl⟩
    | cons e fields => exact ⟨_, by rw [Record.json, Json.dumps]; rfl⟩
  obtain ⟨rest, head⟩ := brace
  have notNumber : ¬Json.IsNumber v := notNumber_of_brace (by rw [← text, head, List.cons_append])
  obtain ⟨same, tails⟩ := Json.dumps_append_inj record.wf wf (fun h => h) notNumber text
  exact ⟨same, latin1_injective tails⟩

theorem link_apart {sha : Sha256} (injective : Function.Injective sha.hexdigest) {record : Record F} {v : Json F}
    (wf : v.WF) {a b : Bytes} (h : link sha record.json a = link sha v b) : record.json = v ∧ a = b :=
  recordBytes_append_inj wf (injective (asciiBytes_injOn (recordHash_ascii sha _ _) (recordHash_ascii sha _ _) h))

/-- Two logs that verify and end in the same hash hold the same records, if those of one are objects. -/
theorem records_unique {sha : Sha256} (injective : Function.Injective sha.hexdigest)
    (fresh : ∀ data, sha.hexdigest data ≠ genesisHash) {records : List (Record F)} {es es' : List (ChainEntry F)}
    {q : Str} (objects : es.map (·.record) = records.map Record.json) (wf : ∀ e ∈ es', e.WF)
    (linked : Linked sha genesisHash es q) (linked' : Linked sha genesisHash es' q) :
    es'.map (·.record) = records.map Record.json := by
  rw [← objects]
  refine (HashChain.records_unique ?_ (fun r h same => ?_) (linked.head.symm.trans linked'.head)).symm
  · intro r hr v hv a b same
    rw [objects] at hr
    obtain ⟨record, -, rfl⟩ := List.mem_map.mp hr
    obtain ⟨e, he, rfl⟩ := List.mem_map.mp hv
    exact link_apart injective (wf e he).record same
  · exact fresh _ (asciiBytes_injOn (recordHash_ascii sha r h) ascii_genesisHash same)

/-- The last hash of entries that are linked, read off the last entry. -/
theorem linked_last_eq {sha : Sha256} {es es' : List (ChainEntry F)} {q q' : Str} (ne : es ≠ [])
    (linked : Linked sha genesisHash es q) (linked' : Linked sha genesisHash es' q')
    (last : es'.getLast?.map (·.recordHash) = es.getLast?.map (·.recordHash)) : q' = q := by
  rcases linked.last with ⟨nil, -⟩ | ⟨before, e, rfl, hash⟩
  · exact (ne nil).elim
  rcases linked'.last with ⟨rfl, -⟩ | ⟨before', e', rfl, hash'⟩
  · simp at last
  · rw [List.getLast?_concat, List.getLast?_concat, Option.map_some, Option.map_some, hash, hash'] at last
    exact Json.str.inj (Option.some.inj last)

end ModelGuard.Audit
