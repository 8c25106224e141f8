import ModelGuard.Hashing.Sha256
import ModelGuard.Lib.Fallible
import ModelGuard.Lib.JsonScan

/-!
# The append-only log

A JSON Lines file in which each line holds a record and the hash that links it to the line before.
A log file is its octets, or `none` where there is no file. Every read decodes the whole file first.
-/

namespace ModelGuard.Audit

open Lib Lib.Fallible

variable {F : Type} [FloatText F]

/-- `_GENESIS_HASH`. -/
def genesisHash : Str := List.replicate 64 (cp '0')

/-- One record in the chain, as read back from disk: nothing has checked the four values yet. -/
structure ChainEntry (F : Type) where
  index : Json F
  record : Json F
  recordHash : Json F
  prevHash : Json F

inductive ChainError (F : Type) where
  | integrity (index : Json F) (reason : String)
  /-- Text that is not UTF-8 or not JSON, or a string that has no UTF-8 form. -/
  | valueError
  | keyError
  | typeError
  | attributeError

/-- A string-keyed JSON object. -/
structure Record (F : Type) where
  fields : List (Str × Json F)
  wf : Json.WF (.obj fields)

def Record.json (r : Record F) : Json F := .obj r.fields

/-- `v == s` for a string `s`. -/
def isText (s : Str) : Json F → Bool
  | .str t => t == s
  | _ => false

/-- `data[key]`. -/
def getItem (key : Str) : Json F → Except (ChainError F) (Json F)
  | .obj fields => orRaise .keyError (fields.lookup key)
  | _ => .error .typeError

/-- `index + 1`. -/
def plusOne : Json F → Except (ChainError F) (Json F)
  | .int n => .ok (.int (n + 1))
  | .bool b => .ok (.int (if b then 2 else 1))
  | .float x => .ok (.float (FloatText.succ x))
  | _ => .error .typeError

/-- `prev_hash.encode("utf-8")`. -/
def encodeText : Json F → Except (ChainError F) Bytes
  | .str s => orRaise .valueError (encodeUtf8 s)
  | _ => .error .attributeError

/-- `_record_bytes`: the text is ASCII, so `.encode` cannot fail. -/
def recordBytes (record : Json F) : Bytes := asciiBytes record.dumps

def recordHash (sha : Sha256) (record : Json F) (prev : Bytes) : Str := sha.hexdigest (recordBytes record ++ prev)

def readLine (line : Str) : Except (ChainError F) (ChainEntry F) := do
  let data ← orRaise .valueError (Json.loads line)
  return { index := ← getItem (str "index") data
           record := ← getItem (str "record") data
           recordHash := ← getItem (str "record_hash") data
           prevHash := ← getItem (str "prev_hash") data }

/-- The lines with something on them. -/
def entryLines (text : Str) : List Str := (textLines text).filter fun line => !isBlank line

def readLastEntry (content : Bytes) : Except (ChainError F) (ChainEntry F) := do
  let text ← orRaise .valueError (decodeUtf8 content)
  match (entryLines text).getLast? with
  | none => throw (.integrity (.int 0) "log file exists but contains no entries")
  | some line => readLine line

def readAllEntries : Option Bytes → Except (ChainError F) (List (ChainEntry F))
  | none => .ok []
  | some content => do
    let text ← orRaise .valueError (decodeUtf8 content)
    (entryLines text).mapM readLine

/-- The loop of `verify_chain`, from the hash the next entry must name. -/
def verifyFrom (sha : Sha256) : Str → List (ChainEntry F) → Except (ChainError F) Unit
  | _, [] => .ok ()
  | expectedPrev, entry :: rest => do
    ensure (isText expectedPrev entry.prevHash = true)
      (.integrity entry.index "prev_hash does not match the preceding entry's record_hash")
    let recomputed := recordHash sha entry.record (← encodeText entry.prevHash)
    ensure (isText recomputed entry.recordHash = true)
      (.integrity entry.index "record_hash does not match record contents")
    verifyFrom sha recomputed rest

def verifyChain (sha : Sha256) (log : Option Bytes) : Except (ChainError F) Unit := do
  verifyFrom sha genesisHash (← readAllEntries log)

/-- The line written for an entry, without its line break. -/
def lineText (e : ChainEntry F) : Str :=
  Json.dumps (.obj [(str "index", e.index), (str "prev_hash", e.prevHash), (str "record", e.record),
    (str "record_hash", e.recordHash)])

/-- The entry and the new content of the file; an error leaves the file as it was. -/
def appendEntry (sha : Sha256) (log : Option Bytes) (record : Record F) :
    Except (ChainError F) (ChainEntry F × Bytes) := do
  let content := log.getD []
  let (prev, index) ←
    if content.isEmpty then pure (.str genesisHash, .int 0)
    else do
      let last ← readLastEntry content
      pure (last.recordHash, ← plusOne last.index)
  let hash := recordHash sha record.json (← encodeText prev)
  let entry : ChainEntry F := { index, record := record.json, recordHash := .str hash, prevHash := prev }
  return (entry, content ++ asciiBytes (lineText entry ++ [newline]))

/-- One `append_entry` after another, starting from `log`. -/
def appendAll (sha : Sha256) : Option Bytes → List (Record F) → Except (ChainError F) (Option Bytes)
  | log, [] => .ok log
  | log, record :: rest => do
    let (_, content) ← appendEntry sha log record
    appendAll sha (some content) rest

/-! ### Lines -/

omit [FloatText F] in
theorem isText_iff {s : Str} {v : Json F} : isText s v = true ↔ v = .str s := by
  cases v <;> simp [isText]

theorem ascii_genesisHash : Ascii genesisHash := by decide

theorem splitLines_closed_open (text : Str) :
    splitLines text = splitLines (closedLines text) ++ splitLines (openLine text) := by
  conv_lhs => rw [← closed_append_open text]
  exact splitLines_append (closedLines_terminated text)

theorem isBlank_append {s t : Str} : isBlank (s ++ t) = (isBlank s && isBlank t) := List.all_append

/-- The last line of a file counts when there is something on it. -/
theorem entryLines_open (text : Str) :
    ((splitLines (openLine text)).filter fun line => !isBlank line) =
      if isBlank (openLine text) then [] else [openLine text] := by
  by_cases empty : openLine text = []
  · rw [empty]
    rfl
  · rw [splitLines_open (newline_not_mem_openLine text) empty]
    by_cases blank : isBlank (openLine text) = true <;> simp [blank]

/-- A line added at the end runs on from the text after the last line break. -/
theorem splitLines_add {text line : Str} (noBreak : newline ∉ line) :
    splitLines (text ++ (line ++ [newline])) =
      splitLines (closedLines text) ++ [openLine text ++ (line ++ [newline])] := by
  conv_lhs => rw [← closed_append_open text, List.append_assoc]
  rw [splitLines_append (closedLines_terminated text)]
  rw [splitLines_open_append (newline_not_mem_openLine text) (splitLines_terminated noBreak)]

theorem lineText_cons (e : ChainEntry F) : ∃ rest, lineText e = cp '\x7b' :: rest :=
  ⟨_, by rw [lineText, Json.dumps]; rfl⟩

theorem lineText_printable (e : ChainEntry F) : Json.Printable (lineText e) := Json.dumps_printable _

theorem printable_not_mem {s : Str} {c : CodePoint} (h : Json.Printable s) (other : Json.isPrintable c = false) :
    c ∉ s := fun hc => by
  rw [h c hc] at other
  cases other

/-- Line breaks of the old text are read the same with a new line after it. -/
theorem universalNewlines_add (text : Str) (e : ChainEntry F) :
    universalNewlines (text ++ (lineText e ++ [newline])) =
      universalNewlines text ++ (lineText e ++ [newline]) := by
  apply universalNewlines_append
  · intro c hc
    rcases List.mem_append.mp hc with hc | hc
    · rintro rfl
      exact printable_not_mem (lineText_printable e) (by decide) hc
    · rintro rfl
      revert hc
      decide
  · obtain ⟨rest, head⟩ := lineText_cons e
    rw [head, List.cons_append, List.head?_cons]
    decide

/-- The lines of a log before the text after its last line break, and that text. -/
def closedEntryLines (text : Str) : List Str :=
  (splitLines (closedLines (universalNewlines text))).filter fun line => !isBlank line

def lastLine (text : Str) : Str := openLine (universalNewlines text)

theorem entryLines_eq (text : Str) :
    entryLines text = closedEntryLines text ++ if isBlank (lastLine text) then [] else [lastLine text] := by
  rw [entryLines, textLines, splitLines_closed_open, List.filter_append, entryLines_open]
  rfl

theorem entryLines_add (text : Str) (e : ChainEntry F) :
    entryLines (text ++ (lineText e ++ [newline])) =
      closedEntryLines text ++ [lastLine text ++ (lineText e ++ [newline])] := by
  have noBreak : newline ∉ lineText e := printable_not_mem (lineText_printable e) (by decide)
  have shown : isBlank (lastLine text ++ (lineText e ++ [newline])) = false := by
    obtain ⟨rest, head⟩ := lineText_cons e
    have brace : isSpace (cp '\x7b') = false := by decide
    rw [head, isBlank_append, List.cons_append, isBlank, isBlank, List.all_cons, brace, Bool.false_and, Bool.and_false]
  rw [entryLines, textLines, universalNewlines_add, splitLines_add noBreak, List.filter_append]
  rw [List.filter_cons_of_pos (by simpa [lastLine] using shown), List.filter_nil]
  rfl

/-! ### One line and its entry -/

/-- Every value of the entry is one that decoding yields. -/
structure ChainEntry.WF (e : ChainEntry F) : Prop where
  index : e.index.WF
  record : e.record.WF
  recordHash : e.recordHash.WF
  prevHash : e.prevHash.WF

omit [FloatText F] in
theorem line_wf {e : ChainEntry F} (wf : e.WF) :
    Json.WF (.obj [(str "index", e.index), (str "prev_hash", e.prevHash), (str "record", e.record),
      (str "record_hash", e.recordHash)]) := by
  refine .obj ?_ ?_ ?_
  · simp only [Dict.Sorted, List.pairwise_cons, List.mem_cons, List.not_mem_nil, or_false, false_implies, implies_true,
      List.Pairwise.nil, and_true, forall_eq_or_imp, forall_eq]
    decide
  · simp only [List.mem_cons, List.not_mem_nil, or_false, forall_eq_or_imp, forall_eq]
    refine ⟨?_, ?_, ?_, ?_⟩ <;> exact Json.joined_of_scalars (Json.Printable.scalars (by decide))
  · simp only [List.mem_cons, List.not_mem_nil, or_false, forall_eq_or_imp, forall_eq]
    exact ⟨wf.index, wf.prevHash, wf.record, wf.recordHash⟩

theorem readLine_ok {line : Str} {e : ChainEntry F} :
    readLine line = .ok e ↔ ∃ fields, Json.loads line = some (.obj fields) ∧
      fields.lookup (str "index") = some e.index ∧ fields.lookup (str "record") = some e.record ∧
      fields.lookup (str "record_hash") = some e.recordHash ∧ fields.lookup (str "prev_hash") = some e.prevHash := by
  simp only [readLine, bind_ok, orRaise_ok, pure_ok]
  constructor
  · rintro ⟨data, decoded, index, h₁, record, h₂, hash, h₃, prev, h₄, rfl⟩
    cases data with
    | obj fields =>
      exact ⟨fields, decoded, orRaise_ok.mp h₁, orRaise_ok.mp h₂, orRaise_ok.mp h₃, orRaise_ok.mp h₄⟩
    | _ => cases h₁
  · rintro ⟨fields, decoded, h₁, h₂, h₃, h₄⟩
    exact ⟨_, decoded, _, orRaise_ok.mpr h₁, _, orRaise_ok.mpr h₂, _, orRaise_ok.mpr h₃, _, orRaise_ok.mpr h₄, rfl⟩

/-- A line reads back as its entry, also behind white space. -/
theorem readLine_lineText {e : ChainEntry F} (wf : e.WF) {pad : Str} (blank : Json.skipWs pad = []) :
    readLine (pad ++ (lineText e ++ [newline])) = .ok e := by
  refine readLine_ok.mpr ⟨_, Json.loads_padded (line_wf wf) blank (by decide), ?_⟩
  simp [Dict.lookup_cons, str_injective.eq_iff]

end ModelGuard.Audit
