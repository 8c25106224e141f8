import ModelGuard.Audit.Chain
import ModelGuard.Lib.HashChain

/-!
# What verification establishes

A log that `verify_chain` accepts is linked: each entry names the hash before it and carries the hash
of its own record, so the hash of the last entry is the head of a hash chain over the records.
-/

namespace ModelGuard.Audit

open Lib Lib.Fallible

variable {F : Type} [FloatText F]

/-- The entries link the hash `p` to the hash `q`. -/
inductive Linked (sha : Sha256) : Str → List (ChainEntry F) → Str → Prop
  | nil (p : Str) : Linked sha p [] p
  | cons {p q : Str} {e : ChainEntry F} {rest : List (ChainEntry F)} :
      e.prevHash = .str p → e.recordHash = .str (recordHash sha e.record (asciiBytes p)) →
      Linked sha (recordHash sha e.record (asciiBytes p)) rest q → Linked sha p (e :: rest) q

theorem recordHash_ascii (sha : Sha256) (record : Json F) (prev : Bytes) : Ascii (recordHash sha record prev) :=
  (sha.hex _).ascii

theorem verifyFrom_ok {sha : Sha256} {p : Str} {es : List (ChainEntry F)} (ascii : Ascii p) :
    verifyFrom sha p es = .ok () ↔ ∃ q, Linked sha p es q := by
  induction es generalizing p with
  | nil => exact ⟨fun _ => ⟨p, .nil p⟩, fun _ => rfl⟩
  | cons e rest ih =>
    simp only [verifyFrom, bind_ok, ensure_ok, isText_iff]
    constructor
    · rintro ⟨_, prev, bytes, encoded, _, hash, verified⟩
      rw [prev, encodeText, orRaise_ok, encodeUtf8_ascii ascii] at encoded
      cases encoded
      obtain ⟨q, linked⟩ := (ih (recordHash_ascii sha e.record _)).mp verified
      exact ⟨q, .cons prev hash linked⟩
    · rintro ⟨q, linked⟩
      cases linked with
      | cons prev hash linked =>
        refine ⟨(), prev, asciiBytes p, ?_, (), hash, (ih (recordHash_ascii sha e.record _)).mpr ⟨q, linked⟩⟩
        rw [prev, encodeText, orRaise_ok, encodeUtf8_ascii ascii]

theorem Linked.append {sha : Sha256} {p m q : Str} {es fs : List (ChainEntry F)} (h : Linked sha p es m)
    (tail : Linked sha m fs q) : Linked sha p (es ++ fs) q := by
  induction h with
  | nil => exact tail
  | cons prev hash _ ih => exact .cons prev hash (ih tail)

theorem Linked.ascii {sha : Sha256} {p q : Str} {es : List (ChainEntry F)} (h : Linked sha p es q)
    (start : Ascii p) : Ascii q := by
  induction h with
  | nil => exact start
  | cons _ _ _ ih => exact ih (recordHash_ascii sha _ _)

/-- The hash a chain ends in is the one its last entry carries. -/
theorem Linked.last {sha : Sha256} {p q : Str} {es : List (ChainEntry F)} (h : Linked sha p es q) :
    (es = [] ∧ q = p) ∨ ∃ before e, es = before ++ [e] ∧ e.recordHash = .str q := by
  induction h with
  | nil => exact Or.inl ⟨rfl, rfl⟩
  | cons prev hash linked ih =>
    rcases ih with ⟨rfl, rfl⟩ | ⟨before, e, rfl, last⟩
    · exact Or.inr ⟨[], _, rfl, hash⟩
    · exact Or.inr ⟨_ :: before, e, rfl, last⟩

/-- The digest of a record after a hash, as a link of the chain. -/
def link (sha : Sha256) (record : Json F) (prev : Bytes) : Bytes := asciiBytes (recordHash sha record prev)

/-- The last hash is the head of the hash chain over the records. -/
theorem Linked.head {sha : Sha256} {p q : Str} {es : List (ChainEntry F)} (h : Linked sha p es q) :
    asciiBytes q = HashChain.head (link sha) (asciiBytes p) (es.map (·.record)) := by
  induction h with
  | nil => rfl
  | cons _ _ _ ih => exact ih

theorem verifyChain_ok {sha : Sha256} {log : Option Bytes} :
    verifyChain (F := F) sha log = .ok () ↔
      ∃ entries, readAllEntries (F := F) log = .ok entries ∧ ∃ q, Linked sha genesisHash entries q := by
  simp only [verifyChain, bind_ok, verifyFrom_ok ascii_genesisHash]

theorem readAllEntries_ok {content : Bytes} {entries : List (ChainEntry F)} :
    readAllEntries (some content) = .ok entries ↔
      ∃ text, decodeUtf8 content = some text ∧ (entryLines text).mapM readLine = .ok entries := by
  simp only [readAllEntries, bind_ok, orRaise_ok]

/-- A log without a file reads as an empty one. -/
theorem readAllEntries_getD (log : Option Bytes) :
    readAllEntries (F := F) log = readAllEntries (some (log.getD [])) := by
  cases log <;> rfl

/-! ### Entries read from a file are well formed -/

theorem universalFrom_scalars {q : Bool} {s : Str} (h : Scalars s) : Scalars (universalFrom q s) := by
  induction s generalizing q with
  | nil => exact scalars_nil
  | cons c s ih =>
    obtain ⟨head, tail⟩ := scalars_cons.mp h
    rw [universalFrom]
    split
    · exact scalars_cons.mpr ⟨by decide, ih tail⟩
    · split
      · exact ih tail
      · exact scalars_cons.mpr ⟨head, ih tail⟩

theorem splitLines_scalars {s line : Str} (h : Scalars s) (mem : line ∈ splitLines s) : Scalars line := by
  induction s generalizing line with
  | nil => cases mem
  | cons c s ih =>
    obtain ⟨head, tail⟩ := scalars_cons.mp h
    have single : Scalars [c] := scalars_cons.mpr ⟨head, scalars_nil⟩
    rw [splitLines] at mem
    split at mem
    · rcases List.mem_cons.mp mem with rfl | mem
      · exact single
      · exact ih tail mem
    · split at mem
      · rw [List.mem_singleton] at mem
        exact mem ▸ single
      · rename_i first lines split
        rcases List.mem_cons.mp mem with rfl | mem
        · exact scalars_cons.mpr ⟨head, ih tail (split ▸ List.mem_cons_self)⟩
        · exact ih tail (split ▸ List.mem_cons_of_mem _ mem)

theorem entryLines_scalars {text line : Str} (h : Scalars text) (mem : line ∈ entryLines text) : Scalars line :=
  splitLines_scalars (universalFrom_scalars h) (List.mem_of_mem_filter mem)

omit [FloatText F] in
theorem lookup_wf {fields : List (Str × Json F)} {key : Str} {v : Json F} (wf : Json.WF (.obj fields))
    (h : fields.lookup key = some v) : v.WF := by
  cases wf with
  | obj _ _ values =>
    obtain ⟨before, after, split, -⟩ := List.lookup_eq_some_iff.mp h
    exact values (key, v) (split ▸ by simp)

theorem readLine_wf {line : Str} {e : ChainEntry F} (text : Scalars line) (h : readLine line = .ok e) : e.WF := by
  obtain ⟨fields, decoded, index, record, hash, prev⟩ := readLine_ok.mp h
  have wf := Json.loads_wf text decoded
  exact ⟨lookup_wf wf index, lookup_wf wf record, lookup_wf wf hash, lookup_wf wf prev⟩

theorem readAllEntries_wf {log : Option Bytes} {entries : List (ChainEntry F)}
    (h : readAllEntries log = .ok entries) : ∀ e ∈ entries, e.WF := by
  rw [readAllEntries_getD] at h
  obtain ⟨text, decoded, read⟩ := readAllEntries_ok.mp h
  intro e he
  obtain ⟨line, mem, value⟩ := mapM_ok_mem read e he
  exact readLine_wf (entryLines_scalars (decodeUtf8_scalars decoded) mem) value

end ModelGuard.Audit
