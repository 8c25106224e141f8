import ModelGuard.Registry.LocalRows

/-!
# Registering when writes fail

The record and the digest index are two writes. A failing write leaves its file as it was.
-/

namespace ModelGuard.Registry.LocalStore

open Lib Lib.Fallible

/-- One call of `register`, with the writes of it that fail. -/
structure Attempt where
  record : RegistryRecord
  faults : WriteFaults

variable (env : RegistryEnv)

def Attempt.run (call : Attempt) (store : LocalStore) : Except Raised RegistryRecord × LocalStore :=
  register env store call.faults call.record

/-- The files after some calls, from an empty root. -/
def after (calls : List Attempt) : LocalStore := calls.foldl (fun store call => (call.run env store).2) .empty

theorem after_append (calls : List Attempt) (call : Attempt) :
    after env (calls ++ [call]) = (call.run env (after env calls)).2 := by
  unfold after
  rw [List.foldl_append, List.foldl_cons, List.foldl_nil]

/-! ### All or nothing, and the first registration -/

/-- No query tells the two apart. -/
structure SameAnswers (s t : LocalStore) : Prop where
  get : ∀ modelId version, get env s modelId version = get env t modelId version
  getByDigest : ∀ digest, s.getByDigest env digest = t.getByDigest env digest
  listVersions : ∀ modelId, listVersions env s modelId = listVersions env t modelId

/-- Some call of `get` returns the record. -/
def Retrievable (store : LocalStore) (r : RegistryRecord) : Prop :=
  ∃ modelId version, LocalStore.get env store modelId version = .ok (some r)

/-- A call that raises leaves every answer as it was. -/
def RaisingChangesNothing (calls : List Attempt) : Prop :=
  ∀ before call rest, calls = before ++ call :: rest → (∃ e, (call.run env (after env before)).1 = .error e) →
    SameAnswers env (after env before) (after env (before ++ [call]))

/-- `r` became retrievable in a call before which no record with its digest was. -/
def FirstRetrievable (calls : List Attempt) (r : RegistryRecord) : Prop :=
  ∃ earlier call later, calls = earlier ++ call :: later ∧ Retrievable env (after env (earlier ++ [call])) r ∧
    ∀ other, Retrievable env (after env earlier) other → other.artifactDigest ≠ r.artifactDigest

/-- At every point, a digest of a retrievable record names the first of them. -/
def FirstRegistrationWins (calls : List Attempt) : Prop :=
  ∀ before rest, calls = before ++ rest → ∀ digest,
    (∃ r, Retrievable env (after env before) r ∧ r.artifactDigest = digest) →
      ∃ r, FirstRetrievable env before r ∧ r.artifactDigest = digest ∧
        (after env before).getByDigest env digest = .ok (some r)

/-- The call gets as far as writing the digest index, and that write fails. -/
def Attempt.LosesIndexWrite (call : Attempt) (store : LocalStore) : Prop :=
  ∃ path index e, versionPath env call.record.modelId call.record.version = .ok path ∧
    store.records.lookup path = none ∧ call.faults.record = none ∧ store.readDigestIndex = .ok index ∧
    index.lookup call.record.artifactDigest = none ∧ call.faults.index = some e

variable {env} {rows : List RegistryRecord} {store : LocalStore} {call : Attempt}

/-! ### Answers about registrations -/

theorem Holds.sameAnswers {s t : LocalStore} (hs : Holds env rows s) (ht : Holds env rows t) : SameAnswers env s t where
  get modelId version := by
    by_cases valid : Valid env.nfc modelId ∧ Valid env.nfc version
    · rw [hs.get_valid valid.1 valid.2, ht.get_valid valid.1 valid.2]
    · obtain ⟨message, raised⟩ := versionPath_invalid valid
      unfold LocalStore.get
      rw [raised]
      rfl
  getByDigest digest := by rw [hs.getByDigest, ht.getByDigest]
  listVersions modelId := by
    by_cases valid : Valid env.nfc modelId
    · rw [hs.listVersions_valid valid, ht.listVersions_valid valid]
    · obtain ⟨message, raised⟩ := validateIdentifier_invalid env.host "identifier" valid
      unfold LocalStore.listVersions
      rw [raised]
      rfl

theorem Holds.get_own (h : Holds env rows store) {r : RegistryRecord} (mem : r ∈ rows) :
    LocalStore.get env store r.modelId r.version = .ok (some r) := by
  obtain ⟨valid, valid'⟩ := h.valid r mem
  rw [h.get_valid valid valid', Ledger.find_of_mem h.distinct mem]

theorem Holds.retrievable (h : Holds env rows store) (r : RegistryRecord) : Retrievable env store r ↔ r ∈ rows := by
  constructor
  · intro ⟨modelId, version, got⟩
    by_cases valid : Valid env.nfc modelId ∧ Valid env.nfc version
    · rw [h.get_valid valid.1 valid.2] at got
      exact (Ledger.find_some (Except.ok.inj got)).1
    · obtain ⟨message, raised⟩ := get_invalid store valid
      rw [raised] at got
      cases got
  · intro mem
    exact ⟨_, _, h.get_own mem⟩

/-! ### One call -/

/-- A call either raises and keeps the registrations, or returns and adds its record, or loses its index write. -/
theorem Holds.attempt (h : Holds env rows store) (readsBack : env.codec.ReadsBack call.record)
    (kept : ¬call.LosesIndexWrite env store) :
    Holds env rows (call.run env store).2 ∨
      (call.run env store).1 = .ok call.record ∧ Holds env (rows ++ [call.record]) (call.run env store).2 := by
  unfold Attempt.run
  by_cases valid : Valid env.nfc call.record.modelId ∧ Valid env.nfc call.record.version
  · by_cases fresh : call.record.key ∉ rows.map RegistryRecord.key
    · cases recordWrite : call.faults.record with
      | some e =>
        rw [h.register_fresh valid fresh, recordWrite]
        exact Or.inl (h.makeDir _)
      | none =>
        have indexWrite : call.faults.index = none ∨ ((indexOf rows).lookup call.record.artifactDigest).isSome = true := by
          cases fault : call.faults.index with
          | none => exact Or.inl rfl
          | some e =>
            cases known : (indexOf rows).lookup call.record.artifactDigest with
            | some _ => exact Or.inr rfl
            | none =>
              have lost : call.LosesIndexWrite env store :=
                ⟨_, _, e, versionPath_ok.mpr ⟨valid, rfl⟩, h.lookup_fresh fresh, recordWrite, h.index, known, fault⟩
              exact (kept lost).elim
        obtain ⟨store', made, holds⟩ := h.register_ok valid fresh readsBack recordWrite indexWrite
        rw [made]
        exact Or.inr ⟨rfl, holds⟩
    · rw [h.register_duplicate _ valid (not_not.mp fresh)]
      exact Or.inl h
  · obtain ⟨message, raised⟩ := register_invalid env store call.faults valid
    rw [raised]
    exact Or.inl h

/-- A lost index write raises, with the record in place. -/
theorem Holds.lost (h : Holds env rows store) (lost : call.LosesIndexWrite env store)
    (readsBack : env.codec.ReadsBack call.record) :
    (∃ e, (call.run env store).1 = .error e) ∧
      LocalStore.get env store call.record.modelId call.record.version = .ok none ∧
      LocalStore.get env (call.run env store).2 call.record.modelId call.record.version = .ok (some call.record) := by
  obtain ⟨path, index, e, named, absent, recordWrite, read, unknown, fault⟩ := lost
  obtain ⟨valid, same⟩ := versionPath_ok.mp named
  subst same
  have same : index = indexOf rows := Except.ok.inj (read.symm.trans h.index)
  subst same
  have missing : Ledger.find rows call.record.modelId call.record.version = none := by
    rw [h.lookup, Option.map_eq_none_iff] at absent
    exact absent
  have fresh := Ledger.find_none.mp missing
  have run : call.run env store = (.error e, written env store call.record) := by
    unfold Attempt.run
    rw [h.register_fresh valid fresh, recordWrite, unknown, fault]
    rfl
  refine ⟨⟨e, by rw [run]⟩, by rw [h.get_valid valid.1 valid.2, missing], ?_⟩
  -- Only the record files matter to `get`, so the index of the extended registrations can be pretended.
  have extended : Holds env (rows ++ [call.record])
      ((written env store call.record).writeDigestIndex (indexOf (rows ++ [call.record]))) :=
    h.extend valid fresh readsBack rfl rfl (readDigestIndex_written _ _)
  rw [run]
  exact extended.get_own (by simp)

/-! ### Runs -/

theorem FirstRetrievable.append {calls : List Attempt} {r : RegistryRecord} (h : FirstRetrievable env calls r)
    (call : Attempt) : FirstRetrievable env (calls ++ [call]) r := by
  obtain ⟨earlier, mid, later, split, retrievable, fresh⟩ := h
  exact ⟨earlier, mid, later ++ [call], by rw [split, List.append_assoc, List.cons_append], retrievable, fresh⟩

/-- The registrations after a run without a lost index write, and where each digest was first registered. -/
structure Registered (env : RegistryEnv) (calls : List Attempt) (rows : List RegistryRecord) : Prop where
  holds : Holds env rows (after env calls)
  first : ∀ digest r, Ledger.firstWithDigest rows digest = some r → FirstRetrievable env calls r

theorem Registered.step {calls : List Attempt} (h : Registered env calls rows) (readsBack : env.codec.ReadsBack call.record)
    (kept : ¬call.LosesIndexWrite env (after env calls)) :
    Registered env (calls ++ [call]) rows ∨
      (call.run env (after env calls)).1 = .ok call.record ∧
        Registered env (calls ++ [call]) (rows ++ [call.record]) := by
  have next := h.holds.attempt readsBack kept
  rw [← after_append] at next
  rcases next with holds | ⟨returned, holds⟩
  · exact Or.inl ⟨holds, fun digest r found => (h.first digest r found).append call⟩
  · refine Or.inr ⟨returned, holds, ?_⟩
    intro digest r found
    rw [Ledger.firstWithDigest_append] at found
    cases known : Ledger.firstWithDigest rows digest with
    | some old =>
      rw [known, Option.some_or] at found
      exact Option.some.inj found ▸ (h.first digest old known).append call
    | none =>
      rw [known, Option.none_or] at found
      split at found
      · rename_i own
        have same := Option.some.inj found
        subst same
        refine ⟨calls, call, [], rfl, (holds.retrievable _).mpr (by simp), ?_⟩
        intro other retrievable
        rw [own]
        exact Ledger.firstWithDigest_none.mp known other ((h.holds.retrievable other).mp retrievable)
      · cases found

theorem registered_run {calls : List Attempt} (readsBack : ∀ call ∈ calls, env.codec.ReadsBack call.record)
    (kept : ∀ before call rest, calls = before ++ call :: rest → ¬call.LosesIndexWrite env (after env before)) :
    ∃ rows, Registered env calls rows := by
  induction calls using List.reverseRecOn with
  | nil => exact ⟨[], holds_empty, fun digest r found => by cases found⟩
  | append_singleton calls call ih =>
    obtain ⟨rows, h⟩ := ih (fun c mem => readsBack c (List.mem_append_left _ mem)) fun before c rest split =>
      kept before c (rest ++ [call]) (by rw [split, List.append_assoc, List.cons_append])
    rcases h.step (readsBack call (by simp)) (kept calls call [] rfl) with same | ⟨-, more⟩
    · exact ⟨rows, same⟩
    · exact ⟨rows ++ [call.record], more⟩

/-- Where a run ends in the middle of another: at its last call or before it. -/
theorem split_last_call {calls before rest : List Attempt} {last c : Attempt}
    (split : calls ++ [last] = before ++ c :: rest) :
    (before = calls ∧ c = last) ∨ ∃ rest', calls = before ++ c :: rest' := by
  rcases List.eq_nil_or_concat rest with nil | ⟨rest', d, more⟩
  · subst nil
    obtain ⟨same, single⟩ := List.append_inj' split rfl
    exact Or.inl ⟨same.symm, (List.singleton_inj.mp single).symm⟩
  · subst more
    rw [List.concat_eq_append, ← List.cons_append, ← List.append_assoc] at split
    exact Or.inr ⟨rest', (List.append_inj' split rfl).1⟩

/-- The first lost write shows: its call raises, and `get` finds the record. -/
theorem kept_of_changesNothing {calls : List Attempt} (readsBack : ∀ call ∈ calls, env.codec.ReadsBack call.record)
    (nothing : RaisingChangesNothing env calls) :
    ∀ before call rest, calls = before ++ call :: rest → ¬call.LosesIndexWrite env (after env before) := by
  induction calls using List.reverseRecOn with
  | nil =>
    intro before call rest split
    exact absurd (congrArg List.length split) (by simp)
  | append_singleton calls last ih =>
    have earlier := ih (fun c mem => readsBack c (List.mem_append_left _ mem)) fun before c rest split =>
      nothing before c (rest ++ [last]) (by rw [split, List.append_assoc, List.cons_append])
    obtain ⟨rows, h⟩ := registered_run (fun c mem => readsBack c (List.mem_append_left _ mem)) earlier
    intro before call rest split lost
    rcases split_last_call split with ⟨same, same'⟩ | ⟨rest', inside⟩
    · subst same same'
      obtain ⟨raised, missing, found⟩ := h.holds.lost lost (readsBack call (by simp))
      have unchanged := (nothing before call [] rfl raised).get call.record.modelId call.record.version
      rw [after_append, missing, found] at unchanged
      cases unchanged
    · exact earlier before call rest' inside lost

def noSha : Sha256 := .ofTable [] noEntries_hex

def fullDisk : Raised := .external (str "OSError") (str "[Errno 28] No space left on device")

/-- The disk is full when the digest index is written. -/
def unindexedAttempt : Attempt where
  record := sampleRecord
  faults := { record := none, index := some fullDisk }

theorem unindexedAttempt_loses : unindexedAttempt.LosesIndexWrite (sampleEnv noSha) .empty := by
  have valid : Valid (sampleEnv noSha).nfc (str "m") ∧ Valid (sampleEnv noSha).nfc (str "1") := by decide
  exact ⟨_, [], fullDisk, versionPath_ok.mpr ⟨valid, rfl⟩, rfl, rfl, rfl, rfl, rfl⟩

end ModelGuard.Registry.LocalStore
