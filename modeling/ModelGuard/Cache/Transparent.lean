import ModelGuard.Cache.Meetings

/-!
# When the caching hasher is transparent

A call returns and raises as `hash_artifact` does, but for the exceptions that nothing turns into a miss
and for the hits that hide one.
-/

namespace ModelGuard.Cache

open Lib Lib.Fallible Lib.Node ModelGuard.Hashing ModelGuard.Sdk

variable {α : Type}

/-! ### The cache file -/

def Answers (m : Machine α) (self : CachedHasher) (key : Str) (kind : ArtifactType) (stats : List StatModel) : Prop :=
  ∃ entry, (self.load m).entries.lookup key = some entry ∧ entry.stats = stats ∧
    storedIsConsistent entry kind stats = true

/-- The new entry is not among the oldest that are let go. -/
def Survives (m : Machine α) (self : CachedHasher) (key : Str) : Prop :=
  key ∈ (Entries.evict id maxEntries
    (Entries.set key m.recordedAtNs ((self.load m).entries.map fun e => (e.1, e.2.recordedAtNs)))).map (·.1)

theorem load_valid {m : Machine α} (self : CachedHasher) : ∀ s ∈ entryTexts (self.load m).entries, Scalars s := by
  unfold CachedHasher.load
  dsimp only
  split
  · simp [entryTexts]
  · iterate 4
      split
      · simp [entryTexts]
    split
    · simp [entryTexts]
    · rename_i file parsed
      obtain ⟨raw, -, valid⟩ := Option.bind_eq_some_iff.mp parsed
      split
      · simp [entryTexts]
      · exact m.py.loaded raw file valid

theorem cached_answers {m : Machine α} {self : CachedHasher} {path : ArtifactPath α} {key : Str}
    {stats : List StatModel} (h : CacheableAs m path stats) :
    (∃ d, self.cached m key (kindAt path) stats = some d) ↔ Answers m self key (kindAt path) stats := by
  have derives {entry : StoredEntry} (consistent : storedIsConsistent entry (kindAt path) stats = true) :
      ∃ d, artifactDigestFromFiles m.sha (kindAt path) entry.files = .ok d := by
    have sizes := (Bool.and_eq_true _ _ ▸ consistent).2
    have lengths := congrArg List.length (of_decide_eq_true sizes)
    rw [List.length_map, List.length_map] at lengths
    unfold kindAt
    cases h with
    | file target =>
      rw [target]
      obtain ⟨f, only⟩ := List.length_eq_one_iff.mp lengths
      rw [only]
      exact ⟨_, rfl⟩
    | directory target nonempty met =>
      rw [target]
      exact ⟨_, rfl⟩
  unfold CachedHasher.cached Answers
  cases (self.load m).entries.lookup key with
  | none => simp
  | some entry =>
    simp only [Option.some.injEq, exists_eq_left']
    constructor
    · rintro ⟨d, hit⟩
      split at hit
      · assumption
      · cases hit
    · intro both
      rw [if_pos both]
      obtain ⟨d, derived⟩ := derives both.2
      exact ⟨d, by rw [derived]; rfl⟩

theorem mem_entryTexts {entries : List (Str × StoredEntry)} {s : Str} :
    s ∈ entryTexts entries ↔ ∃ e ∈ entries, s = e.1 ∨ s ∈ e.2.texts := by
  unfold entryTexts
  rw [List.mem_flatMap]
  simp only [List.mem_cons]

theorem kindText_valid (kind : ArtifactType) : Scalars (kindText kind) := by
  cases kind <;> exact Json.Printable.scalars (by decide)

theorem survives_iff {m : Machine α} {self : CachedHasher} {key : Str} {entry : StoredEntry}
    (recorded : entry.recordedAtNs = m.recordedAtNs) :
    Survives m self key ↔ (key, entry) ∈ self.entriesWith m key entry := by
  unfold CachedHasher.entriesWith Survives
  rw [Entries.mem_evict_iff (Entries.mem_set_self key entry _), ← recorded,
    ← Entries.map_set (fun e : StoredEntry => e.recordedAtNs),
    ← Entries.map_evict (fun _ => rfl), List.map_map]
  rfl

/-- Serializing raises for a name or the key of the new entry, or not at all. -/
theorem refused_text_iff {m : Machine α} {self : CachedHasher} {path : ArtifactPath α} {key : Str}
    {stats : List StatModel} {d : ArtifactDigest} (h : CacheableAs m path stats) (ok : hashArtifactAt m path = .ok d)
    {entry : StoredEntry} (made : entry = ⟨kindText d.artifactType, d.files, stats, m.recordedAtNs⟩) :
    (∃ s ∈ entryTexts (self.entriesWith m key entry), m.py.serializes s = false) ↔
      Survives m self key ∧
        (m.py.serializes key = false ∨ ∃ st ∈ stats, m.py.serializes st.relpath = false) := by
  have valid {s : Str} (scalars : Scalars s) : ¬m.py.serializes s = false := by
    rw [(m.py.accepts s scalars).2]
    exact Bool.noConfusion
  have named := hashArtifactAt_names h ok
  have survives : Survives m self key ↔ (key, entry) ∈ self.entriesWith m key entry := survives_iff (by rw [made])
  rw [survives]
  constructor
  · rintro ⟨s, mem, refused⟩
    obtain ⟨e, kept, own⟩ := mem_entryTexts.mp mem
    rcases Entries.mem_set (Entries.mem_of_mem_evict kept) with new | old
    · subst new
      refine ⟨kept, ?_⟩
      rcases own with isKey | text
      · rw [show s = key from isKey] at refused
        exact .inl refused
      · right
        subst made
        unfold StoredEntry.texts at text
        rcases List.mem_cons.mp text with kind | text
        · exact (valid (kind ▸ kindText_valid _) refused).elim
        · rcases List.mem_append.mp text with file | relpath
          · obtain ⟨f, mem, own⟩ := List.mem_flatMap.mp file
            obtain ⟨hex, st, recorded, same⟩ := named f mem
            rcases List.mem_cons.mp own with isPath | digest
            · exact ⟨st, recorded, by rw [same, ← isPath]; exact refused⟩
            · rw [List.mem_singleton.mp digest] at refused
              exact (valid hex.scalars refused).elim
          · obtain ⟨st, recorded, same⟩ := List.mem_map.mp relpath
            exact ⟨st, recorded, by rw [same]; exact refused⟩
    · exact (valid (load_valid self s (mem_entryTexts.mpr ⟨e, old, own⟩)) refused).elim
  · rintro ⟨kept, refused | ⟨st, recorded, refused⟩⟩
    · exact ⟨key, mem_entryTexts.mpr ⟨_, kept, .inl rfl⟩, refused⟩
    · refine ⟨st.relpath, mem_entryTexts.mpr ⟨_, kept, .inr ?_⟩, refused⟩
      subst made
      exact List.mem_cons_of_mem _ (List.mem_append_right _ (List.mem_map_of_mem recorded))

/-! ### One call -/

variable {m : Machine α} {self : CachedHasher} {path : ArtifactPath α}

theorem hash_raised {e : HashFailure} (captured : captureFingerprintAt m path = .error e) :
    self.hash m path = .error e := by
  unfold CachedHasher.hash
  rw [captured]
  rfl

theorem hash_uncacheable (captured : captureFingerprintAt m path = .ok none) :
    self.hash m path = (hashArtifactAt m path).map fun d => { digest := d, fromCache := false } := by
  unfold CachedHasher.hash
  rw [captured]
  show (hashArtifactAt m path >>= fun d => _) = _
  cases hashArtifactAt m path <;> rfl

variable {kind : ArtifactType} {stats : List StatModel} (captured : captureFingerprintAt m path = .ok (some (kind, stats)))

include captured

theorem hash_lost (lost : path.resolved = none) : self.hash m path = .error .workingDirectory := by
  unfold CachedHasher.hash
  rw [captured, lost]
  rfl

theorem hash_hit {key : Str} (resolved : path.resolved = some key) {d : ArtifactDigest}
    (hit : self.cached m key kind stats = some d) : self.hash m path = .ok { digest := d, fromCache := true } := by
  unfold CachedHasher.hash
  rw [captured, resolved]
  dsimp only [bind, Except.bind, orRaise]
  rw [hit]
  rfl

theorem hash_miss {key : Str} (resolved : path.resolved = some key) (miss : self.cached m key kind stats = none) :
    self.hash m path = (do
      let computed ← hashArtifactAt m path
      if allOlder stats m.nowNs then
        let entry ← computedModel m computed stats
        let _ ← self.store m key entry
        return { digest := computed, fromCache := false }
      else return { digest := computed, fromCache := false }) := by
  unfold CachedHasher.hash
  rw [captured, resolved]
  dsimp only [bind, Except.bind, orRaise]
  rw [miss]
  show (hashArtifactAt m path >>= fun computed => _) = _
  cases hashArtifactAt m path with
  | error e => rfl
  | ok computed =>
    show (if (decide (some stats = some stats) && allOlder stats m.nowNs) = true then _ else _) = _
    rw [decide_eq_true rfl, Bool.true_and]

omit captured

theorem computedModel_ok {d : ArtifactDigest} (h : Cacheable m path stats) (ok : hashArtifactAt m path = .ok d) :
    computedModel m d stats = .ok ⟨kindText d.artifactType, d.files, stats, m.recordedAtNs⟩ := by
  have named := hashArtifactAt_names h.shape ok
  obtain ⟨met, -, accepted, made⟩ := h
  unfold computedModel
  rw [if_pos]
  apply List.all_eq_true.mpr
  intro f mem
  obtain ⟨-, st, recorded, same⟩ := named f mem
  rw [made] at recorded
  rw [← same]
  exact accepted st (mem_sortStats.mp recorded)

theorem store_ok_iff {key : Str} {entry : StoredEntry} :
    (∃ written, self.store m key entry = .ok written) ↔
      ¬(self.mkdir = true ∧ self.openExclusive = true ∧
        ∃ s ∈ entryTexts (self.entriesWith m key entry), m.py.serializes s = false) := by
  have all : ((entryTexts (self.entriesWith m key entry)).all m.py.serializes = true) ↔
      ¬∃ s ∈ entryTexts (self.entriesWith m key entry), m.py.serializes s = false := by
    rw [List.all_eq_true]
    push Not
    exact forall₂_congr fun s _ => by rw [ne_eq, Bool.not_eq_false]
  unfold CachedHasher.store
  dsimp only
  split
  · rename_i swallowed
    refine ⟨fun _ => ?_, fun _ => ⟨_, rfl⟩⟩
    rintro ⟨made, opened, -⟩
    rw [made, opened] at swallowed
    cases swallowed
  · rename_i through
    rw [Bool.or_eq_true, not_or, Bool.not_eq_true', Bool.not_eq_true', Bool.not_eq_false, Bool.not_eq_false] at through
    split
    · rename_i serialized
      exact ⟨fun _ both => all.mp serialized both.2.2, fun _ => ⟨_, rfl⟩⟩
    · rename_i refused
      refine ⟨nofun, fun none => ?_⟩
      exact (refused (all.mpr fun some => none ⟨through.1, through.2, some⟩)).elim

/-- How a call can differ from `hash_artifact`. -/
inductive GoesWrong (m : Machine α) (self : CachedHasher) (path : ArtifactPath α) : Prop
  | unencodable : m.posix = true → path.target = .unencodable → GoesWrong m self path
  /-- The `ValueError` of pydantic leaves `_capture_fingerprint`. -/
  | name : RefusedFirst m.py (meetings m path) → GoesWrong m self path
  /-- The `FileNotFoundError` of `os.getcwd` leaves `path.resolve()`. -/
  | key {stats : List StatModel} : Cacheable m path stats → path.resolved = none → GoesWrong m self path
  /-- An entry answers for an artifact that can no longer be read. -/
  | hit {stats : List StatModel} {key : Str} : Cacheable m path stats → path.resolved = some key →
      Answers m self key (kindAt path) stats → ¬Readable m path → GoesWrong m self path
  /-- The `ValueError` of pydantic leaves `_store`. -/
  | write {stats : List StatModel} {key : Str} : Cacheable m path stats → path.resolved = some key →
      ¬Answers m self key (kindAt path) stats → Readable m path → allOlder stats m.nowNs = true → self.mkdir = true →
      self.openExclusive = true → Survives m self key →
      (m.py.serializes key = false ∨ ∃ st ∈ stats, m.py.serializes st.relpath = false) → GoesWrong m self path

theorem hashArtifactAt_ne_pydantic : hashArtifactAt m path ≠ .error .pydantic := by
  intro h
  rcases hashArtifactAt_raises h with ⟨own, same⟩ | ⟨same, -⟩
  · cases same
  · cases same

/-- A call that raises what `hash_artifact` does not raise is not transparent. -/
theorem not_transparent_of_raised {e : HashFailure} (raised : self.hash m path = .error e)
    (other : hashArtifactAt m path ≠ .error e) : ¬Transparent m self path := by
  rintro ⟨returns, raises⟩
  cases h : hashArtifactAt m path with
  | ok d =>
    obtain ⟨result, ok⟩ := returns d h
    cases raised.symm.trans ok
  | error e' =>
    cases raised.symm.trans (raises e' h)
    exact other h

theorem transparent_of_uncacheable (captured : captureFingerprintAt m path = .ok none) : Transparent m self path := by
  unfold Transparent
  rw [hash_uncacheable captured]
  constructor
  · intro d ok
    rw [ok]
    exact ⟨_, rfl⟩
  · intro e raised
    rw [raised]
    rfl

theorem cacheable_iff {stats : List StatModel} :
    Cacheable m path stats ↔ ∃ met, recordAll m.py (meetings m path) = .ok met ∧ stats = sortStats met := by
  unfold Cacheable
  simp only [recordAll_ok, and_assoc]

theorem hash_miss_returns_iff {key : Str} {stats : List StatModel} {d : ArtifactDigest}
    (cacheable : Cacheable m path stats)
    (captured : captureFingerprintAt m path = .ok (some (kindAt path, stats))) (resolved : path.resolved = some key)
    (miss : self.cached m key (kindAt path) stats = none) (ok : hashArtifactAt m path = .ok d) :
    (∃ result, self.hash m path = .ok result) ↔
      ¬(allOlder stats m.nowNs = true ∧ self.mkdir = true ∧ self.openExclusive = true ∧ Survives m self key ∧
        (m.py.serializes key = false ∨ ∃ st ∈ stats, m.py.serializes st.relpath = false)) := by
  have computed (rest : ArtifactDigest → Except HashFailure CachedHashResult) : (Except.ok d >>= rest) = rest d := rfl
  rw [hash_miss captured resolved miss, ok, computed]
  by_cases older : allOlder stats m.nowNs = true
  · have stored : (∃ written, self.store m key ⟨kindText d.artifactType, d.files, stats, m.recordedAtNs⟩ = .ok written) ↔ _ :=
      store_ok_iff
    rw [refused_text_iff cacheable.shape ok rfl] at stored
    rw [if_pos older, computedModel_ok cacheable ok]
    simp only [older, true_and]
    rw [← stored]
    constructor
    · rintro ⟨result, h⟩
      obtain ⟨entry, same, h⟩ := bind_ok.mp h
      obtain ⟨written, h, -⟩ := bind_ok.mp h
      cases same
      exact ⟨written, h⟩
    · rintro ⟨written, h⟩
      exact ⟨_, bind_ok.mpr ⟨_, rfl, bind_ok.mpr ⟨written, h, rfl⟩⟩⟩
  · rw [if_neg older]
    exact ⟨fun _ both => older both.1, fun _ => ⟨_, rfl⟩⟩

/-- With a fingerprint and a key, a call differs for a hit that hides an error or a write that raises one. -/
theorem transparent_iff_of_cacheable {key : Str} {stats : List StatModel} (cacheable : Cacheable m path stats)
    (captured : captureFingerprintAt m path = .ok (some (kindAt path, stats))) (resolved : path.resolved = some key) :
    Transparent m self path ↔
      ¬(Answers m self key (kindAt path) stats ∧ ¬Readable m path) ∧
        ¬(¬Answers m self key (kindAt path) stats ∧ Readable m path ∧ allOlder stats m.nowNs = true ∧
          self.mkdir = true ∧ self.openExclusive = true ∧ Survives m self key ∧
          (m.py.serializes key = false ∨ ∃ st ∈ stats, m.py.serializes st.relpath = false)) := by
  have readable := hashArtifactAt_ok_iff cacheable.shape (by rw [resolved]; exact Option.some_ne_none key)
  have answers : _ ↔ Answers m self key (kindAt path) stats := cached_answers cacheable.shape
  rw [← readable, ← answers]
  unfold Transparent
  cases hit : self.cached m key (kindAt path) stats with
  | some digest =>
    rw [hash_hit captured resolved hit]
    cases hashArtifactAt m path with
    | ok d => simp
    | error e => simp
  | none =>
    cases ok : hashArtifactAt m path with
    | ok d =>
      have returns := hash_miss_returns_iff cacheable captured resolved hit ok
      simp [returns]
    | error e =>
      rw [hash_miss captured resolved hit, ok]
      simp only [reduceCtorEq, exists_false, false_implies, implies_true, true_and, false_and, and_false,
        not_false_eq_true, Except.error.injEq, forall_eq']
      exact ⟨fun _ => trivial, fun _ => rfl⟩

/-- A call is transparent exactly when none of these goes wrong. -/
theorem cached_hash_transparent_iff (m : Machine α) (self : CachedHasher) (path : ArtifactPath α) :
    Transparent m self path ↔ ¬GoesWrong m self path := by
  by_cases encodable : m.posix = true ∧ path.target = .unencodable
  · have raised : captureFingerprintAt m path = .error .unencodable := by
      unfold captureFingerprintAt
      rw [if_pos encodable.1, encodable.2]
    have other : hashArtifactAt m path ≠ .error .unencodable := by
      unfold hashArtifactAt
      rw [encodable.2]
      exact nofun
    exact ⟨fun h => (not_transparent_of_raised (hash_raised raised) other h).elim,
      fun h => (h (.unencodable encodable.1 encodable.2)).elim⟩
  · have captured := captureFingerprintAt_eq m path encodable
    cases recorded : recordAll m.py (meetings m path) with
    | error stop =>
      rw [recorded] at captured
      have uncached {stats : List StatModel} : ¬Cacheable m path stats := by
        intro h
        obtain ⟨met, ok, -⟩ := cacheable_iff.mp h
        cases recorded.symm.trans ok
      cases stop with
      | uncacheable =>
        refine ⟨fun _ => ?_, fun _ => transparent_of_uncacheable captured⟩
        rintro (⟨posix, target⟩ | refused | ⟨cacheable, -⟩ | ⟨cacheable, -⟩ | ⟨cacheable, -⟩)
        · exact encodable ⟨posix, target⟩
        · cases recorded.symm.trans (recordAll_raised.mpr ⟨rfl, refused⟩)
        · exact uncached cacheable
        · exact uncached cacheable
        · exact uncached cacheable
      | raised e =>
        obtain ⟨kind, refused⟩ := recordAll_raised.mp recorded
        subst kind
        exact ⟨fun h => (not_transparent_of_raised (hash_raised captured) hashArtifactAt_ne_pydantic h).elim,
          fun h => (h (.name refused)).elim⟩
    | ok met =>
      rw [recorded] at captured
      have cacheable : Cacheable m path (sortStats met) := cacheable_iff.mpr ⟨met, recorded, rfl⟩
      have only {stats : List StatModel} (h : Cacheable m path stats) : stats = sortStats met := by
        obtain ⟨other, ok, made⟩ := cacheable_iff.mp h
        cases recorded.symm.trans ok
        exact made
      have accepted : ¬RefusedFirst m.py (meetings m path) := by
        intro refused
        cases recorded.symm.trans (recordAll_raised.mpr ⟨rfl, refused⟩)
      cases resolved : path.resolved with
      | none =>
        have other := hashArtifactAt_resolves cacheable.shape resolved
        exact ⟨fun h => (not_transparent_of_raised (hash_lost captured resolved) other h).elim,
          fun h => (h (.key cacheable resolved)).elim⟩
      | some key =>
        rw [transparent_iff_of_cacheable cacheable captured resolved]
        constructor
        · rintro ⟨hides, raises⟩
          rintro (⟨posix, target⟩ | refused | ⟨-, lost⟩ | ⟨other, found, answers, unreadable⟩ |
            ⟨other, found, misses, readable, older, made, opened, survives, refused⟩)
          · exact encodable ⟨posix, target⟩
          · exact accepted refused
          · cases resolved.symm.trans lost
          · cases resolved.symm.trans found
            cases only other
            exact hides ⟨answers, unreadable⟩
          · cases resolved.symm.trans found
            cases only other
            exact raises ⟨misses, readable, older, made, opened, survives, refused⟩
        · intro fine
          constructor
          · rintro ⟨answers, unreadable⟩
            exact fine (.hit cacheable resolved answers unreadable)
          · rintro ⟨misses, readable, older, made, opened, survives, refused⟩
            exact fine (.write cacheable resolved misses readable older made opened survives refused)

/-! ### Names that are valid Unicode, and names that are not -/

/-- Where the names and the key are valid Unicode, only an entry for what cannot be read makes a difference. -/
theorem transparent_of_valid (encodable : path.target ≠ .unencodable) {key : Str} (resolved : path.resolved = some key)
    (validKey : Scalars key) (validNames : ∀ st, .names st ∈ meetings m path → Scalars st.relpath)
    (honest : ∀ stats, Answers m self key (kindAt path) stats → Readable m path) : Transparent m self path := by
  rw [cached_hash_transparent_iff]
  have named {stats : List StatModel} (cacheable : Cacheable m path stats) : ∀ st ∈ stats, Scalars st.relpath := by
    obtain ⟨met, found, -, made⟩ := cacheable
    intro st mem
    apply validNames
    rw [found, made] at *
    exact List.mem_map_of_mem (mem_sortStats.mp mem)
  rintro (⟨-, target⟩ | ⟨before, st, after, found, -, refused⟩ | ⟨-, lost⟩ | ⟨-, found, answers, unreadable⟩ |
    ⟨cacheable, found, -, -, -, -, -, -, refused⟩)
  · exact encodable target
  · have accepted := (m.py.accepts _ (validNames st (by rw [found]; simp))).1
    rw [refused] at accepted
    cases accepted
  · cases resolved.symm.trans lost
  · cases resolved.symm.trans found
    exact unreadable (honest _ answers)
  · cases resolved.symm.trans found
    rcases refused with isKey | ⟨st, mem, refused⟩
    · rw [(m.py.accepts _ validKey).2] at isKey
      cases isKey
    · rw [(m.py.accepts _ (named cacheable st mem)).2] at refused
      cases refused

theorem refusedFirst_of_mem {py : Pydantic} {met : List StatModel} {st : StatModel} (mem : st ∈ met)
    (refused : py.constructs st.relpath = false) : RefusedFirst py (met.map .names) := by
  cases found : met.find? fun s => !py.constructs s.relpath with
  | none =>
    have accepted := List.find?_eq_none.mp found st mem
    rw [refused] at accepted
    exact (accepted rfl).elim
  | some first =>
    obtain ⟨bad, before, after, split, good⟩ := List.find?_eq_some_iff_append.mp found
    refine ⟨before, first, after.map .names, by rw [split, List.map_append, List.map_cons], ?_, by simpa using bad⟩
    intro s mem
    simpa using good s mem

/-- Wherever pydantic refuses it, a name that is not valid Unicode makes the call raise if it comes to a write. -/
theorem not_transparent_of_invalid {met : List StatModel} (found : meetings m path = met.map .names) {st : StatModel}
    (mem : st ∈ met) (invalid : ¬Scalars st.relpath) {key : Str} (resolved : path.resolved = some key)
    (misses : ¬Answers m self key (kindAt path) (sortStats met)) (readable : Readable m path)
    (older : allOlder (sortStats met) m.nowNs = true) (made : self.mkdir = true) (opened : self.openExclusive = true)
    (survives : Survives m self key) : ¬Transparent m self path := by
  rw [cached_hash_transparent_iff, not_not]
  by_cases accepted : ∀ s ∈ met, m.py.constructs s.relpath = true
  · have late := (m.py.refuses _ invalid).resolve_left (by rw [accepted st mem]; exact Bool.noConfusion)
    exact .write ⟨met, found, accepted, rfl⟩ resolved misses readable older made opened survives
      (.inr ⟨st, mem_sortStats.mpr mem, late⟩)
  · push Not at accepted
    obtain ⟨s, mem, refused⟩ := accepted
    apply GoesWrong.name
    rw [found]
    exact refusedFirst_of_mem mem (by simpa using refused)

/-! A file whose name is the octet 255, in a cache directory that is empty. -/

/-- Pydantic that refuses when the model is made, or not before it is serialized. -/
def refusing (early : Bool) : Pydantic where
  constructs s := !early || s.all fun c => !isSurrogate c
  serializes s := s.all fun c => !isSurrogate c
  validateJson _ := none
  accepts s valid := by
    have all : (s.all fun c => !isSurrogate c) = true := by simpa [Scalars] using valid
    simp [all]
  refuses s invalid := by
    right
    by_contra all
    rw [Bool.not_eq_false, List.all_eq_true] at all
    exact invalid fun c mem => by simpa using all c mem
  loaded _ _ none := nomatch none

def quietMachine (early : Bool) : Machine Unit where
  posix := true
  uid := 1000
  sha := .ofTable [] noEntries_hex
  py := refusing early
  disk := { content := fun _ => [0], readable := fun _ => true }
  stat _ := { size := 1, mtimeNs := 100000000000, ctimeNs := 100000000000, ino := 7, dev := 1 }
  lstatFails _ := false
  nowNs := 200000000000
  recordedAtNs := 200000000000

def emptyCache : CachedHasher where
  lstat := none
  readBytes := none
  mkdir := true
  openExclusive := true
  writeAndReplace := true

theorem octet_codePoint : 0xdcff < 0x110000 := by decide

def octetFile : ArtifactPath Unit where
  name := ⟨[⟨0xdcff, octet_codePoint⟩], by decide⟩
  target := .found (some (.file ()))
  resolved := some (str "/models/" ++ [⟨0xdcff, octet_codePoint⟩])
  distinct _ found := by
    cases found
    exact .file ()

/-- `hash_artifact` returns, and `hash` raises wherever pydantic refuses. -/
theorem octet_file_raises :
    (∃ d, hashArtifactAt (quietMachine true) octetFile = .ok d) ∧
      emptyCache.hash (quietMachine true) octetFile = .error .pydantic ∧
      (∃ d, hashArtifactAt (quietMachine false) octetFile = .ok d) ∧
      emptyCache.hash (quietMachine false) octetFile = .error .pydantic ∧
      ¬Transparent (quietMachine true) emptyCache octetFile ∧ ¬Transparent (quietMachine false) emptyCache octetFile := by
  have early : emptyCache.hash (quietMachine true) octetFile = .error .pydantic := rfl
  have late : emptyCache.hash (quietMachine false) octetFile = .error .pydantic := rfl
  exact ⟨⟨_, rfl⟩, early, ⟨_, rfl⟩, late, not_transparent_of_raised early hashArtifactAt_ne_pydantic,
    not_transparent_of_raised late hashArtifactAt_ne_pydantic⟩

end ModelGuard.Cache
