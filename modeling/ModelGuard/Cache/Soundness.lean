import ModelGuard.Cache.Undisturbed
import ModelGuard.Lib.Transition

/-!
# When a cached digest is right

The age margin is measured when the clock is read, after the files. A write that restores a recorded
fingerprint before that is not noticed; in every run without one, a digest from the cache is that of
the files at the call's first fingerprint.
-/

namespace ModelGuard.Cache

open Lib Lib.Fallible Lib.Node ModelGuard.Hashing

variable {P : Type} {sys : System P}

/-- Every record is that of the present state of its file. -/
def AllMatch (fs : FileSystem P) (stats : List Stat) : Prop := ∀ st ∈ stats, fs.stat st.relpath st.id = st

/-- The digests are those of the given contents, as far as there are records of the files. -/
def Vouches (sha : Sha256) (content : FileId → Bytes) (stats : List Stat) (files : List FileDigest) : Prop :=
  ∀ f ∈ files, ∀ st ∈ stats, f.path = st.relpath → f.sha256 = sha.hexdigest (content st.id)

/-- The second fingerprint, taken now, would equal the first. -/
def Unchanged (sys : System P) (fs : FileSystem P) (p : P) (stats : List Stat) : Prop :=
  (captureFingerprint fs sys.nameOf p).map (·.2) = some stats

/-- The files look as the call recorded them, but do not hold what the call goes by: before it consults the
cache, what they held at its first fingerprint; until it reads the clock, what it read from them. -/
def Deceived (sys : System P) (fs : FileSystem P) (call : Call P) : Prop :=
  match call.phase with
  | .waiting _ stats =>
    AllMatch fs stats ∧ ∃ st ∈ stats, sys.sha.hexdigest (fs.content st.id) ≠ sys.sha.hexdigest (call.first.content st.id)
  | .hashing (some plan) walk => Unchanged sys fs call.path plan.stats ∧ ¬Vouches sys.sha fs.content plan.stats walk.files
  | .hashed plan computed => Unchanged sys fs call.path plan.stats ∧ ¬Vouches sys.sha fs.content plan.stats computed.files
  | .rechecked plan computed => AllMatch fs plan.stats ∧ ¬Vouches sys.sha fs.content plan.stats computed.files
  | _ => False

/-- A step after which no call in progress is deceived by what others did. -/
inductive CleanStep (sys : System P) (s s' : State P) : Prop
  | environment : Environment sys s s' → (∀ c call, s.calls c = some call → ¬Deceived sys s'.fs call) → CleanStep sys s s'
  | progress : Progress sys s s' → CleanStep sys s s'

/-! ### The invariant -/

/-- Digests that are stored, or that no later check keeps from being stored. -/
inductive Settled (s : State P) : List Stat → List FileDigest → Prop
  | entry {e : Str × Entry} : e ∈ s.entries → Settled s e.2.stats e.2.files
  | call {c : Nat} {call : Call P} {plan : Plan} {computed : ArtifactDigest} : s.calls c = some call →
      call.phase = .storing plan computed → Settled s plan.stats computed.files

/-- Digests whose call has only the clock to read. -/
def Rechecked (s : State P) (stats : List Stat) (files : List FileDigest) : Prop :=
  ∃ c call plan computed, s.calls c = some call ∧ call.phase = .rechecked plan computed ∧ plan.stats = stats ∧
    computed.files = files

/-- Old enough that no write can restore it, and right for as long as the files match. -/
structure Lasting (sys : System P) (s : State P) (stats : List Stat) (files : List FileDigest) : Prop where
  old : ∀ st ∈ stats, st.ctimeNs + racyMarginNs ≤ s.clock
  right : AllMatch s.fs stats → Vouches sys.sha s.fs.content stats files

/-- What holds of one call against the rest of the state. -/
structure CallSound (sys : System P) (s : State P) (call : Call P) : Prop where
  undeceived : ¬Deceived sys s.fs call
  captured : ∀ kind stats, call.phase = .waiting kind stats →
    captureFingerprint call.first sys.nameOf call.path = some (kind, stats)
  lasting : ∀ plan computed, call.phase = .storing plan computed → Lasting sys s plan.stats computed.files
  expected : ∀ kind stats, call.phase = .waiting kind stats → ∀ files, Settled s stats files ∨ Rechecked s stats files →
    Vouches sys.sha call.first.content stats files
  returned : ∀ digest, call.phase = .returned digest true → call.first.hashArtifact sys call.path = .ok digest

structure Sound (sys : System P) (s : State P) : Prop where
  call : ∀ c call, s.calls c = some call → CallSound sys s call
  entry : ∀ e ∈ s.entries, Lasting sys s e.2.stats e.2.files

theorem Sound.settled {s : State P} (sound : Sound sys s) {stats : List Stat} {files : List FileDigest}
    (h : Settled s stats files) : Lasting sys s stats files := by
  cases h with
  | entry mem => exact sound.entry _ mem
  | call here phase => exact (sound.call _ _ here).lasting _ _ phase

theorem Sound.initial {s : State P} (start : Initial s) : Sound sys s where
  call c call here := by
    rw [start.noCalls c] at here
    cases here
  entry e mem := by
    rw [start.noEntries] at mem
    exact (List.not_mem_nil mem).elim

theorem put_calls {s : State P} {c c' : Nat} {call call' : Call P} (h : (s.put c call).calls c' = some call') :
    (c' = c ∧ call' = call) ∨ s.calls c' = some call' := by
  have h : Function.update s.calls c (some call) c' = some call' := h
  by_cases same : c' = c
  · subst same
    rw [Function.update_self] at h
    exact Or.inl ⟨rfl, (Option.some.inj h).symm⟩
  · rw [Function.update_of_ne same] at h
    exact Or.inr h

/-- What a call adds to the digests that waiting calls will be given. -/
def Offers (call : Call P) (stats : List Stat) (files : List FileDigest) : Prop :=
  ∃ plan computed, (call.phase = .storing plan computed ∨ call.phase = .rechecked plan computed) ∧
    plan.stats = stats ∧ computed.files = files

/-- One call changes: what it offers must be right for every other call that waits. -/
theorem Sound.put {s : State P} (sound : Sound sys s) {c : Nat} {call : Call P} (own : CallSound sys s call)
    (offers : ∀ stats files, Offers call stats files → ∀ c' call' kind, s.calls c' = some call' →
      call'.phase = .waiting kind stats → Vouches sys.sha call'.first.content stats files) :
    Sound sys (s.put c call) := by
  have known {stats : List Stat} {files : List FileDigest}
      (h : Settled (s.put c call) stats files ∨ Rechecked (s.put c call) stats files) :
      (Settled s stats files ∨ Rechecked s stats files) ∨ Offers call stats files := by
    rcases h with settled | ⟨c', call', plan, computed, here, phase, rfl, rfl⟩
    · cases settled with
      | entry mem => exact Or.inl (Or.inl (.entry mem))
      | call here phase =>
        rcases put_calls here with ⟨-, same⟩ | here
        · exact Or.inr ⟨_, _, Or.inl (same ▸ phase), rfl, rfl⟩
        · exact Or.inl (Or.inl (.call here phase))
    · rcases put_calls here with ⟨-, same⟩ | here
      · exact Or.inr ⟨_, _, Or.inr (same ▸ phase), rfl, rfl⟩
      · exact Or.inl (Or.inr ⟨c', call', plan, computed, here, phase, rfl, rfl⟩)
  refine ⟨?_, fun e mem => ⟨(sound.entry e mem).old, (sound.entry e mem).right⟩⟩
  intro c' call' here
  rcases put_calls here with ⟨-, same⟩ | here
  · subst same
    refine ⟨own.undeceived, own.captured, fun plan computed phase => ?_, fun kind stats phase files h => ?_, own.returned⟩
    · exact ⟨(own.lasting plan computed phase).old, (own.lasting plan computed phase).right⟩
    · rcases known h with h | ⟨plan, computed, other, -, -⟩
      · exact own.expected kind stats phase files h
      · rw [phase] at other
        rcases other with other | other <;> cases other
  · have before := sound.call c' call' here
    refine ⟨before.undeceived, before.captured, fun plan computed phase => ?_, fun kind stats phase files h => ?_,
      before.returned⟩
    · exact ⟨(before.lasting plan computed phase).old, (before.lasting plan computed phase).right⟩
    · rcases known h with h | offered
      · exact before.expected kind stats phase files h
      · exact offers stats files offered c' call' kind here phase

/-! ### A hit -/

theorem captured_allMatch {fs : FileSystem P} {p : P} {kind : ArtifactType} {stats : List Stat}
    (h : captureFingerprint fs sys.nameOf p = some (kind, stats)) : AllMatch fs stats :=
  fun _ mem => (captured_current (captured h) mem).1.symm

theorem unchanged_captured {fs : FileSystem P} {p : P} {stats : List Stat} (h : Unchanged sys fs p stats) :
    ∃ kind, captureFingerprint fs sys.nameOf p = some (kind, stats) := by
  obtain ⟨⟨kind, found⟩, captured, same⟩ := Option.map_eq_some_iff.mp h
  have same : found = stats := same
  exact ⟨kind, same ▸ captured⟩

/-- Digests that agree with the records in paths and sizes, and are vouched for, are those of the files. -/
theorem files_of_vouches {sha : Sha256} {content : FileId → Bytes} {stats : List Stat} {files : List FileDigest}
    (consistent : (files.map fun f => (f.path, f.size)) = stats.map fun st => (st.relpath, st.size))
    (vouches : Vouches sha content stats files) :
    files = stats.map fun st => { path := st.relpath, sha256 := sha.hexdigest (content st.id), size := st.size } := by
  induction stats generalizing files with
  | nil => exact List.map_eq_nil_iff.mp consistent
  | cons st stats ih =>
    cases files with
    | nil => cases consistent
    | cons f files =>
      obtain ⟨head, tail⟩ := List.cons.inj consistent
      obtain ⟨path, size⟩ := Prod.mk.inj head
      have digest := vouches f List.mem_cons_self st List.mem_cons_self path
      have rest := ih tail fun g hg st' hst => vouches g (List.mem_cons_of_mem _ hg) st' (List.mem_cons_of_mem _ hst)
      rw [List.map_cons, ← rest]
      congr 1
      cases f
      cases path
      cases size
      cases digest
      rfl

/-- The digest of an entry that fits a fingerprint is the one that hashing would have given. -/
theorem hit_digest {fs : FileSystem P} {p : P} {kind : ArtifactType} {stats : List Stat} {files : List FileDigest}
    {digest : ArtifactDigest} (capture : captureFingerprint fs sys.nameOf p = some (kind, stats))
    (consistent : (files.map fun f => (f.path, f.size)) = stats.map fun st => (st.relpath, st.size))
    (vouches : Vouches sys.sha fs.content stats files)
    (built : artifactDigestFromFiles sys.sha kind files = .ok digest) : fs.hashArtifact sys p = .ok digest := by
  have same := files_of_vouches consistent vouches
  have hashable : isHashable fs.disk = notSymlink := by
    funext n
    cases n <;> rfl
  cases captured capture with
  | file found =>
    subst same
    unfold FileSystem.hashArtifact
    rw [found]
    exact built
  | directory found plain nonempty perm =>
    rename_i l entries
    have seenPerm : files.Perm (seenFiles sys.sha fs.disk (.dir l entries)) := by
      have shown := perm.map fun st : Stat =>
        ({ path := st.relpath, sha256 := sys.sha.hexdigest (fs.content st.id), size := st.size } : FileDigest)
      unfold FileSystem.seenStats at shown
      rw [List.map_map] at shown
      rw [same]
      exact shown
    have names := (seenPerm.map (·.path)).nodup_iff.mpr (seenFiles_nodup sys.sha fs.disk (fs.distinct p _ found))
    have digestIs := Except.ok.inj built
    unfold FileSystem.hashArtifact
    rw [found]
    refine (hashDirectory_ok sys.sha fs.disk (fs.distinct p _ found)).mpr ⟨?_, ?_, ?_⟩
    · unfold Clean
      rwa [hashable]
    · intro none
      unfold FileSystem.seenStats at perm
      rw [none] at perm
      exact nonempty perm.eq_nil
    · exact digestIs.symm.trans (directoryDigest_perm sys.sha seenPerm names)

theorem lookupDigest_some {sha : Sha256} {entries : Entries} {key : Str} {kind : ArtifactType} {stats : List Stat}
    {digest : ArtifactDigest} (h : lookupDigest sha entries key kind stats = some digest) :
    ∃ e ∈ entries, e.2.stats = stats ∧
      (e.2.files.map fun f => (f.path, f.size)) = (stats.map fun st => (st.relpath, st.size)) ∧
      artifactDigestFromFiles sha kind e.2.files = .ok digest := by
  unfold lookupDigest at h
  split at h
  · cases h
  · rename_i entry found
    split at h
    · rename_i fits
      obtain ⟨sameStats, consistent⟩ := fits
      unfold entryIsConsistent at consistent
      rw [Bool.and_eq_true, decide_eq_true_eq, decide_eq_true_eq] at consistent
      obtain ⟨before, after, split, -⟩ := List.lookup_eq_some_iff.mp found
      refine ⟨(key, entry), split ▸ by simp, sameStats, consistent.2, ?_⟩
      rw [← consistent.1]
      cases built : artifactDigestFromFiles sha entry.artifactType entry.files with
      | error e =>
        rw [built] at h
        cases h
      | ok d =>
        rw [built] at h
        exact congrArg Except.ok (Option.some.inj h)
    · cases h

/-! ### The steps of a call -/

/-- A phase in which the call neither waits nor holds digests that could be stored. -/
theorem CallSound.quiet {s : State P} {call : Call P} (undeceived : ¬Deceived sys s.fs call)
    (notWaiting : ∀ kind stats, call.phase ≠ .waiting kind stats) (notStoring : ∀ plan d, call.phase ≠ .storing plan d)
    (notCached : ∀ digest, call.phase ≠ .returned digest true) : CallSound sys s call where
  undeceived := undeceived
  captured kind stats phase := (notWaiting kind stats phase).elim
  lasting plan computed phase := (notStoring plan computed phase).elim
  expected kind stats phase := (notWaiting kind stats phase).elim
  returned digest phase := (notCached digest phase).elim

theorem finish_files {sha : Sha256} {w : Walk} {computed : ArtifactDigest} (h : w.finish sha = .ok computed) :
    ∀ f ∈ computed.files, f ∈ w.files := by
  have subset {kind : ArtifactType} (built : artifactDigestFromFiles sha kind w.files = .ok computed) :
      ∀ f ∈ computed.files, f ∈ w.files := by
    intro f mem
    cases kind with
    | file =>
      match files : w.files with
      | [g] =>
        rw [files] at built
        have same := Except.ok.inj built
        subst same
        exact mem
      | [] =>
        rw [files] at built
        cases built
      | _ :: _ :: _ =>
        rw [files] at built
        cases built
    | directory =>
      have same := Except.ok.inj built
      subst same
      exact (sortFiles_perm w.files).subset mem
  unfold Walk.finish at h
  split at h
  · exact subset h
  · split at h
    · cases h
    · exact subset h

/-- An access adds at most the digest of a file as it is. -/
theorem walkStep_files {fs : FileSystem P} {p : P} {w w' : Walk} (h : walkStep sys fs p w = .ok w') :
    ∀ f ∈ w'.files, f ∈ w.files ∨
      ∃ id, (f.path, id) ∈ fs.table sys.nameOf p ∧ f.sha256 = sys.sha.hexdigest (fs.content id) := by
  unfold walkStep at h
  split at h
  · cases h
    exact fun f mem => Or.inl mem
  · split at h <;> cases h <;> exact fun f mem => Or.inl mem
  · split at h
    · obtain ⟨_, -, h⟩ := bind_ok.mp h
      cases pure_ok.mp h
      exact fun f mem => Or.inl mem
    · cases h
      exact fun f mem => Or.inl mem
  · rename_i path rest tasks
    split at h
    · rename_i id found
      cases h
      intro f mem
      rcases List.mem_append.mp mem with mem | mem
      · exact Or.inl mem
      · have same := List.mem_singleton.mp mem
        subst same
        refine Or.inr ⟨id, ?_, rfl⟩
        obtain ⟨n, root, leaf⟩ := Option.bind_eq_some_iff.mp found
        unfold FileSystem.table fileText
        rw [root]
        cases n with
        | file other =>
          cases path with
          | nil =>
            cases Option.some.inj leaf
            exact List.mem_singleton_self _
          | cons name path => cases leaf
        | symlink t => cases path <;> cases leaf
        | dir l entries =>
          cases path with
          | nil => cases Option.some.inj leaf
          | cons name path => exact List.mem_map.mpr ⟨_, regularFiles_file leaf, rfl⟩
    · cases h

theorem walkStep_vouches {fs : FileSystem P} {p : P} {w w' : Walk} {stats : List Stat}
    (h : walkStep sys fs p w = .ok w') (unchanged : Unchanged sys fs p stats)
    (vouches : Vouches sys.sha fs.content stats w.files) : Vouches sys.sha fs.content stats w'.files := by
  intro f mem st recorded path
  rcases walkStep_files h f mem with before | ⟨id, listed, digest⟩
  · exact vouches f before st recorded path
  · obtain ⟨kind, capture⟩ := unchanged_captured unchanged
    have here := (captured_current (captured capture) recorded).2
    rw [path] at listed
    rw [digest, table_unique listed here]

/-- What a call already offers is right for those that wait. -/
theorem Sound.offered {s : State P} (sound : Sound sys s) {c : Nat} {call : Call P} (here : s.calls c = some call)
    {stats : List Stat} {files : List FileDigest} (offers : Offers call stats files) {c' : Nat} {call' : Call P}
    {kind : ArtifactType} (there : s.calls c' = some call') (waits : call'.phase = .waiting kind stats) :
    Vouches sys.sha call'.first.content stats files := by
  obtain ⟨plan, computed, phase, rfl, rfl⟩ := offers
  refine (sound.call c' call' there).expected kind _ waits _ ?_
  rcases phase with phase | phase
  · exact Or.inl (.call here phase)
  · exact Or.inr ⟨c, call, plan, computed, here, phase, rfl, rfl⟩

theorem no_offers {call : Call P} (notStoring : ∀ plan d, call.phase ≠ .storing plan d)
    (notRechecked : ∀ plan d, call.phase ≠ .rechecked plan d) {stats : List Stat} {files : List FileDigest} :
    ¬Offers call stats files := by
  rintro ⟨plan, computed, phase | phase, -, -⟩
  · exact notStoring plan computed phase
  · exact notRechecked plan computed phase

/-- A call that offers nothing concerns no other. -/
theorem Sound.putSilent {s : State P} (sound : Sound sys s) {c : Nat} {call : Call P} (own : CallSound sys s call)
    (notStoring : ∀ plan d, call.phase ≠ .storing plan d) (notRechecked : ∀ plan d, call.phase ≠ .rechecked plan d) :
    Sound sys (s.put c call) :=
  sound.put own fun _ _ offers => (no_offers notStoring notRechecked offers).elim

/-- A call moves to a phase in which it offers nothing and was not answered from the cache. -/
theorem Sound.move {s : State P} (sound : Sound sys s) {c : Nat} {call : Call P} {phase : Phase}
    (undeceived : ¬Deceived sys s.fs { call with phase }) (notWaiting : ∀ kind stats, phase ≠ .waiting kind stats)
    (notStoring : ∀ plan d, phase ≠ .storing plan d) (notRechecked : ∀ plan d, phase ≠ .rechecked plan d)
    (notCached : ∀ digest, phase ≠ .returned digest true) : Sound sys (s.put c { call with phase }) :=
  sound.putSilent (.quiet undeceived notWaiting notStoring notCached) notStoring notRechecked

/-- A call that returns what it has hashed, or raises, claims nothing more. -/
theorem Sound.returns {s : State P} (sound : Sound sys s) {c : Nat} {call : Call P} {computed : ArtifactDigest} :
    Sound sys (s.put c { call with phase := .returned computed false }) :=
  sound.move id nofun nofun nofun nofun

theorem Sound.raises {s : State P} (sound : Sound sys s) {c : Nat} {call : Call P} :
    Sound sys (s.put c { call with phase := .raised }) :=
  sound.move id nofun nofun nofun nofun

theorem Sound.hashes {s : State P} (sound : Sound sys s) {c : Nat} {call : Call P} {plan : Option Plan} {walk : Walk}
    (undeceived : ¬Deceived sys s.fs { call with phase := .hashing plan walk }) :
    Sound sys (s.put c { call with phase := .hashing plan walk }) :=
  sound.move undeceived nofun nofun nofun nofun

theorem Sound.finishes {s : State P} (sound : Sound sys s) {c : Nat} {call : Call P} {plan : Plan}
    {computed : ArtifactDigest} (undeceived : ¬Deceived sys s.fs { call with phase := .hashed plan computed }) :
    Sound sys (s.put c { call with phase := .hashed plan computed }) :=
  sound.move undeceived nofun nofun nofun nofun

theorem allOlderThanMargin_old {stats : List Stat} {clock : Int} (h : allOlderThanMargin stats clock = true) :
    ∀ st ∈ stats, st.ctimeNs + racyMarginNs ≤ clock := by
  intro st mem
  have old := of_decide_eq_true (List.all_eq_true.mp h st mem)
  have := le_max_right st.mtimeNs st.ctimeNs
  omega

/-- A second fingerprint equal to the first confirms what was read, for the call and for all that wait. -/
theorem recheck_sound {s : State P} (sound : Sound sys s) {c : Nat} {call : Call P} {plan : Plan}
    {computed : ArtifactDigest} (unchanged : Unchanged sys s.fs call.path plan.stats)
    (vouches : Vouches sys.sha s.fs.content plan.stats computed.files) :
    Sound sys (s.put c { call with phase := .rechecked plan computed }) := by
  obtain ⟨kind, capture⟩ := unchanged_captured unchanged
  have quiet : CallSound sys s { call with phase := .rechecked plan computed } :=
    .quiet (fun deceived => deceived.2 vouches) nofun nofun nofun
  refine sound.put quiet ?_
  rintro stats files ⟨plan', computed', phase | phase, rfl, rfl⟩ c' call' kind' there waits
  · cases phase
  · cases phase
    intro f mem st recorded path
    rw [vouches f mem st recorded path]
    by_contra differs
    refine (sound.call c' call' there).undeceived ?_
    unfold Deceived
    rw [waits]
    exact ⟨captured_allMatch capture, st, recorded, differs⟩

theorem hit_sound {s : State P} (sound : Sound sys s) {c : Nat} {call : Call P} {loaded : Entries} {kind : ArtifactType}
    {stats : List Stat} {digest : ArtifactDigest} (here : s.calls c = some call) (phase : call.phase = .waiting kind stats)
    (loads : Loads s.entries loaded)
    (found : lookupDigest sys.sha loaded (s.fs.resolve call.path) kind stats = some digest) :
    Sound sys (s.put c { call with phase := .returned digest true }) := by
  have own := sound.call c call here
  refine sound.putSilent ⟨id, nofun, nofun, nofun, ?_⟩ nofun nofun
  intro digest' same
  cases same
  obtain ⟨e, mem, sameStats, consistent, built⟩ := lookupDigest_some found
  have stored : e ∈ s.entries := by
    rcases loads with all | none
    · exact all ▸ mem
    · rw [none] at mem
      exact (List.not_mem_nil mem).elim
  have vouches := own.expected kind stats phase e.2.files (Or.inl (sameStats ▸ .entry stored))
  exact hit_digest (own.captured kind stats phase) consistent vouches built

/-- Hashing goes on, or ends, with digests that are right while the files look as they did. -/
theorem hashing_sound {s : State P} (sound : Sound sys s) {c : Nat} {call : Call P} {plan : Option Plan} {walk : Walk}
    {loaded : Entries} (here : s.calls c = some call) (phase : call.phase = .hashing plan walk) :
    Sound sys (s.put c { call with phase := nextPhase sys s.fs s.clock loaded call.path (.hashing plan walk) }) := by
  have undeceived := (sound.call c call here).undeceived
  unfold Deceived at undeceived
  rw [phase] at undeceived
  by_cases settled : walk.tasks = []
  · cases finished : walk.finish sys.sha with
    | error e =>
      have next : nextPhase sys s.fs s.clock loaded call.path (.hashing plan walk) = .raised := by
        simp only [nextPhase, settled, finished, ↓reduceIte]
      rw [next]
      exact sound.raises
    | ok computed =>
      cases plan with
      | none =>
        have next : nextPhase sys s.fs s.clock loaded call.path (.hashing none walk) = .returned computed false := by
          simp only [nextPhase, settled, finished, ↓reduceIte]
        rw [next]
        exact sound.returns
      | some plan =>
        have next : nextPhase sys s.fs s.clock loaded call.path (.hashing (some plan) walk) = .hashed plan computed := by
          simp only [nextPhase, settled, finished, ↓reduceIte]
        rw [next]
        refine sound.finishes fun deceived => undeceived ⟨deceived.1, fun vouches => deceived.2 ?_⟩
        exact fun f mem => vouches f (finish_files finished f mem)
  · cases walked : walkStep sys s.fs call.path walk with
    | error e =>
      have next : nextPhase sys s.fs s.clock loaded call.path (.hashing plan walk) = .raised := by
        simp only [nextPhase, settled, walked, ↓reduceIte]
      rw [next]
      exact sound.raises
    | ok walk' =>
      have next : nextPhase sys s.fs s.clock loaded call.path (.hashing plan walk) = .hashing plan walk' := by
        simp only [nextPhase, settled, walked, ↓reduceIte]
      rw [next]
      cases plan with
      | none => exact sound.hashes id
      | some plan =>
        refine sound.hashes fun deceived => undeceived ⟨deceived.1, fun vouches => deceived.2 ?_⟩
        exact walkStep_vouches walked deceived.1 vouches

/-- Reading the clock: what it finds old enough lasts. -/
theorem clock_sound {s : State P} (sound : Sound sys s) {c : Nat} {call : Call P} {plan : Plan} {computed : ArtifactDigest}
    (here : s.calls c = some call) (phase : call.phase = .rechecked plan computed)
    (older : allOlderThanMargin plan.stats s.clock = true) :
    Sound sys (s.put c { call with phase := .storing plan computed }) := by
  have undeceived := (sound.call c call here).undeceived
  unfold Deceived at undeceived
  rw [phase] at undeceived
  have lasting : Lasting sys s plan.stats computed.files :=
    ⟨allOlderThanMargin_old older, fun all => by_contra fun differs => undeceived ⟨all, differs⟩⟩
  refine sound.put ⟨id, nofun, ?_, nofun, nofun⟩ ?_
  · intro plan' computed' same
    cases same
    exact lasting
  · rintro stats files ⟨plan', computed', same | same, rfl, rfl⟩ c' call' kind there waits
    · cases same
      exact sound.offered here ⟨plan, computed, Or.inr phase, rfl, rfl⟩ there waits
    · cases same

theorem advance_sound {s : State P} (sound : Sound sys s) {c : Nat} {call : Call P} {loaded : Entries}
    (here : s.calls c = some call) (loads : Loads s.entries loaded) :
    Sound sys (s.put c { call with phase := nextPhase sys s.fs s.clock loaded call.path call.phase }) := by
  have own := sound.call c call here
  have stay (same : nextPhase sys s.fs s.clock loaded call.path call.phase = call.phase) :
      Sound sys (s.put c { call with phase := nextPhase sys s.fs s.clock loaded call.path call.phase }) := by
    rw [same]
    exact sound.put own fun _ _ offers _ _ _ there waits => sound.offered here offers there waits
  cases phase : call.phase with
  | waiting kind stats =>
    cases found : lookupDigest sys.sha loaded (s.fs.resolve call.path) kind stats with
    | none =>
      have next : nextPhase sys s.fs s.clock loaded call.path (.waiting kind stats) =
          .hashing (some { key := s.fs.resolve call.path, stats }) .start := by
        simp only [nextPhase, found]
      rw [next]
      have empty : Vouches sys.sha s.fs.content stats [] := fun f mem => (List.not_mem_nil mem).elim
      exact sound.hashes fun deceived => deceived.2 empty
    | some digest =>
      have next : nextPhase sys s.fs s.clock loaded call.path (.waiting kind stats) = .returned digest true := by
        simp only [nextPhase, found]
      rw [next]
      exact hit_sound sound here phase loads found
  | hashing plan walk => exact hashing_sound sound here phase
  | hashed plan computed =>
    have undeceived := own.undeceived
    unfold Deceived at undeceived
    rw [phase] at undeceived
    by_cases unchanged : (captureFingerprint s.fs sys.nameOf call.path).map (·.2) = some plan.stats
    · have next : nextPhase sys s.fs s.clock loaded call.path (.hashed plan computed) = .rechecked plan computed := by
        simp only [nextPhase, unchanged, ↓reduceIte]
      rw [next]
      exact recheck_sound sound unchanged (by_contra fun differs => undeceived ⟨unchanged, differs⟩)
    · have next : nextPhase sys s.fs s.clock loaded call.path (.hashed plan computed) = .returned computed false := by
        simp only [nextPhase, unchanged, ↓reduceIte]
      rw [next]
      exact sound.returns
  | rechecked plan computed =>
    by_cases older : allOlderThanMargin plan.stats s.clock = true
    · have next : nextPhase sys s.fs s.clock loaded call.path (.rechecked plan computed) = .storing plan computed := by
        simp only [nextPhase, older, ↓reduceIte]
      rw [next]
      exact clock_sound sound here phase older
    · have next : nextPhase sys s.fs s.clock loaded call.path (.rechecked plan computed) = .returned computed false := by
        unfold nextPhase
        exact if_neg older
      rw [next]
      exact sound.returns
  | storing plan computed => exact phase ▸ stay (by rw [phase]; rfl)
  | returned digest fromCache => exact phase ▸ stay (by rw [phase]; rfl)
  | raised => exact phase ▸ stay (by rw [phase]; rfl)

theorem begin_sound {s : State P} (sound : Sound sys s) (c : Nat) (p : P) :
    Sound sys (s.put c { path := p, first := s.fs, phase := firstPhase sys s.fs p }) := by
  unfold firstPhase
  cases capture : captureFingerprint s.fs sys.nameOf p with
  | none => exact sound.putSilent (.quiet id nofun nofun nofun) nofun nofun
  | some found =>
    obtain ⟨kind, stats⟩ := found
    have all := captured_allMatch capture
    refine sound.putSilent ⟨?_, ?_, nofun, ?_, nofun⟩ nofun nofun
    · intro deceived
      obtain ⟨-, st, -, differs⟩ := deceived
      exact differs rfl
    · intro kind' stats' same
      cases same
      exact capture
    · intro kind' stats' same files known
      cases same
      rcases known with settled | ⟨c', call', plan, computed, there, phase, rfl, rfl⟩
      · exact (sound.settled settled).right all
      · by_contra differs
        refine (sound.call c' call' there).undeceived ?_
        unfold Deceived
        rw [phase]
        exact ⟨all, differs⟩

/-! ### Storing -/

theorem mem_setEntry {key : Str} {entry : Entry} {entries : Entries} {e : Str × Entry}
    (h : e ∈ setEntry key entry entries) : e = (key, entry) ∨ e ∈ entries := by
  induction entries with
  | nil => exact Or.inl (List.mem_singleton.mp h)
  | cons first rest ih =>
    unfold setEntry at h
    split at h
    · rcases List.mem_cons.mp h with h | h
      · exact Or.inl h
      · exact Or.inr (List.mem_cons_of_mem _ h)
    · rcases List.mem_cons.mp h with h | h
      · exact Or.inr (h ▸ List.mem_cons_self)
      · exact (ih h).imp_right (List.mem_cons_of_mem _)

theorem mem_storeEntry {loaded : Entries} {plan : Plan} {computed : ArtifactDigest} {clock : Int} {e : Str × Entry}
    (h : e ∈ storeEntry loaded plan computed clock) :
    (e.2.stats = plan.stats ∧ e.2.files = computed.files) ∨ e ∈ loaded := by
  rcases mem_setEntry (List.mem_of_mem_filter h) with same | old
  · subst same
    exact Or.inl ⟨rfl, rfl⟩
  · exact Or.inr old

theorem store_sound {s : State P} (sound : Sound sys s) {c : Nat} {call : Call P} {loaded : Entries} {plan : Plan}
    {computed : ArtifactDigest} (here : s.calls c = some call) (phase : call.phase = .storing plan computed)
    (loads : Loads s.entries loaded) :
    Sound sys { s.put c { call with phase := .returned computed false } with
      entries := storeEntry loaded plan computed s.clock } := by
  have moved : Sound sys (s.put c { call with phase := .returned computed false }) :=
    sound.move id nofun nofun nofun nofun
  have origin {e : Str × Entry} (mem : e ∈ storeEntry loaded plan computed s.clock) :
      Settled s e.2.stats e.2.files := by
    rcases mem_storeEntry mem with ⟨stats, files⟩ | old
    · rw [stats, files]
      exact .call here phase
    · rcases loads with all | none
      · exact .entry (all ▸ old)
      · rw [none] at old
        exact (List.not_mem_nil old).elim
  constructor
  · intro c' call' there
    have before := moved.call c' call' there
    refine ⟨before.undeceived, before.captured, fun plan' computed' storing => ?_, fun kind stats waits files known => ?_,
      before.returned⟩
    · exact ⟨(before.lasting plan' computed' storing).old, (before.lasting plan' computed' storing).right⟩
    · rcases known with settled | rechecked
      · cases settled with
        | entry mem =>
          rcases put_calls there with ⟨-, same⟩ | there
          · subst same
            cases waits
          · exact (sound.call c' call' there).expected kind _ waits _ (Or.inl (origin mem))
        | call other storing => exact before.expected kind _ waits _ (Or.inl (.call other storing))
      · exact before.expected kind stats waits files (Or.inr rechecked)
  · intro e mem
    have lasting := sound.settled (origin mem)
    exact ⟨lasting.old, lasting.right⟩

theorem progress_sound {s s' : State P} (sound : Sound sys s) (step : Progress sys s s') : Sound sys s' := by
  cases step with
  | begin p fresh => exact begin_sound sound _ p
  | advance here loads => exact advance_sound sound here loads
  | store here phase loads => exact store_sound sound here phase loads
  | storeFails here phase => exact sound.move id nofun nofun nofun nofun
  | fail here unfinished => exact sound.move id nofun nofun nofun nofun

/-! ### The steps of others -/

theorem tickOf_after {granularity : Int} (clock : Int) (positive : 0 < granularity) :
    clock - granularity < tickOf granularity clock := by
  have := Int.emod_lt_of_pos clock positive
  unfold tickOf
  omega

/-- Others change neither the calls nor the entries, and a file only with a present timestamp. -/
theorem environment_frame {s s' : State P} (step : Environment sys s s') :
    s'.calls = s.calls ∧ s'.entries = s.entries ∧ s.clock ≤ s'.clock ∧
      ∀ id, s'.fs.inode id = s.fs.inode id ∨ (s'.fs.inode id).ctimeNs = tickOf sys.granularity s.clock := by
  cases step with
  | tick later => exact ⟨rfl, rfl, later, fun id => Or.inl rfl⟩
  | write id content forged =>
    refine ⟨rfl, rfl, le_refl _, fun other => ?_⟩
    by_cases same : other = id
    · subst same
      right
      show (Function.update s.fs.inode other _ other).ctimeNs = tickOf sys.granularity s.clock
      rw [Function.update_self]
    · left
      exact Function.update_of_ne same ..
  | rearrange inodes => exact ⟨rfl, rfl, le_refl _, fun id => Or.inl (congrFun inodes id)⟩

/-- A file that has left its timestamp tick cannot be given its old record again. -/
theorem environment_lasting {s s' : State P} (step : Environment sys s s') {stats : List Stat} {files : List FileDigest}
    (lasting : Lasting sys s stats files) : Lasting sys s' stats files := by
  obtain ⟨-, -, later, inodes⟩ := environment_frame step
  refine ⟨fun st mem => (lasting.old st mem).trans later, fun all => ?_⟩
  have untouched : ∀ st ∈ stats, s'.fs.inode st.id = s.fs.inode st.id := by
    intro st mem
    rcases inodes st.id with same | stamped
    · exact same
    · have recorded : (s'.fs.inode st.id).ctimeNs = st.ctimeNs := congrArg Stat.ctimeNs (all st mem)
      have old := lasting.old st mem
      have recent := tickOf_after s.clock sys.positive
      have margin := sys.withinMargin
      omega
  have before : AllMatch s.fs stats := by
    intro st mem
    have now := all st mem
    unfold FileSystem.stat FileSystem.content at now ⊢
    rwa [untouched st mem] at now
  intro f mem st recorded path
  unfold FileSystem.content
  rw [untouched st recorded]
  exact lasting.right before f mem st recorded path

theorem environment_sound {s s' : State P} (sound : Sound sys s) (step : Environment sys s s')
    (undeceived : ∀ c call, s.calls c = some call → ¬Deceived sys s'.fs call) : Sound sys s' := by
  obtain ⟨calls, entries, -, -⟩ := environment_frame step
  have known {stats : List Stat} {files : List FileDigest} (h : Settled s' stats files ∨ Rechecked s' stats files) :
      Settled s stats files ∨ Rechecked s stats files := by
    rcases h with settled | ⟨c, call, plan, computed, here, phase, same⟩
    · left
      cases settled with
      | entry mem => exact .entry (entries ▸ mem)
      | call here phase => exact .call (calls ▸ here) phase
    · exact Or.inr ⟨c, call, plan, computed, calls ▸ here, phase, same⟩
  constructor
  · intro c call here
    have here : s.calls c = some call := calls ▸ here
    have before := sound.call c call here
    exact ⟨undeceived c call here, before.captured,
      fun plan computed phase => environment_lasting step (before.lasting plan computed phase),
      fun kind stats phase files h => before.expected kind stats phase files (known h), before.returned⟩
  · intro e mem
    exact environment_lasting step (sound.entry e (entries ▸ mem))

/-! ### Runs -/

theorem cleanStep_sound {s s' : State P} (sound : Sound sys s) (step : CleanStep sys s s') : Sound sys s' := by
  cases step with
  | environment others undeceived => exact environment_sound sound others undeceived
  | progress own => exact progress_sound sound own

/-- In a run of clean steps, every digest from the cache is that of the files at the first fingerprint. -/
theorem cached_digest_is_right {start s : State P} (initial : Initial start)
    (run : Relation.ReflTransGen (CleanStep sys) start s) {c : Nat} {call : Call P} {digest : ArtifactDigest}
    (here : s.calls c = some call) (returned : call.phase = .returned digest true) :
    call.first.hashArtifact sys call.path = .ok digest :=
  ((Transition.holds_after (fun _ _ => cleanStep_sound) run (.initial initial)).call c call here).returned digest returned

/-! ### A file rewritten within its timestamp tick -/

def bitSha : Sha256 := .ofTable
  [([0], str "6e340b9cffb37a989ca544e6bb780a2c78901d3fb33738768511a30617afa01d"),
   ([1], str "4bf5122f344554c53bde2ebb8cd2b7e3d1600ad631c385a5d7cce23c7785459a")] (by
    rw [str_ofList, str_ofList]
    decide +kernel)

theorem secondsName_fileName : IsFileName (str "model.bin") := by decide

def secondsSystem : System Unit where
  sha := bitSha
  nameOf _ := ⟨str "model.bin", secondsName_fileName⟩
  granularity := 1000000000
  positive := by decide
  withinMargin := by decide

def modelId : FileId := { ino := 7, dev := 1 }

/-- One file, written at 100 s. -/
def written : FileSystem Unit where
  node _ := some (.file modelId)
  resolve _ := str "/model.bin"
  inode _ := { content := [0], mtimeNs := 100000000000, ctimeNs := 100000000000 }
  distinct _ _ found := Option.some.inj found ▸ .file modelId

/-- The file written again at 100.2 s, in the same tick. -/
def rewritten (changed : Bool) : FileSystem Unit :=
  { written with
    inode := Function.update written.inode modelId
      { content := [if changed then 1 else 0]
        mtimeNs := (none : Option Int).getD (tickOf secondsSystem.granularity 100200000000)
        ctimeNs := tickOf secondsSystem.granularity 100200000000 } }

def early : State Unit where
  fs := written
  clock := 100200000000
  entries := []
  calls _ := none

def recorded : List Stat := [written.stat (str "model.bin") modelId]

def modelPlan : Plan where
  key := str "/model.bin"
  stats := recorded

def zeroDigest : ArtifactDigest where
  artifactType := .file
  digest := str "6e340b9cffb37a989ca544e6bb780a2c78901d3fb33738768511a30617afa01d"
  files := [⟨str "model.bin", str "6e340b9cffb37a989ca544e6bb780a2c78901d3fb33738768511a30617afa01d", 1⟩]

/-- The first call has read the file. -/
def readOnce : State Unit := early.put 0 ⟨(), written, .hashed modelPlan zeroDigest⟩

/-- The file is rewritten, and the first call finds its fingerprint unchanged. -/
def confirmed (changed : Bool) : State Unit :=
  { early with fs := rewritten changed }.put 0 ⟨(), written, .rechecked modelPlan zeroDigest⟩

/-- Past the margin the digest is stored, and a second call is given it. -/
def answered (changed : Bool) : State Unit :=
  ({ fs := rewritten changed
     clock := 103000000000
     entries := storeEntry [] modelPlan zeroDigest 103000000000
     calls := fun _ => none : State Unit }.put 0 ⟨(), written, .returned zeroDigest false⟩).put 1
    ⟨(), rewritten changed, .returned zeroDigest true⟩

theorem Progress.beginAt {s : State P} {c : Nat} {p : P} {phase : Phase} (free : s.calls c = none)
    (h : firstPhase sys s.fs p = phase) : Progress sys s (s.put c ⟨p, s.fs, phase⟩) :=
  h ▸ Progress.begin p free

/-- The first call takes its fingerprint and reads the file. -/
theorem reads_file : Relation.ReflTransGen (Progress secondsSystem) early readOnce := by
  let reach (phase : Phase) : State Unit := early.put 0 ⟨(), written, phase⟩
  let hashing (walk : Walk) : Phase := .hashing (some modelPlan) walk
  have fingerprint : Progress secondsSystem early (reach (.waiting .file recorded)) := .beginAt rfl (by rfl)
  have lookup : Progress secondsSystem (reach (.waiting .file recorded)) (reach (hashing .start)) :=
    .advanceTo (by rfl)
  have root : Progress secondsSystem (reach (hashing .start)) (reach (hashing ⟨.file, [.read []], []⟩)) :=
    .advanceTo (by rfl)
  have read : Progress secondsSystem (reach (hashing ⟨.file, [.read []], []⟩))
      (reach (hashing ⟨.file, [], zeroDigest.files⟩)) := .advanceTo (by rfl)
  have finish : Progress secondsSystem (reach (hashing ⟨.file, [], zeroDigest.files⟩)) readOnce :=
    .advanceTo (by rfl)
  exact ((((Relation.ReflTransGen.single fingerprint).tail lookup).tail root).tail read).tail finish

theorem confirms (changed : Bool) :
    Progress secondsSystem { readOnce with fs := rewritten changed } (confirmed changed) := by
  have same : nextPhase secondsSystem (rewritten changed) early.clock [] () (.hashed modelPlan zeroDigest) =
      .rechecked modelPlan zeroDigest := by
    cases changed <;> rfl
  exact .advanceTo (s := { early with fs := rewritten changed }) same

/-- The first call stores what it read, and the second is answered from the cache. -/
theorem answers (changed : Bool) :
    Relation.ReflTransGen (Progress secondsSystem) { confirmed changed with clock := 103000000000 } (answered changed) := by
  let late : State Unit := { early with fs := rewritten changed, clock := 103000000000 }
  let stored : State Unit :=
    { late.put 0 ⟨(), written, .returned zeroDigest false⟩ with
      entries := storeEntry [] modelPlan zeroDigest 103000000000 }
  have clock : Progress secondsSystem (late.put 0 ⟨(), written, .rechecked modelPlan zeroDigest⟩)
      (late.put 0 ⟨(), written, .storing modelPlan zeroDigest⟩) := by
    have older : nextPhase secondsSystem (rewritten changed) 103000000000 [] () (.rechecked modelPlan zeroDigest) =
        .storing modelPlan zeroDigest := by
      cases changed <;> rfl
    exact .advanceTo older
  have store : Progress secondsSystem (late.put 0 ⟨(), written, .storing modelPlan zeroDigest⟩) stored := by
    have step : Progress secondsSystem (late.put 0 ⟨(), written, .storing modelPlan zeroDigest⟩) _ :=
      .store (Function.update_self ..) rfl (Or.inl rfl)
    rw [put_put] at step
    exact step
  have fingerprint : Progress secondsSystem stored (stored.put 1 ⟨(), rewritten changed, .waiting .file recorded⟩) :=
    .beginAt rfl (by cases changed <;> rfl)
  have hit : Progress secondsSystem (stored.put 1 ⟨(), rewritten changed, .waiting .file recorded⟩) (answered changed) :=
    .advanceTo (s := stored) (by cases changed <;> rfl)
  exact (((Relation.ReflTransGen.single clock).tail store).tail fingerprint).tail hit

/-- Where the file is written and time passes in steps that are allowed, the whole run is. -/
theorem rewrite_run {step : State Unit → State Unit → Prop} (changed : Bool)
    (own : ∀ {s s'}, Progress secondsSystem s s' → step s s')
    (write : step readOnce { readOnce with fs := rewritten changed })
    (wait : step (confirmed changed) { confirmed changed with clock := 103000000000 }) :
    Relation.ReflTransGen step early (answered changed) :=
  ((((Relation.ReflTransGen.mono (fun _ _ => own) _ _ reads_file).tail write).tail (own (confirms changed))).tail wait).trans
    (Relation.ReflTransGen.mono (fun _ _ => own) _ _ (answers changed))

theorem writes (changed : Bool) : Environment secondsSystem readOnce { readOnce with fs := rewritten changed } :=
  .write modelId [if changed then 1 else 0] none

theorem waits (changed : Bool) :
    Environment secondsSystem (confirmed changed) { confirmed changed with clock := 103000000000 } :=
  .tick (show (100200000000 : Int) ≤ 103000000000 by decide)

/-- A second write in the tick of the first, between the read and the second fingerprint, goes unnoticed. -/
theorem stale_digest_returned :
    ∃ (sys : System Unit) (start s : State Unit) (call : Call Unit) (digest : ArtifactDigest), Initial start ∧
      Relation.ReflTransGen (fun s s' => Environment sys s s' ∨ Progress sys s s') start s ∧ s.calls 1 = some call ∧
      call.phase = .returned digest true ∧ call.first.hashArtifact sys call.path ≠ .ok digest := by
  have run : Relation.ReflTransGen (fun s s' => Environment secondsSystem s s' ∨ Progress secondsSystem s s') early
      (answered true) := rewrite_run true Or.inr (Or.inl (writes true)) (Or.inl (waits true))
  let call : Call Unit := ⟨(), rewritten true, .returned zeroDigest true⟩
  refine ⟨secondsSystem, early, answered true, call, zeroDigest, ⟨rfl, fun _ => rfl⟩, run, rfl, rfl, ?_⟩
  decide +kernel

/-- Written with the same content, the file leaves the digest right. -/
theorem rewritten_digest_right : (rewritten false).hashArtifact secondsSystem () = .ok zeroDigest := by
  have vouched : Vouches bitSha (rewritten false).content recorded zeroDigest.files := by
    unfold Vouches
    decide +kernel
  have run : Relation.ReflTransGen (CleanStep secondsSystem) early (answered false) := by
    refine rewrite_run false .progress (.environment (writes false) ?_) (.environment (waits false) ?_)
    · intro c call here
      rcases put_calls here with ⟨-, same⟩ | none
      · subst same
        exact fun deceived => deceived.2 vouched
      · cases none
    · intro c call here
      rcases put_calls here with ⟨-, same⟩ | none
      · subst same
        exact fun deceived => deceived.2 vouched
      · cases none
  let call : Call Unit := ⟨(), rewritten false, .returned zeroDigest true⟩
  have here : (answered false).calls 1 = some call := rfl
  exact cached_digest_is_right ⟨rfl, fun _ => rfl⟩ run here rfl

end ModelGuard.Cache
