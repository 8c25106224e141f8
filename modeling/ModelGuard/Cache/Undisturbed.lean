import ModelGuard.Cache.Hasher
import Mathlib.Logic.Relation

/-!
# Hashing that nobody disturbs

The accesses that a call makes one at a time give, when nothing changes between them, what
`hash_artifact` gives.
-/

namespace ModelGuard.Cache

open Lib Lib.Fallible Lib.Node ModelGuard.Hashing

variable {P : Type} {sys : System P} {fs : FileSystem P} {p : P}

/-- How hashing ends that goes on from `w` on a file system that stays as it is. -/
inductive Ends (sys : System P) (fs : FileSystem P) (p : P) : Walk → Except HashError ArtifactDigest → Prop
  | finish {w : Walk} : w.tasks = [] → Ends sys fs p w (w.finish sys.sha)
  | next {w w' : Walk} {r : Except HashError ArtifactDigest} : w.tasks ≠ [] → walkStep sys fs p w = .ok w' →
      Ends sys fs p w' r → Ends sys fs p w r
  | stop {w : Walk} {e : HashError} : w.tasks ≠ [] → walkStep sys fs p w = .error e → Ends sys fs p w (.error e)

/-- The tasks add the given digests to those at hand, or raise the given error. -/
structure Adds (sys : System P) (fs : FileSystem P) (p : P) (tasks : List Task)
    (result : Except HashError (List FileDigest)) : Prop where
  ok : ∀ own, result = .ok own → ∀ kind rest files r, Ends sys fs p ⟨kind, rest, files ++ own⟩ r →
    Ends sys fs p ⟨kind, tasks ++ rest, files⟩ r
  error : ∀ e, result = .error e → ∀ kind rest files, Ends sys fs p ⟨kind, tasks ++ rest, files⟩ (.error e)

theorem Adds.nil : Adds sys fs p [] (.ok []) where
  ok own same kind rest files r ended := by
    cases same
    rwa [List.append_nil] at ended
  error e same := nomatch same

theorem Adds.append {first second : List Task} {own below : Except HashError (List FileDigest)}
    (h : Adds sys fs p first own) (h' : Adds sys fs p second below) :
    Adds sys fs p (first ++ second) (do return (← own) ++ (← below)) where
  ok all same kind rest files r ended := by
    obtain ⟨a, firstOk, same⟩ := bind_ok.mp same
    obtain ⟨b, secondOk, same⟩ := bind_ok.mp same
    cases pure_ok.mp same
    rw [List.append_assoc]
    rw [← List.append_assoc] at ended
    exact h.ok a firstOk kind _ files r (h'.ok b secondOk kind rest _ r ended)
  error e same kind rest files := by
    rw [List.append_assoc]
    cases own with
    | error e' =>
      cases same
      exact h.error e rfl kind _ files
    | ok a =>
      cases below with
      | error e' =>
        cases same
        exact h.ok a rfl kind _ files _ (h'.error e rfl kind rest _)
      | ok b => cases same

/-- One access that gives a walk to go on with. -/
theorem Adds.access {task : Task} {own : List FileDigest}
    (step : ∀ kind rest files, walkStep sys fs p ⟨kind, task :: rest, files⟩ = .ok ⟨kind, rest, files ++ own⟩) :
    Adds sys fs p [task] (.ok own) where
  ok own same kind rest files r ended := by
    cases same
    exact .next (List.cons_ne_nil _ _) (step kind rest files) ended
  error e same := nomatch same

theorem Adds.raise {task : Task} {tasks : List Task} {e : HashError}
    (step : ∀ kind rest files, walkStep sys fs p ⟨kind, task :: rest, files⟩ = .error e) :
    Adds sys fs p (task :: tasks) (.error e) where
  ok own same := nomatch same
  error e same kind rest files := by
    cases same
    exact .stop (List.cons_ne_nil _ _) (step kind (tasks ++ rest) files)

/-- One access that puts other tasks in its place. -/
theorem Adds.after {task : Task} {tasks : List Task} {result : Except HashError (List FileDigest)}
    (h : Adds sys fs p tasks result)
    (step : ∀ kind rest files, walkStep sys fs p ⟨kind, task :: rest, files⟩ = .ok ⟨kind, tasks ++ rest, files⟩) :
    Adds sys fs p [task] result where
  ok own same kind rest files r ended :=
    .next (List.cons_ne_nil _ _) (step kind rest files) (h.ok own same kind rest files r ended)
  error e same kind rest files := .next (List.cons_ne_nil _ _) (step kind rest files) (h.error e same kind rest files)

theorem nodeAt_append {n : Node FileId} {path below : RelPath} :
    nodeAt (path ++ below) n = (nodeAt path n).bind (nodeAt below) := by
  induction path generalizing n with
  | nil => rfl
  | cons name path ih =>
    cases n with
    | file a => rfl
    | symlink t => rfl
    | dir l entries =>
      show (entries.lookup name).bind (nodeAt (path ++ below)) = _
      cases found : entries.lookup name with
      | none => simp [nodeAt, found]
      | some child => simp [nodeAt, found, ih]

theorem lookup_of_mem {entries : List (FileName × Node FileId)} (names : (entries.map (·.1)).Nodup)
    {e : FileName × Node FileId} (mem : e ∈ entries) : entries.lookup e.1 = some e.2 := by
  obtain ⟨before, after, rfl⟩ := List.append_of_mem mem
  refine List.lookup_eq_some_iff.mpr ⟨before, after, rfl, fun other earlier => ?_⟩
  rw [List.map_append, List.nodup_append] at names
  have apart := names.2.2 _ (List.mem_map_of_mem earlier) e.1 (by simp)
  simpa using Ne.symm apart

/-- The listed entries are where the listing shows them. -/
def ListedAt (fs : FileSystem P) (p : P) (path : RelPath) (entries : List (FileName × Node FileId)) : Prop :=
  ∀ e ∈ entries, (fs.node p).bind (nodeAt (path ++ [e.1])) = some e.2

theorem listedAt {path : RelPath} {l : Bool} {entries : List (FileName × Node FileId)}
    (here : (fs.node p).bind (nodeAt path) = some (.dir l entries)) (names : (entries.map (·.1)).Nodup) :
    ListedAt fs p path entries := by
  intro e mem
  obtain ⟨n, root, at_⟩ := Option.bind_eq_some_iff.mp here
  rw [root, Option.bind_some, nodeAt_append, at_]
  show (entries.lookup e.1).bind (nodeAt []) = some e.2
  rw [lookup_of_mem names mem]
  rfl

theorem fileText_append (name : FileName) (path : RelPath) (last : FileName) :
    fileText name (path ++ [last]) = pathText (path ++ [last]) :=
  if_neg (by simp)

theorem reads_add {path : RelPath} {entries : List (FileName × Node FileId)} (listed : ListedAt fs p path entries)
    (dirs : checkDirnames path entries = .ok ()) :
    Adds sys fs p (readTasks path entries) (hashFilenames sys.sha fs.disk path entries) := by
  induction entries with
  | nil => exact .nil
  | cons e entries ih =>
    obtain ⟨name, n⟩ := e
    have here := listed _ List.mem_cons_self
    have rest : ListedAt fs p path entries := fun e mem => listed e (List.mem_cons_of_mem _ mem)
    cases n with
    | dir l below => exact ih rest dirs
    | symlink t =>
      cases t with
      | directory => cases dirs
      | missing => exact .raise fun kind rest files => by simp [walkStep, here, readError]
      | file => exact .raise fun kind rest files => by simp [walkStep, here, readError]
    | file id =>
      have read : Adds sys fs p [.read (path ++ [name])] (.ok [fileDigest sys.sha fs.disk (path ++ [name], id)]) := by
        refine .access fun kind rest files => ?_
        simp only [walkStep, here, fileText_append]
        rfl
      have both := read.append (ih rest dirs)
      have all : hashFilenames sys.sha fs.disk path ((name, .file id) :: entries) =
          (do return (← .ok [fileDigest sys.sha fs.disk (path ++ [name], id)]) ++
            (← hashFilenames sys.sha fs.disk path entries)) := rfl
      rw [all]
      exact both

theorem lists_add {path : RelPath} {entries : List (FileName × Node FileId)} (listed : ListedAt fs p path entries)
    (ih : ∀ e ∈ entries, ∀ path l below, e.2 = .dir l below → (fs.node p).bind (nodeAt path) = some e.2 →
      Adds sys fs p [.list path] (walk sys.sha fs.disk path e.2)) :
    Adds sys fs p (listTasks path entries) (walkIn sys.sha fs.disk path entries) := by
  induction entries with
  | nil => exact .nil
  | cons e entries ihe =>
    obtain ⟨name, n⟩ := e
    have here := listed _ List.mem_cons_self
    have rest : ListedAt fs p path entries := fun e mem => listed e (List.mem_cons_of_mem _ mem)
    have others := ihe rest fun e mem => ih e (List.mem_cons_of_mem _ mem)
    have skip (none : walk sys.sha fs.disk (path ++ [name]) n = .ok []) :
        walkIn sys.sha fs.disk path ((name, n) :: entries) = walkIn sys.sha fs.disk path entries := by
      rw [walkIn, none]
      cases walkIn sys.sha fs.disk path entries <;> rfl
    cases n with
    | file id => exact skip rfl ▸ others
    | symlink t => exact skip rfl ▸ others
    | dir l below => exact (ih _ List.mem_cons_self (path ++ [name]) l below rfl here).append others

theorem list_adds {n : Node FileId} (distinct : n.Distinct) {path : RelPath} {l : Bool}
    {entries : List (FileName × Node FileId)} (isDir : n = .dir l entries)
    (here : (fs.node p).bind (nodeAt path) = some n) :
    Adds sys fs p [.list path] (walk sys.sha fs.disk path n) := by
  induction n using entryInduction generalizing path l entries with
  | file id => cases isDir
  | symlink t => cases isDir
  | dir l' entries' ih =>
    cases isDir
    cases l' with
    | false => exact .access fun kind rest files => by simp only [walkStep, here, List.append_nil]
    | true =>
      cases distinct with
      | dir names inner =>
        have listed := listedAt here names
        cases dirs : checkDirnames path entries' with
        | error e =>
          have raised : walk sys.sha fs.disk path (.dir true entries') = .error e := by
            rw [walk, dirs]
            rfl
          rw [raised]
          refine .raise fun kind rest files => ?_
          simp only [walkStep, here, dirs]
          rfl
        | ok u =>
          have walked : walk sys.sha fs.disk path (.dir true entries') =
              (do return (← hashFilenames sys.sha fs.disk path entries') ++ (← walkIn sys.sha fs.disk path entries')) := by
            rw [walk, dirs]
            rfl
          rw [walked]
          have both := (reads_add listed dirs).append
            (lists_add listed fun e mem path l below isDir here => ih e mem (inner e mem) isDir here)
          have step (kind : ArtifactType) (rest : List Task) (files : List FileDigest) :
              walkStep sys fs p ⟨kind, .list path :: rest, files⟩ =
                .ok ⟨kind, readTasks path entries' ++ listTasks path entries' ++ rest, files⟩ := by
            simp only [walkStep, here, dirs]
            rfl
          exact both.after step

theorem ends_directory {l : Bool} {entries : List (FileName × Node FileId)} (root : fs.node p = some (.dir l entries)) :
    Ends sys fs p .start (hashDirectory sys.sha fs.disk (.dir l entries)) := by
  have enter : walkStep sys fs p .start = .ok ⟨.directory, [.list []], []⟩ := by simp only [walkStep, Walk.start, root]
  refine .next (List.cons_ne_nil _ _) enter ?_
  have here : (fs.node p).bind (nodeAt []) = some (.dir l entries) := by
    rw [root]
    rfl
  have added : Adds sys fs p [.list []] (walk sys.sha fs.disk [] (.dir l entries)) :=
    list_adds (fs.distinct p _ root) rfl here
  unfold hashDirectory
  cases walked : walk sys.sha fs.disk [] (.dir l entries) with
  | error e => exact added.error e walked .directory [] []
  | ok files =>
    have finished : (⟨.directory, [], files⟩ : Walk).finish sys.sha =
        (do if files.isEmpty then throw HashError.emptyArtifact
            artifactDigestFromFiles sys.sha .directory files) := by
      unfold Walk.finish
      cases files <;> rfl
    have ended : Ends sys fs p ⟨.directory, [], files⟩ ((⟨.directory, [], files⟩ : Walk).finish sys.sha) := .finish rfl
    rw [finished] at ended
    exact added.ok files walked .directory [] [] _ ended

/-- Undisturbed, the accesses give what `hash_artifact` gives. -/
theorem ends_hashArtifact (sys : System P) (fs : FileSystem P) (p : P) :
    Ends sys fs p .start (fs.hashArtifact sys p) := by
  unfold FileSystem.hashArtifact
  cases root : fs.node p with
  | none => exact .stop (List.cons_ne_nil _ _) (by simp only [walkStep, Walk.start, root])
  | some n =>
    cases n with
    | symlink t =>
      cases t <;> exact .stop (List.cons_ne_nil _ _) (by simp only [walkStep, Walk.start, root])
    | file id =>
      have enter : walkStep sys fs p .start = .ok ⟨.file, [.read []], []⟩ := by simp only [walkStep, Walk.start, root]
      have read : walkStep sys fs p ⟨.file, [.read []], []⟩ =
          .ok ⟨.file, [], [⟨(sys.nameOf p).val, sys.sha.hexdigest (fs.content id), (fs.content id).length⟩]⟩ := by
        simp only [walkStep, root, Option.bind_some, nodeAt, fileText, ↓reduceIte, List.nil_append]
      exact .next (List.cons_ne_nil _ _) enter (.next (List.cons_ne_nil _ _) read (.finish rfl))
    | dir l entries => exact ends_directory root

/-! ### A call -/

/-- What a call that hashes comes to: a plan keeps the digest for the second fingerprint. -/
def hashedPhase (plan : Option Plan) : Except HashError ArtifactDigest → Phase
  | .error _ => .raised
  | .ok computed => plan.elim (.returned computed false) fun plan => .hashed plan computed

theorem put_put (s : State P) (c : Nat) (call call' : Call P) : (s.put c call).put c call' = s.put c call' := by
  unfold State.put
  rw [Function.update_idem]

theorem Progress.advanceTo {s : State P} {c : Nat} {p : P} {first : FileSystem P} {phase next : Phase}
    (h : nextPhase sys s.fs s.clock s.entries p phase = next) :
    Progress sys (s.put c ⟨p, first, phase⟩) (s.put c ⟨p, first, next⟩) := by
  have step : Progress sys (s.put c ⟨p, first, phase⟩) _ := .advance (Function.update_self ..) (Or.inl rfl)
  rw [put_put] at step
  exact h ▸ step

/-- A call that nobody disturbs while it hashes comes to the digest of the artifact. -/
theorem undisturbed_call (s : State P) (c : Nat) (first : FileSystem P) (plan : Option Plan) :
    Relation.ReflTransGen (Progress sys) (s.put c ⟨p, first, .hashing plan .start⟩)
      (s.put c ⟨p, first, hashedPhase plan (s.fs.hashArtifact sys p)⟩) := by
  have ended := ends_hashArtifact sys s.fs p
  generalize Walk.start = w, s.fs.hashArtifact sys p = result at ended ⊢
  induction ended with
  | finish done =>
    rename_i w
    refine .single (.advanceTo ?_)
    simp only [nextPhase, done, ↓reduceIte]
    cases w.finish sys.sha with
    | error e => rfl
    | ok computed => cases plan <;> rfl
  | next more step _ ih =>
    refine .head (.advanceTo ?_) ih
    simp only [nextPhase, more, step, ↓reduceIte]
  | stop more step =>
    refine .single (.advanceTo ?_)
    simp only [nextPhase, more, step, ↓reduceIte]
    rfl

end ModelGuard.Cache
