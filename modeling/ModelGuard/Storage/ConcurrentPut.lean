import ModelGuard.Lib.Transition
import ModelGuard.Storage.RefusedPut

/-!
# Puts at the same time

Calls of `LocalBlobStore.put` with one process id, step by step. A descriptor stays with the file that it
was opened on, so files have numbers and the directory leads from paths to numbers.
-/

namespace ModelGuard.Storage

open Lib

/-- The arguments of one call: the name, and what `open_regular_nofollow` makes of the source, read in chunks. -/
structure PutCall where
  sha256 : Str
  source : Except Raised (List Bytes)

/-- How far a call has come. -/
inductive PutPhase where
  | waiting
  | opened (unread : List Bytes)
  /-- The temporary file is open. What was read and is not in the file yet is in the buffer. -/
  | copying (file : Nat) (read buffered : Bytes) (unread : List Bytes)
  /-- The file is closed, and what was read hashes to the name. -/
  | checked (file : Nat)
  /-- In the `except` of `put`, with what it raises again. -/
  | failed (raised : Raised)
  | finished (result : Except Raised Unit)

/-- The temporary file that a call created and means to publish. -/
def PutPhase.file : PutPhase → Option Nat
  | .copying file _ _ _ => some file
  | .checked file => some file
  | _ => none

/-- What the calls share, and where each of them is. -/
structure Volume (ι : Type) where
  entries : BlobPath → Option Nat
  content : Nat → Bytes
  /-- No file has this number or a greater one. -/
  fresh : Nat
  phases : ι → PutPhase

namespace Volume

section Operations

variable {ι : Type} [DecidableEq ι]

def enter (v : Volume ι) (i : ι) (phase : PutPhase) : Volume ι :=
  { v with phases := Function.update v.phases i phase }

def link (v : Volume ι) (path : BlobPath) (file : Option Nat) : Volume ι :=
  { v with entries := Function.update v.entries path file }

def write (v : Volume ι) (file : Nat) (bytes : Bytes) : Volume ι :=
  { v with content := Function.update v.content file (v.content file ++ bytes) }

/-- `os.open` with `O_CREAT | O_EXCL`, of a path that leads nowhere. -/
def create (v : Volume ι) (path : BlobPath) : Volume ι :=
  { v with
    entries := Function.update v.entries path (some v.fresh)
    content := Function.update v.content v.fresh []
    fresh := v.fresh + 1 }

end Operations

variable {ι : Type} (sha : Sha256) (pid : Str) (calls : ι → PutCall)

def tmp (i : ι) : BlobPath := LocalBlobStore.partPath pid (calls i).sha256

def final (i : ι) : BlobPath := LocalBlobStore.blobPath (calls i).sha256

variable [DecidableEq ι]

def fileNotFound : OsError := ⟨str "FileNotFoundError", str "[Errno 2] No such file or directory"⟩

/-- The next operation of a call, carried out. -/
def advance (v : Volume ι) (i : ι) : Volume ι :=
  match v.phases i with
  | .waiting =>
    if IsSha256 (calls i).sha256 then
      match (calls i).source with
      | .error e => v.enter i (.failed e)
      | .ok chunks => v.enter i (.opened chunks)
    else v.enter i (.finished (.error malformedIdentifier))
  | .opened chunks =>
    if (v.entries (tmp pid calls i)).isSome then v.enter i (.failed LocalBlobStore.fileExists.raised)
    else (v.create (tmp pid calls i)).enter i (.copying v.fresh [] [] chunks)
  | .copying file read buffered (chunk :: rest) => v.enter i (.copying file (read ++ chunk) (buffered ++ chunk) rest)
  | .copying file read buffered [] =>
    -- closing the file writes the buffer
    (v.write file buffered).enter i
      (if sha.hexdigest read = (calls i).sha256 then .checked file else .failed LocalBlobStore.refusedSource)
  | .checked _ =>
    match v.entries (tmp pid calls i) with
    | none => v.enter i (.failed fileNotFound.raised)
    | some file => ((v.link (tmp pid calls i) none).link (final calls i) (some file)).enter i (.finished (.ok ()))
  | .failed e => (v.link (tmp pid calls i) none).enter i (.finished (.error e))
  | .finished _ => v

/-- A part of the buffer is written early. -/
def flush (v : Volume ι) (i : ι) (n : Nat) : Volume ι :=
  match v.phases i with
  | .copying file read buffered unread =>
    (v.write file (buffered.take n)).enter i (.copying file read (buffered.drop n) unread)
  | _ => v

/-- The next operation of a call raises. Before the `try`, and within the `except`, that ends the call. -/
def fault (v : Volume ι) (i : ι) (e : Raised) : Volume ι :=
  match v.phases i with
  | .waiting | .failed _ => v.enter i (.finished (.error e))
  | .opened _ | .copying _ _ _ _ | .checked _ => v.enter i (.failed e)
  | .finished _ => v

inductive Move (ι : Type) where
  | advance (i : ι)
  | flush (i : ι) (n : Nat)
  | fault (i : ι) (e : Raised)

def step (v : Volume ι) : Move ι → Volume ι
  | .advance i => v.advance sha pid calls i
  | .flush i n => v.flush i n
  | .fault i e => v.fault i e

/-- The move does not unlink a file that a call means to publish. -/
def Careful (v : Volume ι) : Move ι → Prop
  | .advance i => ∀ e, v.phases i = .failed e → ∀ j, ∀ file ∈ (v.phases j).file, v.entries (tmp pid calls i) ≠ some file
  | _ => True

/-- Every file at a blob's place hashes to the name of the blob. -/
def ContentAddressed (v : Volume ι) : Prop :=
  ∀ name, IsSha256 name → ∀ file ∈ v.entries (LocalBlobStore.blobPath name), sha.hexdigest (v.content file) = name

def Quiet (v : Volume ι) : Prop := ∀ i, v.phases i = .waiting ∨ ∃ result, v.phases i = .finished result

/-- What the phase of a call says about its name and its file. -/
def Backed (v : Volume ι) (name : Str) : PutPhase → Prop
  | .opened _ => IsSha256 name
  | .copying file read buffered _ => IsSha256 name ∧ v.content file ++ buffered = read
  | .checked file => IsSha256 name ∧ sha.hexdigest (v.content file) = name
  | _ => True

/-- Each temporary file belongs to one call, which alone wrote it. -/
structure Inv (v : Volume ι) : Prop where
  numbered : ∀ path, ∀ file ∈ v.entries path, file < v.fresh
  linked : ∀ i, ∀ file ∈ (v.phases i).file, v.entries (tmp pid calls i) = some file
  own : ∀ i j file, file ∈ (v.phases i).file → file ∈ (v.phases j).file → i = j
  unpublished : ∀ i, ∀ file ∈ (v.phases i).file, ∀ name, IsSha256 name →
    v.entries (LocalBlobStore.blobPath name) ≠ some file
  backed : ∀ i, v.Backed sha (calls i).sha256 (v.phases i)
  addressed : v.ContentAddressed sha

section Steps

variable {sha pid calls} {v : Volume ι}

theorem enter_same (v : Volume ι) (i : ι) (phase : PutPhase) : (v.enter i phase).phases i = phase :=
  Function.update_self ..

theorem enter_other {i j : ι} (ne : j ≠ i) (phase : PutPhase) : (v.enter i phase).phases j = v.phases j :=
  Function.update_of_ne ne ..

theorem enter_enter (v : Volume ι) (i : ι) (first second : PutPhase) :
    (v.enter i first).enter i second = v.enter i second := by
  unfold enter
  rw [Function.update_idem]

theorem mem_enter {i j : ι} {phase : PutPhase} {file : Nat} (mem : file ∈ ((v.enter i phase).phases j).file) :
    (j = i ∧ file ∈ phase.file) ∨ (j ≠ i ∧ file ∈ (v.phases j).file) := by
  by_cases same : j = i
  · subst same
    rw [enter_same] at mem
    exact Or.inl ⟨rfl, mem⟩
  · rw [enter_other same] at mem
    exact Or.inr ⟨same, mem⟩

omit [DecidableEq ι] in
/-- What a call says about its file stays true while the file does not change. -/
theorem Backed.of_content {w : Volume ι} {name : Str} {phase : PutPhase} (backed : v.Backed sha name phase)
    (kept : ∀ file ∈ phase.file, w.content file = v.content file) : w.Backed sha name phase := by
  cases phase with
  | copying file read buffered unread =>
    show IsSha256 name ∧ w.content file ++ buffered = read
    rw [kept file rfl]
    exact backed
  | checked file =>
    show IsSha256 name ∧ sha.hexdigest (w.content file) = name
    rw [kept file rfl]
    exact backed
  | opened => exact backed
  | _ => trivial

/-- A call goes on, with the file it has or without one. -/
theorem Inv.enter (inv : Inv sha pid calls v) {i : ι} {phase : PutPhase}
    (keeps : ∀ file ∈ phase.file, file ∈ (v.phases i).file) (backed : v.Backed sha (calls i).sha256 phase) :
    Inv sha pid calls (v.enter i phase) := by
  have held {j : ι} {file : Nat} (mem : file ∈ ((v.enter i phase).phases j).file) : file ∈ (v.phases j).file := by
    rcases mem_enter mem with ⟨same, mem⟩ | ⟨-, mem⟩
    · exact same ▸ keeps file mem
    · exact mem
  constructor
  · exact inv.numbered
  · exact fun j file mem => inv.linked j file (held mem)
  · exact fun j k file first second => inv.own j k file (held first) (held second)
  · exact fun j file mem => inv.unpublished j file (held mem)
  · intro j
    by_cases same : j = i
    · subst same
      rw [enter_same]
      exact backed.of_content fun _ _ => rfl
    · rw [enter_other same]
      exact (inv.backed j).of_content fun _ _ => rfl
  · exact inv.addressed

theorem Inv.fail (inv : Inv sha pid calls v) (i : ι) (e : Raised) : Inv sha pid calls (v.enter i (.failed e)) :=
  inv.enter nofun trivial

theorem Inv.finish (inv : Inv sha pid calls v) (i : ι) (result : Except Raised Unit) :
    Inv sha pid calls (v.enter i (.finished result)) :=
  inv.enter nofun trivial

/-- A part of the buffer goes to the file. -/
theorem Inv.write (inv : Inv sha pid calls v) {i : ι} {file : Nat} {read first rest : Bytes} {unread : List Bytes}
    (copying : v.phases i = .copying file read (first ++ rest) unread) :
    Inv sha pid calls ((v.write file first).enter i (.copying file read rest unread)) := by
  have mine : file ∈ (v.phases i).file := by
    rw [copying]
    rfl
  have held {j : ι} {g : Nat} (mem : g ∈ (((v.write file first).enter i (.copying file read rest unread)).phases j).file) :
      g ∈ (v.phases j).file := by
    rcases mem_enter mem with ⟨same, mem⟩ | ⟨-, mem⟩
    · cases mem
      exact same ▸ mine
    · exact mem
  have kept {g : Nat} (ne : g ≠ file) : (v.write file first).content g = v.content g := Function.update_of_ne ne ..
  constructor
  · exact inv.numbered
  · exact fun j g mem => inv.linked j g (held mem)
  · exact fun j k g first second => inv.own j k g (held first) (held second)
  · exact fun j g mem => inv.unpublished j g (held mem)
  · intro j
    by_cases same : j = i
    · subst same
      have backed := inv.backed j
      rw [copying] at backed
      obtain ⟨valid, whole⟩ := backed
      rw [enter_same, ← whole, ← List.append_assoc]
      exact ⟨valid, congrArg (· ++ rest) (Function.update_self ..)⟩
    · rw [enter_other same]
      apply (inv.backed j).of_content
      intro g mem
      apply kept
      intro taken
      exact same (inv.own j i file (taken ▸ mem) mine)
  · intro name valid g mem
    have ne : g ≠ file := by
      intro same
      rw [same] at mem
      exact inv.unpublished i file mine name valid mem
    show sha.hexdigest ((v.write file first).content g) = name
    rw [kept ne]
    exact inv.addressed name valid g mem

/-- The new temporary file is nobody else's. -/
theorem Inv.create (inv : Inv sha pid calls v) {i : ι} (valid : IsSha256 (calls i).sha256)
    (absent : v.entries (tmp pid calls i) = none) (chunks : List Bytes) :
    Inv sha pid calls ((v.create (tmp pid calls i)).enter i (.copying v.fresh [] [] chunks)) := by
  have older {j : ι} {file : Nat} (mem : file ∈ (v.phases j).file) : file < v.fresh :=
    inv.numbered _ file (inv.linked j file mem)
  have elsewhere {path : BlobPath} (ne : path ≠ tmp pid calls i) :
      (v.create (tmp pid calls i)).entries path = v.entries path := Function.update_of_ne ne ..
  have here : (v.create (tmp pid calls i)).entries (tmp pid calls i) = some v.fresh := Function.update_self ..
  have kept {file : Nat} (old : file < v.fresh) : (v.create (tmp pid calls i)).content file = v.content file :=
    Function.update_of_ne (Nat.ne_of_lt old) ..
  have blobs {name : Str} (valid : IsSha256 name) : (v.create (tmp pid calls i)).entries (LocalBlobStore.blobPath name) =
      v.entries (LocalBlobStore.blobPath name) := elsewhere (LocalBlobStore.partPath_ne_blobPath _ _ valid).symm
  constructor
  · intro path file mem
    change (v.create (tmp pid calls i)).entries path = some file at mem
    by_cases same : path = tmp pid calls i
    · rw [same, here] at mem
      cases mem
      exact Nat.lt_succ_self _
    · rw [elsewhere same] at mem
      exact Nat.lt_succ_of_lt (inv.numbered path file mem)
  · intro j file mem
    show (v.create (tmp pid calls i)).entries (tmp pid calls j) = some file
    rcases mem_enter mem with ⟨same, mem⟩ | ⟨-, mem⟩
    · cases mem
      rw [same, here]
    · have linked := inv.linked j file mem
      have apart : tmp pid calls j ≠ tmp pid calls i := by
        intro paths
        rw [paths, absent] at linked
        cases linked
      rw [elsewhere apart, linked]
  · intro j k file first second
    rcases mem_enter first with ⟨left, first⟩ | ⟨-, first⟩
    · cases first
      rcases mem_enter second with ⟨right, -⟩ | ⟨-, second⟩
      · rw [left, right]
      · exact absurd (older second) (Nat.lt_irrefl _)
    · rcases mem_enter second with ⟨-, second⟩ | ⟨-, second⟩
      · cases second
        exact absurd (older first) (Nat.lt_irrefl _)
      · exact inv.own j k file first second
  · intro j file mem name valid
    show (v.create (tmp pid calls i)).entries _ ≠ _
    rw [blobs valid]
    rcases mem_enter mem with ⟨-, mem⟩ | ⟨-, mem⟩
    · cases mem
      exact fun published => absurd (inv.numbered _ _ published) (Nat.lt_irrefl _)
    · exact inv.unpublished j file mem name valid
  · intro j
    by_cases same : j = i
    · subst same
      rw [enter_same]
      show IsSha256 _ ∧ (v.create (tmp pid calls j)).content v.fresh ++ [] = []
      rw [List.append_nil]
      exact ⟨valid, Function.update_self ..⟩
    · rw [enter_other same]
      exact (inv.backed j).of_content fun file mem => kept (older mem)
  · intro name valid file mem
    change (v.create (tmp pid calls i)).entries _ = some file at mem
    rw [blobs valid] at mem
    show sha.hexdigest ((v.create (tmp pid calls i)).content file) = name
    rw [kept (inv.numbered _ file mem)]
    exact inv.addressed name valid file mem

omit [DecidableEq ι] in
/-- Unlinking what no call means to publish. -/
theorem Inv.unlink (inv : Inv sha pid calls v) {path : BlobPath}
    (careful : ∀ j, ∀ file ∈ (v.phases j).file, v.entries path ≠ some file) : Inv sha pid calls (v.link path none) := by
  have remains {other : BlobPath} {file : Nat} (mem : (v.link path none).entries other = some file) :
      v.entries other = some file := by
    by_cases same : other = path
    · rw [same] at mem
      exact absurd ((Function.update_self ..).symm.trans mem) nofun
    · exact (Function.update_of_ne same ..).symm.trans mem
  constructor
  · exact fun other file mem => inv.numbered other file (remains mem)
  · intro j file mem
    have apart : tmp pid calls j ≠ path := by
      intro same
      exact careful j file mem (same ▸ inv.linked j file mem)
    exact (Function.update_of_ne apart ..).trans (inv.linked j file mem)
  · exact inv.own
  · exact fun j file mem name valid published => inv.unpublished j file mem name valid (remains published)
  · exact fun j => (inv.backed j).of_content fun _ _ => rfl
  · exact fun name valid file mem => inv.addressed name valid file (remains mem)

omit [DecidableEq ι] in
/-- A file that no call writes to is given the name that it hashes to. -/
theorem Inv.publish (inv : Inv sha pid calls v) {i : ι} {file : Nat} (old : file < v.fresh)
    (free : ∀ j, file ∉ (v.phases j).file) (valid : IsSha256 (calls i).sha256)
    (hashes : sha.hexdigest (v.content file) = (calls i).sha256) :
    Inv sha pid calls (v.link (final calls i) (some file)) := by
  have here : (v.link (final calls i) (some file)).entries (final calls i) = some file := Function.update_self ..
  have elsewhere {path : BlobPath} (ne : path ≠ final calls i) :
      (v.link (final calls i) (some file)).entries path = v.entries path := Function.update_of_ne ne ..
  constructor
  · intro path g mem
    by_cases same : path = final calls i
    · rw [same, here] at mem
      cases mem
      exact old
    · rw [elsewhere same] at mem
      exact inv.numbered path g mem
  · intro j g mem
    have apart : tmp pid calls j ≠ final calls i := LocalBlobStore.partPath_ne_blobPath _ _ valid
    rw [elsewhere apart]
    exact inv.linked j g mem
  · exact inv.own
  · intro j g mem name valid
    by_cases same : LocalBlobStore.blobPath name = final calls i
    · rw [same, here]
      intro taken
      cases taken
      exact free j mem
    · rw [elsewhere same]
      exact inv.unpublished j g mem name valid
  · exact fun j => (inv.backed j).of_content fun _ _ => rfl
  · intro name _ g mem
    by_cases same : LocalBlobStore.blobPath name = final calls i
    · rw [same, here] at mem
      cases mem
      rw [LocalBlobStore.blobPath_injective same]
      exact hashes
    · rw [elsewhere same] at mem
      exact inv.addressed name ‹_› g mem

/-- `os.replace` by the call that made the file. -/
theorem Inv.replace (inv : Inv sha pid calls v) {i : ι} {file : Nat} (checked : v.phases i = .checked file)
    (result : Except Raised Unit) :
    Inv sha pid calls
      (((v.link (tmp pid calls i) none).link (final calls i) (some file)).enter i (.finished result)) := by
  have mine : file ∈ (v.phases i).file := by
    rw [checked]
    rfl
  have backed := inv.backed i
  rw [checked] at backed
  have done := inv.finish i result
  have free (j : ι) : file ∉ ((v.enter i (.finished result)).phases j).file := by
    intro mem
    rcases mem_enter mem with ⟨-, mem⟩ | ⟨other, mem⟩
    · cases mem
    · exact other (inv.own j i file mem mine)
  have unlinked : Inv sha pid calls ((v.enter i (.finished result)).link (tmp pid calls i) none) := by
    apply done.unlink
    intro j g mem taken
    have same : some file = some g := (inv.linked i file mine).symm.trans taken
    cases same
    exact free j mem
  exact unlinked.publish (inv.numbered _ file (inv.linked i file mine)) free backed.1 backed.2

theorem Inv.advance (inv : Inv sha pid calls v) {i : ι} (careful : v.Careful pid calls (.advance i)) :
    Inv sha pid calls (v.advance sha pid calls i) := by
  have backed := inv.backed i
  unfold Volume.advance
  cases phase : v.phases i with
  | waiting =>
    dsimp only
    split
    · rename_i valid
      split
      · exact inv.fail i _
      · exact inv.enter nofun valid
    · exact inv.finish i _
  | opened chunks =>
    rw [phase] at backed
    dsimp only
    split
    · exact inv.fail i _
    · rename_i absent
      exact inv.create backed (Option.not_isSome_iff_eq_none.mp absent) chunks
  | copying file read buffered unread =>
    rw [phase] at backed
    cases unread with
    | nil =>
      have closed : Inv sha pid calls ((v.write file buffered).enter i (.copying file read [] [])) := by
        apply inv.write
        rw [phase, List.append_nil]
      dsimp only
      split
      · rename_i hashes
        rw [← enter_enter _ i (.copying file read [] [])]
        apply closed.enter
        · intro g mem
          rw [enter_same]
          exact mem
        · have whole : (v.write file buffered).content file = read := (Function.update_self ..).trans backed.2
          refine ⟨backed.1, ?_⟩
          show sha.hexdigest ((v.write file buffered).content file) = _
          rw [whole, hashes]
      · rw [← enter_enter _ i (.copying file read [] [])]
        exact closed.fail i _
    | cons chunk rest =>
      apply inv.enter
      · intro g mem
        rw [phase]
        exact mem
      · exact ⟨backed.1, by rw [← List.append_assoc, backed.2]⟩
  | checked file =>
    have mine : file ∈ (v.phases i).file := by
      rw [phase]
      rfl
    dsimp only
    rw [inv.linked i file mine]
    exact inv.replace phase _
  | failed e =>
    exact (inv.unlink (careful e phase)).finish i _
  | finished => exact inv

theorem Inv.step (inv : Inv sha pid calls v) {move : Move ι} (careful : v.Careful pid calls move) :
    Inv sha pid calls (v.step sha pid calls move) := by
  cases move with
  | advance i => exact inv.advance careful
  | flush i n =>
    show Inv sha pid calls (v.flush i n)
    unfold Volume.flush
    split
    · rename_i file read buffered unread phase
      apply inv.write
      rw [phase, List.take_append_drop]
    · exact inv
  | fault i e =>
    show Inv sha pid calls (v.fault i e)
    unfold Volume.fault
    split
    all_goals first | exact inv.finish i _ | exact inv.fail i _ | exact inv

end Steps

/-! ### A call that runs alone -/

section Alone

variable {sha pid calls} {v : Volume ι}

omit [DecidableEq ι] in
/-- The directory as `LocalBlobStore` has it. -/
def store (v : Volume ι) : LocalBlobStore where
  entries path := (v.entries path).map fun file => .regular (v.content file) none

/-- The call runs to its end with nothing between its steps, returns the result and leaves the directory. -/
def EndsAlone (sha : Sha256) (pid : Str) (calls : ι → PutCall) (i : ι) (v : Volume ι)
    (outcome : Except Raised Unit × LocalBlobStore) : Prop :=
  ∃ w, Relation.ReflTransGen (fun v w => w = v.advance sha pid calls i) v w ∧
    w.phases i = .finished outcome.1 ∧ w.store = outcome.2

theorem EndsAlone.step {i : ι} {outcome : Except Raised Unit × LocalBlobStore}
    (rest : EndsAlone sha pid calls i (v.advance sha pid calls i) outcome) : EndsAlone sha pid calls i v outcome := by
  obtain ⟨w, run, ended⟩ := rest
  exact ⟨w, .head rfl run, ended⟩

theorem ends_now (v : Volume ι) (i : ι) (result : Except Raised Unit) :
    EndsAlone sha pid calls i (v.enter i (.finished result)) (result, v.store) :=
  ⟨_, .refl, enter_same .., rfl⟩

omit [DecidableEq ι] in
theorem store_link (v : Volume ι) (path : BlobPath) (file : Option Nat) :
    (v.link path file).store = v.store.set path (file.map fun g => .regular (v.content g) none) := by
  unfold store link LocalBlobStore.set
  congr 1
  funext other
  dsimp only
  by_cases same : other = path
  · subst same
    rw [Function.update_self, Function.update_self]
  · rw [Function.update_of_ne same, Function.update_of_ne same]

omit [DecidableEq ι] in
/-- The temporary file, with all that was written to it. -/
theorem store_created (numbered : ∀ path, ∀ file ∈ v.entries path, file < v.fresh) (path : BlobPath) (bytes : Bytes) :
    ((v.create path).write v.fresh bytes).store = v.store.set path (some (.regular bytes none)) := by
  have content : ((v.create path).write v.fresh bytes).content v.fresh = bytes := by
    unfold write create
    dsimp only
    rw [Function.update_self, Function.update_self, List.nil_append]
  unfold store LocalBlobStore.set
  congr 1
  funext other
  by_cases same : other = path
  · subst same
    have here : ((v.create other).write v.fresh bytes).entries other = some v.fresh := Function.update_self ..
    rw [here, Function.update_self, Option.map_some, content]
  · have elsewhere : ((v.create path).write v.fresh bytes).entries other = v.entries other := Function.update_of_ne same ..
    rw [elsewhere, Function.update_of_ne same]
    show _ = (v.entries other).map _
    cases entry : v.entries other with
    | none => rfl
    | some file =>
      have ne : file ≠ v.fresh := Nat.ne_of_lt (numbered other file entry)
      have kept : ((v.create path).write v.fresh bytes).content file = v.content file := by
        unfold write create
        dsimp only
        rw [Function.update_of_ne ne, Function.update_of_ne ne]
      rw [Option.map_some, Option.map_some, kept]

theorem fails_alone (v : Volume ι) (i : ι) (e : Raised) :
    EndsAlone sha pid calls i (v.enter i (.failed e)) (.error e, v.store.set (tmp pid calls i) none) := by
  apply EndsAlone.step
  have next : (v.enter i (.failed e)).advance sha pid calls i =
      ((v.enter i (.failed e)).link (tmp pid calls i) none).enter i (.finished (.error e)) := by
    unfold advance
    rw [enter_same]
  have store : ((v.enter i (.failed e)).link (tmp pid calls i) none).store = v.store.set (tmp pid calls i) none :=
    store_link _ _ none
  rw [next, ← store]
  exact ends_now ..

theorem replaces_alone {i : ι} {file : Nat} (linked : v.entries (tmp pid calls i) = some file) :
    EndsAlone sha pid calls i (v.enter i (.checked file))
      (.ok (), (v.store.set (tmp pid calls i) none).set (final calls i) (some (.regular (v.content file) none))) := by
  apply EndsAlone.step
  have next : (v.enter i (.checked file)).advance sha pid calls i =
      (((v.enter i (.checked file)).link (tmp pid calls i) none).link (final calls i) (some file)).enter i
        (.finished (.ok ())) := by
    have here : (v.enter i (.checked file)).entries (tmp pid calls i) = some file := linked
    unfold advance
    rw [enter_same]
    dsimp only
    rw [here]
  have store : (((v.enter i (.checked file)).link (tmp pid calls i) none).link (final calls i) (some file)).store =
      (v.store.set (tmp pid calls i) none).set (final calls i) (some (.regular (v.content file) none)) := by
    rw [store_link, store_link]
    rfl
  rw [next, ← store]
  exact ends_now ..

/-- The loop moves all chunks to the buffer. -/
theorem copies_alone {i : ι} {file : Nat} {read buffered : Bytes} {unread : List Bytes}
    {outcome : Except Raised Unit × LocalBlobStore}
    (rest : EndsAlone sha pid calls i
      (v.enter i (.copying file (read ++ unread.flatten) (buffered ++ unread.flatten) [])) outcome) :
    EndsAlone sha pid calls i (v.enter i (.copying file read buffered unread)) outcome := by
  induction unread generalizing read buffered with
  | nil =>
    rw [List.flatten_nil, List.append_nil, List.append_nil] at rest
    exact rest
  | cons chunk unread ih =>
    apply EndsAlone.step
    unfold advance
    rw [enter_same]
    dsimp only
    rw [enter_enter]
    apply ih
    rw [List.flatten_cons, ← List.append_assoc, ← List.append_assoc] at rest
    exact rest

/-- What the body of the `try` and the `except` make of a source that opens. -/
theorem opened_alone (numbered : ∀ path, ∀ file ∈ v.entries path, file < v.fresh) (i : ι) (chunks : List Bytes) :
    EndsAlone sha pid calls i (v.enter i (.opened chunks))
      (if (v.entries (tmp pid calls i)).isSome then
        (.error LocalBlobStore.fileExists.raised, v.store.set (tmp pid calls i) none)
      else
        let copied := v.store.set (tmp pid calls i) (some (.regular chunks.flatten none))
        if sha.hexdigest chunks.flatten = (calls i).sha256 then
          (.ok (), (copied.set (tmp pid calls i) none).set (final calls i) (some (.regular chunks.flatten none)))
        else (.error LocalBlobStore.refusedSource, copied.set (tmp pid calls i) none)) := by
  apply EndsAlone.step
  unfold advance
  rw [enter_same]
  show EndsAlone sha pid calls i (if (v.entries (tmp pid calls i)).isSome = true then _ else _) _
  split
  · rw [enter_enter]
    exact fails_alone v i _
  · have created : ((v.enter i (.opened chunks)).create (tmp pid calls i)).enter i (.copying v.fresh [] [] chunks) =
        (v.create (tmp pid calls i)).enter i (.copying v.fresh [] [] chunks) :=
      enter_enter (v.create (tmp pid calls i)) i (.opened chunks) _
    have copied := store_created numbered (tmp pid calls i) chunks.flatten
    have linked : ((v.create (tmp pid calls i)).write v.fresh chunks.flatten).entries (tmp pid calls i) = some v.fresh :=
      Function.update_self ..
    have content : ((v.create (tmp pid calls i)).write v.fresh chunks.flatten).content v.fresh = chunks.flatten := by
      unfold write create
      dsimp only
      rw [Function.update_self, Function.update_self, List.nil_append]
    show EndsAlone sha pid calls i
      (((v.enter i (.opened chunks)).create (tmp pid calls i)).enter i (.copying v.fresh [] [] chunks)) _
    rw [created]
    apply copies_alone
    apply EndsAlone.step
    unfold advance
    rw [enter_same]
    dsimp only
    rw [List.nil_append, ← copied]
    have closed (phase : PutPhase) :
        (((v.create (tmp pid calls i)).enter i (.copying v.fresh chunks.flatten chunks.flatten [])).write v.fresh
          chunks.flatten).enter i phase =
        ((v.create (tmp pid calls i)).write v.fresh chunks.flatten).enter i phase :=
      enter_enter ((v.create (tmp pid calls i)).write v.fresh chunks.flatten) i _ phase
    rw [closed]
    split
    · have replaced : EndsAlone sha pid calls i _ _ := replaces_alone linked
      rw [content] at replaced
      exact replaced
    · exact fails_alone _ i _

/-- A call that nothing disturbs does what `put` does. -/
theorem put_alone (numbered : ∀ path, ∀ file ∈ v.entries path, file < v.fresh) {i : ι} (waiting : v.phases i = .waiting)
    {source : Option Entry} (reads : (calls i).source.map List.flatten = openRegularNofollow source) :
    EndsAlone sha pid calls i v (LocalBlobStore.put sha pid .none v.store (calls i).sha256 source) := by
  apply EndsAlone.step
  unfold advance
  rw [waiting]
  dsimp only
  split
  · rename_i valid
    have named : validateSha256 (calls i).sha256 = .ok (calls i).sha256 := if_pos valid
    cases opened : (calls i).source with
    | error e =>
      have failing : LocalBlobStore.put sha pid .none v.store (calls i).sha256 source =
          (.error e, v.store.set (tmp pid calls i) none) := by
        rw [opened] at reads
        unfold LocalBlobStore.put LocalBlobStore.publish
        rw [named, ← reads]
        rfl
      rw [failing]
      exact fails_alone v i e
    | ok chunks =>
      have ended : EndsAlone sha pid calls i (v.enter i (.opened chunks)) _ := opened_alone numbered i chunks
      have present : (v.store.entries (LocalBlobStore.partPath pid (calls i).sha256)).isSome =
          (v.entries (tmp pid calls i)).isSome := Option.isSome_map
      have noDirectory : v.store.entries (LocalBlobStore.blobPath (calls i).sha256) ≠ some .directory := by
        show (v.entries (final calls i)).map _ ≠ _
        cases v.entries (final calls i) with
        | none => exact nofun
        | some _ => exact nofun
      have content : openRegularNofollow source = .ok chunks.flatten := by
        rw [opened] at reads
        exact reads.symm
      unfold LocalBlobStore.put LocalBlobStore.publish
      rw [named, content]
      dsimp only [PutFaults.none]
      rw [present]
      by_cases taken : (v.entries (tmp pid calls i)).isSome = true
      · rw [if_pos taken] at ended ⊢
        exact ended
      · rw [if_neg taken] at ended ⊢
        by_cases hashes : sha.hexdigest chunks.flatten = (calls i).sha256
        · rw [if_neg (not_not.mpr hashes), if_neg noDirectory]
          dsimp only at ended
          rw [if_pos hashes] at ended
          exact ended
        · rw [if_pos hashes]
          dsimp only at ended
          rw [if_neg hashes] at ended
          exact ended
  · rename_i invalid
    have refused : validateSha256 (calls i).sha256 = .error malformedIdentifier := if_neg invalid
    unfold LocalBlobStore.put
    rw [refused]
    exact ends_now ..

end Alone

/-! ### Any number of calls -/

section Runs

variable {sha pid calls}

/-- No call has begun, and the directory is in order. Temporary files may have been left behind. -/
structure Start (sha : Sha256) (v : Volume ι) : Prop where
  waiting : ∀ i, v.phases i = .waiting
  numbered : ∀ path, ∀ file ∈ v.entries path, file < v.fresh
  addressed : v.ContentAddressed sha

omit [DecidableEq ι] in
theorem Inv.start {v : Volume ι} (start : v.Start sha) : Inv sha pid calls v := by
  have none (i : ι) : (v.phases i).file = none := by rw [start.waiting i]; rfl
  constructor
  · exact start.numbered
  · intro i file mem
    rw [none i] at mem
    cases mem
  · intro i j file mem
    rw [none i] at mem
    cases mem
  · intro i file mem
    rw [none i] at mem
    cases mem
  · intro i
    rw [start.waiting i]
    trivial
  · exact start.addressed

def CarefulStep (sha : Sha256) (pid : Str) (calls : ι → PutCall) (v w : Volume ι) : Prop :=
  ∃ move, v.Careful pid calls move ∧ w = v.step sha pid calls move

theorem advance_other {v : Volume ι} {i j : ι} (ne : j ≠ i) : (v.advance sha pid calls i).phases j = v.phases j := by
  unfold advance
  split
  · split
    · split <;> exact enter_other ne _
    · exact enter_other ne _
  · split <;> exact enter_other ne _
  · exact enter_other ne _
  · exact enter_other ne _
  · split <;> exact enter_other ne _
  · exact enter_other ne _
  · rfl

/-- A call that runs while no other has a file is careful. -/
theorem careful_alone {v w : Volume ι} {i : ι} (others : ∀ j, j ≠ i → (v.phases j).file = none)
    (run : Relation.ReflTransGen (fun v w => w = v.advance sha pid calls i) v w) :
    Relation.ReflTransGen (CarefulStep sha pid calls) v w ∧ ∀ j, j ≠ i → (w.phases j).file = none := by
  induction run with
  | refl => exact ⟨.refl, others⟩
  | @tail u w _ last ih =>
    obtain ⟨run, idle⟩ := ih
    have careful : u.Careful pid calls (.advance i) := by
      intro e failed j file mem
      by_cases same : j = i
      · rw [same, failed] at mem
        cases mem
      · rw [idle j same] at mem
        cases mem
    refine ⟨run.tail ⟨.advance i, careful, last⟩, ?_⟩
    intro j ne
    rw [last, advance_other ne]
    exact idle j ne

theorem run_of_moves (start : Volume ι) (moves : List (Move ι)) :
    Relation.ReflTransGen (fun v w => ∃ move, w = v.step sha pid calls move) start
      (moves.foldl (step sha pid calls) start) := by
  induction moves generalizing start with
  | nil => exact .refl
  | cons move moves ih => exact .head ⟨move, rfl⟩ (ih _)

end Runs

/-! ### Three puts of one name -/

def noFiles (ι : Type) : Volume ι where
  entries _ := none
  content _ := []
  fresh := 0
  phases _ := .waiting

theorem noFiles_start (ι : Type) : (noFiles ι).Start sampleSha256 := ⟨fun _ => rfl, nofun, nofun⟩

/-- Two sources that hash to the name, and an empty one. -/
def letterCalls : Fin 3 → PutCall
  | 0 => ⟨letterSha256, .ok [[0x78]]⟩
  | 1 => ⟨letterSha256, .ok [[0x78]]⟩
  | 2 => ⟨letterSha256, .ok []⟩

/-- The second call fails and unlinks the file of the first, the third creates its own, and the first publishes that. -/
def lostRace : List (Move (Fin 3)) :=
  [.advance 0, .advance 0, .advance 0, .advance 0, .advance 1, .advance 1, .advance 1, .advance 2, .advance 2, .advance 0,
    .advance 2, .advance 2]

def raced : Volume (Fin 3) := lostRace.foldl (step sampleSha256 (str "7") letterCalls) (noFiles (Fin 3))

theorem raced_phases : raced.phases 0 = .finished (.ok ()) ∧
    raced.phases 1 = .finished (.error LocalBlobStore.fileExists.raised) ∧
    raced.phases 2 = .finished (.error LocalBlobStore.refusedSource) := ⟨rfl, rfl, rfl⟩

theorem raced_blob : raced.entries (LocalBlobStore.blobPath letterSha256) = some 1 ∧ raced.content 1 = [] := ⟨rfl, rfl⟩

end Volume

end ModelGuard.Storage
