import ModelGuard.Storage.ConcurrentPut
import ModelGuard.Storage.RoundTrip

/-!
# Blobs stay while puts run

A blob that a `put` has returned for, or that `exists` has reported, is there in every later state. Uploads that skip
what is there can rely on it, and what they have uploaded is downloaded again at any later moment.
-/

namespace ModelGuard.Storage

open Lib Lib.Node ModelGuard.Hashing
open Signing (plainHost)

namespace Volume

variable {ι : Type} [DecidableEq ι] {sha : Sha256} {pid : Str} {calls : ι → PutCall}

/-- There is a file at the blob's place. -/
def Placed (v : Volume ι) (name : Str) : Prop := (v.entries (LocalBlobStore.blobPath name)).isSome

/-- A call that has returned has placed its blob. -/
def Returned (calls : ι → PutCall) (v : Volume ι) : Prop :=
  ∀ i, v.phases i = .finished (.ok ()) → IsSha256 (calls i).sha256 ∧ v.Placed (calls i).sha256

section Step

variable {v : Volume ι} {name : Str}

omit [DecidableEq ι] in
theorem Placed.link_tmp (placed : v.Placed name) (valid : IsSha256 name) (i : ι) :
    (v.link (tmp pid calls i) none).Placed name := by
  have apart : LocalBlobStore.blobPath name ≠ tmp pid calls i := (LocalBlobStore.partPath_ne_blobPath _ _ valid).symm
  unfold Placed link
  dsimp only
  rw [Function.update_of_ne apart]
  exact placed

omit [DecidableEq ι] in
/-- Linking a file to any path takes none away. -/
theorem Placed.link_some (placed : v.Placed name) (path : BlobPath) (file : Nat) : (v.link path (some file)).Placed name := by
  unfold Placed link
  dsimp only
  by_cases same : LocalBlobStore.blobPath name = path
  · rw [same, Function.update_self]
    rfl
  · rw [Function.update_of_ne same]
    exact placed

theorem Placed.advance (placed : v.Placed name) (valid : IsSha256 name) (i : ι) :
    (v.advance sha pid calls i).Placed name := by
  unfold Volume.advance
  split
  · split
    · split <;> exact placed
    · exact placed
  · split
    · exact placed
    · exact placed.link_some _ v.fresh
  · exact placed
  · exact placed
  · split
    · exact placed
    · exact (placed.link_tmp valid i).link_some _ _
  · exact placed.link_tmp valid i
  · exact placed

theorem Placed.step (placed : v.Placed name) (valid : IsSha256 name) (move : Move ι) :
    (v.step sha pid calls move).Placed name := by
  cases move with
  | advance i => exact placed.advance valid i
  | flush i n =>
    show (v.flush i n).Placed name
    unfold Volume.flush
    split <;> exact placed
  | fault i e =>
    show (v.fault i e).Placed name
    unfold Volume.fault
    split <;> exact placed

/-- The last thing that a call does before it returns is to link its file. -/
theorem returns_from_checked {i : ι} (ended : (v.advance sha pid calls i).phases i = .finished (.ok ())) :
    v.phases i = .finished (.ok ()) ∨ ∃ file, v.phases i = .checked file := by
  unfold Volume.advance at ended
  cases phase : v.phases i with
  | waiting =>
    rw [phase] at ended
    dsimp only at ended
    split at ended
    · split at ended <;> cases (enter_same ..).symm.trans ended
    · cases (enter_same ..).symm.trans ended
  | opened chunks =>
    rw [phase] at ended
    dsimp only at ended
    split at ended <;> cases (enter_same ..).symm.trans ended
  | copying file read buffered unread =>
    rw [phase] at ended
    cases unread with
    | nil =>
      have next := (enter_same ..).symm.trans ended
      split at next <;> cases next
    | cons chunk rest => cases (enter_same ..).symm.trans ended
  | checked file => exact .inr ⟨file, rfl⟩
  | failed e =>
    rw [phase] at ended
    cases (enter_same ..).symm.trans ended
  | finished result =>
    rw [phase] at ended
    exact .inl (phase.symm.trans ended)

theorem flush_returns {i j : ι} {n : Nat} (ended : (v.flush j n).phases i = .finished (.ok ())) :
    v.phases i = .finished (.ok ()) := by
  unfold Volume.flush at ended
  split at ended
  · by_cases same : i = j
    · subst same
      cases (enter_same ..).symm.trans ended
    · exact (enter_other same _).symm.trans ended
  · exact ended

theorem fault_returns {i j : ι} {e : Raised} (ended : (v.fault j e).phases i = .finished (.ok ())) :
    v.phases i = .finished (.ok ()) := by
  have entered {phase : PutPhase} (other : phase ≠ .finished (.ok ()))
      (entering : (v.enter j phase).phases i = .finished (.ok ())) : v.phases i = .finished (.ok ()) := by
    by_cases same : i = j
    · subst same
      exact (other ((enter_same ..).symm.trans entering)).elim
    · exact (enter_other same _).symm.trans entering
  unfold Volume.fault at ended
  split at ended
  all_goals first | exact entered (by simp) ended | exact ended

/-- A call returns once it has linked its file to the blob's place. -/
theorem Returned.step (returned : v.Returned calls) (inv : Inv sha pid calls v) (move : Move ι) :
    (v.step sha pid calls move).Returned calls := by
  intro i ended
  have kept (before : v.phases i = .finished (.ok ())) :
      IsSha256 (calls i).sha256 ∧ (v.step sha pid calls move).Placed (calls i).sha256 :=
    ⟨(returned i before).1, (returned i before).2.step (returned i before).1 move⟩
  cases move with
  | advance j =>
    by_cases other : i = j
    · subst other
      rcases returns_from_checked ended with before | ⟨file, checked⟩
      · exact kept before
      · have mine : v.entries (tmp pid calls i) = some file := inv.linked i file (by rw [checked]; rfl)
        have valid : IsSha256 (calls i).sha256 := by
          have backed := inv.backed i
          rw [checked] at backed
          exact backed.1
        have next : v.step sha pid calls (.advance i) =
            ((v.link (tmp pid calls i) none).link (final calls i) (some file)).enter i (.finished (.ok ())) := by
          show v.advance sha pid calls i = _
          unfold Volume.advance
          rw [checked]
          dsimp only
          rw [mine]
        have linked : ((v.link (tmp pid calls i) none).link (final calls i) (some file)).entries (final calls i) = some file :=
          Function.update_self ..
        refine ⟨valid, ?_⟩
        rw [next]
        exact congrArg Option.isSome linked
    · exact kept ((advance_other other).symm.trans ended)
  | flush j n => exact kept (flush_returns ended)
  | fault j e => exact kept (fault_returns ended)

end Step

/-! ### Runs -/

/-- What holds of the directory and of each call while puts run. -/
structure Lasting (sha : Sha256) (pid : Str) (calls : ι → PutCall) (v : Volume ι) : Prop extends Inv sha pid calls v where
  returned : v.Returned calls

omit [DecidableEq ι] in
theorem Lasting.start {v : Volume ι} (start : v.Start sha) : Lasting sha pid calls v where
  toInv := .start start
  returned i ended := by
    rw [start.waiting i] at ended
    cases ended

theorem Lasting.run {v w : Volume ι} (lasting : Lasting sha pid calls v)
    (run : Relation.ReflTransGen (CarefulStep sha pid calls) v w) : Lasting sha pid calls w := by
  refine Transition.holds_after (fun s s' held moved => ?_) run lasting
  obtain ⟨move, careful, same⟩ := moved
  rw [same]
  exact ⟨held.toInv.step careful, held.returned.step held.toInv move⟩

theorem Placed.run {v w : Volume ι} {name : Str} (placed : v.Placed name) (valid : IsSha256 name)
    (run : Relation.ReflTransGen (CarefulStep sha pid calls) v w) : w.Placed name := by
  have keeps (s s' : Volume ι) (held : s.Placed name) (moved : CarefulStep sha pid calls s s') : s'.Placed name := by
    obtain ⟨move, -, same⟩ := moved
    rw [same]
    exact held.step valid move
  exact @Transition.holds_after _ _ (fun s : Volume ι => s.Placed name) keeps _ _ run placed

omit [DecidableEq ι] in
/-- What is at a blob's place has the blob's bytes. -/
theorem Inv.holding {v : Volume ι} {name : Str} (inv : Inv sha pid calls v) (valid : IsSha256 name) (placed : v.Placed name) :
    Holding sha v.store name := by
  obtain ⟨file, linked⟩ := Option.isSome_iff_exists.mp placed
  refine ⟨valid, v.content file, ?_, inv.addressed name valid file linked⟩
  show (v.entries (LocalBlobStore.blobPath name)).map _ = _
  rw [linked]
  rfl

/-- A call has put the blob, or `exists` has reported it. -/
def Delivered (sha : Sha256) (pid : Str) (calls : ι → PutCall) (start v : Volume ι) (name : Str) : Prop :=
  (∃ i, (calls i).sha256 = name ∧ v.phases i = .finished (.ok ())) ∨
    ∃ u, Relation.ReflTransGen (CarefulStep sha pid calls) start u ∧
      Relation.ReflTransGen (CarefulStep sha pid calls) u v ∧ u.store.exists name = .ok true

theorem Delivered.placed {start v : Volume ι} {name : Str} (delivered : Delivered sha pid calls start v name)
    (lasting : Lasting sha pid calls v) : IsSha256 name ∧ v.Placed name := by
  rcases delivered with ⟨i, same, ended⟩ | ⟨u, -, later, found⟩
  · exact same ▸ lasting.returned i ended
  · unfold LocalBlobStore.exists at found
    obtain ⟨checked, named, there⟩ := Fallible.bind_ok.mp found
    obtain ⟨valid, same⟩ := validateSha256_ok.mp named
    rw [same] at there
    have placed : u.Placed name := by
      unfold Placed
      cases linked : u.entries (LocalBlobStore.blobPath name) with
      | none =>
        have absent : u.store.entries (LocalBlobStore.blobPath name) = none := congrArg (Option.map _) linked
        rw [absent] at there
        cases there
      | some file => rfl
    exact ⟨valid, placed.run valid later⟩

end Volume

open Volume

variable {α ι : Type} [DecidableEq ι]

/-- The second call puts the manifest. -/
def zeroByteCalls : Fin 2 → PutCall
  | 0 => ⟨(zeroByteFile (str "a")).sha256, .ok [[0]]⟩
  | 1 => ⟨zeroByteDigest, .ok [zeroByteManifest]⟩

theorem alone_other {v w : Volume ι} {sha : Sha256} {pid : Str} {calls : ι → PutCall} {i j : ι} (ne : j ≠ i)
    (run : Relation.ReflTransGen (fun v w => w = v.advance sha pid calls i) v w) : w.phases j = v.phases j := by
  induction run with
  | refl => rfl
  | tail _ last ih => rw [last, advance_other ne, ih]

theorem isOk_unit {x : Except Raised Unit} (returned : x.isOk = true) : x = .ok () := by
  cases x with
  | ok _ => rfl
  | error e => cases returned

/-- Both calls return. -/
theorem zeroBytePuts_return : ∃ v : Volume (Fin 2),
    Relation.ReflTransGen (CarefulStep zeroByteSha (str "7") zeroByteCalls) (noFiles (Fin 2)) v ∧
      ∀ i, v.phases i = .finished (.ok ()) := by
  have start : (noFiles (Fin 2)).Start zeroByteSha := ⟨fun _ => rfl, nofun, nofun⟩
  obtain ⟨u, first, ended, stored⟩ : EndsAlone zeroByteSha (str "7") zeroByteCalls 0 (noFiles (Fin 2)) _ :=
    put_alone start.numbered rfl (show _ = openRegularNofollow (some (.regular [0] none)) from rfl)
  obtain ⟨careful, idle⟩ := careful_alone (fun _ _ => rfl) first
  have waiting : u.phases 1 = .waiting := alone_other (by decide) first
  have inv : Inv zeroByteSha (str "7") zeroByteCalls u := ((Lasting.start start).run careful).toInv
  have manifest : (zeroByteCalls 1).source.map List.flatten =
      openRegularNofollow (some (.regular zeroByteManifest none)) :=
    congrArg Except.ok (List.append_nil zeroByteManifest)
  obtain ⟨v, second, ended', -⟩ : EndsAlone zeroByteSha (str "7") zeroByteCalls 1 u _ :=
    put_alone inv.numbered waiting manifest
  have returned : (LocalBlobStore.put zeroByteSha (str "7") .none (noFiles (Fin 2)).store (zeroByteCalls 0).sha256
      (some (.regular [0] none))).1.isOk = true := by
    unfold zeroByteCalls zeroByteFile zeroByteSha
    simp only [str_append, byteDigest_spelled, manifestDigest_spelled, manifestHead_spelled, manifestTail_spelled]
    decide
  have returned' : (LocalBlobStore.put zeroByteSha (str "7") .none u.store (zeroByteCalls 1).sha256
      (some (.regular zeroByteManifest none))).1.isOk = true := by
    rw [stored]
    unfold zeroByteCalls zeroByteManifest zeroByteFile zeroByteDigest zeroByteSha
    simp only [str_append, byteDigest_spelled, manifestDigest_spelled, manifestHead_spelled, manifestTail_spelled]
    decide
  rw [isOk_unit returned] at ended
  rw [isOk_unit returned'] at ended'
  have others (j : Fin 2) (ne : j ≠ 1) : (u.phases j).file = none := by
    have same : j = 0 := by omega
    rw [same, ended]
    rfl
  refine ⟨v, careful.trans (careful_alone others second).1, Fin.forall_fin_two.mpr ⟨?_, ended'⟩⟩
  exact (alone_other (by decide) second).trans ended

end ModelGuard.Storage
