import ModelGuard.Storage.GetTo

/-!
# What fetching into a directory touches

Fetching a blob to a path below a directory changes nothing outside of that directory, however it ends.
-/

namespace ModelGuard.Storage

open Lib Lib.Prog Lib.Node ModelGuard.Hashing

/-! ### Worlds -/

namespace World

variable {w : World}

@[simp] theorem side_setSide (w : World) (t : Node.Tree Bytes) (b : Bool) : (w.setSide t b).side b = t := by
  cases b <;> rfl

@[simp] theorem side_setSide_not (w : World) (t : Node.Tree Bytes) (b : Bool) : (w.setSide t b).side (!b) = w.side (!b) := by
  cases b <;> rfl

@[simp] theorem side_tick (w : World) (b : Bool) : w.tick.side b = w.side b := by
  cases b <;> rfl

theorem put_main {spot : Spot} (main : spot.temporary = false) (n : Node.Tree Bytes) :
    w.put spot n = { w with tree := graft spot.path n w.tree } := by
  unfold put
  rw [main]
  rfl

theorem find_main {spot : Spot} (main : spot.temporary = false) : w.find spot = Node.find spot.path w.tree := by
  unfold find
  rw [main]
  rfl

theorem isDir_iff {spot : Spot} : w.isDir spot = true ↔ ∃ l entries, w.find spot = some (.dir l entries) := by
  unfold isDir
  split
  · rename_i l entries found
    exact iff_of_true rfl ⟨l, entries, found⟩
  · rename_i other
    refine iff_of_false nofun ?_
    intro ⟨l, entries, found⟩
    exact other l entries found

end World

variable {w : World}

/-- A path to something in a directory ends with a name. -/
theorem split_spot {spot : Spot} (absent : w.find spot = none) (parent : w.isDir spot.parent = true) :
    ∃ d name, spot.path = d ++ [name] ∧ IsDir (w.side spot.temporary) d := by
  obtain ⟨l, entries, found⟩ := World.isDir_iff.mp parent
  rcases List.eq_nil_or_concat spot.path with root | ⟨d, name, last⟩
  · unfold World.find Spot.parent at *
    dsimp only at found
    rw [root, List.dropLast_nil, root.symm, absent] at found
    cases found
  · rw [List.concat_eq_append] at last
    unfold World.find Spot.parent at found
    dsimp only at found
    rw [last, List.dropLast_concat] at found
    exact ⟨d, name, last, l, entries, found⟩

theorem find_put {spot : Spot} (absent : w.find spot = none) (parent : w.isDir spot.parent = true) (n : Node.Tree Bytes) :
    (w.put spot n).find spot = n := by
  obtain ⟨d, name, last, l, entries, found⟩ := split_spot absent parent
  unfold World.find World.put
  rw [World.side_setSide, last]
  exact find_graft_entry found name n

/-- Nothing changes but what the directory holds. -/
structure Inside (base : Spot) (before after : World) : Prop where
  dir : ∃ l entries, after.side base.temporary = graft base.path (some (.dir l entries)) (before.side base.temporary)
  other : after.side (!base.temporary) = before.side (!base.temporary)

/-- Where the directory is there, nothing but what it holds changes. -/
def Confined (base : Spot) (before after : World) : Prop := before.isDir base = true → Inside base before after

section Confined

variable {base : Spot} {w w' : World}

theorem inside_same (dir : w.isDir base = true) (sides : ∀ b, w'.side b = w.side b) : Inside base w w' := by
  obtain ⟨l, entries, found⟩ := World.isDir_iff.mp dir
  refine ⟨⟨l, entries, ?_⟩, sides _⟩
  rw [sides]
  exact (graft_self found).symm

theorem Inside.isDir (inside : Inside base w w') (dir : w.isDir base = true) : w'.isDir base = true := by
  obtain ⟨l, entries, same⟩ := inside.dir
  obtain ⟨l', entries', found⟩ := World.isDir_iff.mp dir
  refine World.isDir_iff.mpr ⟨l, entries, ?_⟩
  unfold World.find
  rw [same]
  exact find_graft found _

theorem confined_refl (base : Spot) (w : World) : Confined base w w := fun dir => inside_same dir fun _ => rfl

theorem confined_trans (base : Spot) (w w' w'' : World) (first : Confined base w w') (second : Confined base w' w'') :
    Confined base w w'' := by
  intro dir
  have here := first dir
  have there := second (here.isDir dir)
  obtain ⟨l, entries, same⟩ := here.dir
  obtain ⟨l', entries', same'⟩ := there.dir
  refine ⟨⟨l', entries', ?_⟩, there.other.trans here.other⟩
  rw [same', same, graft_graft]

/-- A path below the directory. -/
def Below (base spot : Spot) : Prop := spot.temporary = base.temporary ∧ ∃ q, q ≠ [] ∧ spot.path = base.path ++ q

theorem confined_put {spot : Spot} (below : Below base spot) (n : Node.Tree Bytes) : Confined base w (w.put spot n) := by
  intro dir
  obtain ⟨same, q, more, path⟩ := below
  obtain ⟨l, entries, found⟩ := World.isDir_iff.mp dir
  unfold World.find at found
  unfold World.put
  rw [same, path]
  refine ⟨?_, World.side_setSide_not w _ _⟩
  rw [World.side_setSide, graft_append, found]
  cases q with
  | nil => exact (more rfl).elim
  | cons name q => exact ⟨l, _, rfl⟩

theorem confined_of_sides (sides : ∀ b, w'.side b = w.side b) : Confined base w w' := fun dir => inside_same dir sides

/-! ### The calls -/

variable {m : Machine}

theorem confined_call (c : SystemCall) : Moves (Confined base) (m.call c) := by
  refine moves_iff.mpr fun w => ?_
  unfold Machine.call
  split
  · exact confined_of_sides (World.side_tick w)
  · exact confined_of_sides (World.side_tick w)

theorem confined_place {spot : Spot} (below : Below base spot) (n : Node Bytes) :
    Moves (Confined base) (Machine.place spot n) := by
  refine moves_iff.mpr fun w => ?_
  unfold Machine.place
  split
  · exact confined_refl base w
  · split
    · exact confined_put below _
    · exact confined_refl base w

/-- Something new is put where nothing was, in a directory. -/
theorem place_ends (spot : Spot) (n : Node Bytes) (w : World) :
    Ends (Machine.place spot n) w
      (fun _ w' => w' = w.put spot (some n) ∧ w.find spot = none ∧ w.isDir spot.parent = true) fun _ w' => w' = w := by
  unfold Machine.place Ends
  dsimp only
  split
  · rename_i run
    split at run
    · cases run
    · rename_i free
      split at run
      · rename_i parent
        cases run
        exact ⟨rfl, by simpa using free, parent⟩
      · cases run
  · rename_i run
    split at run
    · cases run
      rfl
    · split at run
      · cases run
      · cases run
        rfl

theorem confined_move {source target : Spot} (sourceBelow : Below base source) (targetBelow : Below base target) :
    Moves (Confined base) (Machine.move source target) := by
  refine moves_iff.mpr fun w => ?_
  unfold Machine.move
  split
  · exact confined_refl base w
  · split
    · exact confined_refl base w
    · split
      · exact confined_trans base _ _ _ (confined_put sourceBelow none) (confined_put targetBelow _)
      · exact confined_refl base w

theorem confined_bind {α β : Type} {x : Prog Raised World α} {f : α → Prog Raised World β}
    (first : Moves (Confined base) x) (rest : ∀ a, Moves (Confined base) (f a)) : Moves (Confined base) (x >>= f) :=
  moves_bind (confined_trans base) first rest

theorem confined_pure {α : Type} (a : α) : Moves (Confined base) (pure a : Prog Raised World α) :=
  moves_pure (confined_refl base) a

theorem confined_raise {α : Type} (e : Raised) : Moves (Confined base) (raise e : Prog Raised World α) :=
  moves_raise (confined_refl base) e

/-! ### Paths below a directory -/

/-- The text of the path goes through the directory. -/
def Under (m : Machine) (base : Spot) (p : Place) : Prop :=
  p.temporary = base.temporary ∧
    ∃ top rest, p.names = top ++ rest ∧ rest ≠ [] ∧ top.mapM m.onDisk = some base.path

theorem locate_ok {p : Place} {spot : Spot} :
    m.locate p = .ok spot ↔ spot.temporary = p.temporary ∧ p.names.mapM m.onDisk = some spot.path := by
  obtain ⟨temporary, path⟩ := spot
  unfold Machine.locate
  cases p.names.mapM m.onDisk with
  | none => exact ⟨nofun, fun h => nomatch h.2⟩
  | some found =>
    simp only [Except.ok.injEq, Spot.mk.injEq, Option.some.injEq]
    exact and_congr_left fun _ => eq_comm

theorem mapM_append_some {α β : Type} {f : α → Option β} {top rest : List α} {out : List β} :
    (top ++ rest).mapM f = some out ↔ ∃ a b, top.mapM f = some a ∧ rest.mapM f = some b ∧ out = a ++ b := by
  rw [List.mapM_append]
  simp only [Option.bind_eq_bind, Option.bind_eq_some_iff, Option.pure_def, Option.some.injEq]
  constructor
  · intro ⟨a, first, b, last, whole⟩
    exact ⟨a, b, first, last, whole.symm⟩
  · intro ⟨a, b, first, last, whole⟩
    exact ⟨a, first, b, last, whole.symm⟩

theorem mapM_singleton_some {α β : Type} {f : α → Option β} {a : α} {out : List β} :
    [a].mapM f = some out ↔ ∃ b, f a = some b ∧ out = [b] := by
  rw [List.mapM_cons, List.mapM_nil]
  cases f a with
  | none => exact ⟨nofun, fun h => nomatch h.choose_spec.1⟩
  | some b =>
    constructor
    · intro made
      exact ⟨b, rfl, (Option.some.inj made).symm⟩
    · intro ⟨b', same, whole⟩
      rw [whole, ← Option.some.inj same]
      rfl

theorem locate_parent {p : Place} {spot : Spot} (located : m.locate p = .ok spot) :
    m.locate (Machine.parent p) = .ok spot.parent := by
  obtain ⟨side, names⟩ := locate_ok.mp located
  refine locate_ok.mpr ⟨side, ?_⟩
  unfold Machine.parent Spot.parent
  dsimp only
  rcases List.eq_nil_or_concat p.names with root | ⟨d, name, last⟩
  · rw [root] at names ⊢
    have none := Option.some.inj names
    rw [← none]
    rfl
  · rw [List.concat_eq_append] at last
    rw [last] at names ⊢
    obtain ⟨a, b, first, own, whole⟩ := mapM_append_some.mp names
    obtain ⟨y, -, single⟩ := mapM_singleton_some.mp own
    rw [whole, single, List.dropLast_concat, List.dropLast_concat]
    exact first

/-- The spot of a path that goes on below the directory. -/
theorem locate_append {p : Place} {base spot : Spot} {top rest : List Str} (side : p.temporary = base.temporary)
    (names : p.names = top ++ rest) (located : top.mapM m.onDisk = some base.path) (found : m.locate p = .ok spot) :
    spot.temporary = base.temporary ∧ ∃ q, rest.mapM m.onDisk = some q ∧ spot.path = base.path ++ q := by
  obtain ⟨same, path⟩ := locate_ok.mp found
  rw [names] at path
  obtain ⟨a, b, first, last, whole⟩ := mapM_append_some.mp path
  rw [located] at first
  cases first
  exact ⟨same.trans side, b, last, whole⟩

theorem Under.below {p : Place} {spot : Spot} (under : Under m base p) (found : m.locate p = .ok spot) : Below base spot := by
  obtain ⟨side, top, rest, names, more, located⟩ := under
  obtain ⟨same, q, last, path⟩ := locate_append side names located found
  refine ⟨same, q, ?_, path⟩
  intro none
  subst none
  cases rest with
  | nil => exact more rfl
  | cons name rest =>
    rw [List.mapM_cons] at last
    obtain ⟨_, -, last⟩ := Option.bind_eq_some_iff.mp last
    obtain ⟨_, -, last⟩ := Option.bind_eq_some_iff.mp last
    cases last

theorem Under.withName {p : Place} (under : Under m base p) (name : Str) : Under m base (p.withName name) := by
  obtain ⟨side, top, rest, names, more, located⟩ := under
  refine ⟨side, top, rest.dropLast ++ [name], ?_, by simp, located⟩
  unfold Place.withName
  dsimp only
  rw [names, List.dropLast_append_of_ne_nil more, List.append_assoc]

theorem under_join {p : Place} (located : m.locate p = .ok base) (text : Str) : Under m base (Machine.join p text) := by
  obtain ⟨side, path⟩ := locate_ok.mp located
  exact ⟨side.symm, p.names, _, rfl, List.splitOn_ne_nil _ _, path⟩

/-! ### Fetching -/

theorem confined_occupied (p : Place) : Moves (Confined base) (m.occupied p) := by
  unfold Machine.occupied
  refine moves_ofExcept_bind (confined_refl base) fun spot _ => ?_
  exact confined_bind (confined_call _) fun _ => moves_observe (confined_refl base) _

theorem confined_uuidHex : Moves (Confined base) m.uuidHex :=
  moves_iff.mpr fun w => confined_of_sides (World.side_tick w)

theorem confined_unlink {p : Place} (under : Under m base p) : Moves (Confined base) (m.unlink p) := by
  unfold Machine.unlink
  refine moves_ofExcept_bind (confined_refl base) fun spot found => ?_
  refine confined_bind (moves_observe (confined_refl base) _) fun there => ?_
  split
  · exact confined_pure _
  · exact confined_raise _
  · exact moves_update fun w => confined_put (under.below found) none

theorem confined_rename {p q : Place} (underP : Under m base p) (underQ : Under m base q) :
    Moves (Confined base) (m.rename p q) := by
  unfold Machine.rename
  refine moves_ofExcept_bind (confined_refl base) fun source found => ?_
  refine moves_ofExcept_bind (confined_refl base) fun target found' => ?_
  exact confined_bind (confined_call _) fun _ => confined_move (underP.below found) (underQ.below found')

theorem confined_writeChunks {tmp : Spot} (below : Below base tmp) (maxBytes : Int) (written : Bytes) (chunks : List Bytes) :
    Moves (Confined base) (m.writeChunks tmp maxBytes written chunks) := by
  induction chunks generalizing written with
  | nil => exact confined_pure _
  | cons chunk chunks ih =>
    unfold Machine.writeChunks
    split
    · exact confined_raise _
    · refine confined_bind (confined_call _) fun _ => ?_
      exact confined_bind (moves_update fun w => confined_put below _) fun _ => ih _

theorem confined_writeBody {stream : Stream} {tmp dest : Place} (underTmp : Under m base tmp) (under : Under m base dest)
    (expected : Str) (maxBytes : Int) : Moves (Confined base) (m.writeBody stream tmp dest expected maxBytes) := by
  unfold Machine.writeBody
  refine moves_ofExcept_bind (confined_refl base) fun spot found => ?_
  refine confined_bind (confined_call _) fun _ => ?_
  refine confined_bind (confined_place (underTmp.below found) _) fun _ => ?_
  refine confined_bind (confined_writeChunks (underTmp.below found) _ _ _) fun content => ?_
  refine confined_bind (moves_ofExcept (confined_refl base) _) fun _ => ?_
  split
  · exact confined_rename underTmp under
  · exact confined_raise _

theorem confined_writeVerified {stream : Stream} {dest : Place} (under : Under m base dest) (expected : Str) (maxBytes : Int) :
    Moves (Confined base) (m.writeVerified stream dest expected maxBytes) := by
  unfold Machine.writeVerified
  refine confined_bind (confined_occupied dest) fun taken => ?_
  split
  · exact confined_raise _
  · refine confined_bind confined_uuidHex fun hex => ?_
    refine moves_onError (confined_trans base) ?_ fun e => ?_
    · exact confined_writeBody (under.withName _) under expected maxBytes
    · exact confined_bind (confined_unlink (under.withName _)) fun _ => confined_raise e

end Confined

/-- A store that touches nothing but what is below a directory, when it fetches to a path below it. -/
def BlobStore.Confined (m : Machine) (store : BlobStore World Place) : Prop :=
  ∀ base dest, Under m base dest → ∀ sha256 maxBytes, Moves (Storage.Confined base) (store.getTo sha256 dest maxBytes)

theorem local_confined (blobs : LocalBlobStore) (reader : FileReader) (m : Machine) :
    (blobs.blobStore reader m).Confined m := by
  intro base dest under sha256 maxBytes
  show Moves (Storage.Confined base) (blobs.getTo reader m sha256 dest maxBytes)
  unfold LocalBlobStore.getTo
  refine moves_ofExcept_bind (confined_refl base) fun name _ => ?_
  refine moves_onError (confined_trans base) ?_ fun e => confined_raise _
  refine moves_ofExcept_bind (confined_refl base) fun content _ => ?_
  exact confined_writeVerified under _ _

theorem s3_confined (answers : Str → World → S3Answer) (m : Machine) : (s3BlobStore answers m).Confined m := by
  intro base dest under sha256 maxBytes
  show Moves (Storage.Confined base) (s3GetTo answers m sha256 dest maxBytes)
  unfold s3GetTo
  refine moves_ofExcept_bind (confined_refl base) fun name _ => ?_
  refine confined_bind (moves_observe (confined_refl base) _) fun answer => ?_
  split
  · exact confined_raise _
  · split
    · exact confined_raise _
    · split
      · exact confined_raise _
      · exact confined_writeVerified under _ _

end ModelGuard.Storage
