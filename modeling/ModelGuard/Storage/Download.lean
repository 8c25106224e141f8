import ModelGuard.Storage.Confined

/-!
# A directory is downloaded, or nothing is left of it

The manifest is fetched into a temporary directory and the files into a staging directory, which is renamed at
the end or removed.
-/

namespace ModelGuard.Storage

open Lib Lib.Prog Lib.Node ModelGuard.Hashing

variable {m : Machine}

/-! ### Directories on the way -/

/-- The tree has some more directories on the way to `p`, and nothing else has changed. -/
def GrownTo (p : RelPath) (before after : World) : Prop :=
  Grown p before.tree after.tree ∧ after.temporary = before.temporary

theorem grownTo_refl (p : RelPath) (w : World) : GrownTo p w w := ⟨Grown.refl p w.tree, rfl⟩

theorem grownTo_trans (p : RelPath) (w w' w'' : World) (first : GrownTo p w w') (second : GrownTo p w' w'') :
    GrownTo p w w'' :=
  ⟨first.1.trans second.1, second.2.trans first.2⟩

theorem grownTo_tick (p : RelPath) (w : World) : GrownTo p w w.tick := grownTo_refl p w

theorem grownTo_call (p : RelPath) (c : SystemCall) : Moves (GrownTo p) (m.call c) := by
  refine moves_iff.mpr fun w => ?_
  unfold Machine.call
  split
  · exact grownTo_tick p w
  · exact grownTo_tick p w

theorem grownTo_mkdirAt {p q : RelPath} (within : q <+: p) : Moves (GrownTo p) (m.mkdirAt ⟨false, q⟩) := by
  unfold Machine.mkdirAt
  refine moves_bind (grownTo_trans p) (grownTo_call p _) fun _ w => ?_
  refine (place_ends ⟨false, q⟩ _ w).mono (fun _ w' made => ?_) fun _ w' same => same ▸ grownTo_refl p w
  obtain ⟨same, absent, parent⟩ := made
  obtain ⟨d, name, last, dir⟩ := split_spot absent parent
  have last : q = d ++ [name] := last
  subst last same
  exact ⟨grown_graft within dir absent, rfl⟩

theorem grownTo_ensureDir {p q : RelPath} (within : q <+: p) (error : OsError) :
    Moves (GrownTo p) (m.ensureDir ⟨false, q⟩ error) := by
  intro w
  unfold Machine.ensureDir Ends
  dsimp only
  cases w.find ⟨false, q⟩ with
  | none => exact grownTo_mkdirAt within w
  | some n => cases n <;> exact grownTo_refl p w

theorem mkdirAt_isDir (spot : Spot) (w : World) :
    Ends (m.mkdirAt spot) w (fun _ w' => w'.isDir spot = true) fun _ _ => True := by
  unfold Machine.mkdirAt
  refine ends_bind_partial fun _ w => ?_
  refine (place_ends spot _ w).mono (fun _ w' made => ?_) fun _ _ _ => trivial
  obtain ⟨same, absent, parent⟩ := made
  subst same
  exact World.isDir_iff.mpr ⟨true, [], find_put absent parent _⟩

theorem ensureDir_isDir (spot : Spot) (error : OsError) (w : World) :
    Ends (m.ensureDir spot error) w (fun _ w' => w'.isDir spot = true) fun _ _ => True := by
  unfold Machine.ensureDir Ends
  dsimp only
  cases found : w.find spot with
  | none => exact mkdirAt_isDir spot w
  | some n =>
    cases n with
    | dir l entries => exact World.isDir_iff.mpr ⟨l, entries, found⟩
    | file content => exact trivial
    | symlink target => exact trivial

theorem grownTo_mkdirsFrom (done rest : RelPath) : Moves (GrownTo (done ++ rest)) (m.mkdirsFrom false done rest) := by
  induction rest generalizing done with
  | nil =>
    unfold Machine.mkdirsFrom
    exact grownTo_ensureDir (List.prefix_append done []) _
  | cons name rest ih =>
    unfold Machine.mkdirsFrom
    refine moves_bind (grownTo_trans _) (grownTo_ensureDir (List.prefix_append done _) _) fun _ => ?_
    have further := ih (done ++ [name])
    rwa [List.append_assoc, List.singleton_append] at further

theorem mkdirsFrom_isDir (temporary : Bool) (done rest : RelPath) (w : World) :
    Ends (m.mkdirsFrom temporary done rest) w (fun _ w' => w'.isDir ⟨temporary, done ++ rest⟩ = true) fun _ _ => True := by
  induction rest generalizing done w with
  | nil =>
    unfold Machine.mkdirsFrom
    rw [List.append_nil]
    exact ensureDir_isDir _ _ w
  | cons name rest ih =>
    unfold Machine.mkdirsFrom
    refine ends_bind_partial fun _ w => ?_
    have further := ih (done ++ [name]) w
    rwa [List.append_assoc, List.singleton_append] at further

/-- The parents of a destination are made, and nothing else. -/
theorem mkdirs_ends {p : Place} {spot : Spot} (located : m.locate p = .ok spot) (main : spot.temporary = false) (w : World) :
    Ends (m.mkdirs p) w (fun _ w' => GrownTo spot.path w w' ∧ w'.isDir spot = true) fun _ w' => GrownTo spot.path w w' := by
  obtain ⟨temporary, path⟩ := spot
  have main : temporary = false := main
  subst main
  have whole : m.mkdirs p = m.mkdirsFrom false [] path := by
    unfold Machine.mkdirs
    rw [located]
    rfl
  rw [whole]
  have grown := grownTo_mkdirsFrom (m := m) [] path w
  exact (grown.and (mkdirsFrom_isDir false [] path w)).mono (fun _ _ h => h) fun _ _ h => h.1

/-! ### The staging directory -/

section Staging

variable {base : Spot}

theorem confined_mkdirAt {spot : Spot} (below : Below base spot) : Moves (Confined base) (m.mkdirAt spot) := by
  unfold Machine.mkdirAt
  exact confined_bind (confined_call _) fun _ => confined_place below _

/-- On the way to the directory everything is there. -/
theorem confined_ensureDir (base spot : Spot) (side : spot.temporary = base.temporary)
    (near : spot.path <+: base.path ∨ Below base spot) (error : OsError) : Moves (Confined base) (m.ensureDir spot error) := by
  refine moves_iff.mpr fun w dir => ?_
  unfold Machine.ensureDir
  cases found : w.find spot with
  | some n => cases n <;> exact inside_same dir fun _ => rfl
  | none =>
    rcases near with above | below
    · obtain ⟨rest, whole⟩ := above
      obtain ⟨l, entries, there⟩ := World.isDir_iff.mp dir
      unfold World.find at there found
      rw [← whole, find_append, ← side, found, find_none] at there
      cases there
    · exact moves_iff.mp (confined_mkdirAt below) w dir

theorem near_of_prefix {done rest q : RelPath} (whole : done ++ rest = base.path ++ q) :
    done <+: base.path ∨ Below base ⟨base.temporary, done⟩ := by
  have within : done <+: base.path ++ q := ⟨rest, whole⟩
  rcases List.prefix_or_prefix_of_prefix within (List.prefix_append base.path q) with above | ⟨s, below⟩
  · exact Or.inl above
  · cases s with
    | nil =>
      rw [List.append_nil] at below
      exact Or.inl (below ▸ List.prefix_refl _)
    | cons name s => exact Or.inr ⟨rfl, name :: s, List.cons_ne_nil _ _, below.symm⟩

theorem confined_mkdirsFrom (done rest : RelPath) {q : RelPath} (whole : done ++ rest = base.path ++ q) :
    Moves (Confined base) (m.mkdirsFrom base.temporary done rest) := by
  induction rest generalizing done with
  | nil =>
    unfold Machine.mkdirsFrom
    have near := near_of_prefix whole
    exact confined_ensureDir base ⟨base.temporary, done⟩ rfl near _
  | cons name rest ih =>
    unfold Machine.mkdirsFrom
    have near := near_of_prefix whole
    refine confined_bind (confined_ensureDir base ⟨base.temporary, done⟩ rfl near _) fun _ => ?_
    apply ih (done ++ [name])
    rw [List.append_assoc, List.singleton_append, whole]

theorem confined_mkdirs_parent {p : Place} (under : Under m base p) : Moves (Confined base) (m.mkdirs (Machine.parent p)) := by
  obtain ⟨side, top, rest, names, more, located⟩ := under
  unfold Machine.mkdirs
  refine moves_ofExcept_bind (confined_refl base) fun spot found => ?_
  have parent : (Machine.parent p).names = top ++ rest.dropLast := by
    unfold Machine.parent
    dsimp only
    rw [names, List.dropLast_append_of_ne_nil more]
  obtain ⟨same, q, -, path⟩ := locate_append (p := Machine.parent p) side parent located found
  rw [same]
  exact confined_mkdirsFrom [] spot.path path

theorem confined_resolve (p : Place) : Moves (Confined base) (m.resolve p) := by
  unfold Machine.resolve
  refine moves_ofExcept_bind (confined_refl base) fun spot _ => ?_
  exact confined_bind (confined_call _) fun _ => confined_pure _

theorem confined_size (p : Place) : Moves (Confined base) (m.size p) := by
  unfold Machine.size
  refine moves_ofExcept_bind (confined_refl base) fun spot _ => ?_
  refine confined_bind (confined_call _) fun _ => ?_
  refine confined_bind (moves_observe (confined_refl base) _) fun found => ?_
  split
  · exact confined_raise _
  · exact confined_pure _
  · exact confined_pure _

theorem confined_readBytes (p : Place) : Moves (Confined base) (m.readBytes p) := by
  unfold Machine.readBytes
  refine moves_ofExcept_bind (confined_refl base) fun spot _ => ?_
  refine confined_bind (confined_call _) fun _ => ?_
  refine confined_bind (moves_observe (confined_refl base) _) fun found => ?_
  split
  · exact confined_raise _
  · exact confined_pure _
  · exact confined_raise _

variable {store : BlobStore World Place}

theorem confined_placeFile (confined : store.Confined m) {staging root : Place} (located : m.locate staging = .ok base)
    (entry : FileDigest) : Moves (Confined base) (placeFile m.fileSystem store m.host staging root entry) := by
  have under : Under m base (m.fileSystem.join staging entry.path) := under_join located _
  unfold placeFile
  refine confined_bind (confined_resolve _) fun resolved => ?_
  split
  · refine confined_bind (confined_mkdirs_parent under) fun _ => ?_
    refine confined_bind (confined base _ under _ _) fun _ => ?_
    refine confined_bind (confined_size _) fun size => ?_
    split
    · exact confined_pure _
    · exact confined_raise _
  · exact confined_raise _

end Staging

/-! ### The parts of a download -/

variable {store : BlobStore World Place}

theorem call_ends (c : SystemCall) (w : World) :
    Ends (m.call c) w (fun _ w' => w' = w.tick) fun _ w' => w' = w.tick := by
  unfold Machine.call Ends
  dsimp only
  cases m.fails c w with
  | none => exact rfl
  | some e => exact rfl

/-- The temporary directory is gone at the end, and the file system is as it was. -/
theorem fetchManifest_ends (confined : store.Confined m) (expected : Str) (maxFiles maxTotalBytes : Int) {w : World}
    (clean : w.temporary = none) :
    Ends (fetchManifest m.fileSystem store m.sha m.host expected maxFiles maxTotalBytes) w
      (fun _ w' => w'.tree = w.tree ∧ w'.temporary = none) fun _ w' => w'.tree = w.tree ∧ w'.temporary = none := by
  have made : Ends m.fileSystem.mkdtemp w
      (fun p w' => p = ⟨true, []⟩ ∧ w'.tree = w.tree ∧ w'.isDir ⟨true, []⟩ = true)
      fun _ w' => w'.tree = w.tree ∧ w'.temporary = none := by
    show Ends m.mkdtemp w _ _
    unfold Machine.mkdtemp
    rw [ends_bind_iff]
    refine (call_ends _ w).mono (fun _ w' same => ?_) fun _ w' same => ?_
    · subst same
      exact ⟨rfl, rfl, rfl⟩
    · subst same
      exact ⟨rfl, clean⟩
  unfold fetchManifest
  refine ends_bind made fun p w' start => ?_
  obtain ⟨same, tree, dir⟩ := start
  subst same
  have located : m.locate ⟨true, []⟩ = .ok ⟨true, []⟩ := rfl
  have under : Under m ⟨true, []⟩ (m.fileSystem.join ⟨true, []⟩ (str "manifest.json")) := under_join located _
  have body : Moves (Confined ⟨true, []⟩) (do
      store.getTo expected (m.fileSystem.join ⟨true, []⟩ (str "manifest.json")) maxManifestBytes
      m.fileSystem.readBytes (m.fileSystem.join ⟨true, []⟩ (str "manifest.json"))) :=
    confined_bind (confined ⟨true, []⟩ _ under _ _) fun _ => confined_readBytes _
  rw [ends_bind_iff]
  refine ends_andFinally (body w') (fun raw w'' inside => ?_) fun e w'' inside => ?_
  · have kept : w''.tree = w.tree := (inside dir).other.trans tree
    exact ends_ofExcept (fun _ _ => ⟨kept, rfl⟩) fun _ _ => ⟨kept, rfl⟩
  · exact ⟨(inside dir).other.trans tree, rfl⟩

theorem move_ends (source target : Spot) (w : World) :
    Ends (Machine.move source target) w
      (fun _ w' => ∃ n, w.find source = some n ∧ w' = (w.put source none).put target (some n)) fun _ w' => w' = w := by
  unfold Machine.move Ends
  dsimp only
  cases w.find source with
  | none => exact rfl
  | some n =>
    dsimp only
    cases renameClash n (w.find target) with
    | some e => exact rfl
    | none =>
      dsimp only
      by_cases parent : w.isDir target.parent = true
      · rw [if_pos parent]
        exact ⟨n, rfl, rfl⟩
      · rw [if_neg parent]

/-- The files are put together under the staging name. -/
theorem buildTree_ends (confined : store.Confined m) {staging dest : Place} {base spot : Spot}
    (located : m.locate staging = .ok base) (destLocated : m.locate dest = .ok spot) (files : List FileDigest) {w : World}
    (dir : w.isDir base = true) :
    Ends (buildTree m.fileSystem store m.host staging dest files) w
      (fun _ w' => ∃ w'' l entries, Inside base w w'' ∧ w''.find base = some (.dir l entries) ∧
        w' = (w''.put base none).put spot (some (.dir l entries))) fun _ w' => Inside base w w' := by
  have filled (root : Place) : Moves (Confined base) (forEach (placeFile m.fileSystem store m.host staging root) files) :=
    moves_forEach (confined_refl base) (confined_trans base) fun entry _ => confined_placeFile confined located entry
  have resolved : Ends (m.resolve staging) w (fun _ w' => Inside base w w') fun _ w' => Inside base w w' :=
    (confined_resolve staging w).mono (fun _ _ inside => inside dir) fun _ _ inside => inside dir
  unfold buildTree
  refine ends_bind resolved fun root w₁ first => ?_
  have looped : Ends (forEach (placeFile m.fileSystem store m.host staging root) files) w₁
      (fun _ w' => Inside base w w') fun _ w' => Inside base w w' :=
    (filled root w₁).mono (fun _ w' then_ => confined_trans base w w₁ w' (fun _ => first) then_ dir)
      fun _ w' then_ => confined_trans base w w₁ w' (fun _ => first) then_ dir
  refine ends_bind looped fun _ w₂ second => ?_
  show Ends (m.rename staging dest) w₂ _ _
  unfold Machine.rename
  rw [located, destLocated, ofExcept_ok_bind, ofExcept_ok_bind, ends_bind_iff]
  have ticked : Inside base w w₂.tick :=
    confined_trans base w w₂ w₂.tick (fun _ => second) (confined_of_sides (World.side_tick w₂)) dir
  refine (call_ends _ w₂).mono (fun _ w₃ same => ?_) fun _ w₃ same => same ▸ ticked
  subst same
  refine (move_ends base spot w₂.tick).mono (fun _ w' moved => ?_) fun _ w' same => same ▸ ticked
  obtain ⟨n, found, same⟩ := moved
  obtain ⟨l, entries, there⟩ := World.isDir_iff.mp (ticked.isDir dir)
  rw [there] at found
  have made := Option.some.inj found
  subst made
  exact ⟨w₂.tick, l, entries, ticked, there, same⟩

/-- A new directory of the file system. -/
theorem mkdir_ends {p : Place} (side : p.temporary = false) (w : World) :
    Ends (m.mkdir p) w
      (fun _ w' => ∃ base, m.locate p = .ok base ∧ base.temporary = false ∧ w'.isDir base = true ∧
        w'.temporary = w.temporary ∧ Node.find base.path w.tree = none ∧
        w'.tree = graft base.path (some (.dir true [])) w.tree)
      fun _ w' => w'.tree = w.tree ∧ w'.temporary = w.temporary := by
  unfold Machine.mkdir
  cases located : m.locate p with
  | error e => exact ⟨rfl, rfl⟩
  | ok base =>
    have main : base.temporary = false := (locate_ok.mp located).1.trans side
    rw [ofExcept_ok_bind]
    unfold Machine.mkdirAt
    rw [ends_bind_iff]
    refine (call_ends _ w).mono (fun _ w₁ same => ?_) fun _ w₁ same => same ▸ ⟨rfl, rfl⟩
    subst same
    refine (place_ends base _ w.tick).mono (fun _ w' made => ?_) fun _ w' same => same ▸ ⟨rfl, rfl⟩
    obtain ⟨same, absent, parent⟩ := made
    subst same
    have dir := World.isDir_iff.mpr ⟨true, [], find_put absent parent (some (.dir true []))⟩
    rw [World.find_main main] at absent
    refine ⟨base, rfl, main, dir, ?_, absent, ?_⟩
    · rw [World.put_main main]
      rfl
    · rw [World.put_main main]
      rfl

/-- What is made of the files is at the destination, or nowhere. -/
theorem materialize_ends (confined : store.Confined m) {dest : Place} {spot : Spot} (located : m.locate dest = .ok spot)
    (main : spot.temporary = false) (files : List FileDigest) (w : World) :
    Ends (materialize m.fileSystem store m.host dest files) w
      (fun _ w' => w'.temporary = w.temporary ∧ ∃ l entries, w'.tree = graft spot.path (some (.dir l entries)) w.tree)
      fun _ w' => w'.tree = w.tree ∧ w'.temporary = w.temporary := by
  have side : dest.temporary = false := (locate_ok.mp located).1.symm.trans main
  have named : Ends m.fileSystem.uuidHex w (fun _ w' => w' = w.tick) fun _ w' => w'.tree = w.tree ∧
      w'.temporary = w.temporary := rfl
  unfold materialize
  refine ends_bind named fun hex w' ticked => ?_
  subst ticked
  dsimp only
  generalize called : m.fileSystem.join (m.fileSystem.parent dest) (str ".mg-stage-" ++ hex) = place
  have placeSide : place.temporary = false := called ▸ side
  refine ends_bind (show Ends (m.fileSystem.mkdir place) w.tick _ _ from mkdir_ends placeSide w.tick) fun _ w₁ made => ?_
  obtain ⟨base, staging, baseMain, dir, temporary, absent, tree⟩ := made
  have absent : Node.find base.path w.tree = none := absent
  -- Whatever is in the staging directory, the rest of the tree is as it was.
  have outside {w₂ : World} (inside : Inside base w₁ w₂) :
      w₂.temporary = w.temporary ∧ ∃ l entries, w₂.tree = graft base.path (some (.dir l entries)) w.tree := by
    obtain ⟨⟨l, entries, filled⟩, other⟩ := inside
    rw [baseMain] at filled other
    refine ⟨other.trans temporary, l, entries, ?_⟩
    have filled : w₂.tree = graft base.path (some (.dir l entries)) w₁.tree := filled
    rw [filled, tree, graft_graft]
    rfl
  refine ends_onError (buildTree_ends confined staging located files dir |>.mono (fun _ w' built => ?_) fun _ _ h => h) ?_
  · obtain ⟨w₂, l, entries, inside, found, same⟩ := built
    obtain ⟨kept, l', entries', filled⟩ := outside inside
    subst same
    rw [World.put_main main, World.put_main baseMain]
    refine ⟨kept, l, entries, ?_⟩
    show graft spot.path _ (graft base.path none w₂.tree) = _
    rw [filled, graft_undo absent]
  · intro e w₂ inside
    obtain ⟨kept, l', entries', filled⟩ := outside inside
    rw [ends_bind_iff, ends_update, ends_raise]
    show (m.rmtree place w₂).tree = w.tree ∧ (m.rmtree place w₂).temporary = w.temporary
    unfold Machine.rmtree
    rw [staging]
    dsimp only
    rw [World.put_main baseMain]
    refine ⟨?_, kept⟩
    show graft base.path none w₂.tree = w.tree
    rw [filled, graft_undo absent]

/-! ### The whole download -/

/-- Nothing outside of `dest` is created, changed or removed, but for directories on the way to it. -/
structure OnlyAt (dest : RelPath) (before after : Node.Tree Bytes) : Prop where
  leaves : ∀ q, ¬dest <+: q → leaf q after = leaf q before
  kept : ∀ q, IsDir before q → IsDir after q
  fresh : ∀ q, ¬dest <+: q → IsDir after q → IsDir before q ∨ q <+: dest.dropLast

theorem onlyAt_grown {dest : RelPath} {before after : Node.Tree Bytes} (grown : Grown dest.dropLast before after) :
    OnlyAt dest before after :=
  ⟨fun q _ => grown.leaves q, grown.kept, fun q _ => grown.fresh q⟩

theorem prefix_dropLast {q dest : RelPath} (within : q <+: dest) (apart : ¬dest <+: q) : q <+: dest.dropLast := by
  rcases List.eq_nil_or_concat dest with root | ⟨d, name, last⟩
  · exact (apart (root ▸ List.nil_prefix)).elim
  · rw [List.concat_eq_append] at last
    subst last
    rw [List.dropLast_concat]
    rcases List.prefix_concat_iff.mp within with same | below
    · exact (apart (same ▸ List.prefix_refl _)).elim
    · exact below

theorem onlyAt_graft {dest : RelPath} {before middle : Node.Tree Bytes} (grown : Grown dest.dropLast before middle)
    (absent : Node.find dest middle = none) (n : Node Bytes) : OnlyAt dest before (graft dest (some n) middle) := by
  refine ⟨fun q apart => (leaf_graft apart _ middle).trans (grown.leaves q), ?_, ?_⟩
  · exact fun q dir => isDir_graft absent (grown.kept q dir) n
  · intro q apart dir
    by_cases within : q <+: dest
    · exact Or.inr (prefix_dropLast within apart)
    · obtain ⟨l, entries, found⟩ := dir
      rw [find_graft_apart apart within] at found
      exact grown.fresh q ⟨l, entries, found⟩

theorem not_prefix_dropLast {dest : RelPath} (some : dest ≠ []) : ¬dest <+: dest.dropLast := by
  intro within
  have short := within.length_le
  have long := List.length_pos_iff.mpr some
  rw [List.length_dropLast] at short
  omega

section Run

variable {dest : Place} {spot : Spot} {artifactDigest : Str} {maxTotalBytes maxFiles : Int} {w : World}

/-- A download makes the parents of its destination, or less. -/
theorem prepareDownload_grown (located : m.locate dest = .ok spot) (main : spot.temporary = false) (artifactType : Str) :
    Ends (prepareDownload m.fileSystem artifactDigest artifactType dest) w
      (fun _ w' => GrownTo spot.path.dropLast w w' ∧ IsDir w'.tree spot.path.dropLast)
      fun _ w' => GrownTo spot.path.dropLast w w' := by
  have parent := locate_parent located
  have looked : Ends (m.occupied dest) w (fun _ w' => w' = w.tick) fun _ w' => GrownTo spot.path.dropLast w w' := by
    unfold Machine.occupied
    rw [located, ofExcept_ok_bind, ends_bind_iff]
    exact (call_ends _ w).mono (fun _ w' same => same) fun _ w' same => same ▸ grownTo_tick _ w
  unfold prepareDownload
  rw [ends_bind_iff]
  refine ends_ofExcept (fun expected _ => ?_) fun _ _ => grownTo_refl _ w
  refine ends_bind looked fun taken w' same => ?_
  subst same
  split
  · exact grownTo_tick _ w
  · refine ends_bind (show Ends (m.mkdirs (Machine.parent dest)) w.tick _ _ from mkdirs_ends parent main w.tick)
      fun _ w' made => ?_
    obtain ⟨grown, dir⟩ := made
    refine ⟨grown, ?_⟩
    obtain ⟨l, entries, found⟩ := World.isDir_iff.mp dir
    rw [World.find_main (show spot.parent.temporary = false from main)] at found
    exact ⟨l, entries, found⟩

/-- Without the final check: a tree is put at the destination, or only its parents are made. -/
theorem download_ends (confined : store.Confined m) (located : m.locate dest = .ok spot) (main : spot.temporary = false)
    (clean : w.temporary = none) :
    Ends (downloadArtifact m.fileSystem store m.sha m.host artifactDigest (str "directory") dest maxTotalBytes maxFiles
        false) w
      (fun _ w' => w'.temporary = none ∧ ∃ middle l entries, Grown spot.path.dropLast w.tree middle ∧
        IsDir middle spot.path.dropLast ∧ w'.tree = graft spot.path (some (.dir l entries)) middle)
      fun _ w' => w'.temporary = none ∧ Grown spot.path.dropLast w.tree w'.tree := by
  have directory : str "directory" ≠ str "file" := by decide
  unfold downloadArtifact
  refine ends_bind ((prepareDownload_grown located main (str "directory")).mono (fun _ _ h => h)
    fun _ w' grown => ⟨grown.2.trans clean, grown.1⟩) fun expected w₁ prepared => ?_
  obtain ⟨⟨grown, temporary⟩, dir⟩ := prepared
  have temporary := temporary.trans clean
  rw [if_neg directory]
  unfold downloadDirectory
  refine ends_bind ((fetchManifest_ends confined expected maxFiles maxTotalBytes temporary).mono (fun _ _ h => h)
    fun _ w' kept => ⟨kept.2, kept.1.symm ▸ grown⟩) fun files w₂ fetched => ?_
  obtain ⟨same, temporary⟩ := fetched
  refine ends_bind ((materialize_ends confined located main files w₂).mono (fun _ _ h => h)
    fun _ w' kept => ⟨kept.2.trans temporary, kept.1.symm ▸ same.symm ▸ grown⟩) fun _ w₃ built => ?_
  obtain ⟨kept, l, entries, tree⟩ := built
  exact ⟨kept.trans temporary, w₁.tree, l, entries, grown, dir, same ▸ tree⟩

end Run

/-- The stores that come with the package. -/
inductive Backend where
  | localStore (blobs : LocalBlobStore) (reader : FileReader)
  | s3 (answers : Str → World → S3Answer)

def Backend.blobStore (m : Machine) : Backend → BlobStore World Place
  | .localStore blobs reader => blobs.blobStore reader m
  | .s3 answers => s3BlobStore answers m

theorem backend_confined (m : Machine) (backend : Backend) : (backend.blobStore m).Confined m := by
  cases backend with
  | localStore blobs reader => exact local_confined blobs reader m
  | s3 answers => exact s3_confined answers m

end ModelGuard.Storage
