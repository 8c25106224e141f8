import ModelGuard.Lib.TreeFill
import ModelGuard.Storage.Fetch

/-!
# A directory is restored

On a machine where nothing fails, the files of a manifest are put under the staging name one after another and
the tree that holds them is at the destination in the end.
-/

namespace ModelGuard.Storage

open Lib Lib.Prog Lib.Node ModelGuard.Hashing
open LocalBlobStore (fileExists)

/-! ### Directories that can be made are made -/

section Contents

variable {w w' : World} {b : Bool} {t u : Node.Tree Bytes}

theorem side_of_setSide (same : w'.contents = (w.setSide t b).contents) : w'.side b = t :=
  (side_of_contents same b).trans (World.side_setSide w t b)

theorem contents_setSide (same : w'.contents = (w.setSide t b).contents) (u : Node.Tree Bytes) :
    (w'.setSide u b).contents = (w.setSide u b).contents := by
  obtain ⟨tree, temporary⟩ := Prod.mk.inj same
  cases b with
  | false => exact Prod.ext rfl temporary
  | true => exact Prod.ext tree rfl

theorem contents_setSide_self (w : World) (b : Bool) : (w.setSide (w.side b) b).contents = w.contents := by
  cases b <;> rfl

end Contents

section Reliable

variable {m : Machine} (reliable : m.Reliable) {w : World}

include reliable

theorem mkdirAt_returns {spot : Spot} (fits : spot.Fits) (absent : w.find spot = none) (parent : w.isDir spot.parent = true) :
    Returns (m.mkdirAt spot) w fun _ w' => w'.contents = (w.put spot (some (.dir true []))).contents := by
  unfold Machine.mkdirAt
  refine ends_bind (call_returns reliable (c := .mkdir spot) fits w) fun _ w₁ same => ?_
  have placed : Machine.place spot (.dir true []) w₁ = (.ok (), w₁.put spot (some (.dir true []))) := by
    unfold Machine.place
    rw [find_of_contents same, isDir_of_contents same, absent, parent]
    rfl
  rw [ends_of_eq_ok placed]
  exact contents_put same spot _

theorem ensureDir_returns {b : Bool} {done : RelPath} (error : OsError) (fits : ∀ name ∈ done, octetLength name.val ≤ nameMax)
    (way : find done (w.side b) = none ∨ IsDir (w.side b) done) (root : (w.side b).isSome)
    (parent : done ≠ [] → IsDir (w.side b) done.dropLast) :
    Returns (m.ensureDir ⟨b, done⟩ error) w fun _ w' => w'.contents = (w.setSide (makeDirs done (w.side b)) b).contents := by
  rcases way with absent | there
  · have below : done ≠ [] := by
      intro top
      rw [top] at absent
      rw [show w.side b = none from absent] at root
      cases root
    obtain ⟨l, entries, dir⟩ := parent below
    have parent : w.isDir (Spot.parent ⟨b, done⟩) = true := World.isDir_iff.mpr ⟨l, entries, dir⟩
    have one : makeDirs done (w.side b) = graft done (some (.dir true [])) (w.side b) := by
      rw [← List.dropLast_append_getLast below] at absent ⊢
      exact makeDirs_one ⟨l, entries, dir⟩ absent
    have run : m.ensureDir ⟨b, done⟩ error w = m.mkdirAt ⟨b, done⟩ w := by
      unfold Machine.ensureDir World.find
      rw [absent]
    unfold Returns Ends
    rw [run, one]
    exact mkdirAt_returns reliable fits absent parent
  · obtain ⟨l, entries, found⟩ := there
    have run : m.ensureDir ⟨b, done⟩ error w = (.ok (), w) := by
      unfold Machine.ensureDir World.find
      rw [found]
    unfold Returns
    rw [ends_of_eq_ok run, makeDirs_there ⟨l, entries, found⟩]
    exact (contents_setSide_self w b).symm

theorem mkdirsFrom_returns {b : Bool} {done rest : RelPath} {new : Node Bytes}
    (fits : ∀ name ∈ done ++ rest, octetLength name.val ≤ nameMax) (made : makeDirs (done ++ rest) (w.side b) = some new)
    (root : (w.side b).isSome) (parent : done ≠ [] → IsDir (w.side b) done.dropLast) :
    Returns (m.mkdirsFrom b done rest) w fun _ w' => w'.contents = (w.setSide (some new) b).contents := by
  have own : ∀ name ∈ done, octetLength name.val ≤ nameMax := fun name mem => fits name (List.mem_append_left _ mem)
  have way := makeDirs_way made (List.prefix_append done rest)
  induction rest generalizing done w with
  | nil =>
    unfold Machine.mkdirsFrom
    refine (ensureDir_returns reliable fileExists own way root parent).mono (fun _ w' same => ?_) fun _ _ never => never
    rw [List.append_nil] at made
    rwa [made] at same
  | cons name rest ih =>
    unfold Machine.mkdirsFrom
    refine ends_bind (ensureDir_returns reliable _ own way root parent) fun _ w₁ same => ?_
    have first : (makeDirs done (w.side b)).isSome := makeDirs_isSome fun q within => by
      rcases makeDirs_way made (within.trans (List.prefix_append done _)) with absent | ⟨l, entries, found⟩
      · unfold leaf
        rw [absent]
      · unfold leaf
        rw [found]
    obtain ⟨middle, dirs⟩ := Option.isSome_iff_exists.mp first
    rw [dirs] at same
    have side := side_of_setSide same
    have whole : makeDirs (done ++ [name] ++ rest) (w₁.side b) = some new := by
      rw [side, List.append_assoc, List.singleton_append, makeDirs_again dirs, made]
    have fits' : ∀ n ∈ done ++ [name] ++ rest, octetLength n.val ≤ nameMax := by
      rwa [List.append_assoc, List.singleton_append]
    have parent' : done ++ [name] ≠ [] → IsDir (w₁.side b) (done ++ [name]).dropLast := by
      intro _
      rw [side, List.dropLast_concat]
      exact find_makeDirs dirs
    have root' : (w₁.side b).isSome := by
      rw [side]
      rfl
    refine (ih fits' whole root' parent' (fun n mem => fits' n (List.mem_append_left _ mem))
      (makeDirs_way whole (List.prefix_append _ rest))).mono (fun _ w₂ last => ?_) fun _ _ never => never
    exact last.trans (contents_setSide same _)

theorem mkdirs_returns {p : Place} {spot : Spot} {new : Node Bytes} (located : m.locate p = .ok spot) (fits : spot.Fits)
    (made : makeDirs spot.path (w.side spot.temporary) = some new) (root : (w.side spot.temporary).isSome) :
    Returns (m.mkdirs p) w fun _ w' => w'.contents = (w.setSide (some new) spot.temporary).contents := by
  unfold Machine.mkdirs
  rw [located, ofExcept_ok_bind]
  exact mkdirsFrom_returns reliable fits made root fun top => (top rfl).elim

end Reliable

/-! ### The paths of a manifest -/

theorem pathText_intercalate {p : RelPath} (named : p ≠ []) : pathText p = [cp '/'].intercalate (p.map Subtype.val) := by
  induction p with
  | nil => exact (named rfl).elim
  | cons name p ih =>
    cases p with
    | nil => simp [pathText]
    | cons next p =>
      rw [pathText_cons (List.cons_ne_nil _ _), ih (List.cons_ne_nil _ _), List.map_cons, List.map_cons,
        List.map_cons, List.intercalate_cons_cons]
      simp

/-- The segments of the text of a path are its names. -/
theorem splitOn_pathText {p : RelPath} (named : p ≠ []) : (pathText p).splitOn (cp '/') = p.map Subtype.val := by
  rw [pathText_intercalate named]
  refine List.splitOn_intercalate _ (fun segment mem => ?_) fun none => named (List.map_eq_nil_iff.mp none)
  obtain ⟨name, -, same⟩ := List.mem_map.mp mem
  exact same ▸ name.property.2.1

theorem mapM_shown {m : Machine} {p : RelPath} (shows : ∀ name ∈ p, m.Shows name) :
    (p.map Subtype.val).mapM m.onDisk = some p := by
  induction p with
  | nil => rfl
  | cons name p ih =>
    obtain ⟨own, rest⟩ := List.forall_mem_cons.mp shows
    rw [List.map_cons, List.mapM_cons, own.itself, ih rest]
    rfl

theorem locate_join {m : Machine} {staging : Place} {base : Spot} (located : m.locate staging = .ok base) {p : RelPath}
    (named : p ≠ []) (shows : ∀ name ∈ p, m.Shows name) :
    m.locate (m.fileSystem.join staging (pathText p)) = .ok ⟨base.temporary, base.path ++ p⟩ := by
  obtain ⟨side, names⟩ := locate_ok.mp located
  refine locate_ok.mpr ⟨side, ?_⟩
  show (staging.names ++ (pathText p).splitOn (cp '/')).mapM m.onDisk = _
  rw [splitOn_pathText named]
  exact mapM_append_some.mpr ⟨base.path, p, names, mapM_shown shows, rfl⟩

/-- The entry of a manifest for a file. -/
def manifestEntry (sha : Sha256) (e : RelPath × Bytes) : FileDigest where
  path := pathText e.1
  sha256 := sha.hexdigest e.2
  size := e.2.length

/-- A file can be made at the path, below an empty directory. -/
structure Creatable (m : Machine) (p : RelPath) : Prop where
  named : p ≠ []
  shows : ∀ name ∈ p, m.Shows name
  short : ∀ name ∈ p, octetLength name.val ≤ nameMax
  /-- The temporary name is not too long. -/
  room : ∀ name, p.getLast? = some name → octetLength name.val + 39 ≤ nameMax
  /-- New random digits are in no name. -/
  fresh : ∀ name ∈ p, ∀ n, ¬m.hex n <:+: name.val

/-- A file that the store holds and that can be put at its path. -/
structure Arrives (m : Machine) (backend : Backend) (e : RelPath × Bytes) : Prop extends Creatable m e.1 where
  valid : IsSha256 (m.sha.hexdigest e.2)
  held : backend.Holds (m.sha.hexdigest e.2) e.2

theorem partName_infix (name hex : Str) : hex <:+: partName name hex := by
  unfold partName
  exact ⟨str "." ++ name ++ str ".", str ".part", rfl⟩

/-- The path goes through no name with random digits. -/
def Plain (m : Machine) (p : RelPath) : Prop := ∀ name ∈ p, ∀ n, ¬m.hex n <:+: name.val

/-- Nothing that belongs to the files has a temporary name. -/
theorem part_absent {m : Machine} {files : List (RelPath × Bytes)} {t : Node.Tree Bytes} {d : RelPath} {name part : FileName} {k : Nat}
    (plain : ∀ e ∈ files, Plain m e.1) (only : ∀ q n, shape q t = some n → Belongs files q n)
    (text : part.val = partName name.val (m.hex k)) : find (d ++ [part]) t = none := by
  have random : m.hex k <:+: part.val := text ▸ partName_infix _ _
  have last : part ∈ d ++ [part] := List.mem_append_right _ (List.mem_singleton_self _)
  cases found : shape (d ++ [part]) t with
  | none => exact shape_eq_none.mp found
  | some n =>
    have belongs := only _ n found
    cases n with
    | file a => exact (plain _ belongs part last k random).elim
    | symlink target => exact belongs.elim
    | dir l entries =>
      obtain ⟨-, root | ⟨e, mem, within⟩⟩ := belongs
      · simp at root
      · exact (plain e mem part (within.subset last) k random).elim

/-! ### One file after another -/

section Sound

variable {m : Machine} (sound : m.Sound) {backend : Backend} {staging : Place} {base : Spot}
  (located : m.locate staging = .ok base) (short : base.Fits)

include sound located short

/-- One more file of the manifest is put in the staging directory. -/
theorem placeFile_returns {w : World} {n : Node Bytes} {files : List (RelPath × Bytes)} {e : RelPath × Bytes}
    (found : w.find base = some n) (filled : Filled files n) (arrives : Arrives m backend e)
    (plain : ∀ f ∈ files, Plain m f.1) (apart : ∀ f ∈ files, ¬f.1 <+: e.1 ∧ ¬e.1 <+: f.1) :
    Returns (placeFile m.fileSystem (backend.blobStore m) m.host staging staging (manifestEntry m.sha e)) w
      fun _ w' => ∃ new, w'.contents = (w.put base (some new)).contents ∧ Filled (e :: files) new := by
  obtain ⟨path, content⟩ := e
  rcases List.eq_nil_or_concat path with root | ⟨d, name, last⟩
  · exact (arrives.named root).elim
  rw [List.concat_eq_append] at last
  subst last
  obtain ⟨made, dirs, ⟨l, entries, parent⟩, distinct, free, -, only⟩ := filled_makeDirs filled apart content
  obtain ⟨new, put, refilled⟩ := filled_add filled apart (a := content) dirs
  have target := locate_join located arrives.named arrives.shows
  have fits : Spot.Fits ⟨base.temporary, base.path ++ (d ++ [name])⟩ := by
    intro other mem
    rcases List.mem_append.mp mem with within | own
    · exact short other within
    · exact arrives.short other own
  have above : Spot.parent ⟨base.temporary, base.path ++ (d ++ [name])⟩ = ⟨base.temporary, base.path ++ d⟩ := by
    unfold Spot.parent
    dsimp only
    rw [← List.append_assoc, List.dropLast_concat]
  have inside {w' : World} {k : Node Bytes} (same : w'.contents = (w.put base (some k)).contents) (q : RelPath) :
      w'.find ⟨base.temporary, base.path ++ q⟩ = find q (some k) := by
    have at_ : (w.put base (some k)).find base = some k := find_put_present found _
    rw [find_of_contents same]
    unfold World.find at at_ ⊢
    dsimp only
    rw [find_append, at_]
  unfold placeFile
  dsimp only
  have resolved : Returns (m.resolve (m.fileSystem.join staging (pathText (d ++ [name])))) w fun p w' =>
      p = m.fileSystem.join staging (pathText (d ++ [name])) ∧ w'.contents = w.contents := by
    unfold Machine.resolve
    rw [target, ofExcept_ok_bind]
    exact ends_bind (call_returns sound.reliable (c := .resolve _) fits w) fun _ w' same => ⟨rfl, same⟩
  refine ends_bind resolved fun p w₁ start => ?_
  obtain ⟨same, first⟩ := start
  subst same
  have within : m.fileSystem.isRelativeTo (m.fileSystem.join staging (pathText (d ++ [name]))) staging = true := by
    show (staging.temporary == staging.temporary && _) = true
    rw [beq_self_eq_true, Bool.true_and, List.isPrefixOf_iff_prefix]
    exact List.prefix_append _ _
  rw [show (manifestEntry m.sha (d ++ [name], content)).path = pathText (d ++ [name]) from rfl, if_pos within]
  -- The directories on the way.
  have side : w₁.side base.temporary = w.side base.temporary := side_of_contents first _
  have whole : makeDirs (base.path ++ d) (w₁.side base.temporary) =
      graft base.path (some made) (w.side base.temporary) := by
    rw [side, makeDirs_append found, dirs]
    rfl
  have root : (w₁.side base.temporary).isSome := by
    cases none : w₁.side base.temporary with
    | none =>
      rw [side] at none
      unfold World.find at found
      rw [none, find_none] at found
      cases found
    | some _ => rfl
  obtain ⟨grafted, lower⟩ := Option.isSome_iff_exists.mp (graft_isSome (p := base.path) made (side ▸ root))
  have upper : m.locate (Machine.parent (m.fileSystem.join staging (pathText (d ++ [name])))) =
      .ok ⟨base.temporary, base.path ++ d⟩ := above ▸ locate_parent target
  have upperFits : Spot.Fits ⟨base.temporary, base.path ++ d⟩ := fun other mem =>
    fits other (by rw [← List.append_assoc]; exact List.mem_append_left _ mem)
  refine ends_bind (mkdirs_returns sound.reliable upper upperFits (whole.trans lower) root) fun _ w₂ second => ?_
  have second : w₂.contents = (w.put base (some made)).contents := by
    rw [second, ← lower, ← side]
    exact contents_put first base (some made)
  -- The file itself.
  have writable : Writable m (m.fileSystem.join staging (pathText (d ++ [name])))
      ⟨base.temporary, base.path ++ d ++ [name]⟩ w₂ := by
    obtain ⟨sameSide, names⟩ := locate_ok.mp located
    have split : (m.fileSystem.join staging (pathText (d ++ [name]))).names = staging.names ++ d.map Subtype.val ++ [name.val] := by
      show staging.names ++ (pathText (d ++ [name])).splitOn (cp '/') = _
      rw [splitOn_pathText arrives.named, List.map_append, ← List.append_assoc]
      rfl
    have texts : (staging.names ++ d.map Subtype.val).mapM m.onDisk = some (base.path ++ d) :=
      mapM_append_some.mpr ⟨_, _, names, mapM_shown fun n mem => arrives.shows n (List.mem_append_left _ mem), rfl⟩
    have own : (m.fileSystem.join staging (pathText (d ++ [name]))).temporary = base.temporary := sameSide.symm
    rw [← own]
    refine writable_of_dir sound split texts (fun n mem => fits n (by rw [← List.append_assoc]; exact List.mem_append_left _ mem))
      (arrives.shows name (by simp)) (arrives.room name (by simp)) ?_ ?_ fun k part text => ?_
    · rw [own]
      exact World.isDir_iff.mpr ⟨l, entries, (inside second d).trans parent⟩
    · rw [own, List.append_assoc]
      exact (inside second _).trans free
    · rw [own, List.append_assoc]
      refine (inside second _).trans (part_absent (List.forall_mem_cons.mpr ⟨arrives.fresh, plain⟩) only text)
  have small : (content.length : Int) ≤ (manifestEntry m.sha (d ++ [name], content)).size := le_refl _
  refine ends_bind (getTo_returns sound arrives.valid rfl arrives.held writable small) fun _ w₃ third => ?_
  have third : w₃.contents = (w.put base (some new)).contents := by
    have step : (w₂.put ⟨base.temporary, base.path ++ d ++ [name]⟩ (some (.file content))).contents =
        (w₂.put base (some new)).contents := by
      have at_ : find base.path (w₂.side base.temporary) = some made := by
        have here := inside second []
        rw [List.append_nil] at here
        exact here
      unfold World.put
      dsimp only
      rw [List.append_assoc, graft_append, at_, put]
    rw [third, step, contents_put second, contents_put_put]
  have there : w₃.find ⟨base.temporary, base.path ++ (d ++ [name])⟩ = some (.file content) :=
    (inside third _).trans (refilled.there _ List.mem_cons_self)
  have sized : Returns (m.fileSystem.size (m.fileSystem.join staging (pathText (d ++ [name])))) w₃ fun size w' =>
      size = content.length ∧ w'.contents = w₃.contents := by
    show Returns (m.size _) w₃ _
    unfold Machine.size
    rw [target, ofExcept_ok_bind]
    refine ends_bind (call_returns sound.reliable (c := .stat _) fits w₃) fun _ w₄ same => ?_
    rw [ends_bind_iff, ends_observe, find_of_contents same, there]
    exact ⟨rfl, same⟩
  refine ends_bind sized fun size w₄ last => ?_
  obtain ⟨same, last⟩ := last
  subst same
  rw [if_pos (show content.length = (manifestEntry m.sha (d ++ [name], content)).size from rfl)]
  exact ⟨new, last.trans third, refilled⟩

/-- All files of the manifest are put in the staging directory. -/
theorem placeFiles_returns {items : List (RelPath × Bytes)} {w : World} {n : Node Bytes} {files : List (RelPath × Bytes)}
    (found : w.find base = some n) (filled : Filled files n) (arrives : ∀ e ∈ items, Arrives m backend e)
    (plain : ∀ f ∈ files, Plain m f.1) (apart : ∀ e ∈ items, ∀ f ∈ files, ¬f.1 <+: e.1 ∧ ¬e.1 <+: f.1)
    (among : items.Pairwise fun e f => ¬e.1 <+: f.1 ∧ ¬f.1 <+: e.1) :
    Returns (forEach (placeFile m.fileSystem (backend.blobStore m) m.host staging staging) (items.map (manifestEntry m.sha))) w
      fun _ w' => ∃ new, w'.contents = (w.put base (some new)).contents ∧ Filled (items.reverse ++ files) new := by
  induction items generalizing w n files with
  | nil => exact ⟨n, (contents_put_same found).symm, filled⟩
  | cons e items ih =>
    obtain ⟨own, later⟩ := List.forall_mem_cons.mp arrives
    obtain ⟨first, rest⟩ := List.forall_mem_cons.mp apart
    obtain ⟨ahead, behind⟩ := List.pairwise_cons.mp among
    rw [List.map_cons]
    unfold forEach
    refine ends_bind (placeFile_returns sound located short found filled own plain first) fun _ w₁ placed => ?_
    obtain ⟨middle, same, filled₁⟩ := placed
    have found₁ : w₁.find base = some middle := (find_of_contents same base).trans (find_put_present found _)
    have plain₁ : ∀ f ∈ e :: files, Plain m f.1 := List.forall_mem_cons.mpr ⟨own.fresh, plain⟩
    have apart₁ : ∀ f ∈ items, ∀ g ∈ e :: files, ¬g.1 <+: f.1 ∧ ¬f.1 <+: g.1 := fun f mem =>
      List.forall_mem_cons.mpr ⟨ahead f mem, rest f mem⟩
    refine (ih found₁ filled₁ later plain₁ apart₁ behind).mono (fun _ w₂ placed => ?_) fun _ _ never => never
    obtain ⟨new, last, filled₂⟩ := placed
    refine ⟨new, last.trans ((contents_put same base _).trans (contents_put_put w base _ _)), ?_⟩
    rwa [List.reverse_cons, List.append_assoc, List.singleton_append]

/-- The filled staging directory gets the name of the destination. -/
theorem buildTree_returns {dest : Place} {spot : Spot} (destLocated : m.locate dest = .ok spot) (fits : spot.Fits) {w : World}
    (other : base ≠ spot) (side : base.temporary = spot.temporary) (beside : base.parent = spot.parent)
    (absent : w.find spot = none) (free : w.find base = none) (parent : w.isDir spot.parent = true)
    {items : List (RelPath × Bytes)} (arrives : ∀ e ∈ items, Arrives m backend e)
    (among : items.Pairwise fun e f => ¬e.1 <+: f.1 ∧ ¬f.1 <+: e.1) {w' : World}
    (made : w'.contents = (w.put base (some (.dir true []))).contents) :
    Returns (buildTree m.fileSystem (backend.blobStore m) m.host staging dest (items.map (manifestEntry m.sha))) w'
      fun _ w'' => ∃ new, w''.contents = (w.put spot (some new)).contents ∧ Filled items.reverse new := by
  have resolved : Returns (m.resolve staging) w' fun p w'' => p = staging ∧ w''.contents = w'.contents := by
    unfold Machine.resolve
    rw [located, ofExcept_ok_bind]
    exact ends_bind (call_returns sound.reliable (c := .resolve _) short w') fun _ w' same => ⟨rfl, same⟩
  unfold buildTree
  refine ends_bind (show Returns (m.fileSystem.resolve staging) w' _ from resolved) fun root w₁ start => ?_
  obtain ⟨same, first⟩ := start
  subst same
  have found : w₁.find base = some (.dir true []) :=
    (find_of_contents (first.trans made) base).trans (find_put free (beside ▸ parent) _)
  have looped := placeFiles_returns sound located short found filled_nil arrives (by simp) (by simp) among
  refine ends_bind looped fun _ w₂ filled => ?_
  obtain ⟨new, second, filled⟩ := filled
  rw [List.append_nil] at filled
  have whole : w₂.contents = (w.put base (some new)).contents :=
    second.trans ((contents_put (first.trans made) base _).trans (contents_put_put w base _ _))
  show Returns (m.rename root dest) w₂ _
  unfold Machine.rename
  rw [located, destLocated, ofExcept_ok_bind, ofExcept_ok_bind]
  refine ends_bind (call_returns sound.reliable (c := .rename base spot) ⟨short, fits⟩ w₂) fun _ w₃ third => ?_
  have whole := third.trans whole
  have source : w₃.find base = some new := (find_of_contents whole base).trans (find_put free (beside ▸ parent) _)
  have target : w₃.find spot = none :=
    (find_of_contents whole spot).trans (find_put_beside side beside other absent free parent _)
  have dir : w₃.isDir spot.parent = true :=
    (isDir_of_contents whole _).trans (isDir_put (show spot.parent.temporary = base.temporary from side.symm) free parent _)
  have moved : Machine.move base spot w₃ = (.ok (), (w₃.put base none).put spot (some new)) := by
    unfold Machine.move
    rw [source]
    dsimp only
    rw [target, dir]
    rfl
  rw [ends_of_eq_ok moved]
  refine ⟨new, contents_put ?_ spot _, filled⟩
  exact (contents_put whole base none).trans (contents_put_undo free _)

end Sound

/-! ### The staging directory is made -/

/-- Its name, with random digits. -/
def stageName (hex : Str) : Str := str ".mg-stage-" ++ hex

theorem stageName_ascii {hex : Str} (digits : IsHex hex) : Ascii (stageName hex) := by
  unfold stageName
  rw [ascii_append, str_ofList]
  exact ⟨by decide, digits.ascii⟩

theorem stageName_isFileName {hex : Str} (digits : IsHex hex) : IsFileName (stageName hex) := by
  have ascii := stageName_ascii digits
  have size : (stageName hex).length = hex.length + 10 := by
    unfold stageName
    rw [List.length_append, Nat.add_comm]
    rfl
  have other {c : CodePoint} (first : c ∉ str ".mg-stage-") (free : isHexDigit c = false) : c ∉ stageName hex := by
    intro mem
    rcases List.mem_append.mp mem with within | digit
    · exact first within
    · rw [digits c digit] at free
      cases free
  refine ⟨fun none => ?_, other ?_ (by decide), other ?_ (by decide), fun dot => ?_, fun dots => ?_, ?_⟩
  · rw [none] at size
    simp at size
  · rw [str_ofList]
    decide
  · rw [str_ofList]
    decide
  · rw [dot] at size
    have one : (str ".").length = 1 := rfl
    omega
  · rw [dots] at size
    have two : (str "..").length = 2 := rfl
    omega
  · apply List.all_eq_true.mpr
    intro c mem
    have low := ascii c mem
    have below : ¬0xd800 ≤ c.val := by omega
    unfold isHighSurrogate
    rw [decide_eq_false below]
    rfl

/-- A staging directory beside the destination would be neither the destination nor anything else. -/
def Unstaged (m : Machine) (spot : Spot) (w : World) : Prop :=
  ∀ n (stage : FileName), stage.val = stageName (m.hex n) →
    spot.path ≠ spot.path.dropLast ++ [stage] ∧ w.find ⟨spot.temporary, spot.path.dropLast ++ [stage]⟩ = none

section Sound

variable {m : Machine} (sound : m.Sound) {backend : Backend} {dest : Place} {spot : Spot}

include sound

theorem exists_stage (located : m.locate dest = .ok spot) (n : Nat) :
    ∃ stage : FileName, stage.val = stageName (m.hex n) ∧ octetLength stage.val ≤ nameMax ∧
      m.locate (Machine.join (Machine.parent dest) (stageName (m.hex n))) =
        .ok ⟨spot.temporary, spot.path.dropLast ++ [stage]⟩ := by
  obtain ⟨size, digits⟩ := sound.hexDigits n
  have ascii := stageName_ascii digits
  have valid : IsFileName (stageName (m.hex n)) := stageName_isFileName digits
  have segments : (stageName (m.hex n)).splitOn (cp '/') = [stageName (m.hex n)] := by
    have one := splitOn_pathText (p := [⟨_, valid⟩]) (List.cons_ne_nil _ _)
    exact one
  refine ⟨⟨_, valid⟩, rfl, ?_, ?_⟩
  · show octetLength (stageName (m.hex n)) ≤ _
    rw [octetLength_ascii ascii]
    unfold stageName nameMax
    rw [List.length_append, size, str_ofList]
    decide
  · obtain ⟨side, names⟩ := locate_ok.mp (locate_parent located)
    refine locate_ok.mpr ⟨side, ?_⟩
    show ((Machine.parent dest).names ++ (stageName (m.hex n)).splitOn (cp '/')).mapM m.onDisk = _
    rw [segments]
    exact mapM_append_some.mpr ⟨_, _, names, mapM_singleton_some.mpr ⟨_, sound.ascii ⟨_, valid⟩ ascii, rfl⟩, rfl⟩

/-- The files of a manifest are at the destination in the end. -/
theorem materialize_returns (located : m.locate dest = .ok spot) (fits : spot.Fits) {w : World} (absent : w.find spot = none)
    (parent : w.isDir spot.parent = true) (unstaged : Unstaged m spot w) {items : List (RelPath × Bytes)}
    (arrives : ∀ e ∈ items, Arrives m backend e) (among : items.Pairwise fun e f => ¬e.1 <+: f.1 ∧ ¬f.1 <+: e.1) :
    Returns (materialize m.fileSystem (backend.blobStore m) m.host dest (items.map (manifestEntry m.sha))) w
      fun _ w' => ∃ new, w'.contents = (w.put spot (some new)).contents ∧ Filled items.reverse new := by
  obtain ⟨stage, text, size, staging⟩ := exists_stage sound located w.ticks
  obtain ⟨other, free⟩ := unstaged w.ticks stage text
  have ticked : w.tick.contents = w.contents := rfl
  have named : m.fileSystem.uuidHex w = (.ok (m.hex w.ticks), w.tick) := rfl
  have above : Spot.parent ⟨spot.temporary, spot.path.dropLast ++ [stage]⟩ = spot.parent := by
    unfold Spot.parent
    rw [List.dropLast_concat]
  have short : Spot.Fits ⟨spot.temporary, spot.path.dropLast ++ [stage]⟩ := by
    intro name mem
    rcases List.mem_append.mp mem with within | own
    · exact fits name (List.dropLast_subset _ within)
    · rw [List.mem_singleton.mp own]
      exact size
  unfold materialize Returns
  rw [ends_bind_iff, ends_of_eq_ok named]
  dsimp only
  have called : m.fileSystem.join (m.fileSystem.parent dest) (str ".mg-stage-" ++ m.hex w.ticks) =
      Machine.join (Machine.parent dest) (stageName (m.hex w.ticks)) := rfl
  rw [called]
  have mkdir : Returns (m.mkdir (Machine.join (Machine.parent dest) (stageName (m.hex w.ticks)))) w.tick fun _ w' =>
      w'.contents = (w.tick.put ⟨spot.temporary, spot.path.dropLast ++ [stage]⟩ (some (.dir true []))).contents := by
    unfold Machine.mkdir
    rw [staging, ofExcept_ok_bind]
    exact mkdirAt_returns sound.reliable short ((find_of_contents ticked _).trans free)
      ((isDir_of_contents ticked _).trans (above ▸ parent))
  refine ends_bind (show Returns (m.fileSystem.mkdir _) w.tick _ from mkdir) fun _ w₁ made => ?_
  have built := buildTree_returns sound staging short located fits (fun same => other (congrArg Spot.path same).symm) rfl above
    absent free parent arrives among (made.trans (contents_put ticked _ _))
  exact ends_onError built fun _ _ never => never.elim

end Sound

end ModelGuard.Storage
