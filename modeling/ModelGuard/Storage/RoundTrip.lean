import ModelGuard.Hashing.Identity
import ModelGuard.Hashing.SameTree
import ModelGuard.Storage.Rebuilt
import ModelGuard.Storage.Restore
import ModelGuard.Storage.Upload

/-!
# What was uploaded is what is downloaded

A directory that was uploaded comes back with the files that its listings showed, or its manifest is one that a
download refuses and nothing comes back.
-/

namespace ModelGuard.Storage

open Lib Lib.Prog Lib.Node ModelGuard.Hashing
open Signing (plainHost)

variable {α : Type}

/-! ### Paths of files -/

/-- A path text goes on from another where the path goes on from the other. -/
theorem prefix_of_pathText {p q : RelPath} (named : p ≠ []) (within : pathText p ++ [cp '/'] <+: pathText q) : p <+: q := by
  obtain ⟨rest, whole⟩ := within
  rw [List.append_assoc, List.singleton_append] at whole
  induction p generalizing q with
  | nil => exact (named rfl).elim
  | cons name p ih =>
    have slash (n : FileName) : cp '/' ∉ n.val := n.property.2.1
    cases q with
    | nil => cases p <;> simp [pathText] at whole
    | cons other q =>
      cases q with
      | nil =>
        have inside : cp '/' ∈ other.val := by
          rw [show pathText [other] = other.val from rfl] at whole
          rw [← whole]
          simp
        exact (slash other inside).elim
      | cons next q =>
        rw [pathText_cons (List.cons_ne_nil next q)] at whole
        cases p with
        | nil =>
          obtain ⟨same, -⟩ := append_sep_inj (slash name) (slash other) (show name.val ++ cp '/' :: rest = _ from whole)
          exact List.cons_prefix_cons.mpr ⟨Subtype.ext same, List.nil_prefix⟩
        | cons following p =>
          rw [pathText_cons (List.cons_ne_nil following p), List.append_assoc, List.cons_append] at whole
          obtain ⟨same, below⟩ := append_sep_inj (slash name) (slash other) whole
          exact List.cons_prefix_cons.mpr ⟨Subtype.ext same, ih (List.cons_ne_nil _ _) below⟩

/-- No file of a tree is above another. -/
theorem regularFiles_apart {n : Node α} (distinct : Distinct n) {e f : RelPath × α} (mem : e ∈ regularFiles [] n)
    (mem' : f ∈ regularFiles [] n) (within : e.1 <+: f.1) : e.1 = f.1 := by
  obtain ⟨p, a⟩ := e
  obtain ⟨q, b⟩ := f
  obtain ⟨rest, whole⟩ := within
  have whole : p ++ rest = q := whole
  subst whole
  have found : find p (some n) = some (.file a) := (mem_regularFiles_iff distinct).mp mem
  have below : find (p ++ rest) (some n) = some (.file b) := (mem_regularFiles_iff distinct).mp mem'
  rw [find_append, found] at below
  cases rest with
  | nil => exact (List.append_nil p).symm
  | cons name rest =>
    obtain ⟨l, entries, dir, -⟩ := find_some_dir below
    cases dir

theorem length_le_octetLength (s : Str) : s.length ≤ octetLength s := by
  unfold octetLength
  induction s with
  | nil => exact le_refl _
  | cons c s ih =>
    have one : 1 ≤ octetWidth c := by
      unfold octetWidth
      split_ifs <;> omega
    rw [List.length_cons, List.map_cons, List.sum_cons]
    omega

/-! ### The files of a directory -/

/-- The files that the listings show, in the order of the manifest. -/
def shownFiles (disk : Disk α) (root : Node α) : List (RelPath × Bytes) :=
  ((regularFiles [] (seen root)).map fun e => (e.1, disk.content e.2)).insertionSort fun e f => pathText e.1 ≤ pathText f.1

theorem mem_shownFiles {disk : Disk α} {root : Node α} {e : RelPath × Bytes} :
    e ∈ shownFiles disk root ↔ HoldsAt disk (seen root) e.1 e.2 := by
  unfold shownFiles HoldsAt
  rw [List.mem_insertionSort, List.mem_map]
  constructor
  · rintro ⟨f, mem, same⟩
    exact same ▸ ⟨f.2, mem, rfl⟩
  · rintro ⟨a, mem, content⟩
    exact ⟨_, mem, Prod.ext rfl content⟩

/-- They are the entries of the manifest. -/
theorem map_shownFiles (sha : Sha256) (disk : Disk α) (root : Node α) :
    (shownFiles disk root).map (manifestEntry sha) = sortFiles (seenFiles sha disk root) := by
  unfold shownFiles sortFiles seenFiles
  refine (List.map_insertionSort _ (fun f g : FileDigest => f.path ≤ g.path) (manifestEntry sha) _ fun _ _ _ _ => Iff.rfl).trans ?_
  rw [List.map_map]
  rfl

theorem shownFiles_nodup (disk : Disk α) {root : Node α} (distinct : Distinct root) :
    ((shownFiles disk root).map (·.1)).Nodup := by
  have once := regularFiles_nodup (distinct_seen distinct) []
  have same : ((shownFiles disk root).map (·.1)).Perm ((regularFiles [] (seen root)).map (·.1)) := by
    unfold shownFiles
    refine ((List.perm_insertionSort _ _).map _).trans ?_
    rw [List.map_map]
    exact List.Perm.refl _
  exact same.nodup_iff.mpr once

/-- No file is above another. -/
theorem shownFiles_apart (disk : Disk α) {root : Node α} (distinct : Distinct root) :
    (shownFiles disk root).Pairwise fun e f => ¬e.1 <+: f.1 ∧ ¬f.1 <+: e.1 := by
  have separate {e f : RelPath × Bytes} (mem : e ∈ shownFiles disk root) (mem' : f ∈ shownFiles disk root)
      (within : e.1 <+: f.1) : e.1 = f.1 := by
    obtain ⟨a, there, -⟩ := mem_shownFiles.mp mem
    obtain ⟨b, there', -⟩ := mem_shownFiles.mp mem'
    exact regularFiles_apart (distinct_seen distinct) there there' within
  have once := List.pairwise_map.mp (shownFiles_nodup disk distinct)
  refine (List.Pairwise.and_mem.mp once).imp fun {e f} apart => ?_
  obtain ⟨mem, mem', other⟩ := apart
  exact ⟨fun within => other (separate mem mem' within), fun within => other (separate mem' mem within).symm⟩

/-! ### Manifests that are accepted -/

/-- A machine that shows what is in its file system. -/
structure Machine.Faithful (m : Machine) : Prop extends m.Sound where
  sees : ∀ w spot, m.sees w spot = (w.find spot).map (mapFiles fun content => (content, true))

/-- A directory whose names can be made again. -/
structure Ordinary (m : Machine) (root : Node α) : Prop where
  distinct : Distinct root
  creatable : ∀ e ∈ regularFiles [] (seen root), Creatable m e.1

/-- The limits of a download, for files that a walk has found. -/
structure Portable (maxFiles maxTotalBytes : Int) (files : List FileDigest) : Prop where
  short : ∀ f ∈ files, f.path.length ≤ maxPath
  plain : ∀ f ∈ files, ∀ c ∈ f.path, c ≠ cp '\\' ∧ isControl c = false
  sizes : ∀ f ∈ files, f.size < 10 ^ Json.maxStrDigits
  fits : (canonicalManifestBytes files).length ≤ maxManifestBytes
  count : (files.length : Int) ≤ maxFiles
  total : (((files.map (·.size)).sum : Nat) : Int) ≤ maxTotalBytes

section Manifest

variable {m : Machine} {disk : Disk α} {root : Node α} {maxFiles maxTotalBytes : Int}

theorem safePath_creatable {p : RelPath} (creatable : Creatable m p) (short : (pathText p).length ≤ maxPath)
    (plain : ∀ c ∈ pathText p, c ≠ cp '\\' ∧ isControl c = false) : SafePath (pathText p) where
  short
  plain
  segments := by
    rw [splitOn_pathText creatable.named]
    intro segment mem
    obtain ⟨name, own, same⟩ := List.mem_map.mp mem
    subst same
    obtain ⟨some, -, -, dot, dots, -⟩ := name.property
    exact ⟨some, dot, dots, (length_le_octetLength _).trans (creatable.short name own)⟩

theorem sortFiles_twice {files : List FileDigest} (distinct : (files.map (·.path)).Nodup) :
    sortFiles (sortFiles files) = sortFiles files :=
  (sortFiles_eq_of_perm (sortFiles_perm files).symm distinct).symm

theorem canonicalManifestBytes_sorted {files : List FileDigest} (distinct : (files.map (·.path)).Nodup) :
    canonicalManifestBytes (sortFiles files) = canonicalManifestBytes files := by
  unfold canonicalManifestBytes manifestJson
  rw [sortFiles_twice distinct]

/-- The manifest of a directory is accepted exactly within the limits. -/
theorem canonicalImage_iff (ordinary : Ordinary m root) (some : regularFiles [] (seen root) ≠ [])
    (valid : ∀ f ∈ sortFiles (seenFiles m.sha disk root), IsSha256 f.sha256) (files : List FileDigest) :
    CanonicalImage (canonicalManifestBytes (seenFiles m.sha disk root)) maxFiles maxTotalBytes files ↔
      files = sortFiles (seenFiles m.sha disk root) ∧ Portable maxFiles maxTotalBytes files := by
  have nodup := seenFiles_nodup m.sha disk ordinary.distinct
  have sorted : (sortFiles (seenFiles m.sha disk root)).Pairwise fun f g => f.path < g.path :=
    sorted_of_sortFiles (sortFiles_twice nodup).symm (((sortFiles_perm _).map _).nodup_iff.mpr nodup)
  constructor
  · rintro ⟨fits, image, acceptable⟩
    have wf : ∀ f ∈ files, f.WF := fun f mem =>
      ⟨acceptable.joined f mem, Json.joined_of_scalars (acceptable.digests f mem).2.scalars⟩
    have same : files = sortFiles (seenFiles m.sha disk root) :=
      (sortFiles_of_sorted acceptable.sorted).symm.trans (canonicalManifestBytes_injective seenFiles_wf wf image).symm
    refine ⟨same, fun f mem => (acceptable.paths f mem).short, fun f mem => (acceptable.paths f mem).plain,
      acceptable.sizes, image ▸ fits, acceptable.count, acceptable.total⟩
  · rintro ⟨same, portable⟩
    subst same
    have shown {f : FileDigest} (mem : f ∈ sortFiles (seenFiles m.sha disk root)) :
        ∃ e ∈ regularFiles [] (seen root), f = fileDigest m.sha disk e := by
      obtain ⟨e, own, made⟩ := List.mem_map.mp ((sortFiles_perm _).subset mem)
      exact ⟨e, own, made.symm⟩
    refine ⟨canonicalManifestBytes_sorted nodup ▸ portable.fits, (canonicalManifestBytes_sorted nodup).symm, ?_⟩
    refine ⟨fun none => some ?_, sorted, fun f mem => ?_, fun f mem => ?_, valid, portable.sizes, ?_, portable.count,
      portable.total⟩
    · have size := (sortFiles_perm (seenFiles m.sha disk root)).length_eq
      rw [none, seenFiles, List.length_map] at size
      exact List.length_eq_zero_iff.mp size.symm
    · obtain ⟨e, own, same⟩ := shown mem
      subst same
      exact safePath_creatable (ordinary.creatable e own) (portable.short _ mem) (portable.plain _ mem)
    · obtain ⟨e, -, same⟩ := shown mem
      subst same
      exact pathText_joined e.1
    · intro f mem g mem' within
      obtain ⟨e, own, same⟩ := shown mem
      obtain ⟨e', own', same'⟩ := shown mem'
      subst same same'
      have below := prefix_of_pathText (ordinary.creatable e own).named within
      have equal := regularFiles_apart (distinct_seen ordinary.distinct) own own' below
      have short := within.length_le
      rw [show (fileDigest m.sha disk e).path = (fileDigest m.sha disk e').path from congrArg pathText equal,
        List.length_append, List.length_singleton] at short
      omega

end Manifest

/-! ### What was put together hashes as the source did -/

section Rehash

variable {sha : Sha256} {disk : Disk α} {root : Node α} {new : Node Bytes}

theorem holdsAt_filled (filled : Filled (shownFiles disk root).reverse new) (path : RelPath) (bytes : Bytes) :
    HoldsAt Machine.view (mapFiles (fun content => (content, true)) new) path bytes ↔ HoldsAt disk (seen root) path bytes := by
  have listed (c : Bytes) : (path, c) ∈ regularFiles [] new ↔ (path, c) ∈ shownFiles disk root := by
    have walked : (path, c) ∈ regularFiles [] new ↔ find path (some new) = some (.file c) := mem_regularFiles_iff filled.distinct
    rw [walked, ← List.mem_reverse]
    exact ⟨fun found => filled.only _ _ found, fun mem => filled.there _ mem⟩
  rw [← mem_shownFiles (e := (path, bytes)), ← listed]
  unfold HoldsAt
  rw [regularFiles_mapFiles]
  constructor
  · rintro ⟨a, mem, content⟩
    obtain ⟨e, own, same⟩ := List.mem_map.mp mem
    cases same
    exact content ▸ own
  · exact fun mem => ⟨(bytes, true), List.mem_map.mpr ⟨_, mem, rfl⟩, rfl⟩

theorem fullyReadable_filled (filled : Filled (shownFiles disk root).reverse new) :
    FullyReadable Machine.view (mapFiles (fun content => (content, true)) new) := by
  constructor
  · rw [everywhere_mapFiles]
    refine everywhere_of_find filled.distinct fun q n found => ?_
    have belongs := filled.only q n found
    cases n with
    | file a => rfl
    | symlink target => rfl
    | dir l entries => exact belongs.1
  · rw [everywhere_mapFiles]
    refine everywhere_of_find filled.distinct fun q n found => ?_
    have belongs := filled.only q n found
    cases n with
    | file a => rfl
    | symlink target => exact belongs.elim
    | dir l entries => rfl

/-- The digest of the restored tree is that of the source. -/
theorem hash_filled (distinct : Distinct root) (clean : Clean disk root) (nonempty : regularFiles [] (seen root) ≠ [])
    (filled : Filled (shownFiles disk root).reverse new) (name : FileName) :
    Hashing.hashArtifact sha Machine.view name (some (mapFiles (fun content => (content, true)) new)) =
      .ok (directoryDigest sha (seenFiles sha disk root)) := by
  obtain ⟨l, entries, dir⟩ := filled.root
  cases dir
  have readable := fullyReadable_filled filled
  have distinct' : Distinct (mapFiles (fun content => (content, true)) (.dir l entries)) := distinct_mapFiles _ filled.distinct
  have listed := seen_listable root
  have source : FullyReadable disk (seen root) := ⟨listed, clean⟩
  have perm := seenFiles_perm sha readable source distinct' (distinct_seen distinct) (holdsAt_filled filled)
  have whole : seenFiles sha disk (seen root) = seenFiles sha disk root := by
    unfold seenFiles
    rw [seen_eq_self listed]
  obtain ⟨e, mem⟩ := List.exists_mem_of_ne_nil _ nonempty
  have held : HoldsAt disk (seen root) e.1 (disk.content e.2) := ⟨e.2, mem, rfl⟩
  obtain ⟨a, there, -⟩ := (holdsAt_filled filled _ _).mpr held
  have hashed := hashDirectory_readable sha distinct' readable (List.ne_nil_of_mem there)
  rw [← whole, ← directoryDigest_perm sha perm (seenFiles_nodup sha _ distinct')]
  exact hashed

end Rehash

/-! ### The round trip -/

/-- A directory can be put at the destination, and its parents can be made. -/
structure Vacant (m : Machine) (dest : Place) (spot : Spot) (w : World) : Prop where
  located : m.locate dest = .ok spot
  main : spot.temporary = false
  fits : spot.Fits
  absent : w.find spot = none
  root : w.tree.isSome
  parents : (makeDirs spot.path.dropLast w.tree).isSome
  unstaged : Unstaged m spot w
  clean : w.temporary = none

theorem checkRequest_directory {expected : Str} (valid : IsSha256 expected) :
    checkRequest (str "sha256:" ++ expected) (str "directory") = .ok expected := by
  have parts : partitionColon (str "sha256:" ++ expected) = (str "sha256", expected) := by
    rw [str_ofList, str_ofList]
    rfl
  unfold checkRequest
  rw [parts]
  dsimp only
  rw [if_neg (not_not.mpr rfl), if_neg (not_not.mpr valid), if_neg (not_not.mpr (List.mem_cons_of_mem _ (List.mem_singleton_self _)))]

section Download

variable {m : Machine} {dest : Place} {spot : Spot} {w : World}

theorem Vacant.named (vacant : Vacant m dest spot w) : spot.path ≠ [] := by
  intro top
  have absent := vacant.absent
  rw [World.find_main vacant.main, top] at absent
  have root := vacant.root
  rw [show w.tree = none from absent] at root
  cases root

/-- Once its parents are made, the destination is still free. -/
theorem prepareDownload_returns (sound : m.Sound) (vacant : Vacant m dest spot w) {expected : Str} (valid : IsSha256 expected) :
    Returns (prepareDownload m.fileSystem (str "sha256:" ++ expected) (str "directory") dest) w fun name w' =>
      name = expected ∧ w'.temporary = none ∧ w'.find spot = none ∧ w'.isDir spot.parent = true ∧ Unstaged m spot w' := by
  obtain ⟨new, made⟩ := Option.isSome_iff_exists.mp vacant.parents
  unfold prepareDownload
  rw [checkRequest_directory valid, ofExcept_ok_bind]
  refine ends_bind (show Returns (m.fileSystem.occupied dest) w _ from
    occupied_returns sound.reliable vacant.located vacant.fits) fun taken w₁ looked => ?_
  obtain ⟨free, first⟩ := looked
  rw [vacant.absent] at free
  subst free
  rw [if_neg (show ¬(none : Node.Tree Bytes).isSome = true from Bool.false_ne_true)]
  have upperFits : spot.parent.Fits := fun name mem => vacant.fits name (List.dropLast_subset _ mem)
  have side : w₁.side spot.parent.temporary = w.tree := by
    rw [show spot.parent.temporary = false from vacant.main]
    exact side_of_contents first false
  have parents : Returns (m.mkdirs (Machine.parent dest)) w₁ fun _ w₂ =>
      w₂.contents = (w₁.setSide (some new) spot.parent.temporary).contents :=
    mkdirs_returns sound.reliable (locate_parent vacant.located) upperFits (side ▸ made) (side ▸ vacant.root)
  refine ends_bind (show Returns (m.fileSystem.mkdirs _) w₁ _ from parents) fun _ w₂ second => ?_
  rw [show spot.parent.temporary = false from vacant.main] at second
  have tree : w₂.tree = some new := side_of_setSide second
  have temporary : w₂.temporary = w₁.temporary := side_of_contents second true
  have elsewhere {p : RelPath} (apart : ¬p <+: spot.path.dropLast) (absent : Node.find p w.tree = none) : Node.find p w₂.tree = none := by
    rw [tree]
    refine shape_eq_none.mp ?_
    rw [shape_makeDirs made, if_neg apart]
    exact shape_eq_none.mpr absent
  refine ⟨rfl, temporary.trans ((side_of_contents first true).trans vacant.clean), ?_, ?_, fun n stage text => ?_⟩
  · rw [World.find_main vacant.main]
    exact elsewhere (not_prefix_dropLast vacant.named) ((World.find_main vacant.main).symm.trans vacant.absent)
  · obtain ⟨l, entries, dir⟩ := find_makeDirs made
    refine World.isDir_iff.mpr ⟨l, entries, ?_⟩
    rw [World.find_main (show spot.parent.temporary = false from vacant.main), tree]
    exact dir
  · obtain ⟨other, free⟩ := vacant.unstaged n stage text
    have main : (⟨spot.temporary, spot.path.dropLast ++ [stage]⟩ : Spot).temporary = false := vacant.main
    rw [World.find_main main] at free ⊢
    refine ⟨other, elsewhere (fun within => ?_) free⟩
    have long := within.length_le
    rw [List.length_append, List.length_singleton] at long
    omega

/-- A directory whose blobs are all in the store is restored, and hashes as it did. -/
theorem download_returns (faithful : m.Faithful) {backend : Backend} {disk : Disk α} {root : Node α} (ordinary : Ordinary m root)
    (clean : Clean disk root) (nonempty : regularFiles [] (seen root) ≠ []) {maxFiles maxTotalBytes : Int}
    (arrives : ∀ e ∈ shownFiles disk root, Arrives m backend e)
    (valid : IsSha256 (directoryDigest m.sha (seenFiles m.sha disk root)).digest)
    (held : backend.Holds (directoryDigest m.sha (seenFiles m.sha disk root)).digest
      (canonicalManifestBytes (seenFiles m.sha disk root)))
    (image : CanonicalImage (canonicalManifestBytes (seenFiles m.sha disk root)) maxFiles maxTotalBytes
      (sortFiles (seenFiles m.sha disk root))) (vacant : Vacant m dest spot w) (verifyAfter : Bool) :
    Returns (downloadArtifact m.fileSystem (backend.blobStore m) m.sha m.host
        (str "sha256:" ++ (directoryDigest m.sha (seenFiles m.sha disk root)).digest) (str "directory") dest maxTotalBytes
        maxFiles verifyAfter) w fun _ w' =>
      (∃ n, w'.find spot = some n ∧ Filled (shownFiles disk root) n) ∧
        m.fileSystem.hashArtifact dest w' = .ok (directoryDigest m.sha (seenFiles m.sha disk root)) := by
  have sound := faithful.toSound
  have directory : str "directory" ≠ str "file" := by decide
  unfold downloadArtifact
  refine ends_bind (prepareDownload_returns sound vacant valid) fun expected w₁ start => ?_
  obtain ⟨same, temporary, absent, parent, unstaged⟩ := start
  subst same
  rw [if_neg directory]
  unfold downloadDirectory
  -- The manifest.
  have fetched : Returns (fetchManifest m.fileSystem (backend.blobStore m) m.sha m.host
      (directoryDigest m.sha (seenFiles m.sha disk root)).digest maxFiles maxTotalBytes) w₁ fun files w₂ =>
        files = sortFiles (seenFiles m.sha disk root) ∧ w₂.contents = w₁.contents := by
    obtain ⟨w₂, run⟩ := (fetchManifest_ok_iff sound valid rfl held maxFiles maxTotalBytes w₁ _).mpr image
    obtain ⟨tree, gone⟩ := (fetchManifest_ends (backend_confined m backend) _ maxFiles maxTotalBytes temporary).returned run
    exact (ends_of_eq_ok run).mpr ⟨rfl, Prod.ext tree (gone.trans temporary.symm)⟩
  refine ends_bind fetched fun files w₂ second => ?_
  obtain ⟨same, second⟩ := second
  subst same
  -- The files.
  have unstaged₂ : Unstaged m spot w₂ := fun n stage text =>
    ⟨(unstaged n stage text).1, (find_of_contents second _).trans (unstaged n stage text).2⟩
  have built := materialize_returns sound vacant.located vacant.fits ((find_of_contents second spot).trans absent)
    ((isDir_of_contents second _).trans parent) unstaged₂ arrives (shownFiles_apart disk ordinary.distinct)
  rw [map_shownFiles] at built
  refine ends_bind built fun _ w₃ third => ?_
  obtain ⟨new, contents, filled⟩ := third
  have found : w₃.find spot = some new :=
    (find_of_contents contents spot).trans
      (find_put ((find_of_contents second spot).trans absent) ((isDir_of_contents second _).trans parent) _)
  have hashed : m.fileSystem.hashArtifact dest w₃ = .ok (directoryDigest m.sha (seenFiles m.sha disk root)) := by
    obtain ⟨d, name, last⟩ := List.eq_nil_or_concat spot.path |>.resolve_left vacant.named
    show m.hashArtifact dest w₃ = _
    unfold Machine.hashArtifact
    rw [vacant.located]
    simp only [bind, Except.bind, last, List.concat_eq_append, List.getLast?_concat]
    rw [faithful.sees, found, Option.map_some, hash_filled ordinary.distinct clean nonempty filled]
  have restored : (∃ n, w₃.find spot = some n ∧ Filled (shownFiles disk root) n) ∧
      m.fileSystem.hashArtifact dest w₃ = .ok (directoryDigest m.sha (seenFiles m.sha disk root)) :=
    ⟨⟨new, found, filled.congr fun _ => List.mem_reverse⟩, hashed⟩
  cases verifyAfter with
  | false => exact restored
  | true =>
    have run : verifyRebuilt m.fileSystem dest (directoryDigest m.sha (seenFiles m.sha disk root)).digest w₃ = (.ok (), w₃) := by
      rw [verifyRebuilt_run, hashed]
      exact if_pos rfl
    rw [if_pos rfl, ends_of_eq_ok run]
    exact restored

end Download

theorem hashed_directory {m : Machine} {source : Source α} {l : Bool} {entries : List (FileName × Node α)} {digest : ArtifactDigest}
    (root : source.root = some (.dir l entries)) (distinct : Distinct (.dir l entries : Node α))
    (hashed : source.hashed m = .ok digest) :
    Clean source.disk (.dir l entries) ∧ regularFiles [] (seen (.dir l entries)) ≠ [] ∧
      digest = directoryDigest m.sha (seenFiles m.sha source.disk (.dir l entries)) := by
  unfold Source.hashed at hashed
  rw [root] at hashed
  have walked : Hashing.hashArtifact m.sha source.disk source.name (some (.dir l entries)) =
      hashDirectory m.sha source.disk (.dir l entries) := rfl
  rw [walked] at hashed
  cases outcome : hashDirectory m.sha source.disk (.dir l entries) with
  | error e =>
    rw [outcome] at hashed
    cases hashed
  | ok d =>
    rw [outcome] at hashed
    cases hashed
    exact (hashDirectory_ok m.sha source.disk distinct).mp outcome

/-- A store that holds the files of a directory and its manifest. -/
structure Stocked (m : Machine) (backend : Backend) (disk : Disk α) (root : Node α) : Prop where
  clean : Clean disk root
  nonempty : regularFiles [] (seen root) ≠ []
  valid : IsSha256 (directoryDigest m.sha (seenFiles m.sha disk root)).digest
  digests : ∀ f ∈ sortFiles (seenFiles m.sha disk root), IsSha256 f.sha256
  manifest : backend.Holds (directoryDigest m.sha (seenFiles m.sha disk root)).digest
    (canonicalManifestBytes (seenFiles m.sha disk root))
  arrives : ∀ e ∈ shownFiles disk root, Arrives m backend e

theorem stocked_of_held {m : Machine} (injective : Function.Injective m.sha.hexdigest) {reader : FileReader}
    (unbroken : ∀ raw, (reader.stream raw).broken = none) {disk : Disk α} {root : Node α} (ordinary : Ordinary m root)
    (clean : Clean disk root) (nonempty : regularFiles [] (seen root) ≠ []) {store : LocalBlobStore}
    (own : Holding m.sha store (directoryDigest m.sha (seenFiles m.sha disk root)).digest)
    (held : ∀ f ∈ sortFiles (seenFiles m.sha disk root), Holding m.sha store f.sha256) :
    Stocked m (.localStore store reader) disk root := by
  obtain ⟨valid, raw, blob, hashes⟩ := own
  have whole : raw = canonicalManifestBytes (seenFiles m.sha disk root) := injective hashes
  subst whole
  refine ⟨clean, nonempty, valid, fun f mem => (held f mem).1, ⟨blob, unbroken _⟩, fun e mem => ?_⟩
  obtain ⟨a, shown, -⟩ := mem_shownFiles.mp mem
  obtain ⟨own, content, entry, equal⟩ := held _ (map_shownFiles m.sha disk root ▸ List.mem_map_of_mem mem)
  have arrived : content = e.2 := injective equal
  subst arrived
  exact ⟨ordinary.creatable _ shown, own, entry, unbroken _⟩

/-- What an upload that returned leaves, seen from a machine that computes the same digests. -/
theorem stocked_of_uploaded {publisher m : Machine} (same : publisher.sha = m.sha)
    (injective : Function.Injective m.sha.hexdigest) {reader : FileReader}
    (unbroken : ∀ raw, (reader.stream raw).broken = none) {pid : Str} {faults : UploadFaults} {source : Source α} {l : Bool}
    {entries : List (FileName × Node α)} (root : source.root = some (.dir l entries)) (ordinary : Ordinary m (.dir l entries))
    {store next : LocalBlobStore} (sealed : Sealed m.sha store) {digest : ArtifactDigest}
    (uploaded : uploadArtifact publisher pid faults source store = (.ok digest, next)) :
    Stocked m (.localStore next reader) source.disk (.dir l entries) ∧
      digest = directoryDigest m.sha (seenFiles m.sha source.disk (.dir l entries)) := by
  obtain ⟨hashed, -, stored⟩ := (uploadArtifact_ends (same ▸ sealed)).returned uploaded
  rw [same] at stored
  obtain ⟨clean, nonempty, made⟩ := hashed_directory root ordinary.distinct hashed
  rw [same] at made
  subst made
  obtain ⟨own, held⟩ := stored rfl
  exact ⟨stocked_of_held injective unbroken ordinary clean nonempty own held, rfl⟩

section Stocked

variable {m : Machine} {backend : Backend} {disk : Disk α} {root : Node α} {dest : Place} {spot : Spot} {w : World}
  {maxFiles maxTotalBytes : Int}

theorem Stocked.returns (stocked : Stocked m backend disk root) (faithful : m.Faithful) (ordinary : Ordinary m root)
    (vacant : Vacant m dest spot w) (portable : Portable maxFiles maxTotalBytes (sortFiles (seenFiles m.sha disk root)))
    (verifyAfter : Bool) :
    ∃ w' n, downloadArtifact m.fileSystem (backend.blobStore m) m.sha m.host
        (str "sha256:" ++ (directoryDigest m.sha (seenFiles m.sha disk root)).digest) (str "directory") dest maxTotalBytes
        maxFiles verifyAfter w = (.ok (), w') ∧
      w'.find spot = some n ∧ Filled (shownFiles disk root) n ∧
        m.fileSystem.hashArtifact dest w' = .ok (directoryDigest m.sha (seenFiles m.sha disk root)) := by
  have accepted := (canonicalImage_iff ordinary stocked.nonempty stocked.digests _).mpr
    ⟨rfl, portable⟩
  have returns := download_returns faithful ordinary stocked.clean stocked.nonempty stocked.arrives stocked.valid
    stocked.manifest accepted vacant verifyAfter
  rcases returns.cases with ⟨_, w', run, ⟨n, found, filled⟩, rehashed⟩ | ⟨e, w', run, never⟩
  · exact ⟨w', n, run, found, filled, rehashed⟩
  · exact never.elim

theorem Stocked.refused (stocked : Stocked m backend disk root) (faithful : m.Faithful) (ordinary : Ordinary m root)
    (vacant : Vacant m dest spot w) (refused : ¬Portable maxFiles maxTotalBytes (sortFiles (seenFiles m.sha disk root)))
    (verifyAfter : Bool) :
    ∃ e w', downloadArtifact m.fileSystem (backend.blobStore m) m.sha m.host
        (str "sha256:" ++ (directoryDigest m.sha (seenFiles m.sha disk root)).digest) (str "directory") dest maxTotalBytes
        maxFiles verifyAfter w = (.error e, w') ∧
      Grown spot.path.dropLast w.tree w'.tree ∧ w'.temporary = none := by
  have none : ¬∃ files, CanonicalImage (canonicalManifestBytes (seenFiles m.sha disk root)) maxFiles maxTotalBytes files := by
    rintro ⟨files, image⟩
    obtain ⟨same, portable⟩ := (canonicalImage_iff ordinary stocked.nonempty stocked.digests files).mp image
    subst same
    exact refused portable
  rcases (download_refused faithful.toSound stocked.valid rfl stocked.manifest maxFiles maxTotalBytes none vacant.located
    vacant.main vacant.clean verifyAfter).cases with ⟨_, _, _, never⟩ | ended
  · exact never.elim
  · exact ended

end Stocked

/-- An uploaded directory that is within the limits of a download comes back, file for file, and hashes to its digest.
One that is not never comes back, and no more than the parents of the destination are made. -/
theorem upload_download_round_trip (m : Machine) (faithful : m.Faithful) (injective : Function.Injective m.sha.hexdigest)
    (reader : FileReader) (unbroken : ∀ raw, (reader.stream raw).broken = none) (pid : Str) (faults : UploadFaults)
    (source : Source α) (l : Bool) (entries : List (FileName × Node α)) (root : source.root = some (.dir l entries))
    (ordinary : Ordinary m (.dir l entries)) (store next : LocalBlobStore) (sealed : Sealed m.sha store)
    (digest : ArtifactDigest) (uploaded : uploadArtifact m pid faults source store = (.ok digest, next)) (dest : Place)
    (spot : Spot) (w : World) (vacant : Vacant m dest spot w) (maxFiles maxTotalBytes : Int) (verifyAfter : Bool) :
    (Portable maxFiles maxTotalBytes digest.files →
      ∃ w' n, downloadArtifact m.fileSystem ((Backend.localStore next reader).blobStore m) m.sha m.host
          (str "sha256:" ++ digest.digest) (str "directory") dest maxTotalBytes maxFiles verifyAfter w = (.ok (), w') ∧
        w'.find spot = some n ∧ Filled (shownFiles source.disk (.dir l entries)) n ∧
        m.fileSystem.hashArtifact dest w' = .ok digest) ∧
      (¬Portable maxFiles maxTotalBytes digest.files →
        ∃ e w', downloadArtifact m.fileSystem ((Backend.localStore next reader).blobStore m) m.sha m.host
            (str "sha256:" ++ digest.digest) (str "directory") dest maxTotalBytes maxFiles verifyAfter w = (.error e, w') ∧
          Grown spot.path.dropLast w.tree w'.tree ∧ w'.temporary = none) := by
  obtain ⟨stocked, same⟩ := stocked_of_uploaded rfl injective unbroken root ordinary sealed uploaded
  subst same
  exact ⟨fun portable => stocked.returns faithful ordinary vacant portable verifyAfter,
    fun refused => stocked.refused faithful ordinary vacant refused verifyAfter⟩

/-! ### A directory that comes back -/

theorem quietMachine_faithful (sha : Sha256) (host : Host) : (quietMachine sha host).Faithful where
  toSound := quietMachine_sound sha host
  sees _ _ := rfl

def zeroByteSource : Source Unit where
  text := str "model"
  name := modelName
  disk := zeroDisk
  root := some listableTree

theorem fileA_creatable (sha : Sha256) (host : Host) : Creatable (quietMachine sha host) [fileA] where
  named := List.cons_ne_nil _ _
  shows name mem := by
    rw [List.mem_singleton.mp mem]
    exact (quietMachine_sound _ _).shows (by decide)
  short name mem := by
    rw [List.mem_singleton.mp mem]
    decide
  room name last := by
    cases last
    decide
  fresh name mem n within := by
    rw [List.mem_singleton.mp mem] at within
    have long : ¬(List.replicate 32 (cp '0')).length ≤ fileA.val.length := by decide
    exact long within.length_le

theorem listableTree_ordinary (sha : Sha256) (host : Host) : Ordinary (quietMachine sha host) listableTree where
  distinct := .dir (List.nodup_singleton _) (by simpa using .file ())
  creatable e mem := by
    rw [show e = ([fileA], ()) from List.mem_singleton.mp mem]
    exact fileA_creatable sha host

theorem modelPlace_vacant (sha : Sha256) (host : Host) : Vacant (quietMachine sha host) modelPlace modelSpot emptyWorld where
  located := locate_model _ _
  main := rfl
  fits name mem := by
    rw [List.mem_singleton.mp mem]
    decide
  absent := rfl
  root := rfl
  parents := rfl
  unstaged n stage text := by
    refine ⟨fun same => ?_, rfl⟩
    have equal : modelName = stage := (List.cons.inj same).1
    have other : ¬modelName.val = stageName (List.replicate 32 (cp '0')) := by decide
    exact other ((congrArg Subtype.val equal).trans text)
  clean := rfl

theorem zeroByteFile_portable : Portable 1 1 [zeroByteFile (str "a")] where
  short f mem := (zeroByteManifest_image.acceptable.paths f mem).short
  plain f mem := (zeroByteManifest_image.acceptable.paths f mem).plain
  sizes := zeroByteManifest_image.acceptable.sizes
  fits := zeroByteManifest_image.fits
  count := zeroByteManifest_image.acceptable.count
  total := zeroByteManifest_image.acceptable.total

theorem listableTree_uploaded : ∃ digest next, uploadArtifact (quietMachine zeroByteSha plainHost) (str "1") .none zeroByteSource
    .empty = (.ok digest, next) := by
  have returned : (uploadArtifact (quietMachine zeroByteSha plainHost) (str "1") .none zeroByteSource .empty).1.isOk = true := by
    unfold zeroByteSha
    simp only [str_append, byteDigest_spelled, manifestDigest_spelled, manifestHead_spelled, manifestTail_spelled]
    decide
  cases run : uploadArtifact (quietMachine zeroByteSha plainHost) (str "1") .none zeroByteSource .empty with
  | mk outcome next =>
    rw [run] at returned
    cases outcome with
    | ok digest => exact ⟨digest, next, rfl⟩
    | error e => cases returned

theorem listableTree_restored : ∃ digest next w' n,
    uploadArtifact (quietMachine zeroByteSha plainHost) (str "1") .none zeroByteSource .empty = (.ok digest, next) ∧
      downloadArtifact (quietMachine zeroByteSha plainHost).fileSystem
        ((Backend.localStore next ⟨fun content => ⟨[content], none⟩, singleChunk_whole⟩).blobStore
          (quietMachine zeroByteSha plainHost)) zeroByteSha plainHost (str "sha256:" ++ digest.digest) (str "directory")
        modelPlace 1 1 true emptyWorld = (.ok (), w') ∧
      w'.find modelSpot = some n ∧ Filled (shownFiles zeroDisk listableTree) n := by
  obtain ⟨digest, next, uploaded⟩ := listableTree_uploaded
  have portable : Portable 1 1 digest.files := by
    obtain ⟨hashed, -⟩ := (uploadArtifact_ends (sealed_empty _)).returned uploaded
    obtain ⟨-, -, same⟩ := hashed_directory rfl (listableTree_ordinary zeroByteSha plainHost).distinct hashed
    subst same
    show Portable 1 1 [fileDigest zeroByteSha zeroDisk ([fileA], ())]
    rw [fileA_digest]
    exact zeroByteFile_portable
  obtain ⟨w', n, run, found, filled, -⟩ := (upload_download_round_trip (quietMachine zeroByteSha plainHost)
    (quietMachine_faithful _ _) zeroByteSha_injective ⟨fun content => ⟨[content], none⟩, singleChunk_whole⟩ (fun _ => rfl)
    (str "1") .none zeroByteSource true _ rfl (listableTree_ordinary _ _) .empty next (sealed_empty _) digest uploaded modelPlace
    modelSpot emptyWorld (modelPlace_vacant _ _) 1 1 true).1 portable
  exact ⟨digest, next, w', n, uploaded, run, found, filled⟩

end ModelGuard.Storage
