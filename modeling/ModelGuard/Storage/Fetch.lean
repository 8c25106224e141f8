import ModelGuard.Hashing.Coverage
import ModelGuard.Signing.Commitment
import ModelGuard.Storage.Serve

/-!
# What is fetched as a manifest

From a store that holds some bytes, a manifest is read exactly when the bytes are the canonical manifest of the
files that are read. Otherwise the download ends with an error and leaves nothing.
-/

namespace ModelGuard.Storage

open Lib Lib.Prog Lib.Node ModelGuard.Hashing
open LocalBlobStore (blobPath)
open Signing (plainHost)

/-! ### Temporary names -/

theorem octetLength_ascii {s : Str} (ascii : Ascii s) : octetLength s = s.length := by
  unfold octetLength
  induction s with
  | nil => rfl
  | cons c s ih =>
    obtain ⟨first, rest⟩ := ascii_cons.mp ascii
    have one : octetWidth c = 1 := if_pos first
    rw [List.map_cons, List.sum_cons, one, ih rest, List.length_cons, Nat.add_comm]

theorem length_partName {name hex : Str} (size : hex.length = 32) : (partName name hex).length = name.length + 39 := by
  unfold partName
  simp only [List.length_append, size]
  rw [show (str ".").length = 1 from rfl, show (str ".part").length = 5 from rfl]
  omega

theorem partName_isFileName {name : FileName} {hex : Str} (size : hex.length = 32) (digits : IsHex hex) :
    IsFileName (partName name.val hex) := by
  obtain ⟨-, slash, nul, -, -, low⟩ := name.property
  have long := @length_partName name.val hex size
  have other {c : CodePoint} (free : isHexDigit c = false) : c ∉ hex := by
    intro mem
    rw [digits c mem] at free
    cases free
  have digitsLow : hex.all (fun c => !isHighSurrogate c) = true := by
    apply List.all_eq_true.mpr
    intro c mem
    have below : ¬0xd800 ≤ c.val := by
      have small := digits.ascii c mem
      omega
    unfold isHighSurrogate
    rw [decide_eq_false below]
    rfl
  refine ⟨?_, ?_, ?_, ?_, ?_, ?_⟩
  · intro none
    rw [none] at long
    cases long
  · unfold partName
    simp only [List.mem_append, not_or]
    exact ⟨⟨⟨⟨by decide, slash⟩, by decide⟩, other (by decide)⟩, by decide⟩
  · unfold partName
    simp only [List.mem_append, not_or]
    exact ⟨⟨⟨⟨by decide, nul⟩, by decide⟩, other (by decide)⟩, by decide⟩
  · intro dot
    rw [dot] at long
    have one : (str ".").length = 1 := rfl
    omega
  · intro dots
    rw [dots] at long
    have two : (str "..").length = 2 := rfl
    omega
  · unfold partName
    simp only [List.all_append, low, digitsLow]
    decide

theorem octetLength_append (s t : Str) : octetLength (s ++ t) = octetLength s + octetLength t := by
  unfold octetLength
  rw [List.map_append, List.sum_append]

/-- The name is on disk what it is as text, also with ASCII text around it. -/
def Machine.Shows (m : Machine) (name : FileName) : Prop :=
  ∀ (before after : Str) (valid : IsFileName (before ++ name.val ++ after)), Ascii before → Ascii after →
    m.onDisk (before ++ name.val ++ after) = some ⟨_, valid⟩

theorem Machine.Shows.itself {m : Machine} {name : FileName} (shows : m.Shows name) : m.onDisk name.val = some name := by
  have same : [] ++ name.val ++ [] = name.val := by rw [List.nil_append, List.append_nil]
  have valid : IsFileName ([] ++ name.val ++ []) := same.symm ▸ name.property
  have whole := shows [] [] valid (List.forall_mem_nil _) (List.forall_mem_nil _)
  rwa [show (⟨_, valid⟩ : FileName) = name from Subtype.ext same, same] at whole

theorem Machine.Sound.shows {m : Machine} (sound : m.Sound) {name : FileName} (ascii : Ascii name.val) : m.Shows name := by
  intro before after valid first last
  refine sound.ascii ⟨_, valid⟩ ?_
  rw [ascii_append, ascii_append]
  exact ⟨⟨first, ascii⟩, last⟩

section Sound

variable {m : Machine} (sound : m.Sound) {w : World}

include sound

/-- The temporary name of a file. -/
theorem exists_part {name : FileName} (shows : m.Shows name) (n : Nat) :
    ∃ part : FileName, part.val = partName name.val (m.hex n) ∧ m.onDisk part.val = some part ∧
      octetLength part.val = octetLength name.val + 39 := by
  obtain ⟨size, digits⟩ := sound.hexDigits n
  have valid : IsFileName (partName name.val (m.hex n)) := partName_isFileName size digits
  have split : partName name.val (m.hex n) = str "." ++ name.val ++ (str "." ++ m.hex n ++ str ".part") := by
    unfold partName
    simp only [List.append_assoc]
  have plain : Ascii (str "." ++ m.hex n ++ str ".part") := by
    rw [ascii_append, ascii_append]
    exact ⟨⟨by decide, digits.ascii⟩, by decide⟩
  refine ⟨⟨_, valid⟩, rfl, ?_, ?_⟩
  · have whole := shows (str ".") (str "." ++ m.hex n ++ str ".part") (split ▸ valid) (by decide) plain
    rw [show (⟨_, split ▸ valid⟩ : FileName) = ⟨_, valid⟩ from Subtype.ext split.symm, ← split] at whole
    exact whole
  · show octetLength (partName name.val (m.hex n)) = _
    rw [split, octetLength_append, octetLength_append, octetLength_ascii plain, octetLength_ascii (by decide : Ascii (str ".")),
      List.length_append, List.length_append, size, show (str ".").length = 1 from rfl, show (str ".part").length = 5 from rfl]
    omega

/-- A name in a directory that holds neither it nor its temporary names, with room for the longest of them. -/
theorem writable_of_dir {dest : Place} {parents : List Str} {parent : RelPath} {name : FileName}
    (names : dest.names = parents ++ [name.val]) (located : parents.mapM m.onDisk = some parent)
    (short : ∀ n ∈ parent, octetLength n.val ≤ nameMax) (shows : m.Shows name) (fits : octetLength name.val + 39 ≤ nameMax)
    (dir : w.isDir ⟨dest.temporary, parent⟩ = true) (absent : w.find ⟨dest.temporary, parent ++ [name]⟩ = none)
    (free : ∀ n part, part.val = partName name.val (m.hex n) → w.find ⟨dest.temporary, parent ++ [part]⟩ = none) :
    Writable m dest ⟨dest.temporary, parent ++ [name]⟩ w := by
  have located_name {n : FileName} (own : m.onDisk n.val = some n) : (parents ++ [n.val]).mapM m.onDisk = some (parent ++ [n]) :=
    mapM_append_some.mpr ⟨parent, [n], located, mapM_singleton_some.mpr ⟨n, own, rfl⟩, rfl⟩
  have fits_name {n : FileName} (own : octetLength n.val ≤ nameMax) : Spot.Fits ⟨dest.temporary, parent ++ [n]⟩ := by
    intro other mem
    rcases List.mem_append.mp mem with within | last
    · exact short other within
    · rw [List.mem_singleton.mp last]
      exact own
  have above (n : FileName) : Spot.parent ⟨dest.temporary, parent ++ [n]⟩ = ⟨dest.temporary, parent⟩ := by
    unfold Spot.parent
    rw [List.dropLast_concat]
  refine ⟨locate_ok.mpr ⟨rfl, names ▸ located_name shows.itself⟩, fits_name (by omega), absent, (above name).symm ▸ dir,
    fun n => ?_⟩
  have last : dest.names.getLast?.getD [] = name.val := by
    rw [names, List.getLast?_concat]
    rfl
  obtain ⟨part, text, own, long⟩ := exists_part sound shows n
  refine ⟨⟨dest.temporary, parent ++ [part]⟩, ?_, fits_name (by omega), ?_, rfl, (above _).trans (above name).symm,
    free n part text⟩
  · rw [last, ← text]
    refine locate_ok.mpr ⟨rfl, ?_⟩
    unfold Place.withName
    dsimp only
    rw [names, List.dropLast_concat]
    exact located_name own
  · intro same
    have equal := List.append_cancel_left (congrArg Spot.path same)
    have equal := congrArg (fun n => octetLength n.val) (List.cons.inj equal).1
    omega

end Sound

/-! ### Stores that hold something -/

/-- The store gives these bytes under the name, whole. -/
def Backend.Holds (name : Str) (raw : Bytes) : Backend → Prop
  | .localStore blobs reader => blobs.entries (blobPath name) = some (.regular raw none) ∧ (reader.stream raw).broken = none
  | .s3 answers => ∀ w, (answers name w).head = .ok (raw.length : Int) ∧
      ∃ chunks, (answers name w).body = .ok (chunks, none) ∧ chunks.flatten = raw

section Sound

variable {m : Machine} (sound : m.Sound) {backend : Backend} {expected : Str} {raw : Bytes} (valid : IsSha256 expected)
  (hashes : m.sha.hexdigest raw = expected) (holds : backend.Holds expected raw) {w : World} {maxBytes : Int}

include sound valid hashes holds

/-- What fits arrives. -/
theorem getTo_returns {dest : Place} {spot : Spot} (writable : Writable m dest spot w) (small : (raw.length : Int) ≤ maxBytes) :
    Returns ((backend.blobStore m).getTo expected dest maxBytes) w fun _ w' =>
      w'.contents = (w.put spot (some (.file raw))).contents := by
  have named := validateSha256_ok.mpr ⟨valid, rfl⟩
  cases backend with
  | localStore blobs reader =>
    obtain ⟨entry, unbroken⟩ := holds
    show Returns (blobs.getTo reader m expected dest maxBytes) w _
    unfold LocalBlobStore.getTo
    rw [named, ofExcept_ok_bind]
    dsimp only
    rw [openRegularNofollow_ok.mpr entry, ofExcept_ok_bind]
    have whole := reader.whole raw unbroken
    have within : (reader.stream raw).Within maxBytes := Or.inr (whole.symm ▸ small)
    have written := writeVerified_returns sound.reliable writable unbroken whole hashes within
    exact ends_onError written fun _ _ never => never.elim
  | s3 answers =>
    obtain ⟨head, chunks, body, whole⟩ := holds w
    show Returns (s3GetTo answers m expected dest maxBytes) w _
    unfold s3GetTo
    rw [named, ofExcept_ok_bind]
    unfold Returns
    rw [ends_bind_iff, ends_observe, head, body]
    dsimp only
    rw [if_neg (not_lt.mpr small)]
    exact writeVerified_returns sound.reliable writable rfl whole hashes (Or.inr (whole.symm ▸ small))

end Sound

/-! ### What does not fit -/

section Oversized

variable {m : Machine} {w : World} {maxBytes : Int}

theorem writeChunks_small {tmp : Spot} {chunks : List Bytes} {written : Bytes} (start : (written.length : Int) ≤ maxBytes) :
    Ends (m.writeChunks tmp maxBytes written chunks) w
      (fun _ _ => ((written ++ chunks.flatten).length : Int) ≤ maxBytes) fun _ _ => True := by
  induction chunks generalizing written w with
  | nil =>
    rw [List.flatten_nil, List.append_nil]
    exact start
  | cons chunk chunks ih =>
    unfold Machine.writeChunks
    split
    · exact trivial
    · rename_i within
      refine ends_bind_partial fun _ w' => ?_
      rw [ends_bind_iff, ends_update, List.flatten_cons, ← List.append_assoc]
      exact ih (not_lt.mp within)

theorem writeVerified_small {stream : Stream} {dest : Place} {expected : Str} (positive : 0 ≤ maxBytes) :
    Ends (m.writeVerified stream dest expected maxBytes) w
      (fun _ _ => (stream.chunks.flatten.length : Int) ≤ maxBytes) fun _ _ => True := by
  unfold Machine.writeVerified
  refine ends_bind_partial fun taken w => ?_
  split
  · exact trivial
  · refine ends_bind_partial fun hex w => ?_
    have body (tmp : Place) : Ends (m.writeBody stream tmp dest expected maxBytes) w
        (fun _ _ => (stream.chunks.flatten.length : Int) ≤ maxBytes) fun _ _ => True := by
      unfold Machine.writeBody
      refine ends_bind_partial fun spot w => ends_bind_partial fun _ w => ends_bind_partial fun _ w => ?_
      have small : Ends (m.writeChunks spot maxBytes [] stream.chunks) w
          (fun _ _ => (stream.chunks.flatten.length : Int) ≤ maxBytes) fun _ _ => True := writeChunks_small positive
      refine ends_bind small fun content w within => ?_
      exact ends_iff.mpr ⟨fun _ _ _ => within, fun _ _ _ => trivial⟩
    refine ends_onError (body _) fun e w _ => ?_
    exact ends_bind_partial fun _ w => trivial

/-- What is over the limit does not arrive. -/
theorem getTo_oversized {backend : Backend} {expected : Str} {raw : Bytes} (holds : backend.Holds expected raw)
    (positive : 0 ≤ maxBytes) (large : maxBytes < raw.length) (dest : Place) (w : World) :
    Ends ((backend.blobStore m).getTo expected dest maxBytes) w (fun _ _ => False) fun _ _ => True := by
  cases backend with
  | localStore blobs reader =>
    obtain ⟨entry, unbroken⟩ := holds
    show Ends (blobs.getTo reader m expected dest maxBytes) w _ _
    unfold LocalBlobStore.getTo
    rw [ends_bind_iff]
    refine ends_ofExcept (fun name named => ?_) fun _ _ => trivial
    obtain ⟨-, same⟩ := validateSha256_ok.mp named
    subst same
    dsimp only
    rw [openRegularNofollow_ok.mpr entry, ofExcept_ok_bind]
    have short := @writeVerified_small m w maxBytes (reader.stream raw) dest name positive
    refine ends_onError (short.mono (fun _ _ within => ?_) fun _ _ h => h) fun _ _ _ => trivial
    rw [reader.whole raw unbroken] at within
    exact absurd within (not_le.mpr large)
  | s3 answers =>
    obtain ⟨head, -⟩ := holds w
    show Ends (s3GetTo answers m expected dest maxBytes) w _ _
    unfold s3GetTo
    rw [ends_bind_iff]
    refine ends_ofExcept (fun name named => ?_) fun _ _ => trivial
    obtain ⟨-, same⟩ := validateSha256_ok.mp named
    subst same
    rw [ends_bind_iff, ends_observe, head]
    dsimp only
    rw [if_pos large]
    exact trivial

end Oversized

/-! ### The manifest -/

def manifestName : FileName := ⟨str "manifest.json", by decide⟩

section Sound

variable {m : Machine} (sound : m.Sound) {w : World}

include sound

/-- `manifest.json` can be written to the new temporary directory. -/
theorem manifest_writable (root : w.temporary = some (.dir true [])) :
    Writable m (m.fileSystem.join ⟨true, []⟩ (str "manifest.json")) ⟨true, [manifestName]⟩ w := by
  have names : (m.fileSystem.join ⟨true, []⟩ (str "manifest.json")).names = [] ++ [manifestName.val] := by
    show (str "manifest.json").splitOn (cp '/') = [str "manifest.json"]
    rw [str_ofList]
    decide
  have nothing (n : FileName) : w.find ⟨true, [] ++ [n]⟩ = none := by
    show Node.find [n] w.temporary = none
    rw [root]
    rfl
  have dir : w.isDir ⟨true, []⟩ = true := World.isDir_iff.mpr ⟨true, [], root⟩
  have ascii : Ascii manifestName.val := by
    show Ascii (str "manifest.json")
    rw [str_ofList]
    decide
  exact writable_of_dir sound names rfl nofun (sound.shows ascii) (by rw [octetLength_ascii ascii]; decide) dir (nothing _) fun _ part _ => nothing part

variable {backend : Backend} {expected : Str} {raw : Bytes} (valid : IsSha256 expected)
  (hashes : m.sha.hexdigest raw = expected) (holds : backend.Holds expected raw)

include valid hashes holds

/-- What the store holds is what is read as a manifest, if it fits. -/
theorem fetchManifest_reads (small : raw.length ≤ maxManifestBytes) (maxFiles maxTotalBytes : Int) (w : World) :
    Ends (fetchManifest m.fileSystem (backend.blobStore m) m.sha m.host expected maxFiles maxTotalBytes) w
      (fun files _ => readManifest m.sha m.host maxFiles maxTotalBytes expected raw = .ok files)
      fun e _ => readManifest m.sha m.host maxFiles maxTotalBytes expected raw = .error e := by
  have made : Returns m.fileSystem.mkdtemp w fun p w' => p = ⟨true, []⟩ ∧ w'.temporary = some (.dir true []) := by
    show Returns m.mkdtemp w _
    unfold Machine.mkdtemp
    exact ends_bind (call_returns sound.reliable (c := .mkdtemp) trivial w) fun _ w' _ => ⟨rfl, rfl⟩
  have body (w : World) (root : w.temporary = some (.dir true [])) :
      Returns (do
        (backend.blobStore m).getTo expected (m.fileSystem.join ⟨true, []⟩ (str "manifest.json")) maxManifestBytes
        m.fileSystem.readBytes (m.fileSystem.join ⟨true, []⟩ (str "manifest.json"))) w fun got _ => got = raw := by
    have writable := manifest_writable sound root
    have within : (raw.length : Int) ≤ maxManifestBytes := by exact_mod_cast small
    refine ends_bind (getTo_returns sound valid hashes holds writable within) fun _ w₁ contents => ?_
    have there : w₁.find ⟨true, [manifestName]⟩ = some (.file raw) :=
      (find_of_contents contents _).trans (find_put writable.absent writable.parent _)
    show Returns (m.readBytes _) w₁ _
    unfold Machine.readBytes
    rw [writable.located, ofExcept_ok_bind]
    refine ends_bind (call_returns sound.reliable (c := .read _) writable.fits w₁) fun _ w₂ same => ?_
    rw [ends_bind_iff, ends_observe, find_of_contents same, there]
    exact rfl
  have weaken {α : Type} {x : Prog Raised World α} {w : World} {post : α → World → Prop} {failed : Raised → World → Prop}
      (returns : Returns x w post) : Ends x w post failed := returns.mono (fun _ _ h => h) fun _ _ never => never.elim
  unfold fetchManifest
  refine ends_bind (weaken made) fun p w₁ start => ?_
  obtain ⟨same, root⟩ := start
  subst same
  have read : Returns (andFinally (do
      (backend.blobStore m).getTo expected (m.fileSystem.join ⟨true, []⟩ (str "manifest.json")) maxManifestBytes
      m.fileSystem.readBytes (m.fileSystem.join ⟨true, []⟩ (str "manifest.json"))) (m.fileSystem.cleanup ⟨true, []⟩)) w₁
      fun got _ => got = raw :=
    ends_andFinally (body w₁ root) (fun _ _ same => same) fun _ _ never => never
  refine ends_bind (weaken read) fun got w₂ same => ?_
  subst same
  exact ends_ofExcept (fun _ h => h) fun _ h => h

end Sound

/-- What is over the limit is not read. -/
theorem fetchManifest_oversized {m : Machine} {backend : Backend} {expected : Str} {raw : Bytes}
    (holds : backend.Holds expected raw) (large : maxManifestBytes < raw.length) (maxFiles maxTotalBytes : Int) (w : World) :
    Ends (fetchManifest m.fileSystem (backend.blobStore m) m.sha m.host expected maxFiles maxTotalBytes) w
      (fun _ _ => False) fun _ _ => True := by
  unfold fetchManifest
  refine ends_bind_partial fun p w => ?_
  have refused : Ends (do
      (backend.blobStore m).getTo expected (m.fileSystem.join p (str "manifest.json")) maxManifestBytes
      m.fileSystem.readBytes (m.fileSystem.join p (str "manifest.json"))) w (fun _ _ => False) fun _ _ => True :=
    ends_bind (getTo_oversized holds (by positivity) (by exact_mod_cast large) _ w) fun _ _ never => never.elim
  have cleaned : Ends (andFinally (do
      (backend.blobStore m).getTo expected (m.fileSystem.join p (str "manifest.json")) maxManifestBytes
      m.fileSystem.readBytes (m.fileSystem.join p (str "manifest.json"))) (m.fileSystem.cleanup p)) w
      (fun _ _ => False) fun _ _ => True :=
    ends_andFinally refused (fun _ _ never => never) fun _ _ _ => trivial
  exact ends_bind cleaned fun _ _ never => never.elim

/-- The bytes are the canonical manifest of these files, and within the limits. -/
structure CanonicalImage (raw : Bytes) (maxFiles maxTotalBytes : Int) (files : List FileDigest) : Prop where
  fits : raw.length ≤ maxManifestBytes
  image : raw = canonicalManifestBytes files
  acceptable : Acceptable maxFiles maxTotalBytes files

section Download

variable {m : Machine} (sound : m.Sound) {backend : Backend} {expected : Str} {raw : Bytes} (valid : IsSha256 expected)
  (hashes : m.sha.hexdigest raw = expected) (holds : backend.Holds expected raw) (maxFiles maxTotalBytes : Int)

include sound valid hashes holds

theorem fetchManifest_ok_iff (w : World) (files : List FileDigest) :
    (∃ w', fetchManifest m.fileSystem (backend.blobStore m) m.sha m.host expected maxFiles maxTotalBytes w = (.ok files, w')) ↔
      CanonicalImage raw maxFiles maxTotalBytes files := by
  have accepted := readManifest_ok_iff m.sha m.host maxFiles maxTotalBytes hashes files
  by_cases small : raw.length ≤ maxManifestBytes
  · have reads := fetchManifest_reads sound valid hashes holds small maxFiles maxTotalBytes w
    constructor
    · intro ⟨w', run⟩
      obtain ⟨image, acceptable⟩ := accepted.mp (reads.returned run)
      exact ⟨small, image, acceptable⟩
    · intro ⟨_, image, acceptable⟩
      have read := accepted.mpr ⟨image, acceptable⟩
      rcases reads.cases with ⟨files', w', run, same⟩ | ⟨e, w', run, refused⟩
      · rw [read] at same
        cases same
        exact ⟨w', run⟩
      · rw [read] at refused
        cases refused
  · have never := fetchManifest_oversized (m := m) holds (not_le.mp small) maxFiles maxTotalBytes w
    refine iff_of_false ?_ fun image => small image.fits
    intro ⟨w', run⟩
    exact never.returned run

/-- A download whose manifest is refused leaves nothing but the parents of its destination. -/
theorem download_refused (refused : ¬∃ files, CanonicalImage raw maxFiles maxTotalBytes files) {dest : Place} {spot : Spot}
    (located : m.locate dest = .ok spot) (main : spot.temporary = false) {w : World} (clean : w.temporary = none)
    (verifyAfter : Bool) :
    Ends (downloadArtifact m.fileSystem (backend.blobStore m) m.sha m.host (str "sha256:" ++ expected) (str "directory") dest
        maxTotalBytes maxFiles verifyAfter) w (fun _ _ => False)
      fun _ w' => Grown spot.path.dropLast w.tree w'.tree ∧ w'.temporary = none := by
  have directory : str "directory" ≠ str "file" := by decide
  have digest : (partitionColon (str "sha256:" ++ expected)).2 = expected := by
    rw [str_ofList]
    rfl
  unfold downloadArtifact
  have parents : Ends (prepareDownload m.fileSystem (str "sha256:" ++ expected) (str "directory") dest) w
      (fun _ w' => GrownTo spot.path.dropLast w w' ∧ IsDir w'.tree spot.path.dropLast)
      fun _ w' => GrownTo spot.path.dropLast w w' := prepareDownload_grown located main (str "directory")
  refine ends_bind ((parents.and prepareDownload_ends).mono (fun _ _ h => h) fun _ w' grown => ⟨grown.1.1, grown.1.2.trans clean⟩) fun name w₁ start => ?_
  obtain ⟨⟨⟨grown, temporary⟩, -⟩, checked⟩ := start
  have same : name = expected := (checkRequest_ok checked).2.2.1.trans digest
  subst same
  have clean₁ := temporary.trans clean
  have kept := fetchManifest_ends (backend_confined m backend) name maxFiles maxTotalBytes clean₁
  have fetched := fetchManifest_ok_iff sound valid hashes holds maxFiles maxTotalBytes w₁
  rw [if_neg directory]
  unfold downloadDirectory
  rcases kept.cases with ⟨files, w₂, run, -⟩ | ⟨e, w₂, run, tree, gone⟩
  · exact (refused ⟨files, (fetched files).mp ⟨w₂, run⟩⟩).elim
  · rw [ends_of_eq_error (bind_of_error run)]
    exact ⟨tree.symm ▸ grown, gone⟩

variable {maxFiles maxTotalBytes}

theorem download_refused_ne (refused : ¬∃ files, CanonicalImage raw maxFiles maxTotalBytes files) {dest : Place} {spot : Spot}
    (located : m.locate dest = .ok spot) (main : spot.temporary = false) {w : World} (clean : w.temporary = none)
    (verifyAfter : Bool) (w' : World) :
    downloadArtifact m.fileSystem (backend.blobStore m) m.sha m.host (str "sha256:" ++ expected) (str "directory") dest
      maxTotalBytes maxFiles verifyAfter w ≠ (.ok (), w') :=
  fun run =>
    (download_refused sound valid hashes holds maxFiles maxTotalBytes refused located main clean verifyAfter).returned run

end Download

/-- From a store that holds the bytes of a digest, a manifest is returned exactly when the bytes are its canonical
image. In every other case the fetch and the download raise, and nothing is left of them. -/
theorem canonical_image_accepted (m : Machine) (backend : Backend) {expected : Str} {raw : Bytes} (sound : m.Sound)
    (valid : IsSha256 expected) (hashes : m.sha.hexdigest raw = expected) (holds : backend.Holds expected raw)
    (maxFiles maxTotalBytes : Int) (w : World) (clean : w.temporary = none) :
    (∀ files, (∃ w', fetchManifest m.fileSystem (backend.blobStore m) m.sha m.host expected maxFiles maxTotalBytes w =
        (.ok files, w')) ↔ CanonicalImage raw maxFiles maxTotalBytes files) ∧
      ((¬∃ files, CanonicalImage raw maxFiles maxTotalBytes files) →
        (∃ e w', fetchManifest m.fileSystem (backend.blobStore m) m.sha m.host expected maxFiles maxTotalBytes w =
            (.error e, w') ∧ w'.tree = w.tree ∧ w'.temporary = none) ∧
          ∀ dest spot verifyAfter, m.locate dest = .ok spot → spot.temporary = false →
            ∃ e w', downloadArtifact m.fileSystem (backend.blobStore m) m.sha m.host (str "sha256:" ++ expected)
                (str "directory") dest maxTotalBytes maxFiles verifyAfter w = (.error e, w') ∧
              Grown spot.path.dropLast w.tree w'.tree ∧ w'.temporary = none) := by
  have fetched := fetchManifest_ok_iff sound valid hashes holds maxFiles maxTotalBytes w
  refine ⟨fetched, fun refused => ⟨?_, fun dest spot verifyAfter located main => ?_⟩⟩
  · rcases (fetchManifest_ends (backend_confined m backend) expected maxFiles maxTotalBytes clean).cases with
      ⟨files, w', run, -⟩ | ⟨e, w', run, kept⟩
    · exact (refused ⟨files, (fetched files).mp ⟨w', run⟩⟩).elim
    · exact ⟨e, w', run, kept⟩
  · rcases (download_refused sound valid hashes holds maxFiles maxTotalBytes refused located main clean verifyAfter).cases with
      ⟨_, _, _, never⟩ | ended
    · exact never.elim
    · exact ended

/-! ### A manifest that is accepted, and one that is not -/

/-- A store with one blob. -/
def singleBlob (name : Str) (content : Bytes) : Backend :=
  .localStore ⟨fun path => if path = blobPath name then some (.regular content none) else none⟩
    { stream := fun content => ⟨[content], none⟩, whole := singleChunk_whole }

theorem singleBlob_holds (name : Str) (content : Bytes) : (singleBlob name content).Holds name content :=
  ⟨if_pos rfl, rfl⟩

/-- An empty directory, and no temporary one. -/
def emptyWorld : World where
  tree := some (.dir true [])
  temporary := none
  ticks := 0

def zeroByteFile (path : Str) : FileDigest where
  path
  sha256 := str "6e340b9cffb37a989ca544e6bb780a2c78901d3fb33738768511a30617afa01d"
  size := 1

theorem zeroByteFile_sha256 (path : Str) : IsSha256 (zeroByteFile path).sha256 := by
  show IsSha256 (str "6e340b9cffb37a989ca544e6bb780a2c78901d3fb33738768511a30617afa01d")
  rw [str_ofList]
  decide

/-! The literals of `zeroByteSha`, character by character. Evaluation decodes each of them otherwise. -/

theorem byteDigest_spelled : str "6e340b9cffb37a989ca544e6bb780a2c78901d3fb33738768511a30617afa01d" =
    ['6', 'e', '3', '4', '0', 'b', '9', 'c', 'f', 'f', 'b', '3', '7', 'a', '9', '8', '9', 'c', 'a', '5', '4', '4',
     'e', '6', 'b', 'b', '7', '8', '0', 'a', '2', 'c', '7', '8', '9', '0', '1', 'd', '3', 'f', 'b', '3', '3', '7',
     '3', '8', '7', '6', '8', '5', '1', '1', 'a', '3', '0', '6', '1', '7', 'a', 'f', 'a', '0', '1', 'd'].map cp :=
  str_ofList _

theorem manifestDigest_spelled : str "2ce39cf929e4e2908c1581aaca3241c22ef0f936232ee9021c18215d86c67f58" =
    ['2', 'c', 'e', '3', '9', 'c', 'f', '9', '2', '9', 'e', '4', 'e', '2', '9', '0', '8', 'c', '1', '5', '8', '1',
     'a', 'a', 'c', 'a', '3', '2', '4', '1', 'c', '2', '2', 'e', 'f', '0', 'f', '9', '3', '6', '2', '3', '2', 'e',
     'e', '9', '0', '2', '1', 'c', '1', '8', '2', '1', '5', 'd', '8', '6', 'c', '6', '7', 'f', '5', '8'].map cp :=
  str_ofList _

theorem manifestHead_spelled : str "\x7b\"algorithm\":\"sha256\",\"files\":[\x7b\"path\":\"a\",\"sha256\":" =
    ['\x7b', '\"', 'a', 'l', 'g', 'o', 'r', 'i', 't', 'h', 'm', '\"', ':', '\"', 's', 'h', 'a', '2', '5', '6',
     '\"', ',', '\"', 'f', 'i', 'l', 'e', 's', '\"', ':', '[', '\x7b', '\"', 'p', 'a', 't', 'h', '\"', ':', '\"',
     'a', '\"', ',', '\"', 's', 'h', 'a', '2', '5', '6', '\"', ':'].map cp :=
  str_ofList _

theorem manifestTail_spelled : str "\"6e340b9cffb37a989ca544e6bb780a2c78901d3fb33738768511a30617afa01d\",\"size\":1\x7d]\x7d" =
    ['\"', '6', 'e', '3', '4', '0', 'b', '9', 'c', 'f', 'f', 'b', '3', '7', 'a', '9', '8', '9', 'c', 'a', '5', '4',
     '4', 'e', '6', 'b', 'b', '7', '8', '0', 'a', '2', 'c', '7', '8', '9', '0', '1', 'd', '3', 'f', 'b', '3', '3',
     '7', '3', '8', '7', '6', '8', '5', '1', '1', 'a', '3', '0', '6', '1', '7', 'a', 'f', 'a', '0', '1', 'd', '\"',
     ',', '\"', 's', 'i', 'z', 'e', '\"', ':', '1', '\x7d', ']', '\x7d'].map cp :=
  str_ofList _

def zeroByteManifest : Bytes := canonicalManifestBytes [zeroByteFile (str "a")]

def zeroByteDigest : Str := str "2ce39cf929e4e2908c1581aaca3241c22ef0f936232ee9021c18215d86c67f58"

theorem fileA_digest : fileDigest zeroByteSha zeroDisk ([fileA], ()) = zeroByteFile (str "a") := by
  have byte : zeroByteSha.hexdigest [0] = (zeroByteFile (str "a")).sha256 := by
    unfold zeroByteSha Sha256.ofTable
    dsimp only
    rw [List.lookup_cons_self]
    rfl
  exact FileDigest.mk.injEq .. ▸ ⟨rfl, byte, rfl⟩

theorem zeroByteManifest_hashes : zeroByteSha.hexdigest zeroByteManifest = zeroByteDigest := by
  unfold zeroByteManifest
  rw [← fileA_digest]
  exact zeroByteSha_manifest

theorem zeroByteDigest_sha256 : IsSha256 zeroByteDigest := by
  unfold zeroByteDigest
  rw [str_ofList]
  decide

theorem zeroByteManifest_image : CanonicalImage zeroByteManifest 1 1 [zeroByteFile (str "a")] where
  fits := by
    show (canonicalManifestBytes [⟨str "a", str "6e340b9cffb37a989ca544e6bb780a2c78901d3fb33738768511a30617afa01d", 1⟩]).length ≤
      maxManifestBytes
    rw [str_ofList, str_ofList]
    decide +kernel
  image := rfl
  acceptable := by
    refine ⟨nofun, List.pairwise_singleton _ _, ?_, ?_, ?_, ?_, ?_, by decide, by decide⟩
    all_goals intro f mem; rw [List.mem_singleton.mp mem]
    · exact pathProblem_none.mp (by decide)
    · exact Json.joined_of_scalars (Json.Printable.scalars (show Json.Printable (str "a") by decide))
    · exact zeroByteFile_sha256 _
    · exact Nat.one_lt_pow (by decide) (by decide)
    · intro g mem'
      rw [List.mem_singleton.mp mem']
      decide

/-- The manifest of one file is returned. -/
theorem zeroByteManifest_fetched : ∃ w', fetchManifest (quietMachine zeroByteSha plainHost).fileSystem
    ((singleBlob zeroByteDigest zeroByteManifest).blobStore (quietMachine zeroByteSha plainHost)) zeroByteSha plainHost
    zeroByteDigest 1 1 emptyWorld = (.ok [zeroByteFile (str "a")], w') :=
  ((canonical_image_accepted (quietMachine zeroByteSha plainHost) (singleBlob zeroByteDigest zeroByteManifest)
    (quietMachine_sound _ _) zeroByteDigest_sha256 zeroByteManifest_hashes (singleBlob_holds _ _) 1 1 emptyWorld rfl).1 _).mpr
    zeroByteManifest_image

/-- 2049 names of one letter. -/
def longPath : Str := [cp '/'].intercalate (List.replicate 2049 (str "a"))

def longManifest : Bytes := canonicalManifestBytes [zeroByteFile longPath]

def longDigest : Str := str "fdfd867f7f8ee66176f554af925ecd80940b4c865740c22feaf705f93c49620f"

theorem longDigest_sha256 : IsSha256 longDigest := by
  unfold longDigest
  rw [str_ofList]
  decide

/-- SHA-256 of the manifest of one file with the long path. -/
def longSha : Sha256 := .ofTable [(longManifest, longDigest)] (by
  simp only [List.forall_mem_cons, List.not_mem_nil, false_implies, implies_true, and_true]
  exact longDigest_sha256.2)

theorem length_intercalate_replicate {α : Type} (c a : α) (n : Nat) :
    ([c].intercalate (List.replicate (n + 1) [a])).length = 2 * n + 1 := by
  induction n with
  | zero => rfl
  | succ n ih =>
    rw [List.replicate_succ, List.replicate_succ, List.intercalate_cons_cons, ← List.replicate_succ]
    simp only [List.length_append, List.length_singleton, ih]
    omega

theorem mem_intercalate_replicate {α : Type} {c a : α} {n : Nat} {x : α}
    (mem : x ∈ [c].intercalate (List.replicate (n + 1) [a])) : x = a ∨ x = c := by
  induction n with
  | zero => exact Or.inl (List.mem_singleton.mp mem)
  | succ n ih =>
    rw [List.replicate_succ, List.replicate_succ, List.intercalate_cons_cons, ← List.replicate_succ] at mem
    simp only [List.mem_append, List.mem_singleton] at mem
    rcases mem with (first | separator) | rest
    · exact Or.inl first
    · exact Or.inr separator
    · exact ih rest

theorem longPath_splitOn : longPath.splitOn (cp '/') = List.replicate 2049 (str "a") := by
  unfold longPath
  refine List.splitOn_intercalate _ (fun segment mem => ?_) (List.cons_ne_nil (str "a") (List.replicate 2048 (str "a")))
  rw [(List.mem_replicate.mp mem).2]
  decide

/-- A canonical manifest is refused for the length of one path. -/
theorem long_path_refused :
    (∀ f ∈ [zeroByteFile longPath], f.path.head? ≠ some (cp '/') ∧ (∀ c ∈ f.path, c ≠ cp '\\' ∧ isControl c = false) ∧
        (∀ segment ∈ f.path.splitOn (cp '/'),
          segment ≠ [] ∧ segment ≠ str "." ∧ segment ≠ str ".." ∧ segment.length ≤ maxSegment) ∧
        IsSha256 f.sha256 ∧ f.size = 1 ∧ ¬f.path ++ [cp '/'] <+: f.path) ∧
      longManifest = canonicalManifestBytes [zeroByteFile longPath] ∧ longSha.hexdigest longManifest = longDigest ∧
      ¬∃ w', fetchManifest (quietMachine longSha plainHost).fileSystem
        ((singleBlob longDigest longManifest).blobStore (quietMachine longSha plainHost)) longSha plainHost longDigest 1 1
        emptyWorld = (.ok [zeroByteFile longPath], w') := by
  have hashes : longSha.hexdigest longManifest = longDigest := by
    unfold longSha Sha256.ofTable
    dsimp only
    rw [List.lookup_cons_self]
    rfl
  refine ⟨?_, rfl, hashes, ?_⟩
  · intro f mem
    rw [List.mem_singleton.mp mem]
    have chars {c : CodePoint} (mem : c ∈ longPath) : c = cp 'a' ∨ c = cp '/' := mem_intercalate_replicate mem
    have head : longPath.head? = some (cp 'a') := by
      unfold longPath
      rw [List.replicate_succ, List.replicate_succ, List.intercalate_cons_cons]
      rfl
    refine ⟨?_, fun c mem => ?_, fun segment mem => ?_, zeroByteFile_sha256 _, rfl, fun below => ?_⟩
    · show longPath.head? ≠ some (cp '/')
      rw [head]
      decide
    · rcases chars mem with same | same
      · subst same
        decide
      · subst same
        decide
    · have mem : segment ∈ longPath.splitOn (cp '/') := mem
      rw [longPath_splitOn] at mem
      rw [(List.mem_replicate.mp mem).2]
      decide
    · have shorter := below.length_le
      rw [List.length_append, List.length_singleton] at shorter
      omega
  · intro returned
    have image := (fetchManifest_ok_iff (quietMachine_sound longSha plainHost) longDigest_sha256 hashes
      (singleBlob_holds _ _) 1 1 emptyWorld _).mp returned
    have short : longPath.length ≤ maxPath := (image.acceptable.paths _ (List.mem_singleton_self _)).short
    have long : longPath.length = 2 * 2048 + 1 := length_intercalate_replicate (cp '/') (cp 'a') 2048
    rw [long] at short
    exact absurd short (by decide)

end ModelGuard.Storage
