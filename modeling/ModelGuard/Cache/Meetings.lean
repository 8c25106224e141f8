import ModelGuard.Cache.DropIn

/-!
# What the fingerprint meets

The records and the obstacles of a walk in the order in which it comes upon them. The fingerprint, and its
exceptions, are read off the list.
-/

namespace ModelGuard.Cache

open Lib Lib.Fallible Lib.Node ModelGuard.Hashing ModelGuard.Sdk

variable {α : Type}

/-! ### What the fingerprint meets -/

/-- A record of a file, or something for which there is no fingerprint. -/
inductive Meeting where
  | names (st : StatModel)
  | obstacle
deriving DecidableEq

def dirMeeting (m : Machine α) (path : RelPath) (e : FileName × Node α) : List Meeting :=
  match e.2 with
  | .symlink .directory => [.obstacle]
  | .dir .. => if m.lstatFails (path ++ [e.1]) then [.obstacle] else []
  | _ => []

def fileMeeting (m : Machine α) (resolved : Option Str) (path : RelPath) (e : FileName × Node α) : List Meeting :=
  match e.2 with
  | .dir .. => []
  | .symlink .directory => []
  | .symlink _ => [.obstacle]
  | .file a =>
    if m.lstatFails (path ++ [e.1]) || (m.stat a).ino = 0 || resolved = none then [.obstacle]
    else [.names { toStatResult := m.stat a, relpath := pathText (path ++ [e.1]) }]

/-- Of one listing, the directories come first. -/
def listingMeetings (m : Machine α) (resolved : Option Str) (listing : RelPath × List (FileName × Node α)) :
    List Meeting :=
  listing.2.flatMap (dirMeeting m listing.1) ++ listing.2.flatMap (fileMeeting m resolved listing.1)

def meetings (m : Machine α) (path : ArtifactPath α) : List Meeting :=
  if m.posix then
    match path.target with
    | .found (some (.file a)) =>
      .names { toStatResult := m.stat a, relpath := path.name.val } :: if (m.stat a).ino = 0 then [.obstacle] else []
    | .found (some (.dir l entries)) =>
      let met := (osWalk [] (.dir l entries)).flatMap (listingMeetings m path.resolved)
      if met = [] then [.obstacle] else met
    | _ => [.obstacle]
  else [.obstacle]

/-- The records up to the first meeting that ends the walk. -/
def recordAll (py : Pydantic) : List Meeting → Except Stop (List StatModel)
  | [] => .ok []
  | .obstacle :: _ => .error .uncacheable
  | .names st :: rest => do
    if py.constructs st.relpath then
      let stats ← recordAll py rest
      return st :: stats
    else .error (.raised .pydantic)

theorem recordAll_append {py : Pydantic} (met others : List Meeting) :
    recordAll py (met ++ others) = (do
      let stats ← recordAll py met
      let more ← recordAll py others
      return stats ++ more) := by
  induction met with
  | nil =>
    show recordAll py others = _
    cases recordAll py others <;> rfl
  | cons first met ih =>
    cases first with
    | obstacle => rfl
    | names st =>
      rw [List.cons_append, recordAll, recordAll, ih]
      split
      · cases recordAll py met with
        | error stop => rfl
        | ok stats => cases recordAll py others <;> rfl
      · rfl

theorem recordAll_dirnames (m : Machine α) (path : RelPath) (entries : List (FileName × Node α)) :
    recordAll m.py (entries.flatMap (dirMeeting m path)) = (statDirnames m path entries).map fun _ => [] := by
  induction entries with
  | nil => rfl
  | cons e rest ih =>
    obtain ⟨name, n⟩ := e
    rw [List.flatMap_cons]
    cases n with
    | file a => exact ih
    | symlink t =>
      cases t with
      | directory => rfl
      | file => exact ih
      | missing => exact ih
    | dir l below =>
      unfold statDirnames
      by_cases fails : m.lstatFails (path ++ [name]) = true
      · simp only [dirMeeting, fails, if_true]
        rfl
      · simp only [dirMeeting, if_neg fails]
        exact ih

theorem recordAll_filenames (m : Machine α) (resolved : Option Str) (path : RelPath)
    (entries : List (FileName × Node α)) :
    recordAll m.py (entries.flatMap (fileMeeting m resolved path)) = statFilenames m resolved path entries := by
  induction entries with
  | nil => rfl
  | cons e rest ih =>
    obtain ⟨name, n⟩ := e
    rw [List.flatMap_cons]
    cases n with
    | file a =>
      unfold statFilenames statModel
      by_cases gives : (m.lstatFails (path ++ [name]) || (m.stat a).ino = 0 || resolved = none) = true
      · simp only [fileMeeting, gives, if_true]
        rfl
      · simp only [fileMeeting, if_neg gives, List.singleton_append, recordAll, ih]
        split <;> rfl
    | symlink t =>
      cases t with
      | directory => exact ih
      | file => rfl
      | missing => rfl
    | dir l below => exact ih

theorem recordAll_listings (m : Machine α) (resolved : Option Str)
    (listings : List (RelPath × List (FileName × Node α))) :
    recordAll m.py (listings.flatMap (listingMeetings m resolved)) = statListings m resolved listings := by
  induction listings with
  | nil => rfl
  | cons listing rest ih =>
    obtain ⟨path, entries⟩ := listing
    rw [List.flatMap_cons, recordAll_append, ih, statListings]
    unfold listingMeetings
    rw [recordAll_append, recordAll_dirnames, recordAll_filenames]
    cases statDirnames m path entries with
    | error stop => rfl
    | ok u => cases statFilenames m resolved path entries <;> rfl

/-- The fingerprint of an artifact that is a file or a directory. -/
def kindAt (path : ArtifactPath α) : ArtifactType :=
  match path.target with
  | .found (some (.dir ..)) => .directory
  | _ => .file

/-- No meeting is an obstacle and pydantic accepts every name: the records in the order of their paths. -/
def Cacheable (m : Machine α) (path : ArtifactPath α) (stats : List StatModel) : Prop :=
  ∃ met, meetings m path = met.map .names ∧ (∀ st ∈ met, m.py.constructs st.relpath = true) ∧ stats = sortStats met

/-- Pydantic refuses a name before there is any other reason to give up. -/
def RefusedFirst (py : Pydantic) (met : List Meeting) : Prop :=
  ∃ (before : List StatModel) (st : StatModel) (after : List Meeting),
    met = before.map .names ++ .names st :: after ∧ (∀ s ∈ before, py.constructs s.relpath = true) ∧
      py.constructs st.relpath = false

theorem recordAll_ok {py : Pydantic} {met : List Meeting} {stats : List StatModel} :
    recordAll py met = .ok stats ↔ met = stats.map .names ∧ ∀ st ∈ stats, py.constructs st.relpath = true := by
  induction met generalizing stats with
  | nil =>
    constructor
    · intro h
      cases h
      exact ⟨rfl, by simp⟩
    · rintro ⟨none, -⟩
      rw [List.map_eq_nil_iff.mp none.symm]
      rfl
  | cons first met ih =>
    cases first with
    | obstacle =>
      constructor
      · exact nofun
      · rintro ⟨same, -⟩
        cases stats with
        | nil => cases same
        | cons st stats => cases same
    | names st =>
      unfold recordAll
      split
      · rename_i accepted
        simp only [bind_ok, pure_ok, ih]
        constructor
        · rintro ⟨rest, ⟨same, all⟩, made⟩
          subst made same
          exact ⟨rfl, List.forall_mem_cons.mpr ⟨accepted, all⟩⟩
        · rintro ⟨same, all⟩
          cases stats with
          | nil => cases same
          | cons head stats =>
            obtain ⟨head', tail⟩ := List.cons.inj same
            cases head'
            exact ⟨stats, ⟨tail, fun s mem => all s (List.mem_cons_of_mem _ mem)⟩, rfl⟩
      · rename_i refused
        constructor
        · exact nofun
        · rintro ⟨same, all⟩
          cases stats with
          | nil => cases same
          | cons head stats =>
            cases (List.cons.inj same).1
            exact (refused (all _ List.mem_cons_self)).elim

theorem recordAll_raised {py : Pydantic} {met : List Meeting} {e : HashFailure} :
    recordAll py met = .error (.raised e) ↔ e = .pydantic ∧ RefusedFirst py met := by
  induction met with
  | nil =>
    constructor
    · exact nofun
    · rintro ⟨-, before, st, after, split, -⟩
      cases before <;> cases split
  | cons first met ih =>
    cases first with
    | obstacle =>
      constructor
      · exact nofun
      · rintro ⟨-, before, st, after, split, -⟩
        cases before <;> cases split
    | names st =>
      unfold recordAll
      split
      · rename_i accepted
        have step : (do let stats ← recordAll py met; return st :: stats) = Except.error (.raised e) ↔
            recordAll py met = .error (.raised e) := by
          cases recordAll py met with
          | error stop => exact Iff.rfl
          | ok stats => exact ⟨nofun, nofun⟩
        rw [step, ih]
        constructor
        · rintro ⟨kind, before, other, after, split, all, refused⟩
          exact ⟨kind, st :: before, other, after, by rw [split]; rfl, List.forall_mem_cons.mpr ⟨accepted, all⟩, refused⟩
        · rintro ⟨kind, before, other, after, split, all, refused⟩
          cases before with
          | nil =>
            cases (List.cons.inj split).1
            rw [accepted] at refused
            cases refused
          | cons head before =>
            exact ⟨kind, before, other, after, (List.cons.inj split).2,
              fun s mem => all s (List.mem_cons_of_mem _ mem), refused⟩
      · rename_i refused
        constructor
        · intro h
          cases h
          exact ⟨rfl, [], st, met, rfl, by simp, by simpa using refused⟩
        · rintro ⟨kind, -⟩
          rw [kind]

/-- The fingerprint is read off the meetings. -/
theorem captureFingerprintAt_eq (m : Machine α) (path : ArtifactPath α)
    (encodable : ¬(m.posix = true ∧ path.target = .unencodable)) :
    captureFingerprintAt m path =
      match recordAll m.py (meetings m path) with
      | .error .uncacheable => .ok none
      | .error (.raised e) => .error e
      | .ok stats => .ok (some (kindAt path, sortStats stats)) := by
  unfold captureFingerprintAt meetings kindAt
  by_cases posix : m.posix = true
  · rw [if_pos posix, if_pos posix]
    cases target : path.target with
    | unencodable => exact (encodable ⟨posix, target⟩).elim
    | refused => rfl
    | found node =>
      cases node with
      | none => rfl
      | some n =>
        cases n with
        | symlink t => rfl
        | file a =>
          dsimp only
          unfold statModel recordAll
          split
          · by_cases zero : (m.stat a).ino = 0
            · rw [if_pos zero]
              show Except.ok (if (m.stat a).ino ≠ 0 then _ else _) = _
              rw [if_neg (not_not.mpr zero)]
              rfl
            · rw [if_neg zero]
              show Except.ok (if (m.stat a).ino ≠ 0 then _ else _) = _
              rw [if_pos zero]
              rfl
          · rfl
        | dir l entries =>
          dsimp only
          rw [← recordAll_listings]
          by_cases empty : (osWalk [] (.dir l entries)).flatMap (listingMeetings m path.resolved) = []
          · rw [if_pos empty, empty]
            rfl
          · rw [if_neg empty]
            cases recorded : recordAll m.py
                ((osWalk [] (.dir l entries)).flatMap (listingMeetings m path.resolved)) with
            | error stop => cases stop <;> rfl
            | ok stats =>
              have some : stats ≠ [] := by
                intro none
                rw [none] at recorded
                exact empty (recordAll_ok.mp recorded).1
              dsimp only
              rw [if_neg (by simpa using some)]
  · rw [if_neg posix, if_neg posix]
    rfl

/-! ### What the walk lists -/

theorem osWalkIn_perm (path : RelPath) {entries : List (FileName × Node α)}
    (ih : ∀ e ∈ entries, ∀ path,
      ((osWalk path e.2).flatMap fun listing => listing.2.flatMap (entryFile listing.1)).Perm
        (filesBelow path (seen e.2))) :
    ((osWalkIn path entries).flatMap fun listing => listing.2.flatMap (entryFile listing.1)).Perm
      ((seenIn entries).flatMap fun e => filesBelow (path ++ [e.1]) e.2) := by
  induction entries with
  | nil => exact List.Perm.refl _
  | cons e rest ihr =>
    unfold osWalkIn seenIn
    rw [List.flatMap_cons, List.flatMap_append]
    apply List.Perm.append
    · exact ih e List.mem_cons_self _
    · exact ihr fun e mem => ih e (List.mem_cons_of_mem _ mem)

theorem osWalk_perm (path : RelPath) (n : Node α) :
    ((osWalk path n).flatMap fun listing => listing.2.flatMap (entryFile listing.1)).Perm
      (filesBelow path (seen n)) := by
  induction n using entryInduction generalizing path with
  | file a => exact List.Perm.refl _
  | symlink t => exact List.Perm.refl _
  | dir l entries ih =>
    cases l with
    | false => exact List.Perm.refl _
    | true =>
      have below := osWalkIn_perm path fun e mem path => ih e mem path
      have files := filesBelow_perm path true (seenIn entries)
      unfold osWalk
      rw [List.flatMap_cons, seen]
      apply List.Perm.trans _ files.symm
      rw [entryFile_seen]
      exact below.append_left _

theorem filesBelow_dir (l : Bool) (entries : List (FileName × Node α)) :
    filesBelow [] (seen (.dir l entries)) = regularFiles [] (seen (.dir l entries)) := by
  cases l <;> rfl

/-- A record is that of a listed file, with the working directory there. -/
theorem names_listed {m : Machine α} {resolved : Option Str} {listings : List (RelPath × List (FileName × Node α))}
    {st : StatModel} (met : .names st ∈ listings.flatMap (listingMeetings m resolved)) :
    resolved ≠ none ∧ listings.flatMap (fun listing => listing.2.flatMap (entryFile listing.1)) ≠ [] := by
  obtain ⟨listing, listed, met⟩ := List.mem_flatMap.mp met
  rcases List.mem_append.mp met with dirs | files
  · obtain ⟨⟨name, n⟩, -, met⟩ := List.mem_flatMap.mp dirs
    cases n with
    | file a => cases met
    | symlink t => cases t <;> simp [dirMeeting] at met
    | dir l below =>
      unfold dirMeeting at met
      dsimp only at met
      split at met
      · cases List.mem_singleton.mp met
      · cases met
  · obtain ⟨⟨name, n⟩, mem, met⟩ := List.mem_flatMap.mp files
    cases n with
    | dir l below => cases met
    | symlink t => cases t <;> simp [fileMeeting] at met
    | file a =>
      unfold fileMeeting at met
      dsimp only at met
      split at met
      · cases List.mem_singleton.mp met
      · rename_i gives
        constructor
        · intro lost
          exact gives (by simp [lost])
        · intro none
          have file : (listing.1 ++ [name], a) ∈
              listings.flatMap (fun listing => listing.2.flatMap (entryFile listing.1)) :=
            List.mem_flatMap.mpr ⟨listing, listed, List.mem_flatMap.mpr ⟨_, mem, List.mem_singleton_self _⟩⟩
          rw [none] at file
          cases file

theorem some_listed {m : Machine α} {resolved : Option Str} {listings : List (RelPath × List (FileName × Node α))}
    {met : List StatModel} (nonempty : met ≠ [])
    (found : listings.flatMap (listingMeetings m resolved) = met.map .names) :
    resolved ≠ none ∧ listings.flatMap (fun listing => listing.2.flatMap (entryFile listing.1)) ≠ [] := by
  obtain ⟨st, rest, split⟩ := List.exists_cons_of_ne_nil nonempty
  have first : .names st ∈ listings.flatMap (listingMeetings m resolved) := by
    rw [found, split]
    exact List.mem_cons_self
  exact names_listed first

/-- Where nothing stands in the way, every listed file has its record. -/
theorem listed_named {m : Machine α} {resolved : Option Str} {listings : List (RelPath × List (FileName × Node α))}
    (clear : .obstacle ∉ listings.flatMap (listingMeetings m resolved)) {f : RelPath × α}
    (file : f ∈ listings.flatMap (fun listing => listing.2.flatMap (entryFile listing.1))) :
    ∃ st, .names st ∈ listings.flatMap (listingMeetings m resolved) ∧ st.relpath = pathText f.1 := by
  obtain ⟨listing, listed, file⟩ := List.mem_flatMap.mp file
  obtain ⟨⟨name, n⟩, mem, own⟩ := List.mem_flatMap.mp file
  have inside {met : Meeting} (here : met ∈ fileMeeting m resolved listing.1 (name, n)) :
      met ∈ listings.flatMap (listingMeetings m resolved) :=
    List.mem_flatMap.mpr ⟨listing, listed, List.mem_append_right _ (List.mem_flatMap.mpr ⟨_, mem, here⟩)⟩
  cases n with
  | symlink t => cases own
  | dir l below => cases own
  | file a =>
    have same := List.mem_singleton.mp own
    subst same
    unfold fileMeeting at inside
    dsimp only at inside
    split at inside
    · exact (clear (inside (List.mem_singleton_self _))).elim
    · exact ⟨_, inside (List.mem_singleton_self _), rfl⟩

/-! ### What `hash_artifact` does with a cacheable artifact -/

/-- Every file that the listings show can be read, and none of the entries is a symlink. -/
def Readable (m : Machine α) (path : ArtifactPath α) : Prop :=
  match path.target with
  | .found (some n) => everywhere (isHashable m.disk) (seen n) = true
  | _ => False

theorem hashArtifactAt_raises {m : Machine α} {path : ArtifactPath α} {e : HashFailure}
    (h : hashArtifactAt m path = .error e) : (∃ own, e = .hashing own) ∨ e = .workingDirectory ∧ kindAt path = .directory := by
  have mapped {x : Except HashError ArtifactDigest} (h : x.mapError HashFailure.hashing = .error e) :
      ∃ own, e = .hashing own := by
    cases x with
    | error own =>
      cases h
      exact ⟨own, rfl⟩
    | ok d => cases h
  unfold hashArtifactAt at h
  unfold kindAt
  split at h
  · cases h
    exact .inl ⟨_, rfl⟩
  · cases h
    exact .inl ⟨_, rfl⟩
  · rename_i l entries target
    rw [target]
    split at h
    · cases h
      exact .inr ⟨rfl, rfl⟩
    · exact .inl (mapped h)
  · exact .inl (mapped h)

/-- A cacheable artifact is one file or a directory with files. -/
inductive CacheableAs (m : Machine α) (path : ArtifactPath α) : List StatModel → Prop
  | file {a : α} : path.target = .found (some (.file a)) →
      CacheableAs m path [{ toStatResult := m.stat a, relpath := path.name.val }]
  | directory {l : Bool} {entries : List (FileName × Node α)} {met : List StatModel} :
      path.target = .found (some (.dir l entries)) → met ≠ [] →
      (osWalk [] (.dir l entries)).flatMap (listingMeetings m path.resolved) = met.map .names →
      CacheableAs m path (sortStats met)

theorem Cacheable.shape {m : Machine α} {path : ArtifactPath α} {stats : List StatModel}
    (h : Cacheable m path stats) : CacheableAs m path stats := by
  obtain ⟨met, found, -, made⟩ := h
  have plain : met.map Meeting.names ≠ [.obstacle] := by
    intro same
    cases met with
    | nil => cases same
    | cons st met => cases same
  subst made
  unfold meetings at found
  split at found
  · split at found
    · rename_i a target
      split at found
      · cases met with
        | nil => cases found
        | cons st met =>
          cases met with
          | nil => cases found
          | cons next met => cases found
      · cases met with
        | nil => cases found
        | cons st met =>
          obtain ⟨own, none⟩ := List.cons.inj found
          cases own
          cases List.map_eq_nil_iff.mp none.symm
          exact .file target
    · rename_i l entries target
      dsimp only at found
      split at found
      · exact (plain found.symm).elim
      · rename_i some
        refine .directory target ?_ found
        intro none
        rw [none] at found
        exact some found
    · exact (plain found.symm).elim
  · exact (plain found.symm).elim

theorem mem_sortStats {stats : List StatModel} {st : StatModel} : st ∈ sortStats stats ↔ st ∈ stats :=
  (List.perm_insertionSort _ _).mem_iff

/-- Where a cacheable artifact hashes, its digest names the files of the fingerprint. -/
theorem hashArtifactAt_ok_iff {m : Machine α} {path : ArtifactPath α} {stats : List StatModel}
    (h : CacheableAs m path stats) (resolved : path.resolved ≠ none) :
    (∃ d, hashArtifactAt m path = .ok d) ↔ Readable m path := by
  unfold hashArtifactAt Readable
  cases h with
  | file target =>
    rw [target]
    simp only [mapError_ok]
    constructor
    · rintro ⟨d, h⟩
      exact (hashFile_ok.mp h).1
    · intro readable
      exact ⟨_, hashFile_ok.mpr ⟨readable, rfl⟩⟩
  | directory target nonempty met =>
    rename_i l entries met'
    have distinct := path.distinct _ target
    have shown : regularFiles [] (seen (.dir l entries)) ≠ [] := by
      have listed := some_listed nonempty met
      rw [← filesBelow_dir]
      intro none
      have perm := osWalk_perm [] (.dir l entries)
      rw [none] at perm
      exact listed.2 perm.eq_nil
    rw [target]
    dsimp only
    rw [if_neg resolved]
    simp only [mapError_ok, hashDirectory_ok m.sha m.disk distinct]
    constructor
    · rintro ⟨d, clean, -⟩
      exact clean
    · intro clean
      exact ⟨_, clean, shown, rfl⟩

/-- A cacheable artifact that does not resolve is a file, which hashes all the same. -/
theorem hashArtifactAt_resolves {m : Machine α} {path : ArtifactPath α} {stats : List StatModel}
    (h : CacheableAs m path stats) (lost : path.resolved = none) :
    hashArtifactAt m path ≠ .error .workingDirectory := by
  intro raised
  rcases hashArtifactAt_raises raised with ⟨own, same⟩ | ⟨-, kind⟩
  · cases same
  · unfold kindAt at kind
    cases h with
    | file target =>
      rw [target] at kind
      cases kind
    | directory target nonempty met =>
      exact (some_listed nonempty met).1 lost

theorem hashArtifactAt_names {m : Machine α} {path : ArtifactPath α} {stats : List StatModel} {d : ArtifactDigest}
    (h : CacheableAs m path stats) (ok : hashArtifactAt m path = .ok d) :
    ∀ f ∈ d.files, IsHex f.sha256 ∧ ∃ st ∈ stats, st.relpath = f.path := by
  unfold hashArtifactAt at ok
  cases h with
  | file target =>
    rw [target] at ok
    obtain ⟨-, made⟩ := hashFile_ok.mp (mapError_ok.mp ok)
    subst made
    intro f mem
    cases List.mem_singleton.mp mem
    exact ⟨m.sha.hex _, _, List.mem_singleton_self _, rfl⟩
  | directory target nonempty met =>
    rename_i l entries met'
    rw [target] at ok
    dsimp only at ok
    split at ok
    · cases ok
    · obtain ⟨-, -, made⟩ := (hashDirectory_ok m.sha m.disk (path.distinct _ target)).mp (mapError_ok.mp ok)
      subst made
      intro f mem
      obtain ⟨e, shown, same⟩ := List.mem_map.mp ((sortFiles_perm _).subset mem)
      subst same
      refine ⟨m.sha.hex _, ?_⟩
      rw [← filesBelow_dir] at shown
      have listed := (osWalk_perm [] (.dir l entries)).symm.subset shown
      have clear : Meeting.obstacle ∉ (osWalk [] (.dir l entries)).flatMap (listingMeetings m path.resolved) := by
        rw [met]
        simp
      obtain ⟨st, named, relpath⟩ := listed_named clear listed
      rw [met] at named
      obtain ⟨own, mem, same⟩ := List.mem_map.mp named
      cases same
      exact ⟨st, mem_sortStats.mpr mem, relpath⟩

end ModelGuard.Cache
