import ModelGuard.Hashing.Digest
import ModelGuard.Lib.JsonBytes
import ModelGuard.Storage.Io

/-!
# The manifest of a stored directory

A manifest fetched from a store is parsed, each entry is checked, and what was parsed must give back the
octets that were fetched.
-/

namespace ModelGuard.Storage

open Lib Lib.Fallible Lib.Json ModelGuard.Hashing

def maxManifestBytes : Nat := 64 * 1024 ^ 2

def maxSegment : Nat := 255

def maxPath : Nat := 4096

/-- `problem` in `_check_relative_path`. -/
def pathProblem (path : Str) : Option String :=
  if path = [] ∨ maxPath < path.length then some "empty or too long"
  else if path.head? = some (cp '/') ∨ cp '\\' ∈ path then some "absolute or contains a backslash"
  else if path.any isControl then some "contains control characters"
  else if (path.splitOn (cp '/')).any fun segment =>
      segment = [] || segment = str "." || segment = str ".." || maxSegment < segment.length then
    some "has an empty, '.', '..' or over-long segment"
  else none

/-- `_check_relative_path`. -/
def checkRelativePath (host : Host) (path : Str) : Except Raised Unit :=
  match pathProblem path with
  | none => .ok ()
  | some problem =>
    .error (.modelGuard .artifactIntegrityError
      (str "Unsafe path in manifest (" ++ str problem ++ str "): " ++ host.repr (path.take 80) ++ str "."))

/-- `set(fields) == set(keys)`. -/
def keysAre (keys : List Str) (fields : List (Str × Json SpecialFloat)) : Bool :=
  fields.all (·.1 ∈ keys) && keys.all (· ∈ fields.map (·.1))

def entryKeys : List Str := [str "path", str "sha256", str "size"]

/-- `_parse_entry`. -/
def parseEntry (host : Host) (item : Json SpecialFloat) : Except Raised FileDigest :=
  match item with
  | .obj fields =>
    if keysAre entryKeys fields then
      match fields.lookup (str "path"), fields.lookup (str "sha256"), fields.lookup (str "size") with
      | some (.str path), some (.str sha), some size =>
        match size with
        | .int n =>
          if n < 0 then .error (integrityError "A manifest entry has an invalid size.")
          else do
            checkRelativePath host path
            if IsSha256 sha then return { path, sha256 := sha, size := n.toNat }
            else .error (integrityError "A manifest entry has an invalid SHA-256.")
        | _ => .error (integrityError "A manifest entry has an invalid size.")
      | _, _, _ => .error (integrityError "A manifest entry has non-string fields.")
    else .error (integrityError "A manifest entry has an unexpected structure.")
  | _ => .error (integrityError "A manifest entry has an unexpected structure.")

/-- The loop over the entries. -/
def parseEntries (host : Host) (maxTotalBytes : Int) (seen : List Str) (total : Nat) :
    List (Json SpecialFloat) → Except Raised (List FileDigest)
  | [] => .ok []
  | item :: rest => do
    let entry ← parseEntry host item
    if entry.path ∈ seen then
      .error (.modelGuard .artifactIntegrityError
        (str "Duplicate path in manifest: " ++ host.repr entry.path ++ str "."))
    else if maxTotalBytes < total + entry.size then
      .error (integrityError "The artifact exceeds the total size limit.")
    else
      let files ← parseEntries host maxTotalBytes (entry.path :: seen) (total + entry.size) rest
      return entry :: files

/-- A path that is a file and a directory, if there is one: `seen` is a set, and its order is not fixed. -/
def collision (paths : List Str) : Option Str :=
  paths.find? fun path => paths.any fun other => (path ++ [cp '/']).isPrefixOf other


/-- `_parse_manifest`. -/
def parseManifest (host : Host) (maxFiles maxTotalBytes : Int) (raw : Bytes) : Except Raised (List FileDigest) :=
  match (loadsBytes raw : Option (Json SpecialFloat)) with
  | none => .error (integrityError "The stored manifest is not valid JSON.")
  | some (.obj fields) =>
    if keysAre [str "algorithm", str "files"] fields ∧ fields.lookup (str "algorithm") = some (.str (str "sha256")) then
      match fields.lookup (str "files") with
      | some (.arr (item :: items)) =>
        if maxFiles < (item :: items).length then
          .error (.modelGuard .artifactIntegrityError
            (str "The manifest lists more than " ++ intText maxFiles ++ str " files."))
        else do
          let files ← parseEntries host maxTotalBytes [] 0 (item :: items)
          match collision (files.map (·.path)) with
          | some path =>
            .error (.modelGuard .artifactIntegrityError
              (str "Manifest path " ++ host.repr path ++ str " is both a file and a directory."))
          | none => return files
      | _ => .error (integrityError "The stored manifest lists no files.")
    else .error (integrityError "The stored manifest has an unexpected structure.")
  | some _ => .error (integrityError "The stored manifest has an unexpected structure.")

/-- What `_fetch_manifest` makes of the octets that it fetched. -/
def readManifest (sha : Sha256) (host : Host) (maxFiles maxTotalBytes : Int) (expected : Str) (raw : Bytes) :
    Except Raised (List FileDigest) := do
  let files ← parseManifest host maxFiles maxTotalBytes raw
  if sha.hexdigest (canonicalManifestBytes files) ≠ expected ∨ canonicalManifestBytes files ≠ raw then
    .error (integrityError "The stored manifest is not in canonical form for this digest; refusing it.")
  else return files

/-! ### Paths -/

/-- A relative path of names that are neither empty nor dots nor too long, without what some systems read as
something else. -/
structure SafePath (path : Str) : Prop where
  short : path.length ≤ maxPath
  plain : ∀ c ∈ path, c ≠ cp '\\' ∧ isControl c = false
  segments : ∀ segment ∈ path.splitOn (cp '/'),
    segment ≠ [] ∧ segment ≠ str "." ∧ segment ≠ str ".." ∧ segment.length ≤ maxSegment

theorem safePath_ne_nil {path : Str} (safe : SafePath path) : path ≠ [] := by
  intro none
  have own := safe.segments
  rw [none] at own
  exact (own [] (by simp)).1 rfl

/-- A path that begins with a separator has an empty first segment. -/
theorem safePath_head {path : Str} (safe : SafePath path) : path.head? ≠ some (cp '/') := by
  intro rooted
  cases path with
  | nil => cases rooted
  | cons c path =>
    cases rooted
    refine (safe.segments [] ?_).1 rfl
    rw [List.splitOn_cons_eq_if_modifyHead, if_pos (beq_self_eq_true _)]
    exact List.mem_cons_self

theorem pathProblem_none {path : Str} : pathProblem path = none ↔ SafePath path := by
  unfold pathProblem
  constructor
  · intro clear
    split at clear
    · cases clear
    · rename_i short
      split at clear
      · cases clear
      · rename_i rooted
        split at clear
        · cases clear
        · rename_i control
          split at clear
          · cases clear
          · rename_i segments
            rw [not_or, Nat.not_lt] at short
            rw [not_or] at rooted
            rw [List.any_eq_true, not_exists] at control
            refine ⟨short.2, ?_, ?_⟩
            · intro c mem
              refine ⟨fun same => rooted.2 (same ▸ mem), ?_⟩
              rw [← Bool.not_eq_true]
              exact fun bad => control c ⟨mem, bad⟩
            · intro segment mem
              rw [List.any_eq_true, not_exists] at segments
              have own := segments segment
              simp only [not_and, Bool.or_eq_true, decide_eq_true_eq, not_or, Nat.not_lt] at own
              obtain ⟨⟨⟨empty, dot⟩, dots⟩, long⟩ := own mem
              exact ⟨empty, dot, dots, long⟩
  · intro safe
    have rooted : ¬(path.head? = some (cp '/') ∨ cp '\\' ∈ path) := by
      rintro (rooted | mem)
      · exact safePath_head safe rooted
      · exact (safe.plain _ mem).1 rfl
    have control : ¬path.any isControl = true := by
      rw [List.any_eq_true]
      rintro ⟨c, mem, bad⟩
      rw [(safe.plain c mem).2] at bad
      cases bad
    rw [if_neg (not_or.mpr ⟨safePath_ne_nil safe, Nat.not_lt.mpr safe.short⟩), if_neg rooted, if_neg control, if_neg]
    rw [List.any_eq_true]
    rintro ⟨segment, mem, bad⟩
    obtain ⟨empty, dot, dots, long⟩ := safe.segments segment mem
    simp only [Bool.or_eq_true, decide_eq_true_eq] at bad
    rcases bad with ((none | one) | two) | tooLong
    · exact empty none
    · exact dot one
    · exact dots two
    · exact Nat.not_lt.mpr long tooLong

theorem checkRelativePath_ok {host : Host} {path : Str} {u : Unit} :
    checkRelativePath host path = .ok u ↔ SafePath path := by
  unfold checkRelativePath
  rw [← pathProblem_none]
  cases pathProblem path with
  | none => exact ⟨fun _ => rfl, fun _ => rfl⟩
  | some problem => exact ⟨nofun, nofun⟩

/-! ### Entries -/

def entryJson (f : FileDigest) : Json SpecialFloat :=
  .obj [(str "path", .str f.path), (str "sha256", .str f.sha256), (str "size", .int f.size)]

theorem manifestJson_entries (files : List FileDigest) :
    manifestJson files =
      .obj [(str "algorithm", .str (str "sha256")), (str "files", .arr ((sortFiles files).map entryJson))] := rfl

/-- What an entry that was read says. -/
theorem parseEntry_reads {host : Host} {item : Json SpecialFloat} {f : FileDigest} (ok : parseEntry host item = .ok f) :
    (∃ fields, item = .obj fields ∧ fields.lookup (str "path") = some (.str f.path)) ∧ SafePath f.path ∧
      IsSha256 f.sha256 := by
  unfold parseEntry at ok
  split at ok
  · rename_i fields
    split at ok
    · split at ok
      · rename_i path sha size foundPath foundSha foundSize
        split at ok
        · split at ok
          · cases ok
          · obtain ⟨_, safe, ok⟩ := bind_ok.mp ok
            split at ok
            · rename_i digest
              cases ok
              exact ⟨⟨fields, rfl, foundPath⟩, checkRelativePath_ok.mp safe, digest⟩
            · cases ok
        · cases ok
      · cases ok
    · cases ok
  · cases ok

theorem parseEntry_entry {host : Host} {f g : FileDigest} :
    parseEntry host (entryJson g) = .ok f ↔ SafePath g.path ∧ IsSha256 g.sha256 ∧ f = g := by
  have keys : keysAre entryKeys
      [(str "path", .str g.path), (str "sha256", .str g.sha256), (str "size", .int g.size)] = true := by
    unfold keysAre entryKeys
    simp
  have path : [(str "path", (.str g.path : Json SpecialFloat)), (str "sha256", .str g.sha256),
      (str "size", .int g.size)].lookup (str "path") = some (.str g.path) := by
    rw [Dict.lookup_cons, if_pos rfl]
  have sha : [(str "path", (.str g.path : Json SpecialFloat)), (str "sha256", .str g.sha256),
      (str "size", .int g.size)].lookup (str "sha256") = some (.str g.sha256) := by
    rw [Dict.lookup_cons, if_neg (str_injective.ne (by decide)), Dict.lookup_cons, if_pos rfl]
  have size : [(str "path", (.str g.path : Json SpecialFloat)), (str "sha256", .str g.sha256),
      (str "size", .int g.size)].lookup (str "size") = some (.int g.size) := by
    rw [Dict.lookup_cons, if_neg (str_injective.ne (by decide)), Dict.lookup_cons,
      if_neg (str_injective.ne (by decide)), Dict.lookup_cons, if_pos rfl]
  unfold parseEntry entryJson
  dsimp only
  rw [if_pos keys, path, sha, size]
  dsimp only
  rw [if_neg (by omega), bind_ok]
  constructor
  · rintro ⟨_, safe, ok⟩
    split at ok
    · rename_i digest
      cases ok
      exact ⟨checkRelativePath_ok.mp safe, digest, rfl⟩
    · cases ok
  · rintro ⟨safe, digest, same⟩
    refine ⟨(), checkRelativePath_ok.mpr safe, ?_⟩
    rw [if_pos digest, same]
    rfl

theorem parseEntries_reads {host : Host} {maxTotalBytes : Int} {items : List (Json SpecialFloat)} {seen : List Str}
    {total : Nat} {files : List FileDigest} (ok : parseEntries host maxTotalBytes seen total items = .ok files) :
    ∀ f ∈ files, ∃ item ∈ items, parseEntry host item = .ok f := by
  induction items generalizing seen total files with
  | nil =>
    cases ok
    simp
  | cons item rest ih =>
    unfold parseEntries at ok
    obtain ⟨entry, own, ok⟩ := bind_ok.mp ok
    split at ok
    · cases ok
    · split at ok
      · cases ok
      · obtain ⟨others, below, made⟩ := bind_ok.mp ok
        cases made
        intro f mem
        rcases List.mem_cons.mp mem with same | mem
        · exact ⟨item, List.mem_cons_self, same ▸ own⟩
        · obtain ⟨item, mem, read⟩ := ih below f mem
          exact ⟨item, List.mem_cons_of_mem _ mem, read⟩

/-- The sizes of some files, with what was counted before, do not exceed the limit. A limit is not checked
where there are no files. -/
def WithinTotal (maxTotalBytes : Int) (total : Nat) (files : List FileDigest) : Prop :=
  files = [] ∨ ((total + (files.map (·.size)).sum : Nat) : Int) ≤ maxTotalBytes

theorem withinTotal_cons {maxTotalBytes : Int} {total : Nat} {f : FileDigest} {files : List FileDigest} :
    WithinTotal maxTotalBytes total (f :: files) ↔
      ((total + f.size : Nat) : Int) ≤ maxTotalBytes ∧ WithinTotal maxTotalBytes (total + f.size) files := by
  unfold WithinTotal
  rw [List.map_cons, List.sum_cons]
  cases files with
  | nil => simp
  | cons g files =>
    simp only [reduceCtorEq, false_or]
    omega

/-- The entries of given files are read back where they pass the checks. -/
theorem parseEntries_entries {host : Host} {maxTotalBytes : Int} {gs files : List FileDigest} {seen : List Str}
    {total : Nat} :
    parseEntries host maxTotalBytes seen total (gs.map entryJson) = .ok files ↔
      files = gs ∧ (∀ g ∈ gs, SafePath g.path ∧ IsSha256 g.sha256) ∧ (gs.map (·.path)).Nodup ∧
        (∀ g ∈ gs, g.path ∉ seen) ∧ WithinTotal maxTotalBytes total gs := by
  induction gs generalizing files seen total with
  | nil =>
    constructor
    · intro ok
      cases ok
      exact ⟨rfl, by simp, List.nodup_nil, by simp, .inl rfl⟩
    · rintro ⟨same, -⟩
      rw [same]
      rfl
  | cons g gs ih =>
    rw [List.map_cons, parseEntries, bind_ok, withinTotal_cons]
    constructor
    · rintro ⟨entry, own, ok⟩
      obtain ⟨safe, digest, same⟩ := parseEntry_entry.mp own
      subst same
      split at ok
      · cases ok
      · rename_i fresh
        split at ok
        · cases ok
        · rename_i small
          obtain ⟨others, below, made⟩ := bind_ok.mp ok
          cases made
          obtain ⟨same, valid, distinct, apart, within⟩ := ih.mp below
          subst same
          refine ⟨rfl, List.forall_mem_cons.mpr ⟨⟨safe, digest⟩, valid⟩, ?_, ?_, ⟨by push_cast; omega, within⟩⟩
          · rw [List.map_cons, List.nodup_cons]
            refine ⟨?_, distinct⟩
            intro mem
            obtain ⟨g, mem, same⟩ := List.mem_map.mp mem
            exact apart g mem (same ▸ List.mem_cons_self)
          · exact List.forall_mem_cons.mpr ⟨fresh, fun g mem inside => apart g mem (List.mem_cons_of_mem _ inside)⟩
    · rintro ⟨same, valid, distinct, apart, small, within⟩
      obtain ⟨own, valid⟩ := List.forall_mem_cons.mp valid
      obtain ⟨fresh, apart⟩ := List.forall_mem_cons.mp apart
      rw [List.map_cons, List.nodup_cons] at distinct
      refine ⟨g, parseEntry_entry.mpr ⟨own.1, own.2, rfl⟩, ?_⟩
      rw [if_neg fresh, if_neg (by push_cast at small; omega), bind_ok]
      refine ⟨gs, ih.mpr ⟨rfl, valid, distinct.2, ?_, within⟩, by rw [same]; rfl⟩
      intro other mem inside
      rcases List.mem_cons.mp inside with twice | inside
      · exact distinct.1 (twice ▸ List.mem_map_of_mem mem)
      · exact apart other mem inside

theorem collision_none {paths : List Str} :
    collision paths = none ↔ ∀ path ∈ paths, ∀ other ∈ paths, ¬path ++ [cp '/'] <+: other := by
  unfold collision
  rw [List.find?_eq_none]
  apply forall₂_congr
  intro path _
  rw [Bool.not_eq_true, List.any_eq_false]
  apply forall₂_congr
  intro other _
  rw [List.isPrefixOf_iff_prefix]

/-! ### What is accepted -/

/-- The files that a manifest may list. -/
structure Acceptable (maxFiles maxTotalBytes : Int) (files : List FileDigest) : Prop where
  some : files ≠ []
  sorted : files.Pairwise fun f g => f.path < g.path
  paths : ∀ f ∈ files, SafePath f.path
  joined : ∀ f ∈ files, Joined f.path
  digests : ∀ f ∈ files, IsSha256 f.sha256
  sizes : ∀ f ∈ files, f.size < 10 ^ maxStrDigits
  apart : ∀ f ∈ files, ∀ g ∈ files, ¬f.path ++ [cp '/'] <+: g.path
  count : (files.length : Int) ≤ maxFiles
  total : (((files.map (·.size)).sum : Nat) : Int) ≤ maxTotalBytes

theorem shortInts_manifest {files : List FileDigest} :
    shortInts (manifestJson files) = true ↔ ∀ f ∈ files, f.size < 10 ^ maxStrDigits := by
  have entry (f : FileDigest) : shortInts (entryJson f) = decide (f.size < 10 ^ maxStrDigits) := by
    unfold entryJson
    simp only [shortInts, shortIntFields, Bool.true_and, Bool.and_true, Int.natAbs_natCast]
  rw [manifestJson_entries]
  simp only [shortInts, shortIntFields, shortIntItems_eq, Bool.true_and, Bool.and_true, List.all_map, List.all_eq_true,
    Function.comp, entry, decide_eq_true_eq]
  exact forall_congr' fun f => by rw [(sortFiles_perm files).mem_iff]

theorem manifest_head (files : List FileDigest) : ∃ s, (manifestJson files).dumps = cp '\x7b' :: cp '"' :: s := by
  rw [manifestJson_entries]
  unfold dumps quote
  exact ⟨_, rfl⟩

/-- The canonical octets of a manifest are read as text. -/
theorem loadsBytes_manifest (files : List FileDigest) :
    (loadsBytes (canonicalManifestBytes files) : Option (Json SpecialFloat)) =
      (loads (manifestJson files).dumps).bind fun v => if shortInts v then .some v else none := by
  have ascii := (dumps_printable (manifestJson files)).ascii
  unfold canonicalManifestBytes
  obtain ⟨s, head⟩ := manifest_head files
  rw [head] at ascii ⊢
  exact loadsBytes_ascii ascii (by decide) (by decide)

/-- What `parseManifest` takes from a text that decodes. -/
theorem parseManifest_ok_iff {host : Host} {maxFiles maxTotalBytes : Int} {raw : Bytes} {files : List FileDigest} :
    parseManifest host maxFiles maxTotalBytes raw = .ok files ↔
      ∃ fields items, (loadsBytes raw : Option (Json SpecialFloat)) = .some (.obj fields) ∧
        keysAre [str "algorithm", str "files"] fields = true ∧
        fields.lookup (str "algorithm") = .some (.str (str "sha256")) ∧
        fields.lookup (str "files") = .some (.arr items) ∧ items ≠ [] ∧ (items.length : Int) ≤ maxFiles ∧
        parseEntries host maxTotalBytes [] 0 items = .ok files ∧ collision (files.map (·.path)) = none := by
  unfold parseManifest
  constructor
  · intro ok
    split at ok
    · cases ok
    · rename_i fields loaded
      split at ok
      · rename_i shaped
        split at ok
        · rename_i item items found
          split at ok
          · cases ok
          · rename_i count
            obtain ⟨parsed, read, ok⟩ := bind_ok.mp ok
            split at ok
            · cases ok
            · rename_i apart
              cases ok
              exact ⟨fields, item :: items, loaded, shaped.1, shaped.2, found, List.cons_ne_nil _ _,
                Int.not_lt.mp count, read, apart⟩
        · cases ok
      · cases ok
    · cases ok
  · rintro ⟨fields, items, loaded, keys, algorithm, found, some, count, read, apart⟩
    obtain ⟨item, rest, split⟩ := List.exists_cons_of_ne_nil some
    subst split
    rw [loaded]
    dsimp only
    rw [if_pos ⟨keys, algorithm⟩, found]
    dsimp only
    rw [if_neg (Int.not_lt.mpr count), read]
    show (match collision (files.map (·.path)) with | .some path => _ | none => _) = _
    rw [apart]
    rfl

theorem parseManifest_manifest {host : Host} {maxFiles maxTotalBytes : Int} {raw : Bytes} {gs files : List FileDigest}
    (loaded : (loadsBytes raw : Option (Json SpecialFloat)) = .some (manifestJson gs)) :
    parseManifest host maxFiles maxTotalBytes raw = .ok files ↔
      gs ≠ [] ∧ (gs.length : Int) ≤ maxFiles ∧
        (files = sortFiles gs ∧ (∀ g ∈ sortFiles gs, SafePath g.path ∧ IsSha256 g.sha256) ∧
          ((sortFiles gs).map (·.path)).Nodup ∧ (∀ g ∈ sortFiles gs, g.path ∉ ([] : List Str)) ∧
          WithinTotal maxTotalBytes 0 (sortFiles gs)) ∧ collision (files.map (·.path)) = none := by
  have keys : keysAre [str "algorithm", str "files"]
      [(str "algorithm", .str (str "sha256")), (str "files", .arr ((sortFiles gs).map entryJson))] = true := by
    unfold keysAre
    simp
  have algorithm : [(str "algorithm", (.str (str "sha256") : Json SpecialFloat)),
      (str "files", .arr ((sortFiles gs).map entryJson))].lookup (str "algorithm") = .some (.str (str "sha256")) := by
    rw [Dict.lookup_cons, if_pos rfl]
  have listed : [(str "algorithm", (.str (str "sha256") : Json SpecialFloat)),
      (str "files", .arr ((sortFiles gs).map entryJson))].lookup (str "files") =
        .some (.arr ((sortFiles gs).map entryJson)) := by
    rw [Dict.lookup_cons, if_neg (str_injective.ne (by decide)), Dict.lookup_cons, if_pos rfl]
  have count : ((sortFiles gs).map entryJson).length = gs.length := by
    rw [List.length_map, (sortFiles_perm gs).length_eq]
  have some : (sortFiles gs).map entryJson ≠ [] ↔ gs ≠ [] := by
    rw [ne_eq, ← List.length_eq_zero_iff, count, List.length_eq_zero_iff]
  rw [parseManifest_ok_iff, loaded, manifestJson_entries, ← parseEntries_entries]
  constructor
  · rintro ⟨fields, items, same, -, -, found, nonempty, few, read, apart⟩
    cases same
    cases listed.symm.trans found
    exact ⟨some.mp nonempty, by rwa [count] at few, read, apart⟩
  · rintro ⟨nonempty, few, read, apart⟩
    exact ⟨_, _, rfl, keys, algorithm, listed, some.mpr nonempty, by rwa [count], read, apart⟩

theorem sortFiles_of_sorted {files : List FileDigest} (sorted : files.Pairwise fun f g => f.path < g.path) :
    sortFiles files = files :=
  (sorted.imp fun below => below.le).insertionSort_eq

theorem sorted_of_sortFiles {files : List FileDigest} (same : files = sortFiles files)
    (distinct : (files.map (·.path)).Nodup) : files.Pairwise fun f g => f.path < g.path := by
  have sorted := sortFiles_sorted files
  rw [← same] at sorted
  exact sorted.imp₂ (fun f g le ne => lt_of_le_of_ne le ne) (List.pairwise_map.mp distinct)

/-- The paths in a text that was read have their surrogate pairs joined. -/
theorem parseManifest_joined {host : Host} {maxFiles maxTotalBytes : Int} {gs files : List FileDigest}
    (ok : parseManifest host maxFiles maxTotalBytes (canonicalManifestBytes gs) = .ok files) :
    ∀ f ∈ files, f.WF := by
  obtain ⟨fields, items, loaded, -, -, found, -, -, read, -⟩ := parseManifest_ok_iff.mp ok
  rw [loadsBytes_manifest] at loaded
  obtain ⟨doc, text, kept⟩ := Option.bind_eq_some_iff.mp loaded
  have wf := loads_wf (dumps_printable (manifestJson gs)).scalars text
  split at kept
  · cases kept
    intro f mem
    obtain ⟨item, listed, own⟩ := parseEntries_reads read f mem
    obtain ⟨⟨members, same, path⟩, -, digest⟩ := parseEntry_reads own
    subst same
    cases wf with
    | obj sorted keys values =>
      cases values _ (Dict.mem_of_lookup found) with
      | arr items =>
        cases items _ listed with
        | obj sorted keys values =>
          cases values _ (Dict.mem_of_lookup path) with
          | str joined => exact ⟨joined, joined_of_scalars digest.2.scalars⟩
  · cases kept

/-- What was read, if it gives back the octets, is the list of the files in their order. -/
theorem readManifest_ok_iff (sha : Sha256) (host : Host) (maxFiles maxTotalBytes : Int) {expected : Str} {raw : Bytes}
    (hashes : sha.hexdigest raw = expected) (files : List FileDigest) :
    readManifest sha host maxFiles maxTotalBytes expected raw = .ok files ↔
      raw = canonicalManifestBytes files ∧ Acceptable maxFiles maxTotalBytes files := by
  unfold readManifest
  rw [bind_ok]
  constructor
  · rintro ⟨parsed, read, ok⟩
    split at ok
    · cases ok
    · rename_i canonical
      cases ok
      rw [not_or, not_not, not_not] at canonical
      have same := canonical.2.symm
      subst same
      have wf := parseManifest_joined read
      obtain ⟨fields, items, loaded, -⟩ := parseManifest_ok_iff.mp read
      have text : (loadsBytes (canonicalManifestBytes files) : Option (Json SpecialFloat)) =
          if shortInts (manifestJson files) then .some (manifestJson files) else none := by
        rw [loadsBytes_manifest, loads_dumps (manifestJson_wf wf)]
        rfl
      split at text
      · rename_i short
        obtain ⟨some, count, ⟨same, valid, distinct, -, total⟩, apart⟩ := (parseManifest_manifest text).mp read
        rw [← same] at valid distinct total
        refine ⟨rfl, some, sorted_of_sortFiles same distinct, fun f mem => (valid f mem).1,
          fun f mem => (wf f mem).path, fun f mem => (valid f mem).2, shortInts_manifest.mp short, ?_, count, ?_⟩
        · intro f mem g mem'
          exact collision_none.mp apart _ (List.mem_map_of_mem mem) _ (List.mem_map_of_mem mem')
        · have bound := total.resolve_left some
          rw [Nat.zero_add] at bound
          exact bound
      · cases loaded.symm.trans text
  · rintro ⟨same, acceptable⟩
    have wf : ∀ f ∈ files, f.WF := fun f mem =>
      ⟨acceptable.joined f mem, joined_of_scalars (acceptable.digests f mem).2.scalars⟩
    have text : (loadsBytes raw : Option (Json SpecialFloat)) = .some (manifestJson files) := by
      rw [same, loadsBytes_manifest, loads_dumps (manifestJson_wf wf), Option.bind_some,
        if_pos (shortInts_manifest.mpr acceptable.sizes)]
    have sorted := sortFiles_of_sorted acceptable.sorted
    refine ⟨files, (parseManifest_manifest text).mpr ⟨acceptable.some, acceptable.count, ?_, ?_⟩, ?_⟩
    · rw [sorted]
      refine ⟨rfl, fun f mem => ⟨acceptable.paths f mem, acceptable.digests f mem⟩, ?_, by simp, .inr ?_⟩
      · exact List.pairwise_map.mpr (acceptable.sorted.imp fun below => below.ne)
      · rw [Nat.zero_add]
        exact acceptable.total
    · apply collision_none.mpr
      intro path mem other mem'
      obtain ⟨f, mem, same⟩ := List.mem_map.mp mem
      obtain ⟨g, mem', same'⟩ := List.mem_map.mp mem'
      rw [← same, ← same']
      exact acceptable.apart f mem g mem'
    · rw [← same, hashes]
      rw [if_neg (by simp)]
      rfl

end ModelGuard.Storage
