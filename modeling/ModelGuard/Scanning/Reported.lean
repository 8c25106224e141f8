import Mathlib.Data.List.ProdSigma
import ModelGuard.Scanning.Scanners

/-!
# What a scan reports

A scan opens the files that the listings show, and reports every symlink they show. The secret scanner counts
the pairs of a file and a pattern that occurs in its text.
-/

namespace ModelGuard.Scanning

open Lib Lib.Node ModelGuard.Hashing ModelGuard.Mbom ModelGuard.Sdk

variable {α : Type}

/-! ### What the walk meets -/

/-- The files that a scan opens, with the paths it reports. -/
def openedFiles (artifact : Artifact α) : List (RelPath × α) :=
  match artifact.node with
  | none => []
  | some (.file a) => [([artifact.name], a)]
  | some n => regularFiles [] (seen n)

/-- The entries that a scan does not follow. -/
def unfollowed (artifact : Artifact α) : List (RelPath × LinkTarget) :=
  match artifact.node with
  | none => []
  | some n => symlinks [] (seen n)

def linkReason (e : RelPath × LinkTarget) : String :=
  if e.1 = [] then "artifact root is a symlink"
  else if e.2 = .directory then "symlinked directory"
  else "symlinked file"

def linkFinding (scannerName root : Str) (e : RelPath × LinkTarget) : SkipFinding :=
  skipFinding scannerName (joinPath root e.1) (linkReason e)

theorem linkFinding_below (scannerName root : Str) (path : RelPath) (name : FileName) (t : LinkTarget) :
    linkFinding scannerName root (path ++ [name], t) = skipFinding scannerName (joinPath root (path ++ [name]))
      (if t = .directory then "symlinked directory" else "symlinked file") := by
  unfold linkFinding linkReason
  rw [if_neg (by simp)]

/-- What a listing yields for one of its entries. -/
def ownItem (scannerName root : Str) (path : RelPath) : Node α → List (Item α)
  | .file a => [.scannable (pathText path) a]
  | .symlink t => [.finding (linkFinding scannerName root (path, t))]
  | .dir .. => []

/-- What a walk yields for an entry and everything below it. -/
def itemsOf (scannerName root : Str) (path : RelPath) (n : Node α) : List (Item α) :=
  (regularFiles path (seen n)).map scannableItem ++
    ((symlinks path (seen n)).map (linkFinding scannerName root)).map Item.finding

theorem iterListing_perm (scannerName root : Str) (path : RelPath) (entries : List (FileName × Node α)) :
    (iterDirnames scannerName root path entries ++ iterFilenames scannerName root path entries).Perm
      (entries.flatMap fun e => ownItem scannerName root (path ++ [e.1]) e.2) := by
  induction entries with
  | nil => exact List.Perm.refl _
  | cons e rest ih =>
    obtain ⟨name, n⟩ := e
    rw [List.flatMap_cons]
    cases n with
    | file a => exact List.perm_middle.trans (ih.cons _)
    | dir l below => exact ih
    | symlink t =>
      have own : ownItem scannerName root (path ++ [name]) (.symlink t : Node α) = [.finding _] :=
        congrArg (fun skipped => [Item.finding skipped]) (linkFinding_below scannerName root path name t)
      rw [own]
      cases t with
      | directory => exact ih.cons _
      | file => exact List.perm_middle.trans (ih.cons _)
      | missing => exact List.perm_middle.trans (ih.cons _)

theorem iterWalkIn_eq (scannerName root : Str) (path : RelPath) (entries : List (FileName × Node α)) :
    iterWalkIn scannerName root path entries =
      entries.flatMap fun e => iterWalk scannerName root (path ++ [e.1]) e.2 := by
  induction entries with
  | nil => rfl
  | cons e rest ih => rw [iterWalkIn, ih, List.flatMap_cons]

theorem itemsOf_dir (scannerName root : Str) (path : RelPath) (entries : List (FileName × Node α)) :
    (entries.flatMap fun e => itemsOf scannerName root (path ++ [e.1]) e.2).Perm
      (itemsOf scannerName root path (.dir true entries)) := by
  unfold itemsOf
  rw [seen, regularFiles, symlinks, regularFilesIn_eq, symlinksIn_eq, seenIn_eq, List.flatMap_map, List.flatMap_map,
    List.map_flatMap, List.map_flatMap, List.map_flatMap]
  exact (List.flatMap_append_perm _ _ _).symm

theorem iterWalk_perm (scannerName root : Str) (path : RelPath) (n : Node α) :
    (ownItem scannerName root path n ++ iterWalk scannerName root path n).Perm (itemsOf scannerName root path n) := by
  induction n using entryInduction generalizing path with
  | file a => exact List.Perm.refl _
  | symlink t => exact List.Perm.refl _
  | dir l entries ih =>
    cases l with
    | false => exact List.Perm.refl _
    | true =>
      unfold iterWalk ownItem
      rw [List.nil_append, iterWalkIn_eq]
      refine List.Perm.trans ?_ (itemsOf_dir scannerName root path entries)
      refine ((iterListing_perm scannerName root path entries).append_right _).trans ?_
      refine (List.flatMap_append_perm _ _ _).trans ?_
      exact List.Perm.flatMap_left _ fun e mem => ih e mem (path ++ [e.1])

theorem iterScannableFiles_perm (artifact : Artifact α) (scannerName : Str) :
    (iterScannableFiles artifact scannerName).Perm
      ((openedFiles artifact).map scannableItem ++
        ((unfollowed artifact).map (linkFinding scannerName artifact.path)).map Item.finding) := by
  unfold iterScannableFiles openedFiles unfollowed
  cases artifact.node with
  | none => exact List.Perm.refl _
  | some n =>
    cases n with
    | file a => exact List.Perm.refl _
    | symlink t => exact List.Perm.refl _
    | dir l entries => exact iterWalk_perm scannerName artifact.path [] (.dir l entries)

theorem scanItems_perm (scannerName : Str) (scanFile : Str → α → List FindingRecord) (artifact : Artifact α) :
    (scanItems scannerName scanFile artifact).Perm
      ((openedFiles artifact).flatMap (fun e => scanFile (pathText e.1) e.2) ++
        (unfollowed artifact).map fun e => (linkFinding scannerName artifact.path e).record) := by
  unfold scanItems
  refine ((iterScannableFiles_perm artifact scannerName).flatMap_right _).trans ?_
  rw [List.flatMap_append, List.flatMap_map, List.flatMap_map, List.flatMap_map]
  refine List.Perm.append (List.Perm.refl _) ?_
  rw [← List.flatMap_singleton' ((unfollowed artifact).map _), List.flatMap_map]

/-! ### What a scanner finds in one file -/

/-- The text of a file, where the secret scanner reads it as text. -/
def textOf (disk : Disk α) (file : α) : Option Str :=
  if (disk.content file).length ≤ maxFileSize ∧ disk.readable file = true ∧
      looksBinary ((disk.content file).take binarySniffSize) = false then decodeUtf8 (disk.content file)
  else none

/-- The pattern occurs in the text of the file. -/
def Leaks (disk : Disk α) (file : α) (p : SecretPattern) : Prop :=
  ∃ text ∈ textOf disk file, p.pattern.Occurs text

theorem leaks_iff {disk : Disk α} {file : α} {p : SecretPattern} :
    (textOf disk file).any p.pattern.search = true ↔ Leaks disk file p := by
  unfold Leaks
  rw [Option.any_eq_true]
  exact exists_congr fun text => and_congr_right fun _ => Regex.search_iff

instance Leaks.decidable (disk : Disk α) (file : α) (p : SecretPattern) : Decidable (Leaks disk file p) :=
  decidable_of_iff _ leaks_iff

theorem scanSecrets_eq (word : CodePoint → Bool) (disk : Disk α) (relativePath : Str) (file : α) :
    scanSecrets word disk relativePath file =
      ((secretPatterns word).filter fun p => Leaks disk file p).map (secretFinding relativePath) := by
  have none (refused : textOf disk file = none) :
      ((secretPatterns word).filter fun p => Leaks disk file p).map (secretFinding relativePath) = [] := by
    rw [List.filter_eq_nil_iff.mpr]
    · rfl
    · intro p _
      simp [Leaks, refused]
  unfold scanSecrets
  by_cases size : (disk.content file).length ≤ maxFileSize
  · rw [if_neg (Nat.not_lt.mpr size)]
    cases readable : disk.readable file with
    | false =>
      rw [if_pos rfl, none]
      simp [textOf, readable]
    | true =>
      rw [if_neg (by simp)]
      cases binary : looksBinary ((disk.content file).take binarySniffSize) with
      | true =>
        rw [if_pos rfl, none]
        simp [textOf, binary]
      | false =>
        rw [if_neg (by simp)]
        have plain : textOf disk file = decodeUtf8 (disk.content file) := if_pos ⟨size, readable, binary⟩
        cases decoded : decodeUtf8 (disk.content file) with
        | none => exact (none (plain.trans decoded)).symm
        | some text =>
          have same (p : SecretPattern) : p.pattern.search text = decide (Leaks disk file p) := by
            rw [Bool.eq_iff_iff, decide_eq_true_iff, ← leaks_iff, plain, decoded]
            rfl
          simp only [same]
  · rw [if_pos (Nat.lt_of_not_le size), none]
    simp [textOf, size]

/-- The name of the file says that it is a pickle. -/
def PickleNamed (lower : Str → Str) (relativePath : Str) : Prop := lower (suffix relativePath) ∈ pickleExtensions

instance PickleNamed.decidable (lower : Str → Str) (relativePath : Str) : Decidable (PickleNamed lower relativePath) :=
  inferInstanceAs (Decidable (_ ∈ _))

/-- The file starts as a pickle of a known protocol does. -/
def StartsPickle (disk : Disk α) (file : α) : Prop :=
  disk.readable file = true ∧ ∃ protocol rest, disk.content file = 0x80 :: protocol :: rest ∧ protocol ≤ 5

theorem startsPickle_iff {disk : Disk α} {file : α} :
    (disk.readable file && looksLikePickleHeader ((disk.content file).take sniffBytes)) = true ↔ StartsPickle disk file := by
  unfold StartsPickle
  rw [Bool.and_eq_true]
  refine and_congr_right fun _ => ?_
  rcases disk.content file with _ | ⟨opcode, _ | ⟨protocol, rest⟩⟩
  · simp [looksLikePickleHeader]
  · simp [looksLikePickleHeader, sniffBytes]
  · simp [looksLikePickleHeader, sniffBytes]

instance StartsPickle.decidable (disk : Disk α) (file : α) : Decidable (StartsPickle disk file) :=
  decidable_of_iff _ startsPickle_iff

/-! ### What is counted -/

section Counts

variable (word : CodePoint → Bool) (lower repr : Str → Str) (disk : Disk α) (artifact : Artifact α) (s : Severity)

def countOf (s : Severity) (records : List FindingRecord) : Nat := records.countP fun r => r.severity = s

/-- The pairs of a file that is opened and a pattern of that severity that occurs in it. -/
def leakCount : Nat :=
  (openedFiles artifact ×ˢ secretPatterns word).countP fun e => Leaks disk e.1.2 e.2 ∧ e.2.severity = s

def pickleNamedCount : Nat := (openedFiles artifact).countP fun e => PickleNamed lower (pathText e.1)

/-- The files that start as a pickle does under another name. -/
def disguisedCount : Nat :=
  (openedFiles artifact).countP fun e => ¬PickleNamed lower (pathText e.1) ∧ StartsPickle disk e.2

/-- The findings that a scanner reports about entries it does not follow. -/
def linkCount : Nat := if s = .low then (unfollowed artifact).length else 0

theorem countOf_links (scannerName : Str) :
    countOf s ((unfollowed artifact).map fun e => (linkFinding scannerName artifact.path e).record) =
      linkCount artifact s := by
  unfold countOf linkCount
  rw [List.countP_map]
  by_cases low : s = .low
  · rw [if_pos low, List.countP_eq_length]
    intro e _
    exact decide_eq_true low.symm
  · rw [if_neg low, List.countP_eq_zero]
    intro e _ same
    exact low (of_decide_eq_true same).symm

theorem countOf_scanItems (scannerName : Str) (scanFile : Str → α → List FindingRecord) :
    countOf s (scanItems scannerName scanFile artifact) =
      ((openedFiles artifact).map fun e => countOf s (scanFile (pathText e.1) e.2)).sum + linkCount artifact s := by
  have links := countOf_links artifact s scannerName
  unfold countOf at links ⊢
  rw [(scanItems_perm scannerName scanFile artifact).countP_eq, List.countP_append, List.countP_flatMap, links]
  rfl

theorem countOf_secretScan : countOf s (secretScan word disk artifact) = leakCount word disk artifact s + linkCount artifact s := by
  unfold secretScan leakCount
  rw [countOf_scanItems]
  congr 1
  induction openedFiles artifact with
  | nil => rfl
  | cons e rest ih =>
    rw [List.map_cons, List.sum_cons, ih, List.product_cons, List.countP_append, List.countP_map, scanSecrets_eq]
    congr 1
    unfold countOf
    rw [List.countP_map, List.countP_filter]
    refine List.countP_congr fun p _ => ?_
    simp [secretFinding, and_comm]

theorem countOf_scanSerialization (relativePath : Str) (file : α) :
    countOf s (scanSerialization lower repr disk relativePath file) =
      if PickleNamed lower relativePath then (if s = .high then 1 else 0)
      else if StartsPickle disk file then (if s = .medium then 1 else 0) else 0 := by
  by_cases named : PickleNamed lower relativePath
  · have reported : scanSerialization lower repr disk relativePath file =
        [extensionFinding repr relativePath (lower (suffix relativePath))] := if_pos named
    rw [reported, if_pos named]
    simp [countOf, extensionFinding, eq_comm]
  · have other : scanSerialization lower repr disk relativePath file =
        if disk.readable file = false then []
        else if looksLikePickleHeader ((disk.content file).take sniffBytes) then
          [headerFinding relativePath ((disk.content file).take sniffBytes)]
        else [] := if_neg named
    rw [other, if_neg named]
    simp only [← startsPickle_iff]
    cases disk.readable file with
    | false => rfl
    | true =>
      cases looksLikePickleHeader ((disk.content file).take sniffBytes) with
      | false => rfl
      | true => simp [countOf, headerFinding, eq_comm]

theorem countOf_serializationScan :
    countOf s (serializationScan lower repr disk artifact) =
      (if s = .high then pickleNamedCount lower artifact else 0) +
        (if s = .medium then disguisedCount lower disk artifact else 0) + linkCount artifact s := by
  unfold serializationScan pickleNamedCount disguisedCount
  rw [countOf_scanItems]
  congr 1
  simp only [countOf_scanSerialization]
  induction openedFiles artifact with
  | nil => simp
  | cons e rest ih =>
    rw [List.map_cons, List.sum_cons, ih, List.countP_cons, List.countP_cons]
    by_cases named : PickleNamed lower (pathText e.1) <;> by_cases starts : StartsPickle disk e.2 <;>
      by_cases high : s = .high <;> by_cases medium : s = .medium <;> simp [named, starts, high, medium] <;> omega

variable (manifest : Option Manifest) (mbom : Option MLBOM)

/-- There is nothing to describe, or everything is described. -/
def Described : Prop :=
  manifest = none ∧ mbom = none ∨ hasLicense manifest mbom = true ∧ hasLineage mbom = true ∧ missingIdentity manifest = []

def gapCount (s : Severity) : Nat :=
  if manifest = none ∧ mbom = none then 0
  else match s with
    | .low => (if hasLicense manifest mbom then 0 else 1) + (if missingIdentity manifest = [] then 0 else 1)
    | .info => if hasLineage mbom then 0 else 1
    | _ => 0

theorem countOf_metadataScan : countOf s (metadataScan manifest mbom) = gapCount manifest mbom s := by
  unfold metadataScan gapCount
  by_cases nothing : manifest = none ∧ mbom = none
  · rw [if_pos nothing, if_pos nothing]
    rfl
  · rw [if_neg nothing, if_neg nothing]
    by_cases identity : missingIdentity manifest = [] <;> cases hasLicense manifest mbom <;> cases hasLineage mbom <;>
      cases s <;> simp [countOf, missingMetadata, identity]

theorem gapCount_eq_zero : (∀ s, gapCount manifest mbom s = 0) ↔ Described manifest mbom := by
  unfold gapCount Described
  by_cases nothing : manifest = none ∧ mbom = none
  · simp [nothing]
  · simp only [if_neg nothing]
    constructor
    · intro zero
      have low := zero .low
      have info := zero .info
      simp only [Nat.add_eq_zero_iff, ite_eq_left_iff, Nat.one_ne_zero, imp_false, not_not] at low info
      exact .inr ⟨low.1, info, low.2⟩
    · rintro (absent | ⟨license, lineage, identity⟩) s
      · exact absurd absent nothing
      · cases s <;> simp [license, lineage, identity]

theorem leakCount_other (other : ∀ p ∈ secretPatterns word, p.severity ≠ s) : leakCount word disk artifact s = 0 := by
  unfold leakCount
  rw [List.countP_eq_zero]
  intro e mem
  simp [other e.2 (List.mem_product.mp mem).2]

theorem leakCount_eq_zero : leakCount word disk artifact s = 0 ↔
    ∀ e ∈ openedFiles artifact, ∀ p ∈ secretPatterns word, p.severity = s → ¬Leaks disk e.2 p := by
  unfold leakCount
  rw [List.countP_eq_zero]
  constructor
  · intro none e mem p own same leaks
    exact none (e, p) (List.mem_product.mpr ⟨mem, own⟩) (decide_eq_true ⟨leaks, same⟩)
  · intro none e mem leaks
    obtain ⟨mem, own⟩ := List.mem_product.mp mem
    obtain ⟨leaks, same⟩ := of_decide_eq_true leaks
    exact none e.1 mem e.2 own same leaks

theorem secretPatterns_severity : ∀ p ∈ secretPatterns word, p.severity = .critical ∨ p.severity = .high := by
  simp [secretPatterns, awsAccessKeyId, pemPrivateKey, githubPat, slackToken]

end Counts

/-! ### The report of the shipped scanners -/

section Report

variable {unicode : Unicode} {env : Env α} {artifact : Artifact α} {manifest : Option Manifest} {mbom : Option MLBOM}
  {artifactDigest : Option Str} {report : ScanReport}

/-- What the report of the shipped scanners says of an artifact. -/
structure Exact (unicode : Unicode) (disk : Disk α) (artifact : Artifact α) (manifest : Option Manifest) (mbom : Option MLBOM)
    (report : ScanReport) : Prop where
  complete : report.allScannersOk = true
  critical : report.count .critical = leakCount unicode.word disk artifact .critical
  high : report.count .high = leakCount unicode.word disk artifact .high + pickleNamedCount unicode.lower artifact
  medium : report.count .medium = disguisedCount unicode.lower disk artifact
  low : report.count .low = 2 * (unfollowed artifact).length + gapCount manifest mbom .low
  info : report.count .info = gapCount manifest mbom .info
  clean : report.clean = true ↔ unfollowed artifact = [] ∧ Described manifest mbom ∧
    ∀ e ∈ openedFiles artifact, ¬PickleNamed unicode.lower (pathText e.1) ∧ ¬StartsPickle disk e.2 ∧
      ∀ p ∈ secretPatterns unicode.word, ¬Leaks disk e.2 p

theorem shippedScans_ok {scanner : Scanner α} (mem : scanner ∈ defaultScanners (shippedScans unicode env)) :
    ¬scanner.Raises artifact manifest mbom := by
  unfold defaultScanners at mem
  rintro ⟨e, raised⟩
  simp only [List.mem_cons, List.not_mem_nil, or_false] at mem
  rcases mem with own | own | own
  all_goals
    subst own
    cases raised

theorem count_shipped (scanned : runScanners env artifact manifest mbom (defaultScanners (shippedScans unicode env))
    artifactDigest = .ok report) (s : Severity) :
    report.count s = countOf s (serializationScan unicode.lower env.host.repr env.disk artifact) +
      countOf s (secretScan unicode.word env.disk artifact) + countOf s (metadataScan manifest mbom) := by
  have found : report.findings = (serializationScan unicode.lower env.host.repr env.disk artifact ++
      secretScan unicode.word env.disk artifact ++ metadataScan manifest mbom).map FindingRecord.finding := by
    rw [runScanners_findings scanned, List.map_append, List.map_append, List.append_assoc]
    simp only [foundBy, defaultScanners, shippedScans, List.flatMap_cons, List.flatMap_nil, List.append_nil]
    rfl
  unfold ScanReport.count countOf
  rw [found, ← List.countP_eq_length_filter, List.countP_map, List.countP_append, List.countP_append]
  rfl

theorem clean_iff : report.clean = true ↔ report.allScannersOk = true ∧ ∀ s, report.count s = 0 := by
  unfold ScanReport.clean ScanReport.count
  rw [Bool.and_eq_true, decide_eq_true_iff, List.length_eq_zero_iff]
  refine and_congr_right fun _ => ?_
  constructor
  · intro none s
    rw [none]
    rfl
  · intro zero
    refine List.eq_nil_iff_forall_not_mem.mpr fun finding mem => ?_
    have counted := List.filter_eq_nil_iff.mp (List.length_eq_zero_iff.mp (zero finding.severity)) finding mem
    exact counted (decide_eq_true rfl)

/-- No file counts where none is what is looked for. -/
theorem clean_files {disk : Disk α} :
    (∀ e ∈ openedFiles artifact, ¬PickleNamed unicode.lower (pathText e.1) ∧ ¬StartsPickle disk e.2 ∧
      ∀ p ∈ secretPatterns unicode.word, ¬Leaks disk e.2 p) ↔
    leakCount unicode.word disk artifact .critical = 0 ∧ leakCount unicode.word disk artifact .high = 0 ∧
      pickleNamedCount unicode.lower artifact = 0 ∧ disguisedCount unicode.lower disk artifact = 0 := by
  unfold pickleNamedCount disguisedCount
  simp only [leakCount_eq_zero, List.countP_eq_zero, decide_eq_true_iff]
  constructor
  · intro none
    refine ⟨fun e mem p own _ => (none e mem).2.2 p own, fun e mem p own _ => (none e mem).2.2 p own,
      fun e mem => (none e mem).1, fun e mem starts => (none e mem).2.1 starts.2⟩
  · rintro ⟨critical, high, named, disguised⟩ e mem
    refine ⟨named e mem, fun starts => disguised e mem ⟨named e mem, starts⟩, fun p own => ?_⟩
    rcases secretPatterns_severity _ p own with same | same
    · exact critical e mem p own same
    · exact high e mem p own same

/-- The shipped scanners find what they look for, wherever a listing shows it, and nothing else. -/
theorem shipped_scan_exact (scanned : runScanners env artifact manifest mbom (defaultScanners (shippedScans unicode env))
    artifactDigest = .ok report) : Exact unicode env.disk artifact manifest mbom report := by
  have complete : report.allScannersOk = true := by
    rw [← Bool.not_eq_false, runScanners_not_ok_iff scanned]
    rintro ⟨before, scanner, after, split, raises, -⟩
    exact shippedScans_ok (split ▸ List.mem_append_right _ List.mem_cons_self) raises
  have counts (s : Severity) : report.count s = (if s = .high then pickleNamedCount unicode.lower artifact else 0) +
      (if s = .medium then disguisedCount unicode.lower env.disk artifact else 0) + linkCount artifact s +
      (leakCount unicode.word env.disk artifact s + linkCount artifact s) + gapCount manifest mbom s := by
    rw [count_shipped scanned, countOf_serializationScan, countOf_secretScan, countOf_metadataScan]
  have quiet (s : Severity) (mild : s ≠ .critical ∧ s ≠ .high) : leakCount unicode.word env.disk artifact s = 0 :=
    leakCount_other _ _ _ _ fun p mem same => by
      rcases secretPatterns_severity _ p mem with own | own
      · exact mild.1 (same.symm.trans own)
      · exact mild.2 (same.symm.trans own)
  have critical : report.count .critical = leakCount unicode.word env.disk artifact .critical := by
    simp [counts, linkCount, gapCount]
  have high : report.count .high = leakCount unicode.word env.disk artifact .high + pickleNamedCount unicode.lower artifact := by
    simp [counts, linkCount, gapCount, Nat.add_comm]
  have medium : report.count .medium = disguisedCount unicode.lower env.disk artifact := by
    simp [counts, linkCount, gapCount, quiet .medium (by decide)]
  have low : report.count .low = 2 * (unfollowed artifact).length + gapCount manifest mbom .low := by
    simp [counts, linkCount, quiet .low (by decide), Nat.two_mul]
  have info : report.count .info = gapCount manifest mbom .info := by
    simp [counts, linkCount, quiet .info (by decide)]
  refine ⟨complete, critical, high, medium, low, info, ?_⟩
  have gaps : (∀ s, gapCount manifest mbom s = 0) ↔ gapCount manifest mbom .low = 0 ∧ gapCount manifest mbom .info = 0 := by
    constructor
    · intro zero
      exact ⟨zero .low, zero .info⟩
    · rintro ⟨low, info⟩ s
      cases s with
      | low => exact low
      | info => exact info
      | medium => simp [gapCount]
      | high => simp [gapCount]
      | critical => simp [gapCount]
  rw [clean_iff, complete, clean_files, ← gapCount_eq_zero, gaps, ← List.length_eq_zero_iff]
  constructor
  · rintro ⟨-, zero⟩
    have noLow := low.symm.trans (zero .low)
    have noHigh := high.symm.trans (zero .high)
    exact ⟨by omega, ⟨by omega, info.symm.trans (zero .info)⟩, critical.symm.trans (zero .critical), by omega, by omega,
      medium.symm.trans (zero .medium)⟩
  · rintro ⟨links, ⟨noLow, noInfo⟩, noCritical, noHigh, named, disguised⟩
    refine ⟨rfl, fun s => ?_⟩
    cases s with
    | critical => exact critical.trans noCritical
    | high => rw [high, noHigh, named]
    | medium => exact medium.trans disguised
    | low => rw [low, links, noLow]
    | info => exact info.trans noInfo

end Report

/-! ### A pickle that holds an access key -/

def plantedEnv : Env Unit where
  sha := scannedEnv.sha
  crypto := scannedEnv.crypto
  host := scannedEnv.host
  disk :=
    { content := fun _ => asciiBytes (str "key=AKIA" ++ List.replicate 16 (cp '7') ++ str "\n")
      readable := fun _ => true }

theorem modelPkl_fileName : IsFileName (str "model.PKL") := by decide

def plantedArtifact : Artifact Unit where
  path := str "models"
  name := ⟨str "models", by decide⟩
  node := some (.dir true [(⟨str "model.PKL", modelPkl_fileName⟩, .file ()), (⟨str "latest", by decide⟩, .symlink .file)])

theorem shipped_scan_exact_planted :
    ∃ report, runScanners plantedEnv plantedArtifact none none (defaultScanners (shippedScans asciiUnicode plantedEnv))
        (some (str "sha256:00")) = .ok report ∧
      Exact asciiUnicode plantedEnv.disk plantedArtifact none none report ∧
      report.count .critical = 1 ∧ report.count .high = 1 ∧ report.count .low = 2 := by
  have scanned : ∃ report, runScanners plantedEnv plantedArtifact none none
      (defaultScanners (shippedScans asciiUnicode plantedEnv)) (some (str "sha256:00")) = .ok report := ⟨_, rfl⟩
  obtain ⟨report, scanned⟩ := scanned
  have exact := shipped_scan_exact scanned
  refine ⟨report, scanned, exact, exact.critical.trans ?_, exact.high.trans ?_, exact.low.trans ?_⟩
  · decide +kernel
  · decide +kernel
  · decide +kernel

end ModelGuard.Scanning
