import ModelGuard.Manifest.Models
import ModelGuard.Sdk.Verify

/-!
# Scanning

Of a finding, only the severity is read here. A scanner that raises is recorded and contributes no
finding.
-/

namespace ModelGuard.Scanning

open Lib Lib.Fallible ModelGuard.Hashing ModelGuard.Mbom ModelGuard.Sdk ModelGuard.Signing

variable {α : Type}

inductive Severity where
  | info
  | low
  | medium
  | high
  | critical
deriving DecidableEq

structure Finding where
  severity : Severity
deriving DecidableEq

inductive ScannerStatus where
  | ok
  | error
deriving DecidableEq

structure ScanReport where
  artifactDigest : Str
  scannerStatuses : List (Str × ScannerStatus)
  scannerErrors : List (Str × Str)
  findings : List Finding
deriving DecidableEq

/-- `ScanReport.all_scanners_ok`. -/
def ScanReport.allScannersOk (report : ScanReport) : Bool := report.scannerStatuses.all (·.2 = .ok)

/-- `ScanReport.clean`. -/
def ScanReport.clean (report : ScanReport) : Bool := report.allScannersOk && report.findings.length = 0

/-- `ScanReport.count`. -/
def ScanReport.count (report : ScanReport) (severity : Severity) : Nat :=
  (report.findings.filter (·.severity = severity)).length

structure Scanner (α : Type) where
  name : Str
  scan : Artifact α → Option Manifest → Option MLBOM → Except Raised (List Finding)

/-- One round of the loop over the scanners. -/
def runScanner (artifact : Artifact α) (manifest : Option Manifest) (mbom : Option MLBOM) (report : ScanReport)
    (scanner : Scanner α) : ScanReport :=
  match scanner.scan artifact manifest mbom with
  | .ok findings =>
    { report with
      scannerStatuses := Dict.insert scanner.name .ok report.scannerStatuses
      findings := report.findings ++ findings }
  | .error e =>
    { report with
      scannerStatuses := Dict.insert scanner.name .error report.scannerStatuses
      scannerErrors := Dict.insert scanner.name e.message report.scannerErrors }

/-- `run_scanners`. -/
def runScanners (env : Env α) (artifact : Artifact α) (manifest : Option Manifest) (mbom : Option MLBOM)
    (scanners : List (Scanner α)) (artifactDigest : Option Str) : Except Raised ScanReport := do
  let digest ← match artifactDigest with
    | some digest => .ok digest
    | none =>
      match hashArtifact env.sha env.disk artifact.name artifact.node with
      | .ok current => .ok (digestRef current.digest)
      | .error e => .error (raisedBy env.host artifact.path e)
  return scanners.foldl (runScanner artifact manifest mbom)
    { artifactDigest := digest, scannerStatuses := [], scannerErrors := [], findings := [] }

/-- How the scanners that ship behave. -/
structure DefaultScans (α : Type) where
  unsafeSerialization : Artifact α → Option Manifest → Option MLBOM → Except Raised (List Finding)
  secrets : Artifact α → Option Manifest → Option MLBOM → Except Raised (List Finding)
  metadataCompleteness : Artifact α → Option Manifest → Option MLBOM → Except Raised (List Finding)

/-- `DEFAULT_SCANNERS`. -/
def defaultScanners (scans : DefaultScans α) : List (Scanner α) :=
  [{ name := str "unsafe_serialization", scan := scans.unsafeSerialization },
    { name := str "secrets", scan := scans.secrets },
    { name := str "metadata_completeness", scan := scans.metadataCompleteness }]

/-! ### What a report holds -/

variable {artifact : Artifact α} {manifest : Option Manifest} {mbom : Option MLBOM}

def Scanner.Raises (scanner : Scanner α) (artifact : Artifact α) (manifest : Option Manifest) (mbom : Option MLBOM) :
    Prop :=
  ∃ e, scanner.scan artifact manifest mbom = .error e

/-- The findings of the scanners that returned. -/
def foundBy (scanners : List (Scanner α)) (artifact : Artifact α) (manifest : Option Manifest) (mbom : Option MLBOM) :
    List Finding :=
  scanners.flatMap fun scanner => (scanner.scan artifact manifest mbom).toOption.getD []

theorem runScanner_findings {report : ScanReport} {scanner : Scanner α} :
    (runScanner artifact manifest mbom report scanner).findings =
      report.findings ++ (scanner.scan artifact manifest mbom).toOption.getD [] := by
  unfold runScanner
  cases scanner.scan artifact manifest mbom with
  | ok findings => rfl
  | error e => exact (List.append_nil _).symm

theorem foldl_findings {scanners : List (Scanner α)} {report : ScanReport} :
    (scanners.foldl (runScanner artifact manifest mbom) report).findings =
      report.findings ++ foundBy scanners artifact manifest mbom := by
  induction scanners generalizing report with
  | nil => exact (List.append_nil _).symm
  | cons scanner scanners ih =>
    rw [List.foldl_cons, ih, runScanner_findings, List.append_assoc]
    rfl

theorem runScanner_status {report : ScanReport} {scanner : Scanner α} :
    (runScanner artifact manifest mbom report scanner).scannerStatuses.lookup scanner.name = some .error ↔
      scanner.Raises artifact manifest mbom := by
  unfold runScanner Scanner.Raises
  cases scanner.scan artifact manifest mbom with
  | ok findings => simp [Dict.lookup_insert_same]
  | error e => simp [Dict.lookup_insert_same]

theorem runScanner_status_other {report : ScanReport} {scanner : Scanner α} {name : Str} (other : name ≠ scanner.name) :
    (runScanner artifact manifest mbom report scanner).scannerStatuses.lookup name =
      report.scannerStatuses.lookup name := by
  unfold runScanner
  cases scanner.scan artifact manifest mbom with
  | ok findings => exact Dict.lookup_insert_other other _ _
  | error e => exact Dict.lookup_insert_other other _ _

/-- Where no two scanners share a name, no status is overwritten. -/
theorem foldl_status {scanners : List (Scanner α)} {report : ScanReport} {name : Str}
    (distinct : (scanners.map Scanner.name).Nodup) :
    (scanners.foldl (runScanner artifact manifest mbom) report).scannerStatuses.lookup name = some .error ↔
      (∃ scanner ∈ scanners, scanner.name = name ∧ scanner.Raises artifact manifest mbom) ∨
        name ∉ scanners.map Scanner.name ∧ report.scannerStatuses.lookup name = some .error := by
  induction scanners generalizing report with
  | nil => simp
  | cons scanner scanners ih =>
    rw [List.map_cons, List.nodup_cons] at distinct
    obtain ⟨fresh, distinct⟩ := distinct
    rw [List.foldl_cons, ih distinct]
    by_cases same : name = scanner.name
    · subst same
      have absent : ¬ ∃ other ∈ scanners, other.name = scanner.name ∧ other.Raises artifact manifest mbom :=
        fun ⟨other, member, named, _⟩ => fresh (List.mem_map.mpr ⟨other, member, named⟩)
      rw [runScanner_status]
      simp [fresh, absent]
    · rw [runScanner_status_other same]
      simp [same, Ne.symm same]

variable {env : Env α} {scanners : List (Scanner α)} {artifactDigest : Option Str} {report : ScanReport}

theorem runScanners_ok (h : runScanners env artifact manifest mbom scanners artifactDigest = .ok report) :
    ∃ digest, report = scanners.foldl (runScanner artifact manifest mbom)
      { artifactDigest := digest, scannerStatuses := [], scannerErrors := [], findings := [] } := by
  unfold runScanners at h
  split at h
  · exact ⟨_, (pure_ok.mp h).symm⟩
  · split at h
    · exact ⟨_, (pure_ok.mp h).symm⟩
    · cases h

theorem runScanners_findings (h : runScanners env artifact manifest mbom scanners artifactDigest = .ok report) :
    report.findings = foundBy scanners artifact manifest mbom := by
  obtain ⟨digest, made⟩ := runScanners_ok h
  rw [made, foldl_findings]
  rfl

theorem runScanners_status (distinct : (scanners.map Scanner.name).Nodup)
    (h : runScanners env artifact manifest mbom scanners artifactDigest = .ok report) {name : Str} :
    report.scannerStatuses.lookup name = some .error ↔
      ∃ scanner ∈ scanners, scanner.name = name ∧ scanner.Raises artifact manifest mbom := by
  obtain ⟨digest, made⟩ := runScanners_ok h
  rw [made, foldl_status distinct]
  simp

theorem defaultScanners_distinct (scans : DefaultScans α) : ((defaultScanners scans).map Scanner.name).Nodup := by
  have names : [str "unsafe_serialization", str "secrets", str "metadata_completeness"].Nodup := by decide
  exact names

/-! ### Scanners that share a name

A later scanner replaces the status of an earlier one. -/

/-- Some scanner raises, and no scanner after it has its name. -/
def LastOfNameRaises (scanners : List (Scanner α)) (artifact : Artifact α) (manifest : Option Manifest)
    (mbom : Option MLBOM) : Prop :=
  ∃ before scanner after, scanners = before ++ scanner :: after ∧ scanner.Raises artifact manifest mbom ∧
    scanner.name ∉ after.map Scanner.name

theorem runScanner_sorted {report : ScanReport} {scanner : Scanner α} (sorted : Dict.Sorted report.scannerStatuses) :
    Dict.Sorted (runScanner artifact manifest mbom report scanner).scannerStatuses := by
  unfold runScanner
  cases scanner.scan artifact manifest mbom with
  | ok findings => exact Dict.insert_sorted sorted
  | error e => exact Dict.insert_sorted sorted

theorem foldl_sorted {scanners : List (Scanner α)} {report : ScanReport} (sorted : Dict.Sorted report.scannerStatuses) :
    Dict.Sorted (scanners.foldl (runScanner artifact manifest mbom) report).scannerStatuses := by
  induction scanners generalizing report with
  | nil => exact sorted
  | cons scanner scanners ih => exact ih (runScanner_sorted sorted)

/-- The status of a name is that of the last scanner that has it. -/
theorem foldl_last_status {scanners : List (Scanner α)} {report : ScanReport} {name : Str} :
    (scanners.foldl (runScanner artifact manifest mbom) report).scannerStatuses.lookup name = some .error ↔
      (∃ before scanner after, scanners = before ++ scanner :: after ∧ scanner.Raises artifact manifest mbom ∧
        scanner.name = name ∧ name ∉ after.map Scanner.name) ∨
        name ∉ scanners.map Scanner.name ∧ report.scannerStatuses.lookup name = some .error := by
  induction scanners generalizing report with
  | nil => simp
  | cons scanner scanners ih =>
    rw [List.foldl_cons, ih]
    constructor
    · rintro (⟨before, last, after, split, raises, named, alone⟩ | ⟨fresh, status⟩)
      · exact .inl ⟨scanner :: before, last, after, by rw [split, List.cons_append], raises, named, alone⟩
      · by_cases same : name = scanner.name
        · subst same
          exact .inl ⟨[], scanner, scanners, rfl, runScanner_status.mp status, rfl, fresh⟩
        · rw [runScanner_status_other same] at status
          exact .inr ⟨by simp [same, fresh], status⟩
    · rintro (⟨before, last, after, split, raises, named, alone⟩ | ⟨fresh, status⟩)
      · cases before with
        | nil =>
          obtain ⟨first, rest⟩ := List.cons.inj split
          subst first rest named
          exact .inr ⟨alone, runScanner_status.mpr raises⟩
        | cons first before =>
          exact .inl ⟨before, last, after, (List.cons.inj split).2, raises, named, alone⟩
      · rw [List.map_cons, List.mem_cons, not_or] at fresh
        rw [← runScanner_status_other fresh.1] at status
        exact .inr ⟨fresh.2, status⟩

theorem not_allScannersOk_iff {report : ScanReport} (sorted : Dict.Sorted report.scannerStatuses) :
    report.allScannersOk = false ↔ ∃ name, report.scannerStatuses.lookup name = some .error := by
  have distinct : (report.scannerStatuses.map Prod.fst).Nodup :=
    (List.pairwise_map.mpr sorted).imp fun below => below.ne
  unfold ScanReport.allScannersOk
  rw [List.all_eq_false]
  constructor
  · rintro ⟨⟨name, status⟩, mem, failed⟩
    have error : status = .error := by
      cases status with
      | ok => exact absurd rfl failed
      | error => rfl
    exact ⟨name, by rw [Dict.lookup_of_mem distinct mem, error]⟩
  · rintro ⟨name, status⟩
    exact ⟨_, Dict.mem_of_lookup status, by simp⟩

theorem runScanners_not_ok_iff (h : runScanners env artifact manifest mbom scanners artifactDigest = .ok report) :
    report.allScannersOk = false ↔ LastOfNameRaises scanners artifact manifest mbom := by
  obtain ⟨digest, made⟩ := runScanners_ok h
  subst made
  have empty : Dict.Sorted (ScanReport.mk digest [] [] []).scannerStatuses := List.Pairwise.nil
  rw [not_allScannersOk_iff (foldl_sorted empty)]
  simp only [foldl_last_status]
  constructor
  · rintro ⟨name, ⟨before, scanner, after, split, raises, named, alone⟩ | ⟨-, status⟩⟩
    · subst named
      exact ⟨before, scanner, after, split, raises, alone⟩
    · cases status
  · rintro ⟨before, scanner, after, split, raises, alone⟩
    exact ⟨scanner.name, .inl ⟨before, scanner, after, split, raises, rfl, alone⟩⟩

/-- A raising scanner shows in the report exactly where the last scanner of some name raises. -/
theorem raising_scanner_visible_iff (h : runScanners env artifact manifest mbom scanners artifactDigest = .ok report) :
    ((∃ scanner ∈ scanners, scanner.Raises artifact manifest mbom) →
        report.allScannersOk = false ∧ report.clean = false) ↔
      ((∃ scanner ∈ scanners, scanner.Raises artifact manifest mbom) → LastOfNameRaises scanners artifact manifest mbom) := by
  refine imp_congr_right fun _ => ?_
  rw [← runScanners_not_ok_iff h]
  constructor
  · exact And.left
  · intro failed
    refine ⟨failed, ?_⟩
    unfold ScanReport.clean
    rw [failed, Bool.false_and]

/-! A scanner with the name of one that raised. -/

def raisingScanner : Scanner Unit where
  name := str "secrets"
  scan _ _ _ := .error (.external (str "RuntimeError") (str "boom"))

def quietScanner (name : String) : Scanner Unit where
  name := str name
  scan _ _ _ := .ok []

def scannedEnv : Env Unit where
  sha := .ofTable [] noEntries_hex
  crypto := { ed25519 := fun _ _ _ => .invalidSignature, ecdsaP256 := fun _ _ _ => .invalidSignature }
  host := { repr := id, isoformat := fun _ => [], osError := fun path => (str "OSError", path) }
  disk := { content := fun _ => [], readable := fun _ => true }

theorem modelBin_fileName : IsFileName (str "model.bin") := by decide

def scannedArtifact : Artifact Unit where
  path := str "model.bin"
  name := ⟨str "model.bin", modelBin_fileName⟩
  node := some (.file ())

theorem raising_scanner_visible_iff_distinct :
    ∃ report, runScanners scannedEnv scannedArtifact none none [raisingScanner, quietScanner "licenses"]
        (some (str "sha256:00")) = .ok report ∧
      (((∃ scanner ∈ [raisingScanner, quietScanner "licenses"], scanner.Raises scannedArtifact none none) →
          report.allScannersOk = false ∧ report.clean = false) ↔
        ((∃ scanner ∈ [raisingScanner, quietScanner "licenses"], scanner.Raises scannedArtifact none none) →
          LastOfNameRaises [raisingScanner, quietScanner "licenses"] scannedArtifact none none)) :=
  ⟨_, rfl, raising_scanner_visible_iff
    (rfl : runScanners scannedEnv scannedArtifact none none [raisingScanner, quietScanner "licenses"]
      (some (str "sha256:00")) = .ok _)⟩

/-- The second scanner returns, and its status stands for both. -/
theorem raising_scanner_hidden :
    ∃ report, runScanners scannedEnv scannedArtifact none none [raisingScanner, quietScanner "secrets"]
        (some (str "sha256:00")) = .ok report ∧
      (∃ scanner ∈ [raisingScanner, quietScanner "secrets"], scanner.Raises scannedArtifact none none) ∧
      report.allScannersOk = true ∧ report.clean = true :=
  ⟨_, rfl, ⟨raisingScanner, List.mem_cons_self, _, rfl⟩, by decide +kernel, by decide +kernel⟩

end ModelGuard.Scanning
