import Mathlib.Data.List.DropRight
import ModelGuard.Lib.Normalize
import ModelGuard.Lib.Regex
import ModelGuard.Scanning.Walk

/-!
# The scanners that ship

They read names and octets, and load nothing. A finding names the pattern, and never what matched it.
-/

namespace ModelGuard.Scanning

open Lib ModelGuard.Hashing ModelGuard.Mbom ModelGuard.Sdk

variable {α : Type}

/-- A character of the classes that `\w` names below U+0080. -/
def isAsciiWord (c : CodePoint) : Bool :=
  (0x30 ≤ c.val && c.val ≤ 0x39) || (0x41 ≤ c.val && c.val ≤ 0x5a) || (0x61 ≤ c.val && c.val ≤ 0x7a) || c.val == 0x5f

/-- What `re` and `str.lower` know of characters, of which only the part below U+0080 is fixed here. -/
structure Unicode extends CaseTable where
  word : CodePoint → Bool
  word_ascii : ∀ c : CodePoint, c.val < 0x80 → word c = isAsciiWord c

theorem map_asciiLower_lower (s : Str) (_ : Ascii s) : s.map asciiLower = s.map asciiLower := rfl

theorem isAsciiWord_word (c : CodePoint) (_ : c.val < 0x80) : isAsciiWord c = isAsciiWord c := rfl

/-- An interpreter that knows no letter beyond ASCII. -/
def asciiUnicode : Unicode where
  lower s := s.map asciiLower
  lower_ascii := map_asciiLower_lower
  word := isAsciiWord
  word_ascii := isAsciiWord_word

/-- A `Finding`, with neither its random id nor the time. -/
structure FindingRecord where
  scanner : Str
  category : Str
  severity : Severity
  confidence : Confidence
  component : Str
  message : Str
  remediation : Option Str
  evidence : Option Str
deriving DecidableEq

def FindingRecord.finding (record : FindingRecord) : Finding := { severity := record.severity }

def SkipFinding.record (skipped : SkipFinding) : FindingRecord where
  scanner := skipped.scanner
  category := skipped.category
  severity := skipped.severity
  confidence := skipped.confidence
  component := skipped.component
  message := skipped.message
  remediation := some skipped.remediation
  evidence := none

/-- The loop of a `scan` over the items of the walk. -/
def scanItems (scannerName : Str) (scanFile : Str → α → List FindingRecord) (artifact : Artifact α) : List FindingRecord :=
  (iterScannableFiles artifact scannerName).flatMap fun item =>
    match item with
    | .finding skipped => [skipped.record]
    | .scannable relativePath file => scanFile relativePath file

/-! ### Secrets -/

/-- A member of `_PATTERNS`. -/
structure SecretPattern where
  category : Str
  pattern : Regex CodePoint
  severity : Severity

def inRange (first last : Char) (c : CodePoint) : Bool := first.toNat ≤ c.val && c.val ≤ last.toNat

/-- `[0-9A-Z]`. -/
def isKeyIdChar (c : CodePoint) : Bool := inRange '0' '9' c || inRange 'A' 'Z' c

/-- `[A-Za-z0-9]`. -/
def isTokenChar (c : CodePoint) : Bool := inRange 'A' 'Z' c || inRange 'a' 'z' c || inRange '0' '9' c

/-- `[A-Za-z0-9-]`. -/
def isSlackChar (c : CodePoint) : Bool := isTokenChar c || c == cp '-'

/-- `\b`, one of some heads, a run of characters, `\b`. -/
def tokenPattern (word : CodePoint → Bool) (head : List (Regex CodePoint)) (body : CodePoint → Bool) (least most : Nat) :
    Regex CodePoint :=
  .sequence (.boundary word :: head ++ [.times (.char body) least most, .boundary word])

def awsAccessKeyId (word : CodePoint → Bool) : SecretPattern where
  category := str "aws_access_key_id"
  pattern := tokenPattern word [.text (str "AKIA")] isKeyIdChar 16 16
  severity := .critical

def pemPrivateKey : SecretPattern where
  category := str "pem_private_key"
  pattern := .sequence [.text (str "-----BEGIN "),
    .oneOf [str "RSA ", str "EC ", str "OPENSSH ", str "DSA ", str "ENCRYPTED "], .text (str "PRIVATE KEY-----")]
  severity := .critical

def githubPat (word : CodePoint → Bool) : SecretPattern where
  category := str "github_pat"
  pattern := tokenPattern word [.text (str "gh"), .char fun c => (str "pousr").contains c, .text (str "_")] isTokenChar 36 36
  severity := .high

def slackToken (word : CodePoint → Bool) : SecretPattern where
  category := str "slack_token"
  pattern := tokenPattern word [.text (str "xox"), .char fun c => (str "abposr").contains c, .text (str "-")] isSlackChar 10 72
  severity := .high

/-- `_PATTERNS`. -/
def secretPatterns (word : CodePoint → Bool) : List SecretPattern :=
  [awsAccessKeyId word, pemPrivateKey, githubPat word, slackToken word]

def maxFileSize : Nat := 2 * 1024 * 1024

def binarySniffSize : Nat := 1024

/-- `_looks_binary`. -/
def looksBinary (start : Bytes) : Bool := start.contains 0

def secretFinding (relativePath : Str) (p : SecretPattern) : FindingRecord where
  scanner := str "secrets"
  category := p.category
  severity := p.severity
  confidence := .high
  component := relativePath
  message := str "Content matching a " ++ p.category.map (fun c => if c = cp '_' then cp ' ' else c) ++
    str " pattern was found."
  remediation := some (str ("Remove this credential from the artifact and rotate it -- treat it " ++
    "as compromised from the moment it was committed or packaged."))
  evidence := some (str "pattern=" ++ p.category)

/-- `SecretScanner._scan_file`. -/
def scanSecrets (word : CodePoint → Bool) (disk : Disk α) (relativePath : Str) (file : α) : List FindingRecord :=
  if maxFileSize < (disk.content file).length then []
  else if disk.readable file = false then []
  else if looksBinary ((disk.content file).take binarySniffSize) then []
  else
    match decodeUtf8 (disk.content file) with
    | none => []
    | some text => ((secretPatterns word).filter fun p => p.pattern.search text).map (secretFinding relativePath)

/-- `SecretScanner.scan`. -/
def secretScan (word : CodePoint → Bool) (disk : Disk α) (artifact : Artifact α) : List FindingRecord :=
  scanItems (str "secrets") (scanSecrets word disk) artifact

/-! ### Unsafe serialization -/

/-- `_PICKLE_EXTENSIONS`. -/
def pickleExtensions : List Str :=
  [str ".pkl", str ".pickle", str ".pt", str ".pth", str ".ckpt", str ".joblib", str ".dill"]

def sniffBytes : Nat := 8

/-- `_looks_like_pickle_header`. -/
def looksLikePickleHeader (start : Bytes) : Bool :=
  match start with
  | opcode :: protocol :: _ => opcode == 0x80 && protocol ≤ 5
  | _ => false

/-- `Path.suffix`. -/
def suffix (path : Str) : Str :=
  let name := path.rtakeWhile (· ≠ cp '/')
  let extension := name.rtakeWhile (· ≠ cp '.')
  if 0 < extension.length ∧ extension.length + 1 < name.length then cp '.' :: extension else []

def extensionFinding (repr : Str → Str) (relativePath extension : Str) : FindingRecord where
  scanner := str "unsafe_serialization"
  category := str "unsafe_deserialization"
  severity := .high
  confidence := .high
  component := relativePath
  message := str "File extension " ++ repr extension ++ str (" is associated with pickle-based " ++
    "serialization, which can execute arbitrary code during loading.")
  remediation := some (str ("Prefer a safe format such as SafeTensors. If this file must " ++
    "remain pickle-based, only ever load it in an isolated, " ++ "untrusted-input-aware environment."))
  evidence := some (str "extension=" ++ extension)

def headerFinding (relativePath : Str) (start : Bytes) : FindingRecord where
  scanner := str "unsafe_serialization"
  category := str "unsafe_deserialization"
  severity := .medium
  confidence := .medium
  component := relativePath
  message := str ("File begins with a pickle protocol header (opcode 0x80) despite " ++
    "an extension not normally associated with pickle; it may be " ++ "pickle-based serialization under a misleading name.")
  remediation := some (str ("Confirm the actual format of this file before loading it. If it " ++
    "is pickle-based, treat it with the same caution as a .pkl file."))
  evidence := some (str "header_bytes=" ++ hexText (start.take 2))

/-- `UnsafeSerializationScanner._scan_file`. -/
def scanSerialization (lower repr : Str → Str) (disk : Disk α) (relativePath : Str) (file : α) : List FindingRecord :=
  let extension := lower (suffix relativePath)
  if extension ∈ pickleExtensions then [extensionFinding repr relativePath extension]
  else if disk.readable file = false then []
  else
    let start := (disk.content file).take sniffBytes
    if looksLikePickleHeader start then [headerFinding relativePath start] else []

/-- `UnsafeSerializationScanner.scan`. -/
def serializationScan (lower repr : Str → Str) (disk : Disk α) (artifact : Artifact α) : List FindingRecord :=
  scanItems (str "unsafe_serialization") (scanSerialization lower repr disk) artifact

/-! ### Metadata -/

/-- Whether an optional text is there and not empty. -/
def declared (field : Option Str) : Bool := (truthy field).isSome

def missingMetadata (severity : Severity) (component message remediation : Str) : FindingRecord where
  scanner := str "metadata_completeness"
  category := str "missing_metadata"
  severity := severity
  confidence := .high
  component := component
  message := message
  remediation := some remediation
  evidence := none

def hasLicense (manifest : Option Manifest) (mbom : Option MLBOM) : Bool :=
  declared (manifest.bind Manifest.license) || (mbom.bind fun m => m.modelguard.license).isSome

def hasLineage (mbom : Option MLBOM) : Bool := mbom.any fun m => !m.modelguard.parentModels.isEmpty

/-- The identity fields that the manifest does not have. -/
def missingIdentity (manifest : Option Manifest) : List Str :=
  (if declared (manifest.bind Manifest.modelId) then [] else [str "model_id"]) ++
    (if declared (manifest.bind Manifest.version) then [] else [str "version"])

/-- `MetadataCompletenessScanner.scan`. -/
def metadataScan (manifest : Option Manifest) (mbom : Option MLBOM) : List FindingRecord :=
  if manifest = none ∧ mbom = none then []
  else
    (if hasLicense manifest mbom then []
      else [missingMetadata .low (str "license") (str "No license is declared on the manifest or ML-BOM.")
        (str "Set a license identifier when building the manifest or ML-BOM.")]) ++
    (if hasLineage mbom then []
      else [missingMetadata .info (str "parent_models") (str "The ML-BOM does not declare any parent model.")
        (str ("If this model was fine-tuned, merged, or quantized from another " ++
          "model, record that lineage via DeclaredProvenance(parent_models=...)."))]) ++
    (if missingIdentity manifest = [] then []
      else [missingMetadata .low ((str "/").intercalate (missingIdentity manifest))
        (str "The manifest is missing: " ++ (str ", ").intercalate (missingIdentity manifest) ++ str ".")
        (str "Set model_id and version via DeclaredMetadata before signing.")])

/-! ### The scanners as the runner calls them -/

/-- None of them raises. -/
def shippedScans (unicode : Unicode) (env : Env α) : DefaultScans α where
  unsafeSerialization artifact _ _ :=
    .ok ((serializationScan unicode.lower env.host.repr env.disk artifact).map FindingRecord.finding)
  secrets artifact _ _ := .ok ((secretScan unicode.word env.disk artifact).map FindingRecord.finding)
  metadataCompleteness _ manifest mbom := .ok ((metadataScan manifest mbom).map FindingRecord.finding)

end ModelGuard.Scanning
