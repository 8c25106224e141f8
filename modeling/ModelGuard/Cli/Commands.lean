import ModelGuard.Cli.Pull
import ModelGuard.Policy.MoreSevereScan
import ModelGuard.Registry.Dsn
import ModelGuard.Sdk.PolicyCheck
import ModelGuard.Signing.Fingerprints
import ModelGuard.Signing.TrustFile

/-!
# `verify`, `policy check` and `scan`

The guard of a command is made of its options. What a command found decides its exit status, and an error of
ModelGuard is a status of its own.
-/

namespace ModelGuard.Cli

open Lib Lib.Fallible ModelGuard.Hashing ModelGuard.Manifest ModelGuard.Mbom ModelGuard.Policy ModelGuard.Registry
  ModelGuard.Scanning ModelGuard.Sdk ModelGuard.Signing

def exitReviewRequired : Nat := 3

def exitQuarantine : Nat := 4

def exitRevoked : Nat := 5

/-- `_DECISION_EXIT_CODES`. -/
def decisionExitCode : Decision → Nat
  | .allow => exitOk
  | .allowWithWarnings => exitOk
  | .reviewRequired => exitReviewRequired
  | .quarantine => exitQuarantine
  | .deny => exitDenied
  | .revoked => exitRevoked

/-- `except ModelGuardError as exc: _fail(exc, …)`, around what finds the exit status. -/
def exiting : Except Raised Nat → Ended
  | .ok status => .exit status
  | .error (.modelGuard _ _) => .exit exitError
  | .error e => .raised e

theorem exiting_status {outcome : Except Raised Nat} {status : Nat} (ended : exiting outcome = .exit status) :
    outcome = .ok status ∨ status = exitError := by
  unfold exiting at ended
  split at ended
  · exact .inl (congrArg Except.ok (Ended.exit.inj ended))
  · exact .inr (Ended.exit.inj ended).symm
  · cases ended

variable {α F : Type}

/-! ### The guard of a command -/

/-- What a command finds around it. -/
structure Process (F : Type) where
  trustEnv : TrustFileEnv F
  /-- `os.environ.get(name, "")`. -/
  environ : Str → Str
  /-- Whether `modelguard.registry.postgres` can be imported. -/
  postgresExtra : Bool
  /-- `is_revoked` of `PostgresRegistry(dsn)`, which may refuse the DSN. -/
  postgresRegistry : Str → Except Raised RevocationCheck

/-- The arguments of `ModelGuard(...)`. -/
structure GuardOptions (α : Type) where
  /-- `is_revoked` of the registry below `storage_root`. -/
  storageRoot : Option RevocationCheck
  cacheDir : Option (Artifact α → Except Raised CachedHashResult)
  trustedKeyFingerprints : Option (List Str)
  trustConfig : Option TrustConfig
  registry : Option RevocationCheck
  allowLegacySignatures : Bool

/-- `merge_trust_configs(*configs) if configs else None`. -/
def mergedTrust (configs : List TrustConfig) : Except Raised (Option TrustConfig) :=
  if configs.isEmpty then .ok none else (mergeTrustConfigs configs).map some

/-- `ModelGuard.__init__`. -/
def constructGuard (env : TrustEnv F) (options : GuardOptions α) : Except Raised (Guard α) := do
  let minimal ← options.trustedKeyFingerprints.toList.mapM (buildMinimalTrustConfig env)
  let trust ← mergedTrust (minimal ++ options.trustConfig.toList)
  return { allowLegacySignatures := options.allowLegacySignatures
           trust
           hasher := (options.cacheDir.map Hasher.cached).getD .direct
           registry := options.registry.or options.storageRoot }

/-- `_registry_from_env`. -/
def registryFromEnv (process : Process F) : Option Str → Except Raised (Option RevocationCheck)
  | none => .ok none
  | some envName => do
    let dsn := process.environ envName
    ensure (dsn ≠ []) (.modelGuard .modelGuardError (str "--registry-dsn-env " ++ envName ++
      str (": that environment variable is not set (or is " ++ "empty). Refusing to fall back to the local registry.")))
    ensure (process.postgresExtra = true) (.modelGuard .modelGuardError
      (str "The PostgreSQL registry needs its extra: pip install \"modelguard[postgres]\""))
    (process.postgresRegistry dsn).map some

/-- The options that `verify` and `policy check` share. -/
structure GuardArguments (α : Type) where
  storageRoot : Option RevocationCheck
  registryDsnEnv : Option Str
  cacheDir : Option (Artifact α → Except Raised CachedHashResult)
  trustedFingerprints : List Str
  /-- The path, and what reading the file at it gives. -/
  trustConfig : Option (Str × Except Str Bytes)
  rejectLegacySignatures : Bool

def loadTrustConfig (process : Process F) : Option (Str × Except Str Bytes) → Except Raised (Option TrustConfig)
  | none => .ok none
  | some (path, file) => (loadTrustConfigFile process.trustEnv path file).map some

/-- `_make_guard`. -/
def makeGuard (process : Process F) (arguments : GuardArguments α) : Except Raised (Guard α) := do
  let trustConfig ← loadTrustConfig process arguments.trustConfig
  let registry ← registryFromEnv process arguments.registryDsnEnv
  constructGuard process.trustEnv.toTrustEnv
    { storageRoot := arguments.storageRoot
      cacheDir := arguments.cacheDir
      trustedKeyFingerprints := if arguments.trustedFingerprints.isEmpty then none else some arguments.trustedFingerprints
      trustConfig
      registry
      allowLegacySignatures := !arguments.rejectLegacySignatures }

/-! ### The commands -/

/-- `modelguard verify`. -/
def verifyCommand (process : Process F) (arguments : GuardArguments α) (env : Env α) (clock : AwareDatetime)
    (artifact : Artifact α) (mbomFile : Except Raised MLBOM) (signatureFile : Except Raised SignatureEnvelope) : Ended :=
  exiting do
    let guard ← makeGuard process arguments
    let result ← verify env guard clock artifact mbomFile signatureFile
    return if result.allowed then exitOk else exitDenied

/-- `modelguard policy check`. -/
def policyCheckCommand (process : Process F) (arguments : GuardArguments α) (env : Env α) (scanners : List (Scanner α))
    (clock : AwareDatetime) (evaluationId : Str) (artifact : Artifact α) (files : Files) : Ended :=
  exiting do
    let guard ← makeGuard process arguments
    let check ← checkPolicyDetailed env guard scanners clock evaluationId artifact files
    return decisionExitCode check.decision.decision

end ModelGuard.Cli
