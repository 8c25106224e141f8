import ModelGuard.Audit.Append
import ModelGuard.Audit.Chain
import ModelGuard.Audit.Intact
import ModelGuard.Audit.Numbered
import ModelGuard.Audit.Overlap
import ModelGuard.Audit.Reported
import ModelGuard.Audit.Tamper
import ModelGuard.Audit.Torn
import ModelGuard.Audit.Verify
import ModelGuard.Cache.DropIn
import ModelGuard.Cache.Fingerprint
import ModelGuard.Cache.Hasher
import ModelGuard.Cache.Meetings
import ModelGuard.Cache.Soundness
import ModelGuard.Cache.Transparent
import ModelGuard.Cache.Undisturbed
import ModelGuard.Cache.Walkers
import ModelGuard.Cli.Commands
import ModelGuard.Cli.Pull
import ModelGuard.Cli.Revoked
import ModelGuard.Cli.Rotation
import ModelGuard.Cli.Sign
import ModelGuard.Cli.Trust
import ModelGuard.Deployment.Admission
import ModelGuard.Deployment.Audited
import ModelGuard.Deployment.Gate
import ModelGuard.Deployment.History
import ModelGuard.Deployment.Release
import ModelGuard.Deployment.Revoked
import ModelGuard.Deployment.Scanned
import ModelGuard.Deployment.Withdrawn
import ModelGuard.Exceptions
import ModelGuard.Hashing.Coverage
import ModelGuard.Hashing.Digest
import ModelGuard.Hashing.Identity
import ModelGuard.Hashing.Raised
import ModelGuard.Hashing.SameTree
import ModelGuard.Hashing.Sha256
import ModelGuard.Hashing.Walk
import ModelGuard.Lib.Der
import ModelGuard.Lib.Dict
import ModelGuard.Lib.Effect
import ModelGuard.Lib.Entries
import ModelGuard.Lib.Fallible
import ModelGuard.Lib.FallibleSort
import ModelGuard.Lib.FileTree
import ModelGuard.Lib.Fnmatch
import ModelGuard.Lib.FsEncoding
import ModelGuard.Lib.HashChain
import ModelGuard.Lib.Json
import ModelGuard.Lib.JsonBytes
import ModelGuard.Lib.JsonFields
import ModelGuard.Lib.JsonIndent
import ModelGuard.Lib.JsonJoin
import ModelGuard.Lib.JsonLex
import ModelGuard.Lib.JsonPretty
import ModelGuard.Lib.JsonRaw
import ModelGuard.Lib.JsonRoundTrip
import ModelGuard.Lib.JsonScan
import ModelGuard.Lib.Normalize
import ModelGuard.Lib.Regex
import ModelGuard.Lib.SerialTable
import ModelGuard.Lib.StackWalk
import ModelGuard.Lib.Text
import ModelGuard.Lib.Transition
import ModelGuard.Lib.TreeEdit
import ModelGuard.Lib.TreeFill
import ModelGuard.Lib.TreeWeight
import ModelGuard.Lib.Utf8Order
import ModelGuard.Lib.Utf8RoundTrip
import ModelGuard.Lib.Validation
import ModelGuard.Lib.Worklist
import ModelGuard.Manifest.Builder
import ModelGuard.Manifest.Models
import ModelGuard.Mbom.Canonical
import ModelGuard.Mbom.File
import ModelGuard.Mbom.Generator
import ModelGuard.Mbom.Models
import ModelGuard.Policy.Engine
import ModelGuard.Policy.Loader
import ModelGuard.Policy.Models
import ModelGuard.Policy.MoreSevereScan
import ModelGuard.Policy.Results
import ModelGuard.Policy.Worst
import ModelGuard.Provenance.Graph
import ModelGuard.Provenance.Lineage
import ModelGuard.Provenance.Store
import ModelGuard.Registry.Components
import ModelGuard.Registry.Dsn
import ModelGuard.Registry.Equivalence
import ModelGuard.Registry.History
import ModelGuard.Registry.Identifiers
import ModelGuard.Registry.Lasting
import ModelGuard.Registry.Ledger
import ModelGuard.Registry.Local
import ModelGuard.Registry.LocalLog
import ModelGuard.Registry.LocalRows
import ModelGuard.Registry.Migrations
import ModelGuard.Registry.Models
import ModelGuard.Registry.Postgres
import ModelGuard.Registry.Registrations
import ModelGuard.Registry.Revocations
import ModelGuard.Registry.WriteFaults
import ModelGuard.Scanning.Patterns
import ModelGuard.Scanning.Reported
import ModelGuard.Scanning.Runner
import ModelGuard.Scanning.Scanners
import ModelGuard.Scanning.Walk
import ModelGuard.Sdk.Allowed
import ModelGuard.Sdk.DescribedArtifact
import ModelGuard.Sdk.EmptyRegistry
import ModelGuard.Sdk.MbomEvidence
import ModelGuard.Sdk.PolicyCheck
import ModelGuard.Sdk.RevokedDeployments
import ModelGuard.Sdk.ScanEvidence
import ModelGuard.Sdk.SignedFiles
import ModelGuard.Sdk.Verify
import ModelGuard.Signing.Canonical
import ModelGuard.Signing.Commitment
import ModelGuard.Signing.Envelope
import ModelGuard.Signing.EnvelopeFile
import ModelGuard.Signing.Fingerprints
import ModelGuard.Signing.Hsm
import ModelGuard.Signing.Keys
import ModelGuard.Signing.Merge
import ModelGuard.Signing.Schemes
import ModelGuard.Signing.Signer
import ModelGuard.Signing.TrustConfig
import ModelGuard.Signing.TrustDocument
import ModelGuard.Signing.TrustFailure
import ModelGuard.Signing.TrustFile
import ModelGuard.Signing.TrustSchema
import ModelGuard.Signing.Verifier
import ModelGuard.Storage.AllOrNothing
import ModelGuard.Storage.ConcurrentPut
import ModelGuard.Storage.Confined
import ModelGuard.Storage.Download
import ModelGuard.Storage.Fetch
import ModelGuard.Storage.GetTo
import ModelGuard.Storage.Io
import ModelGuard.Storage.Lasting
import ModelGuard.Storage.Limits
import ModelGuard.Storage.Local
import ModelGuard.Storage.Machine
import ModelGuard.Storage.Manifest
import ModelGuard.Storage.Rebuilt
import ModelGuard.Storage.RefusedPut
import ModelGuard.Storage.Restore
import ModelGuard.Storage.RoundTrip
import ModelGuard.Storage.S3
import ModelGuard.Storage.Serve
import ModelGuard.Storage.Transfer
import ModelGuard.Storage.Upload
