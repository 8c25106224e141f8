import ModelGuard.Registry.Identifiers
import ModelGuard.Registry.Models
import Mathlib.Data.List.Sort

/-!
# What a registry is for

The registrations in the order they were made, one for each name and version, the revocations and their
withdrawals in the order they were made, and what the queries answer about them.
-/

namespace ModelGuard.Registry

open Lib

def RegistryRecord.key (r : RegistryRecord) : Str × Str := (r.modelId, r.version)

/-- A call of `revoke` or `unrevoke`, the latter with the time it is made at. -/
inductive RevocationCall where
  | revoke (record : RevocationRecord)
  | unrevoke (modelId version actor reason now : Str)

namespace RevocationCall

def modelId : RevocationCall → Str
  | revoke record => record.modelId
  | unrevoke modelId .. => modelId

def version : RevocationCall → Str
  | revoke record => record.version
  | unrevoke _ version .. => version

def About (modelId version : Str) (call : RevocationCall) : Prop := call.modelId = modelId ∧ call.version = version

instance (modelId version : Str) (call : RevocationCall) : Decidable (call.About modelId version) :=
  inferInstanceAs (Decidable (_ ∧ _))

/-- What is in force after the call. -/
def revocation : RevocationCall → Option RevocationRecord
  | revoke record => some record
  | unrevoke .. => none

def texts : RevocationCall → List Str
  | revoke r => [r.modelId, r.version, r.revokedBy, r.reason, r.revokedAt]
  | unrevoke modelId version actor reason now => [modelId, version, actor, reason, now]

end RevocationCall

/-- A call of a registry. -/
inductive Operation where
  | register (record : RegistryRecord)
  | get (modelId version : Str)
  | getByDigest (artifactDigest : Str)
  | listVersions (modelId : Str)
  | revoke (record : RevocationRecord)
  /-- With the time the call is made at. -/
  | unrevoke (modelId version actor reason now : Str)
  | isRevoked (modelId version : Str)

/-- What a call returns. -/
inductive Answer where
  | registered (record : RegistryRecord)
  | found (record : Option RegistryRecord)
  | versions (versions : List Str)
  | revocation (record : RevocationRecord)
  | nothing
  | revoked (record : Option RevocationRecord)

namespace Ledger

variable (rows : List RegistryRecord)

def find (modelId version : Str) : Option RegistryRecord := rows.find? fun r => r.key = (modelId, version)

/-- The first registration of an artifact. -/
def firstWithDigest (digest : Str) : Option RegistryRecord := rows.find? fun r => r.artifactDigest == digest

def versionsOf (modelId : Str) : List Str :=
  ((rows.filter fun r => r.modelId = modelId).map (·.version)).insertionSort (· ≤ ·)

variable {rows}

theorem find_some {modelId version : Str} {r : RegistryRecord} (h : find rows modelId version = some r) :
    r ∈ rows ∧ r.key = (modelId, version) := by
  unfold find at h
  exact ⟨List.mem_of_find?_eq_some h, by simpa using List.find?_some h⟩

theorem find_none {modelId version : Str} :
    find rows modelId version = none ↔ (modelId, version) ∉ rows.map RegistryRecord.key := by
  unfold find
  simp [List.find?_eq_none]

/-- Where keys are distinct, a row is found under its key. -/
theorem find_of_mem (distinct : (rows.map RegistryRecord.key).Nodup) {r : RegistryRecord} (mem : r ∈ rows) :
    find rows r.modelId r.version = some r := by
  cases found : find rows r.modelId r.version with
  | none => exact (find_none.mp found (List.mem_map_of_mem (f := RegistryRecord.key) mem)).elim
  | some other =>
    obtain ⟨otherMem, same⟩ := find_some found
    rw [List.inj_on_of_nodup_map distinct otherMem mem same]

theorem firstWithDigest_some {digest : Str} {r : RegistryRecord} (h : firstWithDigest rows digest = some r) :
    r ∈ rows ∧ r.artifactDigest = digest := by
  unfold firstWithDigest at h
  exact ⟨List.mem_of_find?_eq_some h, by simpa using List.find?_some h⟩

theorem firstWithDigest_none {digest : Str} :
    firstWithDigest rows digest = none ↔ ∀ r ∈ rows, r.artifactDigest ≠ digest := by
  unfold firstWithDigest
  simp [List.find?_eq_none]

/-- A later registration of the same bytes changes nothing. -/
theorem firstWithDigest_append (digest : Str) (record : RegistryRecord) :
    firstWithDigest (rows ++ [record]) digest =
      (firstWithDigest rows digest).or (if record.artifactDigest = digest then some record else none) := by
  unfold firstWithDigest
  rw [List.find?_append, List.find?_singleton]
  simp

/-- The revocation in force: the last call about the version decides. -/
def activeRevocation (events : List RevocationCall) (modelId version : Str) : Option RevocationRecord :=
  (events.filter fun e => e.About modelId version).getLast?.bind RevocationCall.revocation

/-- One more call. -/
theorem activeRevocation_append (events : List RevocationCall) (call : RevocationCall) (modelId version : Str) :
    activeRevocation (events ++ [call]) modelId version =
      if call.About modelId version then call.revocation else activeRevocation events modelId version := by
  unfold activeRevocation
  rw [List.filter_append]
  by_cases about : call.About modelId version
  · simp [about]
  · simp [about]

end Ledger

/-- The abstract registry. -/
structure Ledger where
  rows : List RegistryRecord
  events : List RevocationCall

namespace Ledger

def empty : Ledger := ⟨[], []⟩

variable (nfc : Str → Str) (ledger : Ledger)

def registerRow (record : RegistryRecord) : Except ErrorClass Answer × Ledger :=
  if ¬(Valid nfc record.modelId ∧ Valid nfc record.version) then (.error .invalidIdentifierError, ledger)
  else if record.key ∈ ledger.rows.map RegistryRecord.key then (.error .duplicateRegistrationError, ledger)
  else (.ok (.registered record), { ledger with rows := ledger.rows ++ [record] })

/-- A call that needs a valid name and version, and changes nothing without them. -/
def named (modelId version : Str) (next : Answer × Ledger) : Except ErrorClass Answer × Ledger :=
  if Valid nfc modelId ∧ Valid nfc version then (.ok next.1, next.2) else (.error .invalidIdentifierError, ledger)

def record (call : RevocationCall) (answer : Answer) : Except ErrorClass Answer × Ledger :=
  named nfc ledger call.modelId call.version (answer, { ledger with events := ledger.events ++ [call] })

/-- One call. -/
def step : Operation → Except ErrorClass Answer × Ledger
  | .register record => registerRow nfc ledger record
  | .get modelId version => named nfc ledger modelId version (.found (find ledger.rows modelId version), ledger)
  | .getByDigest digest => (.ok (.found (firstWithDigest ledger.rows digest)), ledger)
  | .listVersions modelId =>
    if Valid nfc modelId then (.ok (.versions (versionsOf ledger.rows modelId)), ledger)
    else (.error .invalidIdentifierError, ledger)
  | .revoke revocation => record nfc ledger (.revoke revocation) (.revocation revocation)
  | .unrevoke modelId version actor reason now =>
    record nfc ledger (.unrevoke modelId version actor reason now) .nothing
  | .isRevoked modelId version =>
    named nfc ledger modelId version (.revoked (activeRevocation ledger.events modelId version), ledger)

end Ledger

end ModelGuard.Registry
