import ModelGuard.Signing.Merge

/-!
# Trusted fingerprints

A flat set of fingerprints stands for one entry each, active and without conditions. A `ModelGuard` is constructed
from such a set, from a trust configuration, or from both.
-/

namespace ModelGuard.Signing

open Lib Lib.Fallible

variable {F : Type} (env : TrustEnv F)

/-- A fingerprint that `normalize_fingerprints` has accepted. -/
abbrev Fingerprint := { s : Str // IsFingerprint s }

def fingerprintMessage (host : Host) (raw : Str) : Str :=
  str "Invalid trusted key fingerprint " ++ host.repr raw ++ str (": expected 64 hex characters " ++
    "(the SHA-256 of the raw public key). Compute one with " ++ "`modelguard fingerprint <public-key-file>`.")

def noFingerprints : Str :=
  str ("An empty set of trusted key fingerprints was supplied. Pass at least one " ++
    "fingerprint, or omit trust configuration entirely (in which case no signer " ++
    "is considered trusted and admission checks will refuse to proceed).")

/-- One round of the loop, over the set so far. -/
def addFingerprint (normalized : List Fingerprint) (raw : Str) : Except Raised (List Fingerprint) :=
  if valid : IsFingerprint (normalize env raw) then .ok (normalized.insert ⟨normalize env raw, valid⟩)
  else .error (trustConfigurationError (fingerprintMessage env.host raw))

/-- `normalize_fingerprints`. The members of the set, each once. -/
def normalizeFingerprints (fingerprints : List Str) : Except Raised (List Fingerprint) := do
  let normalized ← fingerprints.foldlM (addFingerprint env) []
  ensure (normalized ≠ []) (trustConfigurationError noFingerprints)
  return normalized

/-- `TrustedKeyEntry(key_id=fp)`. -/
def unconditionalEntry (fp : Fingerprint) : TrustedKeyEntry where
  keyId := fp.1
  algorithm := none
  status := .active
  notBefore := none
  notAfter := none
  signerIdentity := none
  scopeModelIdPatterns := []
  label := none
  keyIdValid := fp.2
  algorithmValid := noScheme_valid
  windowValid := noWindow_valid
  identityValid := noLine_valid
  labelValid := noLine_valid
  scopeValid := noScope_valid

/-- `build_minimal_trust_config`. -/
def buildMinimalTrustConfig (fingerprints : List Str) : Except Raised TrustConfig := do
  let normalized ← normalizeFingerprints env fingerprints
  constructed (configOf (str "1", (normalized.insertionSort fun a b => a.1 ≤ b.1).map unconditionalEntry, ()))

/-! ### The set -/

section Set

variable {env} {fingerprints : List Str} {normalized normalized' : List Fingerprint}

theorem addFingerprint_ok {raw : Str} (h : addFingerprint env normalized raw = .ok normalized') :
    (normalized.Nodup → normalized'.Nodup) ∧
      ∀ fp, fp ∈ normalized' ↔ fp ∈ normalized ∨ fp.1 = normalize env raw := by
  unfold addFingerprint at h
  split at h
  · have same := Except.ok.inj h
    subst same
    refine ⟨List.Nodup.insert, fun fp => ?_⟩
    rw [List.mem_insert_iff, Subtype.ext_iff, or_comm]
  · cases h

theorem addFingerprints_ok (h : fingerprints.foldlM (addFingerprint env) normalized = .ok normalized') :
    (normalized.Nodup → normalized'.Nodup) ∧
      ∀ fp, fp ∈ normalized' ↔ fp ∈ normalized ∨ ∃ raw ∈ fingerprints, fp.1 = normalize env raw := by
  induction fingerprints generalizing normalized with
  | nil =>
    have same := pure_ok.mp h
    subst same
    exact ⟨id, fun fp => by simp⟩
  | cons raw fingerprints ih =>
    rw [List.foldlM_cons] at h
    obtain ⟨next, added, h⟩ := bind_ok.mp h
    obtain ⟨distinct, members⟩ := addFingerprint_ok added
    obtain ⟨distinct', members'⟩ := ih h
    refine ⟨fun nodup => distinct' (distinct nodup), fun fp => ?_⟩
    rw [members', members, or_assoc]
    simp only [List.mem_cons, exists_eq_or_imp]

theorem addFingerprints_covers (h : fingerprints.foldlM (addFingerprint env) normalized = .ok normalized') :
    ∀ raw ∈ fingerprints, IsFingerprint (normalize env raw) := by
  induction fingerprints generalizing normalized with
  | nil => exact List.forall_mem_nil _
  | cons raw fingerprints ih =>
    rw [List.foldlM_cons] at h
    obtain ⟨next, added, h⟩ := bind_ok.mp h
    refine List.forall_mem_cons.mpr ⟨?_, ih h⟩
    unfold addFingerprint at added
    split at added
    · rename_i valid
      exact valid
    · cases added

/-- The set has the normal form of each text that was given, and nothing else. -/
theorem normalizeFingerprints_ok (h : normalizeFingerprints env fingerprints = .ok normalized) :
    normalized.Nodup ∧ (∀ fp, fp ∈ normalized ↔ ∃ raw ∈ fingerprints, fp.1 = normalize env raw) ∧
      ∀ raw ∈ fingerprints, ∃ fp ∈ normalized, fp.1 = normalize env raw := by
  unfold normalizeFingerprints at h
  obtain ⟨found, added, h⟩ := bind_ok.mp h
  obtain ⟨_, -, h⟩ := bind_ok.mp h
  have same := pure_ok.mp h
  subst same
  obtain ⟨distinct, members⟩ := addFingerprints_ok added
  have exact (fp : Fingerprint) : fp ∈ found ↔ ∃ raw ∈ fingerprints, fp.1 = normalize env raw := by simp [members]
  refine ⟨distinct List.nodup_nil, exact, fun raw given => ?_⟩
  exact ⟨⟨normalize env raw, addFingerprints_covers added raw given⟩, (exact _).mpr ⟨raw, given, rfl⟩, rfl⟩

theorem buildMinimal_keys {config : TrustConfig} (h : buildMinimalTrustConfig env fingerprints = .ok config) :
    ∃ normalized, normalizeFingerprints env fingerprints = .ok normalized ∧
      config.keys = (normalized.insertionSort fun a b => a.1 ≤ b.1).map unconditionalEntry := by
  unfold buildMinimalTrustConfig at h
  obtain ⟨normalized, accepted, h⟩ := bind_ok.mp h
  refine ⟨normalized, accepted, ?_⟩
  cases built : configOf (str "1", (normalized.insertionSort fun a b => a.1 ≤ b.1).map unconditionalEntry, ()) with
  | error found =>
    rw [built] at h
    cases h
  | ok made =>
    rw [built] at h
    have same : made = config := Except.ok.inj h
    subst same
    obtain ⟨-, keys⟩ := Prod.mk.inj (configOf_ok.mp built)
    exact (Prod.mk.inj keys).1.symm

theorem unconditionalEntry_trusts {fp : Fingerprint} {query : TrustQuery} :
    Trusts (unconditionalEntry fp) query ↔ fp.1 = query.keyFingerprint := by
  constructor
  · exact fun trusts => trusts.fingerprint
  · intro same
    exact ⟨same, rfl, nofun, nofun, nofun, nofun, fun patterns => (patterns rfl).elim⟩

/-- The configuration trusts the fingerprints that were given, however they are spelled, under any conditions. -/
theorem buildMinimal_trusted_iff {config : TrustConfig} (h : buildMinimalTrustConfig env fingerprints = .ok config)
    (host : Host) (query : TrustQuery) :
    (evaluateTrust host config query).trusted = true ↔ ∃ raw ∈ fingerprints, normalize env raw = query.keyFingerprint := by
  obtain ⟨normalized, accepted, keys⟩ := buildMinimal_keys h
  obtain ⟨-, members, covers⟩ := normalizeFingerprints_ok accepted
  rw [evaluateTrust_trusted, keys]
  constructor
  · intro ⟨key, mem, trusts⟩
    obtain ⟨fp, inside, same⟩ := List.mem_map.mp mem
    subst same
    obtain ⟨raw, given, spelled⟩ := (members fp).mp ((List.mem_insertionSort _).mp inside)
    exact ⟨raw, given, spelled.symm.trans (unconditionalEntry_trusts.mp trusts)⟩
  · intro ⟨raw, given, same⟩
    obtain ⟨fp, inside, spelled⟩ := covers raw given
    refine ⟨unconditionalEntry fp, List.mem_map_of_mem ((List.mem_insertionSort _).mpr inside), ?_⟩
    exact unconditionalEntry_trusts.mpr (spelled.trans same)

end Set

end ModelGuard.Signing
