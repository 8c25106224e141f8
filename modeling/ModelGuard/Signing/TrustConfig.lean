import ModelGuard.Exceptions
import ModelGuard.Hashing.Sha256
import ModelGuard.Lib.Fnmatch

/-!
# Trust configuration

Each key has its own status, validity window, identity binding and scope. Expiry and revocation are
judged by the verifier's clock, never by the claimed signing time.
-/

namespace ModelGuard.Signing

open Lib Lib.Fnmatch

inductive TrustedKeyStatus where
  | active
  | retired
  | revoked
deriving DecidableEq

def TrustedKeyStatus.value : TrustedKeyStatus → String
  | .active => "active"
  | .retired => "retired"
  | .revoked => "revoked"

/-- `[0-9a-f]{64}`. -/
def IsFingerprint (s : Str) : Prop := s.length = 64 ∧ IsHex s

instance (s : Str) : Decidable (IsFingerprint s) := inferInstanceAs (Decidable (_ ∧ _))

def isSchemeStart (c : CodePoint) : Bool := isDigit c || (0x61 ≤ c.val && c.val ≤ 0x7a)

/-- `[a-z0-9][a-z0-9-]{0,63}`. -/
def isSchemeId (s : Str) : Bool :=
  s.head?.any isSchemeStart && s.length ≤ 64 && s.all fun c => isSchemeStart c || c == hyphen

/-- `_check_bounded_string`: one line of 1 to 200 characters. -/
def isBoundedLine (s : Str) : Bool := !s.isEmpty && s.length ≤ 200 && s.all fun c => 0x20 ≤ c.val

def maxScopePatterns : Nat := 32

/-- One trusted signing key and the conditions under which it is trusted, as validation leaves it. -/
structure TrustedKeyEntry where
  keyId : Str
  algorithm : Option Str
  status : TrustedKeyStatus
  notBefore : Option AwareDatetime
  notAfter : Option AwareDatetime
  signerIdentity : Option Str
  scopeModelIdPatterns : List Str
  label : Option Str
  keyIdValid : IsFingerprint keyId
  algorithmValid : algorithm.all isSchemeId = true
  windowValid : ∀ a ∈ notBefore, ∀ b ∈ notAfter, a.moment ≤ b.moment
  identityValid : signerIdentity.all isBoundedLine = true
  labelValid : label.all isBoundedLine = true
  scopeValid : scopeModelIdPatterns.length ≤ maxScopePatterns ∧ scopeModelIdPatterns.all isBoundedLine = true

/-! An entry that leaves its optional fields out. -/

theorem noScheme_valid : (none : Option Str).all isSchemeId = true := rfl

theorem noLine_valid : (none : Option Str).all isBoundedLine = true := rfl

theorem noWindow_valid : ∀ a ∈ (none : Option AwareDatetime), ∀ b ∈ (none : Option AwareDatetime), a.moment ≤ b.moment :=
  nofun

theorem noScope_valid : ([] : List Str).length ≤ maxScopePatterns ∧ ([] : List Str).all isBoundedLine = true :=
  ⟨Nat.zero_le _, rfl⟩

/-- A set of trusted keys, each appearing at most once. -/
structure TrustConfig where
  version : Str
  keys : List TrustedKeyEntry
  unique : (keys.map (·.keyId)).Nodup

structure TrustEvaluation where
  trusted : Bool
  matchedKey : Option TrustedKeyEntry
  reasons : List Str

/-- What a verified signature brings to the decision. -/
structure TrustQuery where
  keyFingerprint : Str
  algorithm : Str
  claimedSignerIdentity : Option Str
  modelId : Option Str
  clock : AwareDatetime

namespace TrustedKeyEntry

variable (key : TrustedKeyEntry) (q : TrustQuery)

def algorithmDiffers : Bool := key.algorithm.any (· ≠ q.algorithm)

def notYetValid : Bool := key.notBefore.any fun start => q.clock.moment < start.moment

def expired : Bool := key.notAfter.any fun stop => stop.moment < q.clock.moment

def identityDiffers : Bool := key.signerIdentity.any fun identity => some identity ≠ q.claimedSignerIdentity

/-- Some pattern matches the model id; a payload without one matches none. -/
def scopedMatch : Bool := q.modelId.any fun modelId => key.scopeModelIdPatterns.any (fnmatchcase modelId ·)

def outOfScope : Bool := !key.scopeModelIdPatterns.isEmpty && !key.scopedMatch q

end TrustedKeyEntry

/-- The reason, when its condition holds. -/
def reasonIf (condition : Bool) (reason : Str) : List Str := if condition then [reason] else []

/-- The reasons collected about the one configured key. -/
def keyReasons (host : Host) (key : TrustedKeyEntry) (q : TrustQuery) : List Str :=
  let subject := str "Trusted key " ++ key.keyId
  let now := str " (current time " ++ host.isoformat q.clock ++ str ")."
  reasonIf (key.algorithmDiffers q) (subject ++ str " is configured for algorithm " ++
    host.reprOption key.algorithm ++ str ", but the signature verified as " ++ host.repr q.algorithm ++ str ".") ++
  reasonIf (key.status ≠ .active) (subject ++ str " is " ++ str key.status.value ++ str ", not active.") ++
  reasonIf (key.notYetValid q) (subject ++ str " is not valid until " ++
    (key.notBefore.map host.isoformat).getD [] ++ now) ++
  reasonIf (key.expired q) (subject ++ str " expired at " ++ (key.notAfter.map host.isoformat).getD [] ++ now) ++
  reasonIf (key.identityDiffers q) (subject ++ str " is bound to signer identity " ++
    host.reprOption key.signerIdentity ++ str ", but the signature claims signer identity " ++
    host.reprOption q.claimedSignerIdentity ++ str ".") ++
  reasonIf (key.outOfScope q) (subject ++ str " is scoped to model_id pattern(s) " ++
    host.reprList key.scopeModelIdPatterns ++ str ", which does not match model_id " ++
    host.reprOption q.modelId ++ str ".")

/-- `evaluate_trust`. -/
def evaluateTrust (host : Host) (config : TrustConfig) (q : TrustQuery) : TrustEvaluation :=
  match config.keys.filter (·.keyId = q.keyFingerprint) with
  | [] =>
    { trusted := false
      matchedKey := none
      reasons := [str "No trusted key is configured with fingerprint " ++ q.keyFingerprint ++ str "."] }
  | key :: _ =>
    { trusted := (keyReasons host key q).isEmpty
      matchedKey := some key
      reasons := keyReasons host key q }

/-! ### When a key is trusted -/

/-- The conditions of a trusted key, each over the data it is about. -/
structure Trusts (key : TrustedKeyEntry) (q : TrustQuery) : Prop where
  fingerprint : key.keyId = q.keyFingerprint
  active : key.status = .active
  started : ∀ start ∈ key.notBefore, start.moment ≤ q.clock.moment
  notExpired : ∀ stop ∈ key.notAfter, q.clock.moment ≤ stop.moment
  algorithm : ∀ a ∈ key.algorithm, a = q.algorithm
  identity : ∀ i ∈ key.signerIdentity, some i = q.claimedSignerIdentity
  scope : key.scopeModelIdPatterns ≠ [] →
    ∃ modelId ∈ q.modelId, ∃ pattern ∈ key.scopeModelIdPatterns, fnmatchcase modelId pattern = true

theorem reasonIf_nil {condition : Bool} {reason : Str} : reasonIf condition reason = [] ↔ condition = false := by
  cases condition <;> simp [reasonIf]

theorem outOfScope_false {key : TrustedKeyEntry} {q : TrustQuery} :
    key.outOfScope q = false ↔ (key.scopeModelIdPatterns ≠ [] →
      ∃ modelId ∈ q.modelId, ∃ pattern ∈ key.scopeModelIdPatterns, fnmatchcase modelId pattern = true) := by
  unfold TrustedKeyEntry.outOfScope TrustedKeyEntry.scopedMatch
  rw [Bool.and_eq_false_imp, Bool.not_eq_true', List.isEmpty_eq_false_iff, Bool.not_eq_false', Option.any_eq_true]
  simp only [List.any_eq_true, Option.mem_def]

theorem keyReasons_nil {host : Host} {key : TrustedKeyEntry} {q : TrustQuery}
    (fingerprint : key.keyId = q.keyFingerprint) : keyReasons host key q = [] ↔ Trusts key q := by
  unfold keyReasons
  simp only [List.append_eq_nil_iff, reasonIf_nil, outOfScope_false, TrustedKeyEntry.algorithmDiffers,
    TrustedKeyEntry.notYetValid, TrustedKeyEntry.expired, TrustedKeyEntry.identityDiffers]
  constructor
  · rintro ⟨⟨⟨⟨⟨algorithm, active⟩, started⟩, stopped⟩, identity⟩, scope⟩
    refine ⟨fingerprint, by simpa using active, ?_, ?_, ?_, ?_, scope⟩
    · intro start mem
      simpa [Option.mem_def.mp mem] using started
    · intro stop mem
      simpa [Option.mem_def.mp mem] using stopped
    · intro a mem
      simpa [Option.mem_def.mp mem] using algorithm
    · intro i mem
      simpa [Option.mem_def.mp mem] using identity
  · intro t
    refine ⟨⟨⟨⟨⟨?_, by simpa using t.active⟩, ?_⟩, ?_⟩, ?_⟩, t.scope⟩
    · cases pinned : key.algorithm with
      | none => rfl
      | some a => simpa using t.algorithm a pinned
    · cases bound : key.notBefore with
      | none => rfl
      | some start => simpa using t.started start bound
    · cases bound : key.notAfter with
      | none => rfl
      | some stop => simpa using t.notExpired stop bound
    · cases bound : key.signerIdentity with
      | none => rfl
      | some i => simpa using t.identity i bound

/-- A configuration has at most one entry for a fingerprint, so the first match is the only one. -/
theorem entry_unique {config : TrustConfig} {a b : TrustedKeyEntry} (ha : a ∈ config.keys) (hb : b ∈ config.keys)
    (same : a.keyId = b.keyId) : a = b := List.inj_on_of_nodup_map config.unique ha hb same

theorem evaluateTrust_trusted {host : Host} {config : TrustConfig} {q : TrustQuery} :
    (evaluateTrust host config q).trusted = true ↔ ∃ key ∈ config.keys, Trusts key q := by
  unfold evaluateTrust
  split
  · rename_i unmatched
    refine ⟨nofun, ?_⟩
    intro ⟨key, mem, trusts⟩
    have found : key ∈ config.keys.filter (·.keyId = q.keyFingerprint) :=
      List.mem_filter.mpr ⟨mem, decide_eq_true trusts.fingerprint⟩
    rw [unmatched] at found
    exact (List.not_mem_nil found).elim
  · rename_i key rest matched
    have first : key ∈ config.keys.filter (·.keyId = q.keyFingerprint) := matched ▸ List.mem_cons_self
    obtain ⟨mem, fingerprint⟩ := List.mem_filter.mp first
    have fingerprint : key.keyId = q.keyFingerprint := of_decide_eq_true fingerprint
    rw [List.isEmpty_iff, keyReasons_nil fingerprint]
    constructor
    · intro trusts
      exact ⟨key, mem, trusts⟩
    · intro ⟨other, memOther, trusts⟩
      have same := entry_unique memOther mem (trusts.fingerprint.trans fingerprint.symm)
      exact same ▸ trusts

/-- A refusal always says why, and a trusted key gives no reason. -/
theorem evaluateTrust_reasons (host : Host) (config : TrustConfig) (q : TrustQuery) :
    (evaluateTrust host config q).reasons = [] ↔ (evaluateTrust host config q).trusted = true := by
  unfold evaluateTrust
  split
  · simp
  · exact List.isEmpty_iff.symm

end ModelGuard.Signing
