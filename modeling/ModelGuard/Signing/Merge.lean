import ModelGuard.Lib.Entries
import ModelGuard.Signing.TrustFile

/-!
# Merging trust configurations

A fingerprint may come from several sources if all of them configure it alike. Moments are compared as moments:
two spellings of one instant are alike.
-/

namespace ModelGuard.Signing

open Lib Lib.Fallible Lib.Validation

namespace TrustedKeyEntry

/-- `==` of two entries. -/
def equal (key other : TrustedKeyEntry) : Bool :=
  key.keyId = other.keyId && key.algorithm = other.algorithm && key.status = other.status &&
    key.notBefore.map (·.moment) = other.notBefore.map (·.moment) &&
    key.notAfter.map (·.moment) = other.notAfter.map (·.moment) && key.signerIdentity = other.signerIdentity &&
    key.scopeModelIdPatterns = other.scopeModelIdPatterns && key.label = other.label

end TrustedKeyEntry

def conflictMessage (keyId : Str) : Str :=
  str "Fingerprint " ++ keyId ++ str (" is configured more than once with different settings (for example, once via " ++
    "--trusted-fingerprint and once in a trust configuration file). Configure each key in exactly one place.")

/-- One round of the inner loop. -/
def mergeKey (merged : List (Str × TrustedKeyEntry)) (key : TrustedKeyEntry) : Except Raised (List (Str × TrustedKeyEntry)) :=
  if (merged.lookup key.keyId).any fun existing => !existing.equal key then
    .error (trustConfigurationError (conflictMessage key.keyId))
  else .ok (Entries.set key.keyId key merged)

/-- What `TrustConfig(...)` raises. -/
def constructed {α : Type} : Validated α → Except Raised α
  | .ok a => .ok a
  | .error found => .error (.external (str "ValidationError") (render found))

/-- `merge_trust_configs`. -/
def mergeTrustConfigs (configs : List TrustConfig) : Except Raised TrustConfig := do
  let merged ← configs.foldlM (fun merged config => config.keys.foldlM mergeKey merged) []
  constructed (configOf (str "1", merged.map (·.2), ()))

/-- Two sources configure one fingerprint differently. -/
def Conflicting (configs : List TrustConfig) : Prop :=
  ∃ config ∈ configs, ∃ other ∈ configs, ∃ key ∈ config.keys, ∃ key' ∈ other.keys,
    key.keyId = key'.keyId ∧ key.equal key' = false

/-! ### Equal entries -/

section Equal

variable {key other third : TrustedKeyEntry}

theorem equal_iff : key.equal other = true ↔ key.keyId = other.keyId ∧ key.algorithm = other.algorithm ∧
    key.status = other.status ∧ key.notBefore.map (·.moment) = other.notBefore.map (·.moment) ∧
    key.notAfter.map (·.moment) = other.notAfter.map (·.moment) ∧ key.signerIdentity = other.signerIdentity ∧
    key.scopeModelIdPatterns = other.scopeModelIdPatterns ∧ key.label = other.label := by
  unfold TrustedKeyEntry.equal
  simp only [Bool.and_eq_true, decide_eq_true_eq, and_assoc]

theorem equal_refl (key : TrustedKeyEntry) : key.equal key = true :=
  equal_iff.mpr ⟨rfl, rfl, rfl, rfl, rfl, rfl, rfl, rfl⟩

theorem equal_symm (same : key.equal other = true) : other.equal key = true := by
  obtain ⟨a, b, c, d, e, f, g, h⟩ := equal_iff.mp same
  exact equal_iff.mpr ⟨a.symm, b.symm, c.symm, d.symm, e.symm, f.symm, g.symm, h.symm⟩

theorem equal_trans (first : key.equal other = true) (second : other.equal third = true) : key.equal third = true := by
  obtain ⟨a, b, c, d, e, f, g, h⟩ := equal_iff.mp first
  obtain ⟨a', b', c', d', e', f', g', h'⟩ := equal_iff.mp second
  exact equal_iff.mpr ⟨a.trans a', b.trans b', c.trans c', d.trans d', e.trans e', f.trans f', g.trans g', h.trans h'⟩

theorem bound_of_moments {a b : Option AwareDatetime} (same : a.map (·.moment) = b.map (·.moment)) {p : Int → Prop}
    (holds : ∀ x ∈ a, p x.moment) : ∀ x ∈ b, p x.moment := by
  intro x mem
  have found : a.map (·.moment) = some x.moment := same.trans (congrArg (Option.map (·.moment)) (Option.mem_def.mp mem))
  obtain ⟨y, there, moment⟩ := Option.map_eq_some_iff.mp found
  rw [← moment]
  exact holds y there

theorem trusts_of_equal (same : key.equal other = true) {query : TrustQuery} (trusts : Trusts key query) :
    Trusts other query := by
  obtain ⟨fingerprint, algorithm, status, start, stop, identity, scope, -⟩ := equal_iff.mp same
  refine ⟨fingerprint ▸ trusts.fingerprint, status ▸ trusts.active, ?_, ?_, ?_, ?_, scope ▸ trusts.scope⟩
  · exact bound_of_moments (p := (· ≤ query.clock.moment)) start trusts.started
  · exact bound_of_moments (p := (query.clock.moment ≤ ·)) stop trusts.notExpired
  · exact algorithm ▸ trusts.algorithm
  · exact identity ▸ trusts.identity

end Equal

/-! ### The loop -/

/-- No two of the entries are for one fingerprint and differ. -/
def Consistent (keys : List TrustedKeyEntry) : Prop :=
  ∀ key ∈ keys, ∀ other ∈ keys, key.keyId = other.keyId → key.equal other = true

/-- What the dictionary holds after some entries. -/
structure MergedFrom (keys : List TrustedKeyEntry) (merged : List (Str × TrustedKeyEntry)) : Prop where
  named : ∀ e ∈ merged, e.2.keyId = e.1
  distinct : (merged.map (·.1)).Nodup
  source : ∀ e ∈ merged, e.2 ∈ keys
  covers : ∀ key ∈ keys, ∃ found, merged.lookup key.keyId = some found ∧ found.equal key = true

theorem mergedFrom_nil : MergedFrom [] [] where
  named := List.forall_mem_nil _
  distinct := List.nodup_nil
  source := List.forall_mem_nil _
  covers := List.forall_mem_nil _

theorem MergedFrom.consistent {keys : List TrustedKeyEntry} {merged : List (Str × TrustedKeyEntry)}
    (h : MergedFrom keys merged) : Consistent keys := by
  intro key mem other mem' same
  obtain ⟨found, looked, equal⟩ := h.covers key mem
  obtain ⟨found', looked', equal'⟩ := h.covers other mem'
  rw [same, looked'] at looked
  cases looked
  exact equal_trans (equal_symm equal) equal'

/-- One entry is taken in, or refused for one that was there before. -/
theorem mergeKey_cases {keys : List TrustedKeyEntry} {merged : List (Str × TrustedKeyEntry)} (h : MergedFrom keys merged)
    (key : TrustedKeyEntry) :
    (∃ merged', mergeKey merged key = .ok merged' ∧ MergedFrom (keys ++ [key]) merged') ∨
      mergeKey merged key = .error (trustConfigurationError (conflictMessage key.keyId)) ∧
        ∃ other ∈ keys, other.keyId = key.keyId ∧ other.equal key = false := by
  unfold mergeKey
  split
  · rename_i conflict
    refine Or.inr ⟨rfl, ?_⟩
    obtain ⟨found, looked, differs⟩ := Option.any_eq_true _ _ |>.mp conflict
    have mem := Dict.mem_of_lookup looked
    exact ⟨found, h.source _ mem, h.named _ mem, by simpa using differs⟩
  · rename_i agrees
    refine Or.inl ⟨_, rfl, ?_, Entries.nodup_set h.distinct, ?_, ?_⟩
    · intro e mem
      rcases Entries.mem_set mem with same | old
      · rw [same]
      · exact h.named e old
    · intro e mem
      rcases Entries.mem_set mem with same | old
      · rw [same]
        exact List.mem_append_right _ (List.mem_singleton_self key)
      · exact List.mem_append_left _ (h.source e old)
    · intro other mem
      by_cases same : other.keyId = key.keyId
      · refine ⟨key, same ▸ Entries.lookup_set_same _ _ _, ?_⟩
        rcases List.mem_append.mp mem with old | last
        · obtain ⟨found, looked, equal⟩ := h.covers other old
          rw [← same, looked] at agrees
          have alike : found.equal key = true := by simpa using agrees
          exact equal_trans (equal_symm alike) equal
        · rw [List.mem_singleton.mp last]
          exact equal_refl key
      · rw [Entries.lookup_set_other same]
        rcases List.mem_append.mp mem with old | last
        · exact h.covers other old
        · exact (same (congrArg _ (List.mem_singleton.mp last))).elim

theorem mergeKeys_cases (keys : List TrustedKeyEntry) {done : List TrustedKeyEntry} {merged : List (Str × TrustedKeyEntry)}
    (h : MergedFrom done merged) :
    (∃ merged', keys.foldlM mergeKey merged = .ok merged' ∧ MergedFrom (done ++ keys) merged') ∨
      (∃ message, keys.foldlM mergeKey merged = .error (trustConfigurationError message)) ∧ ¬Consistent (done ++ keys) := by
  induction keys generalizing done merged with
  | nil =>
    refine Or.inl ⟨merged, rfl, ?_⟩
    rw [List.append_nil]
    exact h
  | cons key keys ih =>
    rcases mergeKey_cases h key with ⟨merged', taken, next⟩ | ⟨refused, other, mem, same, differs⟩
    · rw [List.foldlM_cons, taken]
      have rest := ih next
      rw [List.append_assoc, List.singleton_append] at rest
      exact rest
    · rw [List.foldlM_cons, refused]
      refine Or.inr ⟨⟨_, rfl⟩, fun consistent => ?_⟩
      have alike := consistent other (List.mem_append_left _ mem) key (List.mem_append_right _ List.mem_cons_self) same
      rw [differs] at alike
      cases alike

theorem foldlM_sources (configs : List TrustConfig) (merged : List (Str × TrustedKeyEntry)) :
    configs.foldlM (fun merged config => config.keys.foldlM mergeKey merged) merged =
      (configs.flatMap (·.keys)).foldlM mergeKey merged := by
  induction configs generalizing merged with
  | nil => rfl
  | cons config configs ih =>
    rw [List.flatMap_cons, List.foldlM_append, List.foldlM_cons]
    exact bind_congr fun merged' => ih merged'

/-- Either all sources agree, and every entry has an equal one in what they are merged to, or some conflict is found. -/
theorem merge_cases (configs : List TrustConfig) :
    (∃ merged, mergeTrustConfigs configs = .ok merged ∧ (∀ key ∈ merged.keys, key ∈ configs.flatMap (·.keys)) ∧
        (∀ key ∈ configs.flatMap (·.keys), ∃ found ∈ merged.keys, found.equal key = true) ∧
          Consistent (configs.flatMap (·.keys))) ∨
      (∃ message, mergeTrustConfigs configs = .error (trustConfigurationError message)) ∧
        ¬Consistent (configs.flatMap (·.keys)) := by
  unfold mergeTrustConfigs
  rw [foldlM_sources]
  rcases mergeKeys_cases (configs.flatMap (·.keys)) mergedFrom_nil with ⟨merged, folded, from_⟩ | ⟨⟨message, refused⟩, conflict⟩
  · rw [List.nil_append] at from_
    have keyIds : (merged.map (·.2)).map (·.keyId) = merged.map (·.1) := by
      rw [List.map_map]
      exact List.map_congr_left fun e mem => from_.named e mem
    have valid : configOf (str "1", merged.map (·.2), ()) =
        .ok { version := str "1", keys := merged.map (·.2), unique := keyIds ▸ from_.distinct } := configOf_ok.mpr rfl
    rw [folded]
    refine Or.inl ⟨_, congrArg constructed valid, ?_, ?_, from_.consistent⟩
    · intro key mem
      obtain ⟨e, inside, same⟩ := List.mem_map.mp mem
      exact same ▸ from_.source e inside
    · intro key mem
      obtain ⟨found, looked, equal⟩ := from_.covers key mem
      exact ⟨found, List.mem_map.mpr ⟨_, Dict.mem_of_lookup looked, rfl⟩, equal⟩
  · rw [List.nil_append] at conflict
    rw [refused]
    exact Or.inr ⟨⟨message, rfl⟩, conflict⟩

/-! ### Merging as a whole -/

theorem conflicting_iff {configs : List TrustConfig} : Conflicting configs ↔ ¬Consistent (configs.flatMap (·.keys)) := by
  constructor
  · intro ⟨config, mem, other, mem', key, inside, key', inside', same, differs⟩ consistent
    have alike := consistent key (List.mem_flatMap.mpr ⟨config, mem, inside⟩) key'
      (List.mem_flatMap.mpr ⟨other, mem', inside'⟩) same
    rw [differs] at alike
    cases alike
  · intro inconsistent
    by_contra none
    apply inconsistent
    intro key mem key' mem' same
    obtain ⟨config, listed, inside⟩ := List.mem_flatMap.mp mem
    obtain ⟨other, listed', inside'⟩ := List.mem_flatMap.mp mem'
    by_contra differs
    exact none ⟨config, listed, other, listed', key, inside, key', inside', same, Bool.eq_false_iff.mpr differs⟩

/-- A fingerprint is trusted after merging when some source trusts it. -/
theorem merged_trusted_iff {configs : List TrustConfig} {merged : TrustConfig} (ok : mergeTrustConfigs configs = .ok merged)
    (host : Host) (query : TrustQuery) :
    (evaluateTrust host merged query).trusted = true ↔
      ∃ config ∈ configs, (evaluateTrust host config query).trusted = true := by
  simp only [evaluateTrust_trusted]
  rcases merge_cases configs with ⟨merged', ok', source, covers, -⟩ | ⟨⟨message, refused⟩, -⟩
  · have same := Except.ok.inj (ok.symm.trans ok')
    subst same
    constructor
    · intro ⟨key, mem, trusts⟩
      obtain ⟨config, listed, inside⟩ := List.mem_flatMap.mp (source key mem)
      exact ⟨config, listed, key, inside, trusts⟩
    · intro ⟨config, listed, key, inside, trusts⟩
      obtain ⟨found, mem, equal⟩ := covers key (List.mem_flatMap.mpr ⟨config, listed, inside⟩)
      exact ⟨found, mem, trusts_of_equal (equal_symm equal) trusts⟩
  · rw [refused] at ok
    cases ok

/-- Sources that agree agree on a fingerprint that they configure. -/
theorem sources_agree {configs : List TrustConfig} {merged : TrustConfig} (ok : mergeTrustConfigs configs = .ok merged)
    (host : Host) {query : TrustQuery} {config other : TrustConfig} (listed : config ∈ configs) (listed' : other ∈ configs)
    {key : TrustedKeyEntry} (mem : key ∈ config.keys) (asked : key.keyId = query.keyFingerprint)
    (trusted : (evaluateTrust host other query).trusted = true) : (evaluateTrust host config query).trusted = true := by
  rw [evaluateTrust_trusted] at trusted ⊢
  obtain ⟨key', mem', trusts⟩ := trusted
  refine ⟨key, mem, ?_⟩
  rcases merge_cases configs with ⟨_, -, -, -, consistent⟩ | ⟨⟨message, refused⟩, -⟩
  · refine trusts_of_equal (consistent key' ?_ key ?_ (trusts.fingerprint.trans asked.symm)) trusts
    · exact List.mem_flatMap.mpr ⟨other, listed', mem'⟩
    · exact List.mem_flatMap.mpr ⟨config, listed, mem⟩
  · rw [refused] at ok
    cases ok

end ModelGuard.Signing
