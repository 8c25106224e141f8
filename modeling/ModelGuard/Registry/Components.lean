import ModelGuard.Lib.FsEncoding
import ModelGuard.Registry.WriteFaults

/-!
# Identifiers as names of files

Validation counts characters; a file system counts octets, and the record file has a suffix.
-/

namespace ModelGuard.Registry

open Lib LocalStore

variable {nfc : Str → Str} {value : Str}

/-- What validation keeps out of a name. -/
theorem Valid.plain (h : Valid nfc value) :
    value ≠ [] ∧ value ≠ str "." ∧ value ≠ str ".." ∧ cp '/' ∉ value ∧ cp '\x00' ∉ value := by
  unfold Valid problem at h
  split at h
  · cases h
  · rename_i shown
    split at h
    · cases h
    · split at h
      · cases h
      · rename_i dots
        split at h
        · cases h
        · rename_i separators
          split at h
          · cases h
          · rename_i controls
            refine ⟨?_, ?_, ?_, fun slash => separators (Or.inl slash), ?_⟩
            · intro empty
              exact shown (List.isEmpty_iff.mpr empty)
            · intro same
              exact dots (same ▸ List.mem_cons_self)
            · intro same
              exact dots (same ▸ List.mem_cons_of_mem _ (List.mem_singleton_self _))
            · intro null
              exact controls (List.any_eq_true.mpr ⟨_, null, by decide⟩)

/-- A valid name is a directory's name when its octets fit. -/
theorem legal_directory_iff (h : Valid nfc value) : LegalComponent value ↔ FsEncodable value ∧ fsLength value ≤ 255 := by
  rw [legalComponent_iff]
  exact and_iff_right h.plain

/-- The suffix takes five octets of its own. -/
theorem legal_recordFile_iff (h : Valid nfc value) :
    LegalComponent (value ++ recordSuffix) ↔ FsEncodable value ∧ fsLength value ≤ 250 := by
  obtain ⟨-, -, -, slash, null⟩ := h.plain
  have ascii : Ascii recordSuffix := by decide
  have suffix : recordSuffix.length = 5 := by decide
  have long : ∀ t : Str, t.length < 5 → value ++ recordSuffix ≠ t := by
    intro t short same
    have size := congrArg List.length same
    rw [List.length_append, suffix] at size
    omega
  have shown : value ++ recordSuffix ≠ [] ∧ value ++ recordSuffix ≠ str "." ∧ value ++ recordSuffix ≠ str ".." ∧
      cp '/' ∉ value ++ recordSuffix ∧ cp '\x00' ∉ value ++ recordSuffix := by
    refine ⟨long _ (by decide), long _ (by decide), long _ (by decide), ?_, ?_⟩
    · rw [List.mem_append, not_or]
      exact ⟨slash, by decide⟩
    · rw [List.mem_append, not_or]
      exact ⟨null, by decide⟩
  rw [legalComponent_iff, fsEncodable_append, fsLength_append, fsLength_ascii ascii, suffix, and_iff_right shown,
    and_iff_left (fsEncodable_ascii ascii)]
  apply and_congr_right
  intro _
  omega

/-- Accepted identifiers give legal names of files exactly when their octets fit. -/
theorem components_legal_iff (env : RegistryEnv) (modelId version : Str) (accepted : Valid env.nfc modelId)
    (accepted' : Valid env.nfc version) :
    ∃ dir file, versionPath env modelId version = .ok (dir, file) ∧
      ((LegalComponent dir ∧ LegalComponent file) ↔
        (FsEncodable modelId ∧ fsLength modelId ≤ 255) ∧ FsEncodable version ∧ fsLength version ≤ 250) := by
  refine ⟨modelId, version ++ recordSuffix, versionPath_ok.mpr ⟨⟨accepted, accepted'⟩, rfl⟩, ?_⟩
  rw [legal_directory_iff accepted, legal_recordFile_iff accepted']

theorem demo_components_legal :
    ∃ dir file, versionPath (sampleEnv noSha) (str "demo") (str "1.0") = .ok (dir, file) ∧
      ((LegalComponent dir ∧ LegalComponent file) ↔
        (FsEncodable (str "demo") ∧ fsLength (str "demo") ≤ 255) ∧ FsEncodable (str "1.0") ∧ fsLength (str "1.0") ≤ 250) :=
  components_legal_iff (sampleEnv noSha) (str "demo") (str "1.0") (by decide) (by decide)

/-- U+00E9, which NFC leaves alone, 128 times. -/
def accentedName : Str := List.replicate 128 (cp 'é')

theorem accented_name_accepted_and_too_long :
    validateIdentifier (sampleEnv noSha).nfc (sampleEnv noSha).host "model_id" accentedName = .ok accentedName ∧
      validateIdentifier (sampleEnv noSha).nfc (sampleEnv noSha).host "version" (str "1.0") = .ok (str "1.0") ∧
      ∃ file, versionPath (sampleEnv noSha) accentedName (str "1.0") = .ok (accentedName, file) ∧
        ¬ LegalComponent accentedName := by
  have valid : Valid (sampleEnv noSha).nfc accentedName := by decide +kernel
  have version : Valid (sampleEnv noSha).nfc (str "1.0") := by decide
  refine ⟨validateIdentifier_valid valid, validateIdentifier_valid version, _,
    versionPath_ok.mpr ⟨⟨valid, version⟩, rfl⟩, ?_⟩
  rw [legal_directory_iff valid]
  intro ⟨_, short⟩
  exact absurd short (by decide +kernel)

end ModelGuard.Registry
