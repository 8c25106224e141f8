import ModelGuard.Storage.Local
import ModelGuard.Storage.S3

/-!
# What a refused `put` leaves

The directory checks the bytes before it publishes them, the bucket after it has overwritten the object.
-/

namespace ModelGuard.Storage

open Lib Lib.Fallible

variable {sha : Sha256}

/-- `put` raised because the bytes do not hash to the name. -/
def Refused (result : Except Raised Unit) : Prop := ∃ message, result = .error (.modelGuard .artifactIntegrityError message)

/-! ### The directory -/

theorem LocalBlobStore.publish_refused {pid : Str} {faults : PutFaults} {store : LocalBlobStore} {sha256 : Str}
    {source : Option Entry} (refused : Refused (publish sha pid faults store sha256 source).1) :
    store.entries (partPath pid sha256) = none ∧
      ∃ content, (publish sha pid faults store sha256 source).2 =
        store.set (partPath pid sha256) (some (.regular content none)) := by
  obtain ⟨message, raised⟩ := refused
  unfold publish at raised ⊢
  cases opened : openRegularNofollow source with
  | error e =>
    rw [opened] at raised
    have same := Except.error.inj raised
    unfold openRegularNofollow at opened
    split at opened
    all_goals cases opened
    all_goals cases same
  | ok content =>
    rw [opened] at raised
    dsimp only at raised ⊢
    by_cases present : (store.entries (partPath pid sha256)).isSome
    · rw [if_pos present] at raised
      cases raised
    · rw [if_neg present] at raised ⊢
      refine ⟨Option.not_isSome_iff_eq_none.mp present, content, ?_⟩
      split at raised
      · cases raised
      · cases raised
      · split at raised
        · rename_i mismatch
          rw [if_pos mismatch]
        · split at raised
          · cases raised
          · split at raised <;> cases raised

/-- A refused `put` leaves every file of the directory as it was. -/
theorem LocalBlobStore.put_refused {pid : Str} {faults : PutFaults} {store : LocalBlobStore} {sha256 : Str}
    {source : Option Entry} (refused : Refused (put sha pid faults store sha256 source).1) :
    (put sha pid faults store sha256 source).2 = store := by
  obtain ⟨message, raised⟩ := refused
  unfold put at raised ⊢
  cases named : validateSha256 sha256 with
  | error e => rfl
  | ok name =>
    cases mkdir : faults.mkdir with
    | some e => rfl
    | none =>
      rw [named, mkdir] at raised
      dsimp only at raised ⊢
      cases published : publish sha pid faults store sha256 source with
      | mk result next =>
        rw [published] at raised
        cases result with
        | ok _ => cases raised
        | error e =>
          dsimp only at raised ⊢
          cases unlink : faults.unlink with
          | some fault =>
            rw [unlink] at raised
            cases raised
          | none =>
            rw [unlink] at raised
            have refused : Refused (publish sha pid faults store sha256 source).1 := ⟨message, by rw [published]; exact raised⟩
            obtain ⟨absent, content, copied⟩ := publish_refused refused
            rw [published] at copied
            dsimp only at copied ⊢
            rw [copied, set_undo absent]

/-! ### The bucket -/

/-- The bytes are uploaded under a name that they do not hash to. -/
structure S3BlobStore.UploadsMismatch (sha : Sha256) (upload : Reply) (sha256 : Str) (source : Option Entry)
    (content : Bytes) : Prop where
  name : IsSha256 sha256
  opened : openRegularNofollow source = .ok content
  uploaded : upload.raised = none
  mismatch : sha.hexdigest content ≠ sha256

theorem S3BlobStore.put_mismatch {upload : Reply} (delete : Reply) (store : S3BlobStore) {sha256 : Str}
    {source : Option Entry} {content : Bytes} (h : UploadsMismatch sha upload sha256 source content) :
    put sha upload delete store sha256 source =
      (.error discardedUpload,
        (store.request upload (store.key sha256) (some content)).request delete (store.key sha256) none) := by
  have named : validateSha256 sha256 = .ok sha256 := validateSha256_ok.mpr ⟨h.name, rfl⟩
  unfold put
  rw [named, h.opened]
  dsimp only
  rw [h.uploaded]
  dsimp only
  rw [if_pos h.mismatch]

theorem S3BlobStore.put_refused_iff {upload delete : Reply} {store : S3BlobStore} {sha256 : Str} {source : Option Entry} :
    Refused (put sha upload delete store sha256 source).1 ↔ ∃ content, UploadsMismatch sha upload sha256 source content := by
  constructor
  · intro ⟨message, raised⟩
    unfold put at raised
    cases named : validateSha256 sha256 with
    | error e =>
      rw [named] at raised
      have same : e = .modelGuard .artifactIntegrityError message := Except.error.inj raised
      unfold validateSha256 at named
      split at named
      · cases named
      · rw [← Except.error.inj named] at same
        cases same
    | ok name =>
      cases opened : openRegularNofollow source with
      | error e =>
        rw [named, opened] at raised
        have same : e = .modelGuard .artifactIntegrityError message := Except.error.inj raised
        unfold openRegularNofollow at opened
        split at opened
        all_goals cases opened
        all_goals cases same
      | ok content =>
        rw [named, opened] at raised
        dsimp only at raised
        split at raised
        · exact absurd (Except.error.inj raised) (translate_ne_integrity _ _ _)
        · rename_i uploaded
          split at raised
          · rename_i mismatch
            exact ⟨content, (validateSha256_ok.mp named).1, opened, uploaded, mismatch⟩
          · cases raised
  · intro ⟨content, h⟩
    rw [put_mismatch delete store h]
    exact ⟨_, rfl⟩

/-- What a discarded upload leaves under the names. -/
theorem S3BlobStore.put_mismatch_blob {upload delete : Reply} {store : S3BlobStore} {sha256 : Str}
    {source : Option Entry} {content : Bytes} (h : UploadsMismatch sha upload sha256 source content) {name : Str}
    (size : name.length = 64) :
    (put sha upload delete store sha256 source).2.blob name =
      if name = sha256 then (if delete.applied then none else some content) else store.blob name := by
  rw [put_mismatch delete store h]
  unfold blob
  dsimp only
  rw [key_request, key_request]
  by_cases same : name = sha256
  · subst same
    rw [if_pos rfl, request_same, request_same, upload.carriedOut h.uploaded, if_pos rfl]
  · have apart : store.key name ≠ store.key sha256 := fun keys => same (key_injective store size h.name.1 keys)
    rw [if_neg same, request_other apart, request_other apart]

/-- What a discarded upload must have met for no name to change. -/
def S3BlobStore.Spared (store : S3BlobStore) (delete : Reply) (sha256 : Str) (content : Bytes) : Prop :=
  if delete.applied then store.blob sha256 = none else store.blob sha256 = some content

theorem S3BlobStore.put_mismatch_unchanged_iff {upload delete : Reply} {store : S3BlobStore} {sha256 : Str}
    {source : Option Entry} {content : Bytes} (h : UploadsMismatch sha upload sha256 source content) :
    (∀ name, IsSha256 name → (put sha upload delete store sha256 source).2.blob name = store.blob name) ↔
      store.Spared delete sha256 content := by
  constructor
  · intro unchanged
    have own := unchanged sha256 h.name
    rw [put_mismatch_blob h h.name.1, if_pos rfl] at own
    unfold Spared
    split
    · rename_i applied
      rw [if_pos applied] at own
      exact own.symm
    · rename_i kept
      rw [if_neg kept] at own
      exact own.symm
  · intro spared name valid
    rw [put_mismatch_blob h valid.1]
    split
    · rename_i same
      subst same
      unfold Spared at spared
      split
      · rename_i applied
        rw [if_pos applied] at spared
        exact spared.symm
      · rename_i kept
        rw [if_neg kept] at spared
        exact spared.symm
    · rfl

/-- A refused `put` changes no name of the directory, and none of the bucket exactly when the name it was
called with maps to what the requests leave there. -/
theorem refused_put_unchanged_iff (sha : Sha256) :
    (∀ pid faults store sha256 source, Refused (LocalBlobStore.put sha pid faults store sha256 source).1 →
      ∀ name, IsSha256 name → (LocalBlobStore.put sha pid faults store sha256 source).2.blob name = store.blob name) ∧
    ∀ upload delete store sha256 source,
      (Refused (S3BlobStore.put sha upload delete store sha256 source).1 →
        ∀ name, IsSha256 name → (S3BlobStore.put sha upload delete store sha256 source).2.blob name = store.blob name) ↔
      ∀ content, S3BlobStore.UploadsMismatch sha upload sha256 source content → store.Spared delete sha256 content := by
  constructor
  · intro pid faults store sha256 source refused name _
    rw [LocalBlobStore.put_refused refused]
  · intro upload delete store sha256 source
    constructor
    · intro unchanged content h
      exact (S3BlobStore.put_mismatch_unchanged_iff h).mp (unchanged (S3BlobStore.put_refused_iff.mpr ⟨content, h⟩))
    · intro spared refused
      obtain ⟨content, h⟩ := S3BlobStore.put_refused_iff.mp refused
      exact (S3BlobStore.put_mismatch_unchanged_iff h).mpr (spared content h)

/-- The SHA-256 of no bytes. -/
def emptySha256 : Str := str "e3b0c44298fc1c149afbf4c8996fb92427ae41e4649b934ca495991b7852b855"

/-- The SHA-256 of `x`. -/
def letterSha256 : Str := str "2d711642b726b04401627ca9fbac32f5c8530fb1903cc4db02258717921a4881"

def sampleSha256 : Sha256 := .ofTable [([], emptySha256), ([0x78], letterSha256)] (by
  unfold emptySha256 letterSha256
  rw [str_ofList, str_ofList]
  decide +kernel)

/-- A bucket that holds the empty blob. -/
def sampleBucket : S3BlobStore := S3BlobStore.set ⟨[], fun _ => none⟩ (S3BlobStore.key ⟨[], fun _ => none⟩ emptySha256) (some [])

/-- A `put` of other bytes under the name of a stored blob, all requests carried out, removes the blob. -/
theorem refused_put_removes_blob :
    ¬(Refused (S3BlobStore.put sampleSha256 .ok .ok sampleBucket emptySha256 (some (.regular [0x78] none))).1 →
      ∀ name, IsSha256 name →
        (S3BlobStore.put sampleSha256 .ok .ok sampleBucket emptySha256 (some (.regular [0x78] none))).2.blob name =
          sampleBucket.blob name) := by
  have valid : IsSha256 emptySha256 := by decide +kernel
  have mismatch : S3BlobStore.UploadsMismatch sampleSha256 .ok emptySha256 (some (.regular [0x78] none)) [0x78] := by
    refine ⟨valid, rfl, rfl, ?_⟩
    decide +kernel
  intro unchanged
  have own := unchanged (S3BlobStore.put_refused_iff.mpr ⟨_, mismatch⟩) emptySha256 valid
  have stored : sampleBucket.blob emptySha256 = some [] := S3BlobStore.blob_set_same _ _ _
  rw [S3BlobStore.put_mismatch_blob mismatch valid.1, if_pos rfl, stored] at own
  cases own

end ModelGuard.Storage
