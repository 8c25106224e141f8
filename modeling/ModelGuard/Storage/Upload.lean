import ModelGuard.Hashing.Walk
import ModelGuard.Lib.Effect
import ModelGuard.Storage.Machine

/-!
# Uploading an artifact

`upload_artifact` into a directory-backed store: the artifact is hashed, and each file and the canonical manifest
are put where they are missing. What returns has left every one of them in the store.
-/

namespace ModelGuard.Storage

open Lib Lib.Prog Lib.Node ModelGuard.Hashing
open LocalBlobStore (blobPath partPath partPath_ne_blobPath set_same set_other)

variable {α : Type}

/-- A path to upload: its text, its last component and what it leads to. -/
structure Source (α : Type) where
  text : Str
  name : FileName
  disk : Disk α
  root : Node.Tree α

/-- The calls of one upload that fail. -/
structure UploadFaults where
  /-- In the `put` of the file with the path. -/
  file : Str → PutFaults
  /-- In making the temporary file for the manifest. -/
  temporary : Option OsError
  manifest : PutFaults

def UploadFaults.none : UploadFaults where
  file _ := PutFaults.none
  temporary := Option.none
  manifest := PutFaults.none

def permissionDenied : OsError := ⟨str "PermissionError", str "[Errno 13] Permission denied"⟩

namespace Source

variable (source : Source α)

def entry : Node α → Entry
  | .file a => .regular (source.disk.content a) (if source.disk.readable a then none else some permissionDenied)
  | .symlink _ => .symlink
  | .dir .. => .directory

/-- What `path / text` leads to. The texts are those of names that were listed. -/
def below (m : Machine) (text : Str) : Option Entry :=
  ((text.splitOn (cp '/')).mapM m.onDisk).bind fun path => (Node.find path source.root).map source.entry

/-- `hash_artifact`. -/
def hashed (m : Machine) : Except Raised ArtifactDigest :=
  match Hashing.hashArtifact m.sha source.disk source.name source.root with
  | .ok d => .ok d
  | .error e => .error (raisedBy m.host source.text e)

end Source

def putInto (sha : Sha256) (pid : Str) (faults : PutFaults) (sha256 : Str) (source : Option Entry) :
    Prog Raised LocalBlobStore Unit := fun store => store.put sha pid faults sha256 source

/-- `_put_if_absent`. -/
def putIfAbsent (sha : Sha256) (pid : Str) (faults : PutFaults) (sha256 : Str) (source : Option Entry) :
    Prog Raised LocalBlobStore Unit := do
  let found ← observe fun store => store.exists sha256
  let present ← ofExcept found
  if present then pure () else putInto sha pid faults sha256 source

/-- The upload of a directory that was hashed. -/
def uploadDirectory (m : Machine) (pid : Str) (faults : UploadFaults) (source : Source α) (digest : ArtifactDigest) :
    Prog Raised LocalBlobStore Unit := do
  forEach (fun entry => putIfAbsent m.sha pid (faults.file entry.path) entry.sha256 (source.below m entry.path)) digest.files
  ofExcept (match faults.temporary with | some e => .error e.raised | none => .ok ())
  putIfAbsent m.sha pid faults.manifest digest.digest (some (.regular (canonicalManifestBytes digest.files) none))

/-- `upload_artifact`. -/
def uploadArtifact (m : Machine) (pid : Str) (faults : UploadFaults) (source : Source α) :
    Prog Raised LocalBlobStore ArtifactDigest := do
  let digest ← ofExcept (source.hashed m)
  match digest.artifactType, digest.files with
  | .file, entry :: _ =>
    putIfAbsent m.sha pid (faults.file entry.path) entry.sha256 (source.root.map source.entry)
    pure digest
  | .file, [] => raise (.external (str "IndexError") (str "tuple index out of range"))
  | .directory, _ => do
    uploadDirectory m pid faults source digest
    pure digest

/-! ### What a `put` that returns has left -/

theorem LocalBlobStore.put_ok {sha : Sha256} {pid : Str} {faults : PutFaults} {store next : LocalBlobStore} {sha256 : Str}
    {source : Option Entry} (returned : store.put sha pid faults sha256 source = (.ok (), next)) :
    IsSha256 sha256 ∧ ∃ content, sha.hexdigest content = sha256 ∧
      next = ((store.set (partPath pid sha256) (some (.regular content none))).set (partPath pid sha256) none).set
        (blobPath sha256) (some (.regular content none)) := by
  unfold LocalBlobStore.put at returned
  cases named : validateSha256 sha256 with
  | error e =>
    rw [named] at returned
    cases returned
  | ok name =>
    rw [named] at returned
    refine ⟨(validateSha256_ok.mp named).1, ?_⟩
    cases mkdir : faults.mkdir with
    | some e =>
      rw [mkdir] at returned
      cases returned
    | none =>
      rw [mkdir] at returned
      dsimp only at returned
      cases published : LocalBlobStore.publish sha pid faults store sha256 source with
      | mk outcome last =>
        rw [published] at returned
        cases outcome with
        | error e =>
          dsimp only at returned
          split at returned <;> cases returned
        | ok u =>
          cases returned
          unfold LocalBlobStore.publish at published
          cases opened : openRegularNofollow source with
          | error e =>
            rw [opened] at published
            cases published
          | ok content =>
            rw [opened] at published
            dsimp only at published
            split at published
            · cases published
            · split at published
              · cases published
              · cases published
              · split at published
                · cases published
                · rename_i hashes
                  split at published
                  · cases published
                  · split at published
                    · cases published
                    · cases published
                      exact ⟨content, not_not.mp hashes, rfl⟩

/-- The blob under the name, if there is one, hashes to it. -/
def Holding (sha : Sha256) (store : LocalBlobStore) (name : Str) : Prop :=
  IsSha256 name ∧ ∃ content, store.entries (blobPath name) = some (.regular content none) ∧ sha.hexdigest content = name

/-- Every blob hashes to its name. -/
def Sealed (sha : Sha256) (store : LocalBlobStore) : Prop :=
  ∀ name, IsSha256 name → store.entries (blobPath name) = none ∨ Holding sha store name

theorem sealed_empty (sha : Sha256) : Sealed sha .empty := fun _ _ => .inl rfl

/-- What one call keeps. -/
def Kept (sha : Sha256) (before after : LocalBlobStore) : Prop :=
  Sealed sha after ∧ ∀ name, Holding sha before name → Holding sha after name

section Put

variable {sha : Sha256} {pid : Str} {faults : PutFaults} {store : LocalBlobStore} {sha256 : Str} {source : Option Entry}

theorem put_keeps {next : LocalBlobStore} (sealed : Sealed sha store)
    (returned : store.put sha pid faults sha256 source = (.ok (), next)) : Kept sha store next ∧ Holding sha next sha256 := by
  obtain ⟨valid, content, hashes, same⟩ := LocalBlobStore.put_ok returned
  have own : next.entries (blobPath sha256) = some (.regular content none) := by
    rw [same]
    exact set_same _ _ _
  have holding : Holding sha next sha256 := ⟨valid, content, own, hashes⟩
  have other {name : Str} (named : IsSha256 name) (ne : name ≠ sha256) :
      next.entries (blobPath name) = store.entries (blobPath name) := by
    have apart : blobPath name ≠ blobPath sha256 := fun paths => ne (LocalBlobStore.blobPath_injective paths)
    have part := (partPath_ne_blobPath pid sha256 named).symm
    rw [same, set_other apart, set_other part, set_other part]
  have kept (name : Str) (before : Holding sha store name) : Holding sha next name := by
    by_cases ne : name = sha256
    · exact ne ▸ holding
    · obtain ⟨named, c, entry, digest⟩ := before
      exact ⟨named, c, (other named ne).trans entry, digest⟩
  refine ⟨⟨fun name named => ?_, kept⟩, holding⟩
  by_cases ne : name = sha256
  · exact .inr (ne ▸ holding)
  · rcases sealed name named with absent | before
    · exact .inl ((other named ne).trans absent)
    · exact .inr (kept name before)

theorem putIfAbsent_ends (sealed : Sealed sha store) :
    Ends (putIfAbsent sha pid faults sha256 source) store
      (fun _ next => Kept sha store next ∧ Holding sha next sha256) fun _ _ => True := by
  unfold putIfAbsent
  rw [ends_observe_bind]
  refine ends_ofExcept_bind (fun present found => ?_) fun _ _ => trivial
  unfold LocalBlobStore.exists at found
  obtain ⟨name, named, there⟩ := Fallible.bind_ok.mp found
  obtain ⟨valid, same⟩ := validateSha256_ok.mp named
  subst same
  cases present with
  | true =>
    rw [if_pos rfl, ends_pure]
    refine ⟨⟨sealed, fun _ before => before⟩, ?_⟩
    rcases sealed name valid with absent | before
    · rw [absent] at there
      cases there
    · exact before
  | false =>
    rw [if_neg Bool.false_ne_true]
    refine ends_iff.mpr ⟨fun _ next returned => put_keeps sealed returned, fun _ _ _ => trivial⟩

end Put

/-! ### What an upload that returns has left -/

section Upload

variable {m : Machine} {pid : Str} {faults : UploadFaults} {source : Source α} {store : LocalBlobStore}

/-- The loop over the files. -/
theorem putFiles_ends {files : List FileDigest} (sealed : Sealed m.sha store) :
    Ends (forEach (fun entry => putIfAbsent m.sha pid (faults.file entry.path) entry.sha256 (source.below m entry.path)) files)
      store (fun _ next => Kept m.sha store next ∧ ∀ f ∈ files, Holding m.sha next f.sha256) fun _ _ => True := by
  induction files generalizing store with
  | nil => exact ⟨⟨sealed, fun _ before => before⟩, fun _ mem => (List.not_mem_nil mem).elim⟩
  | cons entry files ih =>
    unfold forEach
    refine ends_bind (putIfAbsent_ends sealed) fun _ next first => ?_
    obtain ⟨kept, own⟩ := first
    refine (ih kept.1).mono (fun _ last rest => ?_) fun _ _ _ => trivial
    obtain ⟨still, held⟩ := rest
    exact ⟨⟨still.1, fun name before => still.2 name (kept.2 name before)⟩,
      List.forall_mem_cons.mpr ⟨still.2 _ own, held⟩⟩

theorem uploadDirectory_ends {digest : ArtifactDigest} (sealed : Sealed m.sha store) :
    Ends (uploadDirectory m pid faults source digest) store
      (fun _ next => Sealed m.sha next ∧ Holding m.sha next digest.digest ∧ ∀ f ∈ digest.files, Holding m.sha next f.sha256)
      fun _ _ => True := by
  unfold uploadDirectory
  refine ends_bind (putFiles_ends sealed) fun _ next placed => ?_
  obtain ⟨kept, held⟩ := placed
  refine ends_ofExcept_bind (fun _ _ => ?_) fun _ _ => trivial
  refine (putIfAbsent_ends kept.1).mono (fun _ last published => ?_) fun _ _ _ => trivial
  obtain ⟨still, own⟩ := published
  exact ⟨still.1, own, fun f mem => still.2 _ (held f mem)⟩

/-- The digest is that of the source, and a directory's blobs are all in the store. -/
theorem uploadArtifact_ends (sealed : Sealed m.sha store) :
    Ends (uploadArtifact m pid faults source) store
      (fun digest next => source.hashed m = .ok digest ∧ Sealed m.sha next ∧
        (digest.artifactType = .directory →
          Holding m.sha next digest.digest ∧ ∀ f ∈ digest.files, Holding m.sha next f.sha256)) fun _ _ => True := by
  unfold uploadArtifact
  refine ends_ofExcept_bind (fun digest hashed => ?_) fun _ _ => trivial
  split
  · rename_i entry rest kind files
    refine ends_bind (putIfAbsent_ends sealed) fun _ next put => ?_
    refine ⟨hashed, put.1.1, fun directory => ?_⟩
    rw [kind] at directory
    cases directory
  · exact trivial
  · refine ends_bind (uploadDirectory_ends sealed) fun _ next put => ?_
    exact ⟨hashed, put.1, fun _ => put.2⟩

end Upload

end ModelGuard.Storage
