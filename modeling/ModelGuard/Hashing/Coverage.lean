import ModelGuard.Hashing.Walk

/-!
# Coverage of a directory digest

Which files a digest covers. `os.walk` passes over a directory that it cannot list, so a tree with
such a directory is covered only when hashing raises anyway.
-/

namespace ModelGuard.Hashing

open Lib Lib.Fallible Lib.Node

variable {α : Type}

/-- If hashing returns, the digest lists exactly the regular files of the whole tree, each once. -/
def Covers (sha : Sha256) (disk : Disk α) (root : Node α) : Prop :=
  ∀ d, hashDirectory sha disk root = .ok d →
    d.files = sortFiles ((regularFiles [] root).map (fileDigest sha disk)) ∧ (d.files.map (·.path)).Nodup

/-- A file or symlink added anywhere changes the digest or makes hashing raise. -/
def NoticesAdditions (sha : Sha256) (disk : Disk α) (root : Node α) : Prop :=
  ∀ (name : FileName) (n : Node α) (path : RelPath) (root' : Node α),
    (∃ a, n = .file a) ∨ (∃ t, n = .symlink t) → Added name n path root root' →
    ∀ d d', hashDirectory sha disk root = .ok d → hashDirectory sha disk root' = .ok d' → d'.digest ≠ d.digest

/-- What hashing sees of the tree makes it raise: a symlink, an unreadable file, or no file at all. -/
def Refused (disk : Disk α) (root : Node α) : Prop := ¬Clean disk root ∨ regularFiles [] (seen root) = []

variable {sha : Sha256} {disk : Disk α} {l : Bool} {entries : List (FileName × Node α)}

theorem not_refused_of_ok (distinct : Distinct (.dir l entries)) {d : ArtifactDigest}
    (h : hashDirectory sha disk (.dir l entries) = .ok d) : ¬Refused disk (.dir l entries) := by
  obtain ⟨clean, some, -⟩ := (hashDirectory_ok sha disk distinct).mp h
  exact fun refused => refused.elim (fun dirty => dirty clean) some

theorem covers_of_listable (distinct : Distinct (.dir l entries)) (listable : everywhere isListable (.dir l entries) = true) :
    Covers sha disk (.dir l entries) := by
  intro d h
  obtain ⟨-, -, rfl⟩ := (hashDirectory_ok sha disk distinct).mp h
  have files : (directoryDigest sha (seenFiles sha disk (.dir l entries))).files =
      sortFiles ((regularFiles [] (.dir l entries)).map (fileDigest sha disk)) := by
    rw [directoryDigest, seenFiles, seen_eq_self listable]
  refine ⟨files, ?_⟩
  exact ((sortFiles_perm _).map _).nodup_iff.mpr (seenFiles_nodup sha disk distinct)

/-- Equal digests have equal files. -/
theorem sortFiles_eq_of_digest_eq (injective : Function.Injective sha.hexdigest) {root root' : Node α}
    (h : (directoryDigest sha (seenFiles sha disk root')).digest = (directoryDigest sha (seenFiles sha disk root)).digest) :
    (seenFiles sha disk root').Perm (seenFiles sha disk root) := by
  have same := canonicalManifestBytes_injective seenFiles_wf seenFiles_wf (injective h)
  exact (sortFiles_perm _).symm.trans (same ▸ sortFiles_perm _)

theorem notices_of_listable (injective : Function.Injective sha.hexdigest) (distinct : Distinct (.dir l entries))
    (listable : everywhere isListable (.dir l entries) = true) : NoticesAdditions sha disk (.dir l entries) := by
  intro name n path root' kind added d d' h h' same
  obtain ⟨l', entries', rfl⟩ := added.directory
  have own : everywhere isListable n = true ∧ Distinct n := by
    rcases kind with ⟨a, rfl⟩ | ⟨t, rfl⟩
    · exact ⟨rfl, .file a⟩
    · exact ⟨rfl, .symlink t⟩
  have shown := seen_eq_self (added.listable listable own.1)
  obtain ⟨-, -, rfl⟩ := (hashDirectory_ok sha disk distinct).mp h
  obtain ⟨clean', -, rfl⟩ := (hashDirectory_ok sha disk (added.distinct distinct own.2)).mp h'
  rw [Clean, shown] at clean'
  have hashable := added.everywhere_new clean'
  rcases kind with ⟨a, rfl⟩ | ⟨t, rfl⟩
  · have count := (sortFiles_eq_of_digest_eq injective same).length_eq
    have more := added.regularFiles_length []
    rw [seenFiles, seenFiles, List.length_map, List.length_map, shown, seen_eq_self listable, more] at count
    simp [regularFiles] at count
  · cases hashable

/-- What no listing shows goes unnoticed. -/
theorem unnoticed_of_unlistable (distinct : Distinct (.dir l entries))
    (unlistable : everywhere isListable (.dir l entries) = false) (accepted : ¬Refused disk (.dir l entries)) :
    ¬NoticesAdditions sha disk (.dir l entries) := by
  intro notices
  obtain ⟨name, path, root', added, same⟩ := exists_unseen unlistable (.symlink .missing)
  obtain ⟨l', entries', rfl⟩ := added.directory
  rw [Refused, not_or, not_not] at accepted
  obtain ⟨clean, some⟩ := accepted
  have ok := (hashDirectory_ok sha disk distinct).mpr ⟨clean, some, rfl⟩
  have ok' := (hashDirectory_ok sha disk (added.distinct distinct (.symlink _))).mpr
    ⟨by rw [Clean, same]; exact clean, by rw [same]; exact some, rfl⟩
  refine notices name _ path _ (Or.inr ⟨_, rfl⟩) added _ _ ok ok' ?_
  rw [seenFiles, same, ← seenFiles]

/-- SHA-256 of the byte 0, and of the manifest of one file `a` that holds it. -/
def zeroByteSha : Sha256 := .ofTable
  [([0], str "6e340b9cffb37a989ca544e6bb780a2c78901d3fb33738768511a30617afa01d"),
    (asciiBytes (str ("\x7b\"algorithm\":\"sha256\",\"files\":[\x7b\"path\":\"a\",\"sha256\":" ++
        "\"6e340b9cffb37a989ca544e6bb780a2c78901d3fb33738768511a30617afa01d\",\"size\":1\x7d]\x7d")),
      str "2ce39cf929e4e2908c1581aaca3241c22ef0f936232ee9021c18215d86c67f58")]
  (by
    simp only [List.forall_mem_cons, List.not_mem_nil, false_implies, implies_true, and_true]
    rw [str_ofList, str_ofList]
    decide +kernel)

theorem zeroByteSha_injective : Function.Injective zeroByteSha.hexdigest :=
  ofTable_injective _
    (by
      simp only [List.forall_mem_cons, List.not_mem_nil, false_implies, implies_true, and_true]
      rw [str_ofList, str_ofList]
      decide)
    (by
      simp only [List.map_cons, List.map_nil]
      rw [str_ofList, str_ofList]
      decide)

/-- Every file holds the byte 0 and can be read. -/
def zeroDisk : Disk Unit where
  content _ := [0]
  readable _ := true

theorem fileA_fileName : IsFileName (str "a") := by decide

def fileA : FileName := ⟨str "a", fileA_fileName⟩

def listableTree : Node Unit := .dir true [(fileA, .file ())]

def lockedTree : Node Unit := .dir true [(fileA, .file ()), (⟨str "s", by decide⟩, .dir false [(fileA, .file ())])]

theorem zeroByteSha_manifest :
    zeroByteSha.hexdigest (canonicalManifestBytes [fileDigest zeroByteSha zeroDisk ([fileA], ())]) =
      str "2ce39cf929e4e2908c1581aaca3241c22ef0f936232ee9021c18215d86c67f58" := by
  -- The texts are written out first: evaluation is slow on literals.
  simp only [zeroByteSha, str_append,
    (str_ofList _ : str "6e340b9cffb37a989ca544e6bb780a2c78901d3fb33738768511a30617afa01d" = _),
    (str_ofList _ : str "2ce39cf929e4e2908c1581aaca3241c22ef0f936232ee9021c18215d86c67f58" = _),
    (str_ofList _ : str "\x7b\"algorithm\":\"sha256\",\"files\":[\x7b\"path\":\"a\",\"sha256\":" = _),
    (str_ofList _ : str "\"6e340b9cffb37a989ca544e6bb780a2c78901d3fb33738768511a30617afa01d\",\"size\":1\x7d]\x7d" = _)]
  decide +kernel

end ModelGuard.Hashing
