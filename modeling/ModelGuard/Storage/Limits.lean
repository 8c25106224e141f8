import ModelGuard.Lib.TreeWeight
import ModelGuard.Storage.AllOrNothing
import ModelGuard.Storage.Rebuilt

/-!
# The limits of a download

On any machine, what a download leaves at its destination is within the limits that it was given.
-/

namespace ModelGuard.Storage

open Lib Lib.Prog Lib.Node ModelGuard.Hashing
open LocalBlobStore (blobPath)

/-- What the files at a place come to. -/
def World.weigh (f : Bytes → Nat) (w : World) (spot : Spot) : Nat := Node.weigh f (w.find spot)

section Worlds

variable {f : Bytes → Nat} {w w' : World}

theorem weigh_of_contents (same : w'.contents = w.contents) (spot : Spot) : w'.weigh f spot = w.weigh f spot := by
  unfold World.weigh
  rw [find_of_contents same]

theorem weigh_put_le (base spot : Spot) (n : Node.Tree Bytes) : (w.put spot n).weigh f base ≤ w.weigh f base + Node.weigh f n := by
  unfold World.weigh World.find World.put
  by_cases side : base.temporary = spot.temporary
  · rw [side, World.side_setSide]
    exact weigh_find_graft_le base.path spot.path n _
  · have other : base.temporary = !spot.temporary := (Bool.not_eq.mpr (Ne.symm side)).symm
    rw [other, World.side_setSide_not]
    exact Nat.le_add_right _ _

theorem weigh_put_same_le (spot : Spot) (n : Node.Tree Bytes) : (w.put spot n).weigh f spot ≤ Node.weigh f n := by
  unfold World.weigh World.find World.put
  rw [World.side_setSide]
  exact weigh_find_graft_same_le spot.path n _

end Worlds

/-! ### Steps that add no file -/

/-- The files at `base` come to no more afterwards. -/
def NoHeavier (f : Bytes → Nat) (base : Spot) (before after : World) : Prop := after.weigh f base ≤ before.weigh f base

section Steps

variable {m : Machine} {f : Bytes → Nat} {base : Spot} {w : World}

theorem noHeavier_refl (f : Bytes → Nat) (base : Spot) (w : World) : NoHeavier f base w w := le_refl _

theorem noHeavier_trans (f : Bytes → Nat) (base : Spot) (w w' w'' : World) (first : NoHeavier f base w w')
    (second : NoHeavier f base w' w'') : NoHeavier f base w w'' := le_trans second first

theorem noHeavier_call (c : SystemCall) : Moves (NoHeavier f base) (m.call c) := by
  intro w
  apply (call_ends c w).mono
  · intro _ w' ticked
    rw [ticked]
    exact noHeavier_refl f base w
  · intro _ w' ticked
    rw [ticked]
    exact noHeavier_refl f base w

theorem noHeavier_mkdirAt (spot : Spot) : Moves (NoHeavier f base) (m.mkdirAt spot) := by
  unfold Machine.mkdirAt
  apply moves_bind (noHeavier_trans f base) (noHeavier_call _)
  intro _ w
  apply (place_ends spot _ w).mono
  · intro _ w' made
    rw [made.1]
    exact weigh_put_le base spot _
  · intro _ w' same
    rw [same]
    exact noHeavier_refl f base w

theorem noHeavier_ensureDir (spot : Spot) (error : OsError) : Moves (NoHeavier f base) (m.ensureDir spot error) := by
  intro w
  unfold Machine.ensureDir Ends
  dsimp only
  cases w.find spot with
  | none => exact noHeavier_mkdirAt spot w
  | some n => cases n <;> exact noHeavier_refl f base w

theorem noHeavier_mkdirsFrom (temporary : Bool) (done rest : RelPath) :
    Moves (NoHeavier f base) (m.mkdirsFrom temporary done rest) := by
  induction rest generalizing done with
  | nil =>
    unfold Machine.mkdirsFrom
    exact noHeavier_ensureDir _ _
  | cons name rest ih =>
    unfold Machine.mkdirsFrom
    exact moves_bind (noHeavier_trans f base) (noHeavier_ensureDir _ _) fun _ => ih (done ++ [name])

theorem noHeavier_mkdirs (p : Place) : Moves (NoHeavier f base) (m.mkdirs p) := by
  unfold Machine.mkdirs
  exact moves_ofExcept_bind (noHeavier_refl f base) fun spot _ => noHeavier_mkdirsFrom _ _ _

theorem noHeavier_resolve (p : Place) : Moves (NoHeavier f base) (m.resolve p) := by
  unfold Machine.resolve
  apply moves_ofExcept_bind (noHeavier_refl f base)
  intro spot _
  exact moves_bind (noHeavier_trans f base) (noHeavier_call _) fun _ => moves_pure (noHeavier_refl f base) p

theorem noHeavier_size (p : Place) : Moves (NoHeavier f base) (m.size p) := by
  unfold Machine.size
  apply moves_ofExcept_bind (noHeavier_refl f base)
  intro spot _
  apply moves_bind (noHeavier_trans f base) (noHeavier_call _)
  intro _
  apply moves_bind (noHeavier_trans f base) (moves_observe (noHeavier_refl f base) _)
  intro found
  split
  · exact moves_raise (noHeavier_refl f base) _
  · exact moves_pure (noHeavier_refl f base) _
  · exact moves_pure (noHeavier_refl f base) _

end Steps

/-! ### One blob -/

section Blob

variable {m : Machine} {w : World}

/-- One file was put at the destination, within the limit. -/
def Puts (m : Machine) (dest : Place) (maxBytes : Int) (before after : World) : Prop :=
  ∃ spot content, m.locate dest = .ok spot ∧ (content.length : Int) ≤ maxBytes ∧
    after.contents = (before.put spot (some (.file content))).contents

theorem writeVerified_puts {stream : Stream} {dest : Place} {expected : Str} {maxBytes : Int} (nonneg : 0 ≤ maxBytes) :
    Ends (m.writeVerified stream dest expected maxBytes) w (fun _ w' => Puts m dest maxBytes w w') fun _ _ => True := by
  apply writeVerified_ends.mono _ fun _ _ _ => trivial
  intro _ w' ⟨spot, located, _, wrote⟩
  refine ⟨spot, stream.chunks.flatten, located, ?_, wrote.contents⟩
  rcases wrote.within with none | within
  · rw [none]
    exact nonneg
  · exact within

theorem getTo_puts {backend : Backend} {name : Str} {dest : Place} {maxBytes : Int} (nonneg : 0 ≤ maxBytes) :
    Ends ((backend.blobStore m).getTo name dest maxBytes) w (fun _ w' => Puts m dest maxBytes w w') fun _ _ => True := by
  cases backend with
  | localStore blobs reader =>
    show Ends (blobs.getTo reader m name dest maxBytes) w _ _
    unfold LocalBlobStore.getTo
    apply ends_ofExcept_bind _ fun _ _ => trivial
    intro sha _
    dsimp only
    have body : Ends (do
          let content ← ofExcept (openRegularNofollow (blobs.entries (blobPath sha)))
          m.writeVerified (reader.stream content) dest sha maxBytes) w
        (fun _ w' => Puts m dest maxBytes w w') fun _ _ => True :=
      ends_ofExcept_bind (fun _ _ => writeVerified_puts nonneg) fun _ _ => trivial
    exact ends_onError body fun _ _ _ => trivial
  | s3 answers =>
    show Ends (s3GetTo answers m name dest maxBytes) w _ _
    unfold s3GetTo
    apply ends_ofExcept_bind _ fun _ _ => trivial
    intro sha _
    rw [ends_observe_bind]
    split
    · exact trivial
    · split
      · exact trivial
      · split
        · exact trivial
        · exact writeVerified_puts nonneg

theorem Puts.weigh_le {dest : Place} {size k : Nat} {w' : World} {f : Bytes → Nat} (puts : Puts m dest size w w')
    (bound : ∀ content : Bytes, content.length ≤ size → f content ≤ k) (base : Spot) :
    w'.weigh f base ≤ w.weigh f base + k := by
  obtain ⟨spot, content, -, small, contents⟩ := puts
  rw [weigh_of_contents contents]
  apply (weigh_put_le base spot _).trans
  rw [weigh_file]
  exact Nat.add_le_add_left (bound content (by exact_mod_cast small)) _

/-- What is fetched to a place is what is there. -/
theorem Puts.weigh_there {dest : Place} {size : Int} {w' : World} {f : Bytes → Nat} {k : Int} (puts : Puts m dest size w w')
    (bound : ∀ content : Bytes, (content.length : Int) ≤ size → (f content : Int) ≤ k) {spot : Spot}
    (located : m.locate dest = .ok spot) : (w'.weigh f spot : Int) ≤ k := by
  obtain ⟨spot', content, there, small, contents⟩ := puts
  have same := Except.ok.inj (located.symm.trans there)
  subst same
  rw [weigh_of_contents contents]
  have one : (w.put spot (some (.file content))).weigh f spot ≤ f content := by
    apply (weigh_put_same_le spot _).trans
    rw [weigh_file]
  exact (Int.ofNat_le.mpr one).trans (bound content small)

end Blob

/-! ### A directory -/

section Directory

variable {m : Machine} {w : World} {backend : Backend} {f : Bytes → Nat}

theorem placeFile_weighs {staging root : Place} {entry : FileDigest} {k : Nat} (base : Spot)
    (bound : ∀ content : Bytes, content.length ≤ entry.size → f content ≤ k) :
    Ends (placeFile m.fileSystem (backend.blobStore m) m.host staging root entry) w
      (fun _ w' => w'.weigh f base ≤ w.weigh f base + k) fun _ _ => True := by
  have partly {α : Type} {x : Prog Raised World α} (moves : Moves (NoHeavier f base) x) (w : World) :
      Ends x w (fun _ w' => NoHeavier f base w w') fun _ _ => True := (moves w).mono (fun _ _ h => h) fun _ _ _ => trivial
  unfold placeFile
  apply ends_bind (partly (noHeavier_resolve _) w)
  intro resolved w₁ first
  split
  · apply ends_bind (partly (noHeavier_mkdirs _) w₁)
    intro _ w₂ second
    apply ends_bind (getTo_puts (Int.natCast_nonneg entry.size))
    intro _ w₃ puts
    apply ends_bind (partly (noHeavier_size _) w₃)
    intro size w₄ last
    split
    · have fetched := puts.weigh_le bound base
      unfold NoHeavier at first second last
      rw [ends_pure]
      omega
    · exact trivial
  · exact trivial

theorem placeFiles_weigh {staging root : Place} {files : List FileDigest} {g : FileDigest → Nat} (base : Spot)
    (bound : ∀ entry content, (content : Bytes).length ≤ entry.size → f content ≤ g entry) :
    Ends (forEach (placeFile m.fileSystem (backend.blobStore m) m.host staging root) files) w
      (fun _ w' => w'.weigh f base ≤ w.weigh f base + (files.map g).sum) fun _ _ => True := by
  induction files generalizing w with
  | nil => exact le_refl _
  | cons entry files ih =>
    unfold forEach
    apply ends_bind (placeFile_weighs base (bound entry))
    intro _ w₁ first
    apply ih.mono _ fun _ _ _ => trivial
    intro _ w₂ rest
    rw [List.map_cons, List.sum_cons]
    omega

theorem buildTree_weighs {staging dest : Place} {files : List FileDigest} {g : FileDigest → Nat} {base : Spot}
    (located : m.locate staging = .ok base)
    (bound : ∀ entry content, (content : Bytes).length ≤ entry.size → f content ≤ g entry) :
    Ends (buildTree m.fileSystem (backend.blobStore m) m.host staging dest files) w
      (fun _ w' => ∀ spot, m.locate dest = .ok spot → w'.weigh f spot ≤ w.weigh f base + (files.map g).sum)
      fun _ _ => True := by
  unfold buildTree
  have resolved : Ends (m.resolve staging) w (fun _ w' => NoHeavier f base w w') fun _ _ => True :=
    (noHeavier_resolve staging w).mono (fun _ _ h => h) fun _ _ _ => trivial
  apply ends_bind resolved
  intro root w₁ first
  apply ends_bind (placeFiles_weigh base bound)
  intro _ w₂ placed
  show Ends (m.rename staging dest) w₂ _ _
  unfold Machine.rename
  rw [located, ofExcept_ok_bind]
  apply ends_ofExcept_bind _ fun _ _ => trivial
  intro spot there
  apply ends_bind ((call_ends _ w₂).mono (fun _ _ h => h) fun _ _ _ => trivial)
  intro _ w₃ ticked
  subst ticked
  apply (move_ends base spot w₂.tick).mono _ fun _ _ _ => trivial
  intro _ w' ⟨n, found, same⟩ spot' there'
  have one := Except.ok.inj (there.symm.trans there')
  subst one same
  have moved : ((w₂.tick.put base none).put spot (some n)).weigh f spot ≤ w₂.tick.weigh f base := by
    apply (weigh_put_same_le spot _).trans
    unfold World.weigh
    rw [found]
  have still : w₂.tick.weigh f base = w₂.weigh f base := weigh_of_contents (contents_tick w₂) base
  unfold NoHeavier at first
  omega

theorem materialize_weighs {dest : Place} {files : List FileDigest} {g : FileDigest → Nat}
    (bound : ∀ entry content, (content : Bytes).length ≤ entry.size → f content ≤ g entry) :
    Ends (materialize m.fileSystem (backend.blobStore m) m.host dest files) w
      (fun _ w' => ∀ spot, m.locate dest = .ok spot → w'.weigh f spot ≤ (files.map g).sum) fun _ _ => True := by
  unfold materialize
  apply ends_bind_partial
  intro hex w₁
  have made (p : Place) : Ends (m.mkdir p) w₁
      (fun _ w' => ∃ base, m.locate p = .ok base ∧ w'.weigh f base = 0) fun _ _ => True := by
    unfold Machine.mkdir Machine.mkdirAt
    apply ends_ofExcept_bind _ fun _ _ => trivial
    intro base located
    apply ends_bind_partial
    intro _ w₂
    apply (place_ends base _ w₂).mono _ fun _ _ _ => trivial
    intro _ w' created
    rw [created.1]
    exact ⟨base, located, Nat.le_zero.mp (weigh_put_same_le base _)⟩
  apply ends_bind (made _)
  intro _ w₂ ⟨base, located, empty⟩
  apply ends_onError (buildTree_weighs located bound |>.mono _ fun _ _ h => h)
  · intro e w₃ _
    exact ends_bind_partial fun _ _ => trivial
  · intro _ w₃ built spot there
    have weight := built spot there
    omega

theorem readManifest_hashes {sha : Sha256} {host : Host} {maxFiles maxTotalBytes : Int} {expected : Str} {raw : Bytes}
    {files : List FileDigest} (read : readManifest sha host maxFiles maxTotalBytes expected raw = .ok files) :
    sha.hexdigest raw = expected := by
  unfold readManifest at read
  obtain ⟨parsed, _, ok⟩ := Fallible.bind_ok.mp read
  split at ok
  · cases ok
  · rename_i canonical
    rw [not_or, not_not, not_not] at canonical
    rw [← canonical.2]
    exact canonical.1

/-- The manifest that is read keeps the limits. -/
theorem fetchManifest_acceptable {expected : Str} {maxFiles maxTotalBytes : Int} :
    Ends (fetchManifest m.fileSystem (backend.blobStore m) m.sha m.host expected maxFiles maxTotalBytes) w
      (fun files _ => Acceptable maxFiles maxTotalBytes files) fun _ _ => True := by
  unfold fetchManifest
  apply ends_bind_partial
  intro tmp w₁
  apply ends_bind_partial
  intro raw w₂
  apply ends_ofExcept _ fun _ _ => trivial
  intro files read
  exact ((readManifest_ok_iff m.sha m.host maxFiles maxTotalBytes (readManifest_hashes read) files).mp read).2

theorem verifyRebuilt_keeps {dest : Place} {expected : Str} :
    Ends (verifyRebuilt m.fileSystem dest expected) w (fun _ w' => w' = w) fun _ _ => True := by
  unfold verifyRebuilt
  rw [ends_observe_bind]
  apply ends_ofExcept_bind _ fun _ _ => trivial
  intro rebuilt _
  split
  · exact rfl
  · exact trivial

/-- The files at a place are within the limits, the number of them for a directory only. -/
def WithinLimits (artifactType : Str) (maxTotalBytes maxFiles : Int) (w : World) (spot : Spot) : Prop :=
  (w.weigh List.length spot : Int) ≤ maxTotalBytes ∧
    (artifactType ≠ str "file" → (w.weigh (fun _ => 1) spot : Int) ≤ maxFiles)

theorem downloadDirectory_limits {expected : Str} {dest : Place} {artifactType : Str} {maxTotalBytes maxFiles : Int}
    {verifyAfter : Bool} :
    Ends (downloadDirectory m.fileSystem (backend.blobStore m) m.sha m.host expected dest maxTotalBytes maxFiles verifyAfter) w
      (fun _ w' => ∀ spot, m.locate dest = .ok spot → WithinLimits artifactType maxTotalBytes maxFiles w' spot)
      fun _ _ => True := by
  unfold downloadDirectory
  apply ends_bind fetchManifest_acceptable
  intro files w₁ acceptable
  have total : Ends (materialize m.fileSystem (backend.blobStore m) m.host dest files) w₁
      (fun _ w' => ∀ spot, m.locate dest = .ok spot → w'.weigh List.length spot ≤ (files.map (·.size)).sum) fun _ _ => True :=
    materialize_weighs fun _ _ small => small
  have count : Ends (materialize m.fileSystem (backend.blobStore m) m.host dest files) w₁
      (fun _ w' => ∀ spot, m.locate dest = .ok spot → w'.weigh (fun _ => 1) spot ≤ (files.map fun _ => 1).sum)
      fun _ _ => True :=
    materialize_weighs fun _ _ _ => le_refl 1
  apply ends_bind ((total.and count).mono (fun _ _ h => h) fun _ _ _ => trivial)
  intro _ w₂ ⟨bytes, number⟩
  have kept : ∀ spot, m.locate dest = .ok spot → WithinLimits artifactType maxTotalBytes maxFiles w₂ spot := by
    intro spot located
    have few := number spot located
    rw [List.map_const', List.sum_replicate_nat, Nat.mul_one] at few
    exact ⟨(Int.ofNat_le.mpr (bytes spot located)).trans acceptable.total,
      fun _ => (Int.ofNat_le.mpr few).trans acceptable.count⟩
  split
  · apply verifyRebuilt_keeps.mono _ fun _ _ h => h
    intro _ w₃ same
    rw [same]
    exact kept
  · exact kept

/-- A download that returns has left no more than it was allowed to. -/
theorem downloadArtifact_limits {artifactDigest artifactType : Str} {dest : Place} {maxTotalBytes maxFiles : Int}
    {verifyAfter : Bool} (nonneg : 0 ≤ maxTotalBytes) :
    Ends (downloadArtifact m.fileSystem (backend.blobStore m) m.sha m.host artifactDigest artifactType dest maxTotalBytes
        maxFiles verifyAfter) w
      (fun _ w' => ∀ spot, m.locate dest = .ok spot → WithinLimits artifactType maxTotalBytes maxFiles w' spot)
      fun _ _ => True := by
  unfold downloadArtifact
  apply ends_bind_partial
  intro expected w₁
  split
  · rename_i file
    apply (getTo_puts nonneg).mono _ fun _ _ h => h
    intro _ w₂ puts spot located
    exact ⟨puts.weigh_there (fun _ small => small) located, fun directory => (directory file).elim⟩
  · exact downloadDirectory_limits

/-! ### Higher limits -/

theorem Acceptable.raise {files : List FileDigest} {maxFiles maxTotalBytes maxFiles' maxTotalBytes' : Int}
    (acceptable : Acceptable maxFiles maxTotalBytes files) (count : maxFiles ≤ maxFiles')
    (total : maxTotalBytes ≤ maxTotalBytes') : Acceptable maxFiles' maxTotalBytes' files :=
  { acceptable with
    count := acceptable.count.trans count
    total := acceptable.total.trans total }

variable {expected : Str} {maxFiles maxTotalBytes maxFiles' maxTotalBytes' : Int} {dest : Place} {w' : World}

theorem readManifest_raise {sha : Sha256} {host : Host} {raw : Bytes} {files : List FileDigest}
    (count : maxFiles ≤ maxFiles') (total : maxTotalBytes ≤ maxTotalBytes')
    (read : readManifest sha host maxFiles maxTotalBytes expected raw = .ok files) :
    readManifest sha host maxFiles' maxTotalBytes' expected raw = .ok files := by
  have hashes := readManifest_hashes read
  obtain ⟨canonical, acceptable⟩ := (readManifest_ok_iff sha host maxFiles maxTotalBytes hashes files).mp read
  exact (readManifest_ok_iff sha host maxFiles' maxTotalBytes' hashes files).mpr ⟨canonical, acceptable.raise count total⟩

theorem fetchManifest_raise {files : List FileDigest} (count : maxFiles ≤ maxFiles') (total : maxTotalBytes ≤ maxTotalBytes')
    (run : fetchManifest m.fileSystem (backend.blobStore m) m.sha m.host expected maxFiles maxTotalBytes w = (.ok files, w')) :
    fetchManifest m.fileSystem (backend.blobStore m) m.sha m.host expected maxFiles' maxTotalBytes' w = (.ok files, w') := by
  unfold fetchManifest at run ⊢
  obtain ⟨tmp, w₁, made, run⟩ := bind_returned.mp run
  obtain ⟨raw, w₂, got, run⟩ := bind_returned.mp run
  obtain ⟨read, same⟩ := Prod.mk.inj run
  rw [bind_of_ok made, bind_of_ok got]
  exact Prod.ext (readManifest_raise count total read) same

/-- A directory that was downloaded within its limits is downloaded within higher ones. -/
theorem downloadArtifact_raise {artifactDigest artifactType : Str} {verifyAfter : Bool} (directory : artifactType ≠ str "file")
    (count : maxFiles ≤ maxFiles') (total : maxTotalBytes ≤ maxTotalBytes')
    (run : downloadArtifact m.fileSystem (backend.blobStore m) m.sha m.host artifactDigest artifactType dest maxTotalBytes
      maxFiles verifyAfter w = (.ok (), w')) :
    downloadArtifact m.fileSystem (backend.blobStore m) m.sha m.host artifactDigest artifactType dest maxTotalBytes'
      maxFiles' verifyAfter w = (.ok (), w') := by
  unfold downloadArtifact downloadDirectory at run ⊢
  obtain ⟨expected, w₁, prepared, run⟩ := bind_returned.mp run
  rw [bind_of_ok prepared]
  rw [if_neg directory] at run ⊢
  obtain ⟨files, w₂, fetched, run⟩ := bind_returned.mp run
  rw [bind_of_ok (fetchManifest_raise count total fetched)]
  exact run

end Directory

end ModelGuard.Storage
