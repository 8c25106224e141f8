import ModelGuard.Storage.Fetch

/-!
# Verified writing is all or nothing

`write_verified` puts the whole content at its destination, or leaves everything as it was.
-/

namespace ModelGuard.Storage

open Lib Lib.Prog Lib.Node ModelGuard.Hashing
open Signing (plainHost emptySha)

theorem contents_tick (w : World) : w.tick.contents = w.contents := rfl

/-! ### The loop over the chunks -/

section AnyMachine

variable {m : Machine} {w : World}

/-- Calls that fail may come between the chunks: the temporary file holds some of them. -/
theorem writeChunks_ends {tmp : Spot} {maxBytes : Int} {chunks : List Bytes} {written : Bytes}
    (found : w.find tmp = some (.file written)) :
    Ends (m.writeChunks tmp maxBytes written chunks) w
      (fun content w' => content = written ++ chunks.flatten ∧
        (chunks = [] ∨ ((written ++ chunks.flatten).length : Int) ≤ maxBytes) ∧
        w'.contents = (w.put tmp (some (.file content))).contents)
      fun _ w' => ∃ content, w'.contents = (w.put tmp (some (.file content))).contents := by
  induction chunks generalizing written w with
  | nil => exact ⟨(List.append_nil written).symm, Or.inl rfl, (contents_put_same found).symm⟩
  | cons chunk chunks ih =>
    unfold Machine.writeChunks
    split
    · exact ⟨written, (contents_put_same found).symm⟩
    · rename_i within
      rw [ends_bind_iff]
      refine (call_ends _ w).mono (fun _ w₁ ticked => ?_) fun _ w₁ ticked => ?_
      · subst ticked
        rw [ends_bind_iff, ends_update]
        have there : (w.tick.put tmp (some (.file (written ++ chunk)))).find tmp = some (.file (written ++ chunk)) :=
          find_put_present ((find_of_contents (contents_tick w) tmp).trans found) _
        have merged (content : Bytes) :
            ((w.tick.put tmp (some (.file (written ++ chunk)))).put tmp (some (.file content))).contents =
              (w.put tmp (some (.file content))).contents :=
          (contents_put_put w.tick tmp _ _).trans (contents_put (contents_tick w) tmp _)
        refine (ih there).mono ?_ ?_
        · rintro content w' ⟨whole, small, contents⟩
          rw [List.append_assoc, ← List.flatten_cons] at whole small
          refine ⟨whole, Or.inr ?_, contents.trans (merged content)⟩
          rcases small with none | small
          · rw [none, List.flatten_singleton]
            exact not_lt.mp within
          · exact small
        · rintro _ w' ⟨content, same⟩
          exact ⟨content, same.trans (merged content)⟩
      · subst ticked
        exact ⟨written, (contents_put_same found).symm⟩

/-- What is at the destination after `write_verified` returned. -/
structure Wrote (m : Machine) (stream : Stream) (spot : Spot) (expected : Str) (maxBytes : Int) (w w' : World) : Prop where
  unbroken : stream.broken = none
  within : stream.Within maxBytes
  hashes : m.sha.hexdigest stream.chunks.flatten = expected
  contents : w'.contents = (w.put spot (some (.file stream.chunks.flatten))).contents

/-- What is left when writing under a temporary name has failed, before that name is removed. -/
def LeftOver (m : Machine) (tmpPlace : Place) (w w' : World) : Prop :=
  w'.contents = w.contents ∨ ∃ tmp content, m.locate tmpPlace = .ok tmp ∧ w.find tmp = none ∧
    w.isDir tmp.parent = true ∧ w'.contents = (w.put tmp (some (.file content))).contents

theorem writeBody_ends {dest tmpPlace : Place} {spot : Spot} (located : m.locate dest = .ok spot) {stream : Stream}
    {expected : Str} {maxBytes : Int} :
    Ends (m.writeBody stream tmpPlace dest expected maxBytes) w
      (fun _ w' => Wrote m stream spot expected maxBytes w w') fun _ w' => LeftOver m tmpPlace w w' := by
  unfold Machine.writeBody
  rw [ends_bind_iff]
  apply ends_ofExcept
  · intro tmp tmpLocated
    refine ends_bind ((call_ends _ w).mono (fun _ _ h => h) fun _ w₁ ticked => Or.inl (ticked ▸ contents_tick w))
      fun _ w₁ ticked => ?_
    subst ticked
    refine ends_bind ((place_ends tmp (.file []) w.tick).mono (fun _ _ h => h) fun _ w₁ same => Or.inl (same ▸ contents_tick w))
      fun _ w₁ made => ?_
    obtain ⟨same, free, parent⟩ := made
    subst same
    have there : (w.tick.put tmp (some (.file []))).find tmp = some (.file []) := find_put free parent _
    have free : w.find tmp = none := (find_of_contents (contents_tick w) tmp).symm.trans free
    have parent : w.isDir tmp.parent = true := (isDir_of_contents (contents_tick w) tmp.parent).symm.trans parent
    have merged (content : Bytes) : ((w.tick.put tmp (some (.file []))).put tmp (some (.file content))).contents =
        (w.put tmp (some (.file content))).contents :=
      (contents_put_put w.tick tmp _ _).trans (contents_put (contents_tick w) tmp _)
    -- From here on the temporary file is there.
    have late {w' : World} {content : Bytes} (same : w'.contents = (w.put tmp (some (.file content))).contents) :
        LeftOver m tmpPlace w w' := Or.inr ⟨tmp, content, tmpLocated, free, parent, same⟩
    refine ends_bind ((writeChunks_ends there).mono (fun _ _ h => h) fun _ w₂ ⟨content, same⟩ =>
      late (same.trans (merged content))) fun content w₂ wrote => ?_
    obtain ⟨whole, small, contents⟩ := wrote
    rw [List.nil_append] at whole small
    subst whole
    have contents := contents.trans (merged _)
    cases broken : stream.broken with
    | some e => exact late contents
    | none =>
      rw [ofExcept_ok_bind]
      split
      · rename_i hashes
        unfold Machine.rename
        rw [tmpLocated, located, ofExcept_ok_bind, ofExcept_ok_bind]
        refine ends_bind ((call_ends _ w₂).mono (fun _ _ h => h) fun _ w₃ ticked => late ((congrArg World.contents ticked).trans contents))
          fun _ w₃ ticked => ?_
        subst ticked
        have contents : w₂.tick.contents = (w.put tmp (some (.file stream.chunks.flatten))).contents := contents
        refine (move_ends tmp spot w₂.tick).mono (fun _ w' moved => ?_) fun _ w' same => late (same ▸ contents)
        obtain ⟨n, source, same⟩ := moved
        have file : n = .file stream.chunks.flatten :=
          Option.some.inj (source.symm.trans ((find_of_contents contents tmp).trans (find_put free parent _)))
        subst same file
        refine ⟨broken, small, hashes, contents_put ?_ spot _⟩
        exact (contents_put contents tmp none).trans (contents_put_undo free _)
      · exact late contents
  · exact fun _ _ => Or.inl rfl

/-- No file has a temporary name that a fetch to `dest` would take. -/
def FreshNames (m : Machine) (dest : Place) (w : World) : Prop :=
  ∀ n tmp, m.locate (dest.withName (partName (dest.names.getLast?.getD []) (m.hex n))) = .ok tmp → w.find tmp = none

/-- Removing the temporary name leaves everything as it was. -/
theorem unlink_leftOver {tmpPlace : Place} {w' : World} (left : LeftOver m tmpPlace w w')
    (fresh : ∀ tmp, m.locate tmpPlace = .ok tmp → w.find tmp = none) :
    Ends (m.unlink tmpPlace) w' (fun _ w'' => w''.contents = w.contents) fun _ w'' => w''.contents = w.contents := by
  unfold Machine.unlink
  cases located : m.locate tmpPlace with
  | error e =>
    rcases left with same | ⟨tmp, content, located', -⟩
    · exact same
    · rw [located] at located'
      cases located'
  | ok tmp =>
    rw [ofExcept_ok_bind, ends_bind_iff, ends_observe]
    rcases left with same | ⟨tmp', content, located', free, parent, same⟩
    · rw [find_of_contents same, fresh tmp located]
      exact same
    · rw [located] at located'
      have equal := Except.ok.inj located'
      subst equal
      rw [find_of_contents same, find_put free parent]
      dsimp only
      rw [ends_update]
      exact (contents_put same tmp none).trans (contents_put_undo free _)

/-- However the calls end: the content is at the destination, or nothing has changed. -/
theorem writeVerified_ends {dest : Place} {stream : Stream} {expected : Str} {maxBytes : Int} :
    Ends (m.writeVerified stream dest expected maxBytes) w
      (fun _ w' => ∃ spot, m.locate dest = .ok spot ∧ w.find spot = none ∧ Wrote m stream spot expected maxBytes w w')
      fun _ w' => FreshNames m dest w → w'.contents = w.contents := by
  unfold Machine.writeVerified
  have looked : Ends (m.occupied dest) w
      (fun taken w' => ∃ spot, m.locate dest = .ok spot ∧ taken = (w.find spot).isSome ∧ w' = w.tick)
      fun _ w' => FreshNames m dest w → w'.contents = w.contents := by
    unfold Machine.occupied
    rw [ends_bind_iff]
    apply ends_ofExcept
    · intro spot located
      refine ends_bind ((call_ends _ w).mono (fun _ _ h => h) fun _ w₁ ticked _ => ticked ▸ contents_tick w)
        fun _ w₁ ticked => ?_
      subst ticked
      exact ⟨spot, located, congrArg Option.isSome (find_of_contents (contents_tick w) spot), rfl⟩
    · exact fun _ _ _ => rfl
  refine ends_bind looked fun taken w₁ seen => ?_
  obtain ⟨spot, located, same, ticked⟩ := seen
  subst same ticked
  split
  · exact fun _ => contents_tick w
  · rename_i free
    have free : w.find spot = none := by simpa using free
    have named : m.uuidHex w.tick = (.ok (m.hex w.tick.ticks), w.tick.tick) := rfl
    have ticks : w.tick.tick.contents = w.contents := rfl
    rw [ends_bind_iff, ends_of_eq_ok named]
    refine ends_onError ((writeBody_ends located).mono (fun _ w' wrote => ?_) fun _ _ h => h) fun e w' left => ?_
    · obtain ⟨unbroken, within, hashes, contents⟩ := wrote
      exact ⟨spot, located, free, unbroken, within, hashes, contents.trans (contents_put ticks spot _)⟩
    · have cleaned (fresh : FreshNames m dest w) := unlink_leftOver left fun tmp found =>
        (find_of_contents ticks tmp).trans (fresh _ tmp found)
      have removed : Ends (m.unlink _) w' (fun _ w'' => FreshNames m dest w → w''.contents = w.contents)
          fun _ w'' => FreshNames m dest w → w''.contents = w.contents :=
        ends_iff.mpr ⟨fun _ _ run fresh => (cleaned fresh).returned run, fun _ _ run fresh => (cleaned fresh).raised run⟩
      exact ends_bind removed fun _ w'' kept => kept

end AnyMachine

/-! ### When it returns -/

/-- A name that can be written to, as far as its directory goes: a regular call of `write_verified`. -/
structure Usable (m : Machine) (dest : Place) (spot : Spot) (w : World) : Prop where
  located : m.locate dest = .ok spot
  fits : spot.Fits
  parent : w.isDir spot.parent = true
  part : ∀ n, ∃ tmp, m.locate (dest.withName (partName (dest.names.getLast?.getD []) (m.hex n))) = .ok tmp ∧
    tmp.Fits ∧ tmp ≠ spot ∧ tmp.temporary = spot.temporary ∧ tmp.parent = spot.parent ∧ w.find tmp = none

section Reliable

variable {m : Machine} {dest : Place} {spot : Spot} {w : World}

theorem Usable.writable (usable : Usable m dest spot w) (absent : w.find spot = none) : Writable m dest spot w :=
  ⟨usable.located, usable.fits, absent, usable.parent, usable.part⟩

theorem Usable.freshNames (usable : Usable m dest spot w) : FreshNames m dest w := by
  intro n tmp located
  obtain ⟨tmp', located', -, -, -, -, free⟩ := usable.part n
  rw [located'] at located
  exact Except.ok.inj located ▸ free

/-- What must hold before the call for it to return. -/
structure Acceptance (m : Machine) (stream : Stream) (spot : Spot) (expected : Str) (maxBytes : Int) (w : World) : Prop where
  absent : w.find spot = none
  unbroken : stream.broken = none
  within : stream.Within maxBytes
  hashes : m.sha.hexdigest stream.chunks.flatten = expected

theorem writeVerified_returns_iff (reliable : m.Reliable) (usable : Usable m dest spot w) {stream : Stream} {expected : Str}
    {maxBytes : Int} :
    (∃ w', m.writeVerified stream dest expected maxBytes w = (.ok (), w')) ↔
      Acceptance m stream spot expected maxBytes w := by
  constructor
  · intro ⟨w', run⟩
    obtain ⟨spot', located, absent, wrote⟩ := writeVerified_ends.returned run
    rw [usable.located] at located
    have same := Except.ok.inj located
    subst same
    exact ⟨absent, wrote.unbroken, wrote.within, wrote.hashes⟩
  · intro ⟨absent, unbroken, within, hashes⟩
    have returns := writeVerified_returns reliable (usable.writable absent) unbroken rfl hashes within
    rcases returns.cases with ⟨_, w', run, -⟩ | ⟨_, _, _, never⟩
    · exact ⟨w', run⟩
    · exact never.elim

/-- It returns exactly when it should, and then with the whole content at the destination; otherwise everything is
as it was. -/
theorem write_verified_all_or_nothing (m : Machine) (reliable : m.Reliable) (stream : Stream) (dest : Place) (spot : Spot)
    (expected : Str) (maxBytes : Int) (w : World) (usable : Usable m dest spot w) :
    ((∃ w', m.writeVerified stream dest expected maxBytes w = (.ok (), w')) ↔
        w.find spot = none ∧ stream.broken = none ∧
          (stream.chunks = [] ∨ (stream.chunks.flatten.length : Int) ≤ maxBytes) ∧
          m.sha.hexdigest stream.chunks.flatten = expected) ∧
      (∀ w', m.writeVerified stream dest expected maxBytes w = (.ok (), w') →
        w'.find spot = some (.file stream.chunks.flatten) ∧
          w'.contents = (w.put spot (some (.file stream.chunks.flatten))).contents) ∧
      ∀ e w', m.writeVerified stream dest expected maxBytes w = (.error e, w') → w'.contents = w.contents := by
  refine ⟨?_, ?_, ?_⟩
  · rw [writeVerified_returns_iff reliable usable]
    constructor
    · intro ⟨absent, unbroken, within, hashes⟩
      exact ⟨absent, unbroken, within, hashes⟩
    · intro ⟨absent, unbroken, within, hashes⟩
      exact ⟨absent, unbroken, within, hashes⟩
  · intro w' run
    obtain ⟨spot', located, absent, wrote⟩ := writeVerified_ends.returned run
    rw [usable.located] at located
    have same := Except.ok.inj located
    subst same
    exact ⟨(find_of_contents wrote.contents spot).trans (find_put absent usable.parent _), wrote.contents⟩
  · intro e w' run
    exact writeVerified_ends.raised run usable.freshNames

end Reliable

/-! ### One octet, and a limit that is never looked at -/

theorem octetFile_fileName : IsFileName (str "a") := by decide

def octetFile : FileName := ⟨str "a", octetFile_fileName⟩

theorem octetFile_usable (sha : Sha256) : Usable (quietMachine sha plainHost) ⟨false, [str "a"]⟩ ⟨false, [octetFile]⟩ emptyWorld := by
  have sound := quietMachine_sound sha plainHost
  have nothing (n : FileName) : emptyWorld.find ⟨false, [] ++ [n]⟩ = none := rfl
  have dir : emptyWorld.isDir ⟨false, []⟩ = true := rfl
  have ascii : Ascii octetFile.val := by decide
  have names : [str "a"] = [] ++ [octetFile.val] := rfl
  have writable : Writable (quietMachine sha plainHost) ⟨false, [str "a"]⟩ ⟨false, [] ++ [octetFile]⟩ emptyWorld :=
    writable_of_dir sound names rfl nofun (sound.shows ascii) (by decide) dir (nothing _) fun _ part _ => nothing part
  exact ⟨writable.located, writable.fits, writable.parent, writable.part⟩

theorem octet_written : ∃ w', (quietMachine zeroByteSha plainHost).writeVerified ⟨[[], [0]], none⟩ ⟨false, [str "a"]⟩
    (zeroByteSha.hexdigest [0]) 1 emptyWorld = (.ok (), w') :=
  (write_verified_all_or_nothing (quietMachine zeroByteSha plainHost) (quietMachine_sound zeroByteSha plainHost).reliable
    ⟨[[], [0]], none⟩ ⟨false, [str "a"]⟩ ⟨false, [octetFile]⟩ (zeroByteSha.hexdigest [0]) 1 emptyWorld
    (octetFile_usable zeroByteSha)).1.mpr ⟨rfl, rfl, Or.inr (by decide), rfl⟩

/-- Without a chunk the limit is not compared with anything. -/
theorem negative_limit_passed :
    (∃ w', (quietMachine emptySha plainHost).writeVerified ⟨[], none⟩ ⟨false, [str "a"]⟩ (emptySha.hexdigest []) (-1)
      emptyWorld = (.ok (), w')) ∧ ¬ (([] : List Bytes).flatten.length : Int) ≤ -1 := by
  refine ⟨?_, by decide⟩
  apply (writeVerified_returns_iff (quietMachine_sound emptySha plainHost).reliable (octetFile_usable emptySha)).mpr
  exact ⟨rfl, rfl, Or.inl rfl, rfl⟩

end ModelGuard.Storage
