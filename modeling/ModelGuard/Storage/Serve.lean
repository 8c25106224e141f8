import ModelGuard.Storage.Download

/-!
# What a store holds arrives

On a machine where nothing fails, a blob that fits its limit is at the destination afterwards, with the bytes
that the store holds.
-/

namespace ModelGuard.Storage

open Lib Lib.Prog Lib.Node ModelGuard.Hashing

/-! ### A machine where nothing fails -/

/-- How many octets a character of a file name takes. A lone surrogate stands for one octet. -/
def octetWidth (c : CodePoint) : Nat :=
  if c.val < 0x80 then 1
  else if c.val < 0x800 then 2
  else if 0xdc80 ≤ c.val ∧ c.val ≤ 0xdcff then 1
  else if c.val < 0x10000 then 3
  else 4

def octetLength (s : Str) : Nat := (s.map octetWidth).sum

/-- `NAME_MAX`. -/
def nameMax : Nat := 255

def Spot.Fits (spot : Spot) : Prop := ∀ name ∈ spot.path, octetLength name.val ≤ nameMax

def SystemCall.Fits : SystemCall → Prop
  | .stat spot => spot.Fits
  | .resolve spot => spot.Fits
  | .mkdir spot => spot.Fits
  | .mkdtemp => True
  | .create spot => spot.Fits
  | .write spot => spot.Fits
  | .read spot => spot.Fits
  | .rename source target => source.Fits ∧ target.Fits

/-- Only a name that is too long makes a call fail. -/
def Machine.Reliable (m : Machine) : Prop := ∀ c w, c.Fits → m.fails c w = none

/-- A reliable machine on which an ASCII name is itself on disk. -/
structure Machine.Sound (m : Machine) : Prop where
  reliable : ∀ c w, c.Fits → m.fails c w = none
  ascii : ∀ name : FileName, Ascii name.val → m.onDisk name.val = some name
  hexDigits : ∀ n, (m.hex n).length = 32 ∧ IsHex (m.hex n)

/-- A machine where every file can be read. -/
def quietMachine (sha : Sha256) (host : Host) : Machine where
  sha
  host
  fails _ _ := none
  onDisk s := if valid : IsFileName s then some ⟨s, valid⟩ else none
  hex _ := List.replicate 32 (cp '0')
  otherSize := 4096
  sees w spot := (w.find spot).map (mapFiles fun content => (content, true))

theorem quietMachine_sound (sha : Sha256) (host : Host) : (quietMachine sha host).Sound where
  reliable _ _ _ := rfl
  ascii name _ := dif_pos name.property
  hexDigits _ := by
    refine ⟨List.length_replicate, fun c mem => ?_⟩
    rw [(List.mem_replicate.mp mem).2]
    rfl

/-- What is in a world, apart from the count of calls. -/
def World.contents (w : World) : Node.Tree Bytes × Node.Tree Bytes := (w.tree, w.temporary)

section Contents

variable {w w' : World} {spot : Spot}

theorem side_of_contents (same : w'.contents = w.contents) (b : Bool) : w'.side b = w.side b := by
  obtain ⟨tree, temporary⟩ := Prod.mk.inj same
  cases b with
  | false => exact tree
  | true => exact temporary

theorem find_of_contents (same : w'.contents = w.contents) (spot : Spot) : w'.find spot = w.find spot := by
  unfold World.find
  rw [side_of_contents same]

theorem isDir_of_contents (same : w'.contents = w.contents) (spot : Spot) : w'.isDir spot = w.isDir spot := by
  unfold World.isDir
  rw [find_of_contents same]

theorem contents_put (same : w'.contents = w.contents) (spot : Spot) (n : Node.Tree Bytes) :
    (w'.put spot n).contents = (w.put spot n).contents := by
  obtain ⟨tree, temporary⟩ := Prod.mk.inj same
  obtain ⟨b, path⟩ := spot
  cases b with
  | false => exact Prod.ext (congrArg (graft path n) tree) temporary
  | true => exact Prod.ext tree (congrArg (graft path n) temporary)

theorem contents_put_put (w : World) (spot : Spot) (n k : Node Bytes) :
    ((w.put spot (some k)).put spot (some n)).contents = (w.put spot (some n)).contents := by
  obtain ⟨b, path⟩ := spot
  cases b with
  | false => exact Prod.ext (graft_graft path n k w.tree) rfl
  | true => exact Prod.ext rfl (graft_graft path n k w.temporary)

theorem contents_put_same {n : Node Bytes} (found : w.find spot = some n) : (w.put spot (some n)).contents = w.contents := by
  obtain ⟨b, path⟩ := spot
  cases b with
  | false => exact Prod.ext (graft_self found) rfl
  | true => exact Prod.ext rfl (graft_self found)

theorem find_put_present {old : Node Bytes} (found : w.find spot = some old) (n : Node Bytes) :
    (w.put spot (some n)).find spot = some n := by
  unfold World.find World.put
  rw [World.side_setSide]
  exact find_graft found n

theorem contents_put_undo (absent : w.find spot = none) (n : Node Bytes) :
    ((w.put spot (some n)).put spot none).contents = w.contents := by
  obtain ⟨b, path⟩ := spot
  cases b with
  | false => exact Prod.ext (graft_undo absent n) rfl
  | true => exact Prod.ext rfl (graft_undo absent n)

end Contents

/-- The chunks stay within the limit, which is looked at when a chunk arrives. -/
def Stream.Within (stream : Stream) (maxBytes : Int) : Prop :=
  stream.chunks = [] ∨ (stream.chunks.flatten.length : Int) ≤ maxBytes

/-- A program that returns, with no need to say how it would raise. -/
abbrev Returns {α : Type} (x : Prog Raised World α) (w : World) (post : α → World → Prop) : Prop :=
  Ends x w post fun _ _ => False

section Reliable

variable {m : Machine} (reliable : m.Reliable) {w : World}

include reliable

theorem call_returns {c : SystemCall} (fits : c.Fits) (w : World) :
    Returns (m.call c) w fun _ w' => w'.contents = w.contents := by
  unfold Returns Machine.call Ends
  dsimp only
  rw [reliable c w fits]
  exact rfl

theorem occupied_returns {p : Place} {spot : Spot} (located : m.locate p = .ok spot) (fits : spot.Fits) :
    Returns (m.occupied p) w fun taken w' => taken = (w.find spot).isSome ∧ w'.contents = w.contents := by
  unfold Machine.occupied
  rw [located, ofExcept_ok_bind]
  refine ends_bind (call_returns reliable (c := .stat spot) fits w) fun _ w' same => ?_
  exact ⟨congrArg Option.isSome (find_of_contents same spot), same⟩

theorem writeChunks_returns {tmp : Spot} (fits : tmp.Fits) {maxBytes : Int} {chunks : List Bytes} {written : Bytes}
    (found : w.find tmp = some (.file written))
    (small : chunks = [] ∨ ((written ++ chunks.flatten).length : Int) ≤ maxBytes) :
    Returns (m.writeChunks tmp maxBytes written chunks) w fun content w' =>
      content = written ++ chunks.flatten ∧ w'.contents = (w.put tmp (some (.file content))).contents := by
  induction chunks generalizing written w with
  | nil =>
    refine ⟨(List.append_nil written).symm, ?_⟩
    exact (contents_put_same found).symm
  | cons chunk chunks ih =>
    have small := small.resolve_left (List.cons_ne_nil _ _)
    rw [List.flatten_cons, ← List.append_assoc] at small
    have enough : ¬maxBytes < ((written ++ chunk).length : Int) := by
      rw [List.length_append] at small
      push_cast at small ⊢
      omega
    unfold Machine.writeChunks
    rw [if_neg enough]
    refine ends_bind (call_returns reliable (c := .write tmp) fits w) fun _ w₁ same => ?_
    rw [ends_bind_iff, ends_update]
    have there : (w₁.put tmp (some (.file (written ++ chunk)))).find tmp = some (.file (written ++ chunk)) :=
      find_put_present ((find_of_contents same tmp).trans found) _
    refine (ih there (Or.inr small)).mono (fun content w' wrote => ?_) fun _ _ never => never
    obtain ⟨whole, contents⟩ := wrote
    rw [List.append_assoc, ← List.flatten_cons] at whole
    exact ⟨whole, contents.trans ((contents_put_put w₁ tmp _ _).trans (contents_put same tmp _))⟩

end Reliable

/-- A file can be written at `dest`, under a temporary name first. -/
structure Writable (m : Machine) (dest : Place) (spot : Spot) (w : World) : Prop where
  located : m.locate dest = .ok spot
  fits : spot.Fits
  absent : w.find spot = none
  parent : w.isDir spot.parent = true
  part : ∀ n, ∃ tmp, m.locate (dest.withName (partName (dest.names.getLast?.getD []) (m.hex n))) = .ok tmp ∧
    tmp.Fits ∧ tmp ≠ spot ∧ tmp.temporary = spot.temporary ∧ tmp.parent = spot.parent ∧ w.find tmp = none

theorem Writable.of_contents {m : Machine} {dest : Place} {spot : Spot} {w w' : World} (writable : Writable m dest spot w)
    (same : w'.contents = w.contents) : Writable m dest spot w' := by
  obtain ⟨located, fits, absent, parent, part⟩ := writable
  refine ⟨located, fits, (find_of_contents same _).trans absent, (isDir_of_contents same _).trans parent, fun n => ?_⟩
  obtain ⟨tmp, found, short, other, side, beside, free⟩ := part n
  exact ⟨tmp, found, short, other, side, beside, (find_of_contents same _).trans free⟩

section Beside

variable {w : World}

/-- Two names of one directory. -/
theorem split_beside {spot tmp : Spot} (side : tmp.temporary = spot.temporary) (beside : tmp.parent = spot.parent)
    (other : tmp ≠ spot) (absent : w.find spot = none) (free : w.find tmp = none) (parent : w.isDir spot.parent = true) :
    ∃ d a b, tmp.path = d ++ [a] ∧ spot.path = d ++ [b] ∧ a ≠ b ∧ IsDir (w.side spot.temporary) d := by
  obtain ⟨d, b, spotPath, dir⟩ := split_spot absent parent
  obtain ⟨d', a, tmpPath, -⟩ := split_spot free (beside.symm ▸ parent)
  have same := congrArg Spot.path beside
  unfold Spot.parent at same
  dsimp only at same
  rw [tmpPath, spotPath, List.dropLast_concat, List.dropLast_concat] at same
  subst same
  refine ⟨d', a, b, tmpPath, spotPath, fun equal => other ?_, dir⟩
  obtain ⟨t, p⟩ := tmp
  obtain ⟨t', p'⟩ := spot
  rw [show p = p' from tmpPath.trans (equal ▸ spotPath.symm), show t = t' from side]

/-- What is put under one name of a directory is not seen under another. -/
theorem find_put_beside {spot tmp : Spot} (side : tmp.temporary = spot.temporary) (beside : tmp.parent = spot.parent)
    (other : tmp ≠ spot) (absent : w.find spot = none) (free : w.find tmp = none) (parent : w.isDir spot.parent = true)
    (n : Node.Tree Bytes) : (w.put tmp n).find spot = none := by
  obtain ⟨d, a, b, tmpPath, spotPath, apart, -⟩ := split_beside side beside other absent free parent
  have elsewhere {a b : FileName} (apart : a ≠ b) : ¬d ++ [a] <+: d ++ [b] := by
    rw [List.prefix_append_right_inj]
    exact fun within => apart (List.cons_prefix_cons.mp within).1
  unfold World.find at absent ⊢
  unfold World.put
  rw [side, World.side_setSide, tmpPath, spotPath]
  rw [spotPath] at absent
  rw [find_graft_apart (elsewhere apart) (elsewhere apart.symm)]
  exact absent

theorem isDir_put {spot dir : Spot} (side : dir.temporary = spot.temporary) (absent : w.find spot = none)
    (isDir : w.isDir dir = true) (n : Node Bytes) : (w.put spot (some n)).isDir dir = true := by
  unfold World.find at absent
  obtain ⟨l, entries, found⟩ := World.isDir_iff.mp isDir
  unfold World.find at found
  rw [side] at found
  obtain ⟨l', entries', kept⟩ := isDir_graft absent ⟨l, entries, found⟩ n
  refine World.isDir_iff.mpr ⟨l', entries', ?_⟩
  unfold World.find World.put
  rw [side, World.side_setSide]
  exact kept

end Beside

section Reliable

variable {m : Machine} (reliable : m.Reliable) {w : World}

include reliable

theorem writeBody_returns {dest tmpPlace : Place} {spot tmp : Spot} (writable : Writable m dest spot w)
    (located : m.locate tmpPlace = .ok tmp) (fits : tmp.Fits) (other : tmp ≠ spot) (side : tmp.temporary = spot.temporary)
    (beside : tmp.parent = spot.parent) (free : w.find tmp = none) {stream : Stream} {content : Bytes} {expected : Str}
    {maxBytes : Int} (unbroken : stream.broken = none) (whole : stream.chunks.flatten = content)
    (hashes : m.sha.hexdigest content = expected) (small : stream.Within maxBytes) :
    Returns (m.writeBody stream tmpPlace dest expected maxBytes) w fun _ w' =>
      w'.contents = (w.put spot (some (.file content))).contents := by
  unfold Machine.writeBody
  rw [located, ofExcept_ok_bind]
  refine ends_bind (call_returns reliable (c := .create tmp) fits w) fun _ w₁ same => ?_
  have free₁ : w₁.find tmp = none := (find_of_contents same tmp).trans free
  have parent₁ : w₁.isDir tmp.parent = true := (isDir_of_contents same _).trans (beside.symm ▸ writable.parent)
  have created : Machine.place tmp (.file []) w₁ = (.ok (), w₁.put tmp (some (.file []))) := by
    unfold Machine.place
    rw [free₁, parent₁]
    rfl
  rw [ends_bind_iff, ends_of_eq_ok created]
  have there : (w₁.put tmp (some (.file []))).find tmp = some (.file []) := find_put free₁ parent₁ _
  refine ends_bind (writeChunks_returns reliable fits there (by rwa [List.nil_append])) fun content' w₂ wrote => ?_
  obtain ⟨all, written⟩ := wrote
  rw [List.nil_append, whole] at all
  subst all
  have contents : w₂.contents = (w.put tmp (some (.file content'))).contents :=
    written.trans ((contents_put_put w₁ tmp _ _).trans (contents_put same tmp _))
  rw [unbroken, ofExcept_ok_bind, if_pos hashes]
  unfold Machine.rename
  rw [located, writable.located, ofExcept_ok_bind, ofExcept_ok_bind]
  refine ends_bind (call_returns reliable (c := .rename tmp spot) ⟨fits, writable.fits⟩ w₂) fun _ w₃ same₃ => ?_
  have contents := same₃.trans contents
  have source : w₃.find tmp = some (.file content') :=
    (find_of_contents contents tmp).trans (find_put free (beside.symm ▸ writable.parent) _)
  have target : w₃.find spot = none :=
    (find_of_contents contents spot).trans (find_put_beside side beside other writable.absent free writable.parent _)
  have parent : w₃.isDir spot.parent = true :=
    (isDir_of_contents contents _).trans (isDir_put (show spot.parent.temporary = tmp.temporary from side.symm) free writable.parent _)
  have moved : Machine.move tmp spot w₃ = (.ok (), (w₃.put tmp none).put spot (some (.file content'))) := by
    unfold Machine.move
    rw [source]
    dsimp only
    rw [target, parent]
    rfl
  rw [ends_of_eq_ok moved]
  refine contents_put ?_ spot _
  exact (contents_put contents tmp none).trans (contents_put_undo free _)

theorem writeVerified_returns {dest : Place} {spot : Spot} (writable : Writable m dest spot w) {stream : Stream}
    {content : Bytes} {expected : Str} {maxBytes : Int} (unbroken : stream.broken = none)
    (whole : stream.chunks.flatten = content) (hashes : m.sha.hexdigest content = expected)
    (small : stream.Within maxBytes) :
    Returns (m.writeVerified stream dest expected maxBytes) w fun _ w' =>
      w'.contents = (w.put spot (some (.file content))).contents := by
  unfold Machine.writeVerified
  refine ends_bind (occupied_returns reliable writable.located writable.fits) fun taken w₁ looked => ?_
  obtain ⟨same, contents⟩ := looked
  rw [writable.absent] at same
  subst same
  rw [if_neg (show ¬(none : Node.Tree Bytes).isSome = true from Bool.false_ne_true), ends_bind_iff]
  have named : m.uuidHex w₁ = (.ok (m.hex w₁.ticks), w₁.tick) := rfl
  rw [ends_of_eq_ok named]
  obtain ⟨tmp, located, fits, other, side, beside, free⟩ := writable.part w₁.ticks
  have contents : w₁.tick.contents = w.contents := contents
  have body := writeBody_returns reliable (writable.of_contents contents) located fits other side beside
    ((find_of_contents contents tmp).trans free) unbroken whole hashes small
  refine ends_onError (body.mono (fun _ w' wrote => ?_) fun _ _ never => never) fun _ _ never => never.elim
  exact wrote.trans (contents_put contents spot _)

end Reliable

end ModelGuard.Storage
