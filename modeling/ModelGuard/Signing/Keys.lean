import ModelGuard.Exceptions
import ModelGuard.Lib.Effect
import ModelGuard.Lib.Entries
import ModelGuard.Lib.FsEncoding

/-!
# Key files

A key pair is saved as two files of a directory, under a name made from the identity.
-/

namespace ModelGuard.Signing

open Lib Lib.Prog

/-- An Ed25519 private key, as its raw bytes. -/
abbrev PrivateKey := { raw : Bytes // raw.length = 32 }

structure LocalKeyPair where
  identity : Str
  privateKey : PrivateKey
  /-- The raw bytes of the public key. -/
  publicKey : Bytes

/-- The regular files of a directory, by the octets of their names. -/
abbrev KeyDirectory := List (Bytes × Bytes)

/-- What the calls on a directory raise, and what the cryptographic library derives. -/
structure KeySystem where
  /-- The text of `directory / name`. -/
  pathText : Str → Str
  mkdir : KeyDirectory → Option Raised
  /-- Opening a file for writing. -/
  create : Bytes → KeyDirectory → Option Raised
  /-- Writing to it, or closing it. -/
  write : Bytes → KeyDirectory → Option Raised
  chmod : Bytes → KeyDirectory → Option Raised
  publicKey : PrivateKey → Bytes

def privateKeySuffix : Str := str ".modelguard.key"

def publicKeySuffix : Str := str ".modelguard.pub"

/-- `identity.replace("/", "_").replace("@", "_at_")`. -/
def safeName (identity : Str) : Str :=
  (identity.map fun c => if c = cp '/' then cp '_' else c).flatMap fun c => if c = cp '@' then str "_at_" else [c]

def privateName (identity : Str) : Str := safeName identity ++ privateKeySuffix

def publicName (identity : Str) : Str := safeName identity ++ publicKeySuffix

/-- The octets that the operating system is given for a name. -/
def openName (name : Str) : Except Raised Bytes :=
  match fsEncode name with
  | none => .error (.external (str "UnicodeEncodeError") (str "surrogates not allowed"))
  | some octets => if 0 ∈ octets then .error (.external (str "ValueError") (str "embedded null byte")) else .ok octets

def orPass : Option Raised → Except Raised Unit
  | some e => .error e
  | none => .ok ()

def keyNotFound (path : Str) : Raised := .modelGuard .keyNotFoundError (str "Key not found: " ++ path)

namespace KeySystem

variable (system : KeySystem)

/-- What was in the file is gone once it is open. -/
def writeFile (octets content : Bytes) : Prog Raised KeyDirectory Unit := do
  let refused ← observe (system.create octets)
  ofExcept (orPass refused)
  update (Entries.set octets [])
  let refused ← observe (system.write octets)
  ofExcept (orPass refused)
  update (Entries.set octets content)

/-- `save_keypair`. -/
def saveKeypair (keypair : LocalKeyPair) : Prog Raised KeyDirectory (Str × Str) := do
  let refused ← observe system.mkdir
  ofExcept (orPass refused)
  let privateOctets ← ofExcept (openName (privateName keypair.identity))
  system.writeFile privateOctets keypair.privateKey.val
  let refused ← observe (system.chmod privateOctets)
  ofExcept (orPass refused)
  let publicOctets ← ofExcept (openName (publicName keypair.identity))
  system.writeFile publicOctets keypair.publicKey
  pure (privateName keypair.identity, publicName keypair.identity)

/-- One `save_keypair` after another. -/
def saveAll : List LocalKeyPair → Prog Raised KeyDirectory (List (Str × Str))
  | [] => pure []
  | keypair :: rest => do
    let paths ← system.saveKeypair keypair
    let others ← saveAll rest
    pure (paths :: others)

/-- The bytes of the file, or none when `path.exists()` is false. -/
def readFile (name : Str) (dir : KeyDirectory) : Option Bytes :=
  match openName name with
  | .ok octets => dir.lookup octets
  | .error _ => none

/-- `load_private_key`. The library takes any 32 bytes. -/
def loadPrivateKey (name identity : Str) (dir : KeyDirectory) : Except Raised LocalKeyPair :=
  let path := system.pathText name
  match readFile name dir with
  | none => .error (keyNotFound path)
  | some raw =>
    if size : raw.length = 32 then
      .ok { identity, privateKey := ⟨raw, size⟩, publicKey := system.publicKey ⟨raw, size⟩ }
    else .error (.modelGuard .invalidKeyError (str "Expected a 32-byte raw Ed25519 private key at " ++ path ++
      str ", got " ++ Json.natText raw.length ++ str " bytes"))

end KeySystem

/-! ### Names -/

/-- The octets of a private key's name. -/
def privateOctets (identity : Str) : Bytes := (safeName identity).flatMap fsEncodeChar ++ asciiBytes privateKeySuffix

def publicOctets (identity : Str) : Bytes := (safeName identity).flatMap fsEncodeChar ++ asciiBytes publicKeySuffix

theorem openName_ok {name : Str} {octets : Bytes} (opened : openName name = .ok octets) : fsEncode name = some octets := by
  unfold openName at opened
  split at opened
  · cases opened
  · rename_i octets' encoded
    split at opened
    · cases opened
    · rw [encoded, Except.ok.inj opened]

theorem fsOctets_append_ascii (s : Str) {t : Str} (ascii : Ascii t) :
    (s ++ t).flatMap fsEncodeChar = s.flatMap fsEncodeChar ++ asciiBytes t := by
  rw [List.flatMap_append, fsOctets_ascii ascii]

theorem openName_private {identity : Str} {octets : Bytes} (opened : openName (privateName identity) = .ok octets) :
    FsEncodable (safeName identity) ∧ octets = privateOctets identity := by
  obtain ⟨encodable, same⟩ := fsEncode_some.mp (openName_ok opened)
  unfold privateName at encodable same
  rw [fsOctets_append_ascii _ (by decide)] at same
  exact ⟨(fsEncodable_append.mp encodable).1, same.symm⟩

theorem openName_public {identity : Str} {octets : Bytes} (opened : openName (publicName identity) = .ok octets) :
    octets = publicOctets identity := by
  obtain ⟨-, same⟩ := fsEncode_some.mp (openName_ok opened)
  unfold publicName at same
  rw [fsOctets_append_ascii _ (by decide)] at same
  exact same.symm

/-- No public key file has the name of a private one. -/
theorem privateOctets_ne_public (identity other : Str) : privateOctets identity ≠ publicOctets other := by
  intro same
  have last := congrArg List.getLast? same
  unfold privateOctets publicOctets at last
  have key : asciiBytes privateKeySuffix ≠ [] := by decide
  have pub : asciiBytes publicKeySuffix ≠ [] := by decide
  rw [List.getLast?_append_of_ne_nil _ key, List.getLast?_append_of_ne_nil _ pub] at last
  exact absurd last (by decide)

theorem privateOctets_eq_iff {identity other : Str} (encodable : FsEncodable (safeName identity))
    (encodable' : FsEncodable (safeName other)) :
    privateOctets identity = privateOctets other ↔ fsEncode (safeName identity) = fsEncode (safeName other) := by
  rw [fsEncode_some.mpr ⟨encodable, rfl⟩, fsEncode_some.mpr ⟨encodable', rfl⟩, Option.some.injEq]
  unfold privateOctets
  exact List.append_left_inj _

/-! ### What saving does to the files -/

section Saving

variable {system : KeySystem} {keypair : LocalKeyPair} {keypairs : List LocalKeyPair} {dir : KeyDirectory}

theorem writeFile_ends (octets content : Bytes) : Ends (system.writeFile octets content) dir
    (fun _ dir' => dir' = Entries.set octets content dir) fun _ _ => True := by
  unfold KeySystem.writeFile
  rw [ends_observe_bind]
  apply ends_ofExcept_bind _ fun _ _ => trivial
  intro _ _
  rw [ends_bind_iff, ends_update, ends_observe_bind]
  apply ends_ofExcept_bind _ fun _ _ => trivial
  intro _ _
  rw [ends_update, Entries.set_set]

/-- One call writes its own two files. -/
theorem saveKeypair_ends : Ends (system.saveKeypair keypair) dir
    (fun paths dir' => paths = (privateName keypair.identity, publicName keypair.identity) ∧
      openName (privateName keypair.identity) = .ok (privateOctets keypair.identity) ∧
      dir' = Entries.set (publicOctets keypair.identity) keypair.publicKey
        (Entries.set (privateOctets keypair.identity) keypair.privateKey.val dir)) fun _ _ => True := by
  unfold KeySystem.saveKeypair
  rw [ends_observe_bind]
  apply ends_ofExcept_bind _ fun _ _ => trivial
  intro _ _
  apply ends_ofExcept_bind _ fun _ _ => trivial
  intro octets opened
  have same := (openName_private opened).2
  apply ends_bind (writeFile_ends _ _)
  intro _ dir₁ wrote
  rw [ends_observe_bind]
  apply ends_ofExcept_bind _ fun _ _ => trivial
  intro _ _
  apply ends_ofExcept_bind _ fun _ _ => trivial
  intro octets' opened'
  have same' := openName_public opened'
  apply ends_bind (writeFile_ends _ _)
  intro _ dir₂ wrote'
  rw [ends_pure, wrote', wrote, same', ← same]
  exact ⟨rfl, opened, rfl⟩

/-- The private files after a call. -/
theorem saved_lookup (identity : Str) :
    (Entries.set (publicOctets keypair.identity) keypair.publicKey
        (Entries.set (privateOctets keypair.identity) keypair.privateKey.val dir)).lookup (privateOctets identity) =
      if privateOctets keypair.identity = privateOctets identity then some keypair.privateKey.val
      else dir.lookup (privateOctets identity) := by
  rw [Entries.lookup_set_other (privateOctets_ne_public _ _)]
  split
  · rename_i same
    rw [same, Entries.lookup_set_same]
  · rename_i other
    exact Entries.lookup_set_other (Ne.symm other) _ _

/-- Each private file holds a key that was saved under its name; other private files are left alone. -/
structure SavedKeys (keypairs : List LocalKeyPair) (dir dir' : KeyDirectory) : Prop where
  opened : ∀ k ∈ keypairs, openName (privateName k.identity) = .ok (privateOctets k.identity)
  saved : ∀ k ∈ keypairs, ∃ k' ∈ keypairs, privateOctets k'.identity = privateOctets k.identity ∧
    dir'.lookup (privateOctets k.identity) = some k'.privateKey.val
  other : ∀ identity, (∀ k ∈ keypairs, privateOctets k.identity ≠ privateOctets identity) →
    dir'.lookup (privateOctets identity) = dir.lookup (privateOctets identity)

theorem saveAll_ends : Ends (system.saveAll keypairs) dir
    (fun paths dir' => paths = keypairs.map (fun k => (privateName k.identity, publicName k.identity)) ∧
      SavedKeys keypairs dir dir') fun _ _ => True := by
  induction keypairs generalizing dir with
  | nil => exact ⟨rfl, List.forall_mem_nil _, List.forall_mem_nil _, fun _ _ => rfl⟩
  | cons keypair rest ih =>
    unfold KeySystem.saveAll
    refine ends_bind saveKeypair_ends fun paths dir₁ first => ?_
    obtain ⟨own, opened, wrote⟩ := first
    refine ends_bind ih fun others dir' later => ?_
    obtain ⟨names, saved⟩ := later
    have after (identity : Str) (free : ∀ k ∈ rest, privateOctets k.identity ≠ privateOctets identity) :
        dir'.lookup (privateOctets identity) =
          if privateOctets keypair.identity = privateOctets identity then some keypair.privateKey.val
          else dir.lookup (privateOctets identity) := by
      rw [saved.other identity free, wrote, saved_lookup]
    refine ⟨by rw [own, names, List.map_cons], List.forall_mem_cons.mpr ⟨opened, saved.opened⟩, ?_, ?_⟩
    · have kept (k' : LocalKeyPair) (mem : k' ∈ rest) {octets : Bytes} (name : privateOctets k'.identity = octets) :
          ∃ k'' ∈ keypair :: rest, privateOctets k''.identity = octets ∧ dir'.lookup octets = some k''.privateKey.val := by
        obtain ⟨k'', mem', same, found⟩ := saved.saved k' mem
        exact ⟨k'', List.mem_cons_of_mem _ mem', same.trans name, name ▸ found⟩
      intro k mem
      rcases List.mem_cons.mp mem with same | mem
      · subst same
        by_cases again : ∃ k' ∈ rest, privateOctets k'.identity = privateOctets k.identity
        · obtain ⟨k', mem', name⟩ := again
          exact kept k' mem' name
        · have free : ∀ k' ∈ rest, privateOctets k'.identity ≠ privateOctets k.identity :=
            fun k' mem' name => again ⟨k', mem', name⟩
          exact ⟨k, List.mem_cons_self, rfl, by rw [after k.identity free, if_pos rfl]⟩
      · exact kept k mem rfl
    · intro identity free
      obtain ⟨first, others⟩ := List.forall_mem_cons.mp free
      rw [after identity others, if_neg first]

/-- What is read back for a key that was saved. -/
theorem loadPrivateKey_of_lookup {identity : Str} {key : PrivateKey}
    (opened : openName (privateName identity) = .ok (privateOctets identity))
    (found : dir.lookup (privateOctets identity) = some key.val) :
    system.loadPrivateKey (privateName identity) identity dir =
      .ok { identity, privateKey := key, publicKey := system.publicKey key } := by
  have read : KeySystem.readFile (privateName identity) dir = some key.val := by
    unfold KeySystem.readFile
    rw [opened]
    exact found
  unfold KeySystem.loadPrivateKey
  dsimp only
  rw [read]
  exact dif_pos key.property

end Saving

/-- A system on which every call succeeds. -/
def sampleKeySystem : KeySystem where
  pathText name := str "keys/" ++ name
  mkdir _ := none
  create _ _ := none
  write _ _ := none
  chmod _ _ := none
  publicKey key := key.val

def sampleKeypair (identity : String) (octet : UInt8) : LocalKeyPair where
  identity := str identity
  privateKey := ⟨List.replicate 32 octet, List.length_replicate⟩
  publicKey := List.replicate 32 octet

end ModelGuard.Signing
