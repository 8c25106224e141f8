import ModelGuard.Lib.Transition
import ModelGuard.Registry.Postgres

/-!
# Schema migrations by concurrent owners

`migrate` is one transaction under an advisory lock: it reads which migrations were applied, refuses a schema that is
newer or was made with other SQL, and runs the others. The steps of any number of calls, of any releases of one
history, interleave in any order, and each may abort.
-/

namespace ModelGuard.Registry

open Lib Lib.Fallible ModelGuard.Hashing

structure Migration where
  version : Nat
  name : Str
  sql : Str
deriving DecidableEq

/-- `Migration.checksum`. -/
def Migration.checksum (sha : Sha256) (m : Migration) : Str := sha.hexdigest (utf8Octets m.sql)

/-- A row of `modelguard_schema_migrations`, without the time. -/
structure AppliedRow where
  version : Nat
  name : Str
  checksum : Str
deriving DecidableEq

def Migration.row (sha : Sha256) (m : Migration) : AppliedRow where
  version := m.version
  name := m.name
  checksum := m.checksum sha

/-- `MIGRATIONS`, as one release ships it. -/
structure Release where
  migrations : List Migration
  some : migrations ≠ []
  ascending : migrations.Pairwise fun a b => a.version < b.version

/-- `LATEST_VERSION`. -/
def Release.latestVersion (release : Release) : Nat := (release.migrations.getLast release.some).version

/-- `{int(v): str(c) for v, c in rows}`. -/
def appliedChecksums (rows : List AppliedRow) : List (Nat × Str) := rows.map fun row => (row.version, row.checksum)

/-- `max(applied, default=0)`. -/
def maxVersion (applied : List (Nat × Str)) : Nat := (applied.map Prod.fst).foldr max 0

def schemaError (message : Str) : Raised := .modelGuard .registryBackendError message

def checksumMismatch (version : Nat) : Raised :=
  schemaError (str "Migration " ++ Json.natText version ++ str (" was applied with different SQL than this ModelGuard ships " ++
    "(checksum mismatch). Refusing to operate on a schema that may not be what the code expects."))

def notInitialized : Raised :=
  schemaError (str ("The registry schema is not initialized. Run the migration as the owner role: " ++
    "PostgresRegistry(...).migrate()."))

def olderSchema (found latest : Nat) : Raised :=
  schemaError (str "The registry schema is at version " ++ Json.natText found ++ str " but this ModelGuard needs " ++
    Json.natText latest ++ str ". Run migrate() as the owner role.")

def newerSchema (found latest : Nat) : Raised :=
  schemaError (str "The registry schema (v" ++ Json.natText found ++ str ") is newer than this ModelGuard (v" ++
    Json.natText latest ++ str "). Upgrade ModelGuard; refusing to operate on a schema it does not understand.")

def newerThanMigrator (found latest : Nat) : Raised :=
  schemaError (str "The registry schema (v" ++ Json.natText found ++ str ") is newer than this ModelGuard (v" ++
    Json.natText latest ++ str "); refusing to migrate.")

section Checks

variable (sha : Sha256) (release : Release)

/-- `shipped.get(version)`: the last of equal keys stays in a dictionary. -/
def shippedChecksum (version : Nat) : Option Str :=
  (release.migrations.reverse.map fun m => (m.version, m.checksum sha)).lookup version

/-- `_check_checksums`. -/
def checkChecksums : List (Nat × Str) → Except Raised Unit
  | [] => .ok ()
  | (version, checksum) :: rest =>
    if (shippedChecksum sha release version).any (· ≠ checksum) then .error (checksumMismatch version)
    else checkChecksums rest

/-- `_verify_schema`, of the table that the session sees. -/
def verifySchema : Option (List AppliedRow) → Except Raised Unit
  | none => .error notInitialized
  | some rows =>
    let applied := appliedChecksums (rows.insertionSort fun a b => a.version ≤ b.version)
    if applied = [] ∨ maxVersion applied < release.latestVersion then
      .error (olderSchema (maxVersion applied) release.latestVersion)
    else if release.latestVersion < maxVersion applied then
      .error (newerSchema (maxVersion applied) release.latestVersion)
    else checkChecksums sha release applied

/-- What `migrate` checks of the applied migrations. -/
def checkMigratable (applied : List (Nat × Str)) : Except Raised Unit :=
  if applied ≠ [] ∧ release.latestVersion < maxVersion applied then
    .error (newerThanMigrator (maxVersion applied) release.latestVersion)
  else checkChecksums sha release applied

variable {sha release}

theorem lt_maxVersion {k : Nat} {applied : List (Nat × Str)} : k < maxVersion applied ↔ ∃ p ∈ applied, k < p.1 := by
  unfold maxVersion
  induction applied with
  | nil => simp
  | cons p rest ih => rw [List.map_cons, List.foldr_cons, lt_max_iff, ih, List.exists_mem_cons_iff]

theorem le_maxVersion {applied : List (Nat × Str)} {p : Nat × Str} (mem : p ∈ applied) : p.1 ≤ maxVersion applied := by
  by_contra above
  have below : ¬∃ q ∈ applied, maxVersion applied < q.1 := fun more => Nat.lt_irrefl _ (lt_maxVersion.mpr more)
  exact below ⟨p, mem, Nat.not_le.mp above⟩

theorem exists_maxVersion {applied : List (Nat × Str)} (nonempty : applied ≠ []) : ∃ p ∈ applied, p.1 = maxVersion applied := by
  cases greatest : maxVersion applied with
  | zero =>
    obtain ⟨p, mem⟩ := List.exists_mem_of_ne_nil _ nonempty
    have below := le_maxVersion mem
    exact ⟨p, mem, by omega⟩
  | succ k =>
    have reached : k < maxVersion applied := by omega
    obtain ⟨p, mem, above⟩ := lt_maxVersion.mp reached
    have below := le_maxVersion mem
    exact ⟨p, mem, by omega⟩

theorem shippedChecksum_some {version : Nat} {checksum : Str} :
    shippedChecksum sha release version = some checksum ↔
      ∃ m ∈ release.migrations, m.version = version ∧ m.checksum sha = checksum := by
  have distinct : ((release.migrations.reverse.map fun m => (m.version, m.checksum sha)).map Prod.fst).Nodup := by
    rw [List.map_map, List.map_reverse, List.nodup_reverse]
    exact List.pairwise_map.mpr (release.ascending.imp fun below => below.ne)
  unfold shippedChecksum
  constructor
  · intro found
    obtain ⟨m, mem, same⟩ := List.mem_map.mp (Dict.mem_of_lookup found)
    cases same
    exact ⟨m, List.mem_reverse.mp mem, rfl, rfl⟩
  · rintro ⟨m, mem, rfl, rfl⟩
    exact Dict.lookup_of_mem distinct (List.mem_map.mpr ⟨m, List.mem_reverse.mpr mem, rfl⟩)

theorem checkChecksums_ok {applied : List (Nat × Str)} {u : Unit} :
    checkChecksums sha release applied = .ok u ↔
      ∀ p ∈ applied, ∀ m ∈ release.migrations, m.version = p.1 → m.checksum sha = p.2 := by
  induction applied with
  | nil => simp [checkChecksums]
  | cons p rest ih =>
    obtain ⟨version, checksum⟩ := p
    unfold checkChecksums
    rw [List.forall_mem_cons, ← ih]
    have clash : (shippedChecksum sha release version).any (· ≠ checksum) = true ↔
        ∃ m ∈ release.migrations, m.version = version ∧ m.checksum sha ≠ checksum := by
      rw [Option.any_eq_true]
      constructor
      · rintro ⟨own, found, other⟩
        obtain ⟨m, mem, same, rfl⟩ := shippedChecksum_some.mp found
        exact ⟨m, mem, same, of_decide_eq_true other⟩
      · rintro ⟨m, mem, same, other⟩
        exact ⟨_, shippedChecksum_some.mpr ⟨m, mem, same, rfl⟩, decide_eq_true other⟩
    split
    · rename_i found
      obtain ⟨m, mem, same, other⟩ := clash.mp found
      exact ⟨nofun, fun all => (other (all.1 m mem same)).elim⟩
    · rename_i found
      refine ⟨fun ok => ⟨fun m mem same => ?_, ok⟩, And.right⟩
      by_contra other
      exact found (clash.mpr ⟨m, mem, same, other⟩)

/-- A migration that was applied with other SQL is noticed by both checks. -/
theorem edited_refused {rows : List AppliedRow} {row : AppliedRow} (mem : row ∈ rows) {m : Migration}
    (own : m ∈ release.migrations) (same : m.version = row.version) (other : m.checksum sha ≠ row.checksum) :
    verifySchema sha release (some rows) ≠ .ok () ∧ checkMigratable sha release (appliedChecksums rows) ≠ .ok () := by
  have noticed {rows : List AppliedRow} (mem : row ∈ rows) : checkChecksums sha release (appliedChecksums rows) ≠ .ok () :=
    fun ok => other (checkChecksums_ok.mp ok _ (List.mem_map_of_mem mem) m own same)
  constructor
  · unfold verifySchema
    dsimp only
    split
    · exact nofun
    · split
      · exact nofun
      · exact noticed ((List.mem_insertionSort _).mpr mem)
  · unfold checkMigratable
    split
    · exact nofun
    · exact noticed mem

end Checks

/-! ### The schema after some migrations -/

section Scripts

variable {S : Type} (execute : Str → S → Except PgError S)

/-- The scripts of some migrations, one after another. -/
def runScripts : List Migration → S → Except PgError S
  | [], objects => .ok objects
  | m :: rest, objects => execute m.sql objects >>= runScripts rest

theorem runScripts_append {first rest : List Migration} {objects last : S} :
    runScripts execute (first ++ rest) objects = .ok last ↔
      ∃ middle, runScripts execute first objects = .ok middle ∧ runScripts execute rest middle = .ok last := by
  induction first generalizing objects with
  | nil => simp [runScripts]
  | cons m first ih =>
    simp only [List.cons_append, runScripts, bind_ok, ih]
    exact ⟨fun ⟨o, run, middle, first, rest⟩ => ⟨middle, ⟨o, run, first⟩, rest⟩,
      fun ⟨middle, ⟨o, run, first⟩, rest⟩ => ⟨o, run, middle, first, rest⟩⟩

theorem runScripts_snoc {first : List Migration} {m : Migration} {objects middle last : S}
    (run : runScripts execute first objects = .ok middle) (next : execute m.sql middle = .ok last) :
    runScripts execute (first ++ [m]) objects = .ok last :=
  (runScripts_append execute).mpr ⟨middle, run, by simp [runScripts, next, bind_ok]⟩

end Scripts

/-- How far a call of `migrate` has come. -/
inductive MigrationPhase (S : Type) where
  | idle
  /-- `SELECT pg_advisory_xact_lock` was sent. -/
  | waiting
  | locked
  /-- The table of migrations is there. -/
  | created
  /-- At the head of the loop: what was applied before, what this transaction sees, the rows it has inserted, the
  migrations that are left and those it has applied. -/
  | applying (applied : List (Nat × Str)) (view : S) (own : List AppliedRow) (todo : List Migration) (appliedNow : List Nat)
  /-- The script of a migration has run. -/
  | executed (applied : List (Nat × Str)) (view : S) (own : List AppliedRow) (next : Migration) (todo : List Migration)
      (appliedNow : List Nat)
  | returned (appliedNow : List Nat)
  | raised (e : Raised)

namespace MigrationPhase

variable {S : Type}

def HoldsLock : MigrationPhase S → Prop
  | locked => True
  | created => True
  | applying .. => True
  | executed .. => True
  | _ => False

def Running : MigrationPhase S → Prop
  | idle => False
  | returned _ => False
  | raised _ => False
  | _ => True

end MigrationPhase

/-- The calls of `migrate`, named by `C`, the registry objects, named by `O`, and the database they share. -/
structure Owners (S C O : Type) where
  phase : C → MigrationPhase S
  /-- The session that holds the advisory lock. -/
  holder : Option C
  /-- The committed table of migrations, once it is there. -/
  table : Option (List AppliedRow)
  /-- The other committed objects of the schema. -/
  objects : S
  /-- The versions that each committed call has applied. -/
  log : List (C × List Nat)
  /-- The objects whose `_schema_verified` is set. -/
  verified : Set O

namespace Owners

variable {S C O : Type}

def start (initial : S) : Owners S C O where
  phase _ := .idle
  holder := none
  table := none
  objects := initial
  log := []
  verified := ∅

def rows (s : Owners S C O) : List AppliedRow := s.table.getD []

section Steps

variable [DecidableEq C]

def enter (s : Owners S C O) (c : C) (phase : MigrationPhase S) : Owners S C O :=
  { s with phase := Function.update s.phase c phase }

/-- A transaction that ends gives up its lock. -/
def release (s : Owners S C O) (c : C) : Owners S C O := { s with holder := if s.holder = some c then none else s.holder }

variable (sha : Sha256) (execute : Str → S → Except PgError S) (ships : C → Release) (expects : O → Release)

/-- One step of one call of `migrate`, or the first connection of a registry object. -/
inductive Step : Owners S C O → Owners S C O → Prop
  | connect {s : Owners S C O} (c : C) (idle : s.phase c = .idle) : Step s (s.enter c .waiting)
  | lock {s : Owners S C O} (c : C) (waiting : s.phase c = .waiting) (free : s.holder = none) :
      Step s { s.enter c .locked with holder := some c }
  | bootstrap {s : Owners S C O} (c : C) (locked : s.phase c = .locked) : Step s (s.enter c .created)
  | refuse {s : Owners S C O} (c : C) (created : s.phase c = .created) {e : Raised}
      (refused : checkMigratable sha (ships c) (appliedChecksums s.rows) = .error e) :
      Step s ((s.enter c (.raised e)).release c)
  | read {s : Owners S C O} (c : C) (created : s.phase c = .created)
      (checked : checkMigratable sha (ships c) (appliedChecksums s.rows) = .ok ()) :
      Step s (s.enter c (.applying (appliedChecksums s.rows) s.objects [] (ships c).migrations []))
  | skip {s : Owners S C O} (c : C) {applied : List (Nat × Str)} {view : S} {own : List AppliedRow} {m : Migration}
      {todo : List Migration} {appliedNow : List Nat} (applying : s.phase c = .applying applied view own (m :: todo) appliedNow)
      (before : m.version ∈ applied.map Prod.fst) : Step s (s.enter c (.applying applied view own todo appliedNow))
  | execute {s : Owners S C O} (c : C) {applied : List (Nat × Str)} {view view' : S} {own : List AppliedRow} {m : Migration}
      {todo : List Migration} {appliedNow : List Nat} (applying : s.phase c = .applying applied view own (m :: todo) appliedNow)
      (pending : m.version ∉ applied.map Prod.fst) (ran : execute m.sql view = .ok view') :
      Step s (s.enter c (.executed applied view' own m todo appliedNow))
  | fail {s : Owners S C O} (c : C) {applied : List (Nat × Str)} {view : S} {own : List AppliedRow} {m : Migration}
      {todo : List Migration} {appliedNow : List Nat} (applying : s.phase c = .applying applied view own (m :: todo) appliedNow)
      (pending : m.version ∉ applied.map Prod.fst) {e : PgError} (failed : execute m.sql view = .error e) :
      Step s ((s.enter c (.raised (backendError "migration" e))).release c)
  | insert {s : Owners S C O} (c : C) {applied : List (Nat × Str)} {view : S} {own : List AppliedRow} {m : Migration}
      {todo : List Migration} {appliedNow : List Nat} (executed : s.phase c = .executed applied view own m todo appliedNow)
      (fresh : m.version ∉ (s.rows ++ own).map AppliedRow.version) :
      Step s (s.enter c (.applying applied view (own ++ [m.row sha]) todo (appliedNow ++ [m.version])))
  | clash {s : Owners S C O} (c : C) {applied : List (Nat × Str)} {view : S} {own : List AppliedRow} {m : Migration}
      {todo : List Migration} {appliedNow : List Nat} (executed : s.phase c = .executed applied view own m todo appliedNow)
      (taken : m.version ∈ (s.rows ++ own).map AppliedRow.version) :
      Step s ((s.enter c (.raised (backendError "migration" uniqueViolation))).release c)
  | commit {s : Owners S C O} (c : C) {applied : List (Nat × Str)} {view : S} {own : List AppliedRow} {appliedNow : List Nat}
      (applying : s.phase c = .applying applied view own [] appliedNow) :
      Step s { (s.enter c (.returned appliedNow)).release c with
        table := some (s.rows ++ own), objects := view, log := s.log ++ [(c, appliedNow)] }
  | abort {s : Owners S C O} (c : C) (running : (s.phase c).Running) (e : Raised) :
      Step s ((s.enter c (.raised e)).release c)
  /-- An object that has not checked the schema does so at its next connection. -/
  | verify {s : Owners S C O} (o : O) (unverified : o ∉ s.verified)
      (current : verifySchema sha (expects o) s.table = .ok ()) : Step s { s with verified := insert o s.verified }

abbrev Run : Owners S C O → Owners S C O → Prop := Relation.ReflTransGen (Step sha execute ships expects)

end Steps

/-! ### What every step keeps -/

/-- A call at the head of the loop: it has run what the table lacked of the migrations behind it. -/
structure Progress (sha : Sha256) (execute : Str → S → Except PgError S) (s : Owners S C O) (release : Release)
    (applied : List (Nat × Str)) (view : S) (own : List AppliedRow) (todo : List Migration) (appliedNow : List Nat) : Prop where
  read : applied = appliedChecksums s.rows
  within : s.rows.length ≤ release.migrations.length
  split : ∃ done, release.migrations = done ++ todo ∧ own = (done.drop s.rows.length).map (Migration.row sha) ∧
    appliedNow = (done.drop s.rows.length).map Migration.version ∧
    runScripts execute (done.drop s.rows.length) s.objects = .ok view

def Fits (sha : Sha256) (execute : Str → S → Except PgError S) (s : Owners S C O) (release : Release) : MigrationPhase S → Prop
  | .applying applied view own todo appliedNow => Progress sha execute s release applied view own todo appliedNow
  | .executed applied view own m todo appliedNow => m.version ∉ applied.map Prod.fst ∧
      ∃ before, execute m.sql before = .ok view ∧ Progress sha execute s release applied before own (m :: todo) appliedNow
  | .returned appliedNow => release.migrations.length ≤ s.rows.length ∧
      ∃ k, appliedNow = (release.migrations.drop k).map Migration.version
  | _ => True

/-- The table and the objects are those of the first migrations of the history, each applied by one call. -/
structure Upgraded (sha : Sha256) (execute : Str → S → Except PgError S) (history : List Migration) (initial : S)
    (s : Owners S C O) : Prop where
  rows : s.rows = (history.take s.rows.length).map (Migration.row sha)
  made : s.table = none ↔ s.rows = []
  objects : runScripts execute (history.take s.rows.length) initial = .ok s.objects
  log : (s.log.flatMap Prod.snd) = (history.take s.rows.length).map Migration.version

structure Consistent (sha : Sha256) (execute : Str → S → Except PgError S) (ships : C → Release) (expects : O → Release)
    (history : List Migration) (initial : S) (s : Owners S C O) : Prop where
  lock : ∀ c, (s.phase c).HoldsLock → s.holder = some c
  upgraded : Upgraded sha execute history initial s
  fits : ∀ c, Fits sha execute s (ships c) (s.phase c)
  verified : ∀ o ∈ s.verified, (expects o).migrations.length ≤ s.rows.length

variable {sha : Sha256} {execute : Str → S → Except PgError S} {ships : C → Release} {expects : O → Release}
  {history : List Migration} {initial : S} {s : Owners S C O} {c : C}

theorem consistent_start : Consistent sha execute ships expects history initial (start initial : Owners S C O) where
  lock _ holds := holds.elim
  upgraded := ⟨rfl, ⟨fun _ => rfl, fun _ => rfl⟩, rfl, rfl⟩
  fits _ := trivial
  verified _ mem := mem.elim

/-- What a step of `c` that commits nothing leaves: the other calls, the table, the objects and the lock of others. -/
structure Frame (s t : Owners S C O) (c : C) : Prop where
  phase : ∀ d, d ≠ c → t.phase d = s.phase d
  holder : ∀ d, d ≠ c → s.holder = some d → t.holder = some d
  table : t.table = s.table
  objects : t.objects = s.objects
  log : t.log = s.log
  verified : t.verified = s.verified

theorem Progress.of_same {t : Owners S C O} {release : Release} {applied : List (Nat × Str)} {view : S} {own : List AppliedRow}
    {todo : List Migration} {appliedNow : List Nat} (progress : Progress sha execute s release applied view own todo appliedNow)
    (rows : t.rows = s.rows) (objects : t.objects = s.objects) :
    Progress sha execute t release applied view own todo appliedNow := by
  obtain ⟨read, within, split⟩ := progress
  constructor
  · rwa [rows]
  · rwa [rows]
  · rwa [rows, objects]

theorem fits_of_same {t : Owners S C O} {release : Release} {phase : MigrationPhase S} (fits : Fits sha execute s release phase)
    (rows : t.rows = s.rows) (objects : t.objects = s.objects) : Fits sha execute t release phase := by
  cases phase with
  | applying applied view own todo appliedNow => exact Progress.of_same fits rows objects
  | executed applied view own m todo appliedNow =>
    obtain ⟨pending, before, ran, progress⟩ := fits
    exact ⟨pending, before, ran, progress.of_same rows objects⟩
  | returned appliedNow =>
    obtain ⟨long, k, same⟩ := fits
    exact ⟨rows ▸ long, k, same⟩
  | idle => trivial
  | waiting => trivial
  | locked => trivial
  | created => trivial
  | raised e => trivial

/-- A step that commits nothing keeps the invariant when the new phase of `c` fits it. -/
theorem Consistent.frame {t : Owners S C O} {phase : MigrationPhase S} (h : Consistent sha execute ships expects history initial s)
    (f : Frame s t c) (now : t.phase c = phase) (lock : phase.HoldsLock → t.holder = some c)
    (fits : Fits sha execute s (ships c) phase) : Consistent sha execute ships expects history initial t := by
  subst now
  have rows : t.rows = s.rows := congrArg (·.getD []) f.table
  constructor
  · intro d holds
    by_cases same : d = c
    · subst same
      exact lock holds
    · rw [f.phase d same] at holds
      exact f.holder d same (h.lock d holds)
  · obtain ⟨own, made, objects, log⟩ := h.upgraded
    constructor
    · rwa [rows]
    · rwa [rows, f.table]
    · rwa [rows, f.objects]
    · rwa [rows, f.log]
  · intro d
    by_cases same : d = c
    · subst same
      exact fits_of_same fits rows f.objects
    · rw [f.phase d same]
      exact fits_of_same (h.fits d) rows f.objects
  · intro o mem
    rw [f.verified] at mem
    rw [rows]
    exact h.verified o mem

/-- While one call holds the lock, no other call is past it. -/
theorem Consistent.alone (h : Consistent sha execute ships expects history initial s) (holds : (s.phase c).HoldsLock) {d : C}
    (other : d ≠ c) : ¬(s.phase d).HoldsLock := by
  intro holds'
  exact other (Option.some.inj ((h.lock d holds').symm.trans (h.lock c holds)))

variable [DecidableEq C]

theorem enter_self (s : Owners S C O) (c : C) (phase : MigrationPhase S) : (s.enter c phase).phase c = phase :=
  Function.update_self ..

theorem enter_other (s : Owners S C O) {c d : C} (h : d ≠ c) (phase : MigrationPhase S) : (s.enter c phase).phase d = s.phase d :=
  Function.update_of_ne h ..

theorem frame_enter (s : Owners S C O) (c : C) (phase : MigrationPhase S) : Frame s (s.enter c phase) c where
  phase _ other := enter_other s other phase
  holder _ _ held := held
  table := rfl
  objects := rfl
  log := rfl
  verified := rfl

theorem Frame.release {t : Owners S C O} (f : Frame s t c) : Frame s (t.release c) c where
  phase := f.phase
  holder d other held := by
    have kept := f.holder d other held
    have elsewhere : t.holder ≠ some c := fun same => other (Option.some.inj (kept.symm.trans same))
    show (if t.holder = some c then none else t.holder) = some d
    rw [if_neg elsewhere, kept]
  table := f.table
  objects := f.objects
  log := f.log
  verified := f.verified

/-- A call that raises keeps the invariant. -/
theorem Consistent.giveUp (h : Consistent sha execute ships expects history initial s) (c : C) (e : Raised) :
    Consistent sha execute ships expects history initial ((s.enter c (.raised e)).release c) :=
  h.frame (frame_enter s c _).release (enter_self s c _) False.elim trivial

end Owners

/-! ### Releases of one history -/

theorem take_release {history : List Migration} {n : Nat} {release : Release} (ships : release.migrations <+: history)
    (within : n ≤ release.migrations.length) : history.take n = release.migrations.take n := by
  obtain ⟨rest, same⟩ := ships
  rw [← same, List.take_append_of_le_length within]

section History

variable {sha : Sha256} {history : List Migration} (ascending : history.Pairwise fun a b => a.version < b.version) {n : Nat}

include ascending

theorem eq_of_version {a b : Migration} (mem : a ∈ history) (mem' : b ∈ history) (same : a.version = b.version) : a = b :=
  List.inj_on_of_nodup_map (List.pairwise_map.mpr (ascending.imp fun below => below.ne)) mem mem' same

/-- What is behind some of the migrations is not among the first ones. -/
theorem mem_take_iff {done rest : List Migration} {m : Migration} (split : history = done ++ m :: rest) :
    m.version ∈ (history.take n).map Migration.version ↔ done.length < n := by
  subst split
  constructor
  · intro mem
    by_contra short
    rw [List.take_append_of_le_length (Nat.not_lt.mp short)] at mem
    obtain ⟨other, own, same⟩ := List.mem_map.mp mem
    have below := (List.pairwise_append.mp ascending).2.2 other (List.mem_of_mem_take own) m List.mem_cons_self
    omega
  · intro long
    obtain ⟨k, rfl⟩ := Nat.exists_eq_add_of_lt long
    rw [show done.length + k + 1 = done.length + (k + 1) from rfl, List.take_length_add_append, List.take_succ_cons]
    exact List.mem_map_of_mem (List.mem_append_right _ List.mem_cons_self)

variable {release : Release} (ships : release.migrations <+: history)

include ships

theorem latestVersion_lt_iff {m : Migration} (mem : m ∈ history) : release.latestVersion < m.version ↔ m ∉ release.migrations := by
  obtain ⟨rest, same⟩ := ships
  have last : release.migrations.getLast release.some ∈ release.migrations := List.getLast_mem _
  constructor
  · intro above own
    have split := List.dropLast_append_getLast release.some
    have order := release.ascending
    rw [← split, List.pairwise_append] at order
    rw [← split] at own
    rcases List.mem_append.mp own with before | equal
    · have below := order.2.2 m before _ (List.mem_singleton_self _)
      unfold Release.latestVersion at above
      omega
    · rw [List.mem_singleton.mp equal] at above
      exact Nat.lt_irrefl _ above
  · intro other
    rw [← same] at mem ascending
    exact (List.pairwise_append.mp ascending).2.2 _ last m ((List.mem_append.mp mem).resolve_left other)

/-- A later migration is among the first ones exactly if these are more than the release ships. -/
theorem exists_later_iff (bound : n ≤ history.length) :
    (∃ m ∈ history.take n, release.latestVersion < m.version) ↔ release.migrations.length < n := by
  constructor
  · rintro ⟨m, mem, later⟩
    by_contra short
    rw [take_release ships (Nat.not_lt.mp short)] at mem
    have own := List.mem_of_mem_take mem
    exact (latestVersion_lt_iff ascending ships (ships.subset own)).mp later own
  · intro long
    obtain ⟨rest, same⟩ := ships
    cases rest with
    | nil =>
      rw [← same, List.append_nil] at bound
      omega
    | cons m rest =>
      have mem : m ∈ history := same ▸ List.mem_append_right _ List.mem_cons_self
      have first : m.version ∈ (history.take n).map Migration.version := (mem_take_iff ascending same.symm).mpr long
      obtain ⟨other, own, equal⟩ := List.mem_map.mp first
      have later := (List.pairwise_append.mp (same.symm ▸ ascending)).2.2 _ (List.getLast_mem release.some) m List.mem_cons_self
      exact ⟨other, own, equal ▸ later⟩

/-- The migrations of a release have the checksums under which they were applied. -/
theorem checkChecksums_history (sha : Sha256) (n : Nat) :
    checkChecksums sha release (appliedChecksums ((history.take n).map (Migration.row sha))) = .ok () := by
  refine checkChecksums_ok.mpr fun p mem m own same => ?_
  unfold appliedChecksums at mem
  rw [List.map_map] at mem
  obtain ⟨other, applied, pair⟩ := List.mem_map.mp mem
  subst pair
  have equal := eq_of_version ascending (ships.subset own) (List.mem_of_mem_take applied) same
  exact equal ▸ rfl

theorem lt_maxVersion_history (sha : Sha256) (bound : n ≤ history.length) :
    release.latestVersion < maxVersion (appliedChecksums ((history.take n).map (Migration.row sha))) ↔
      release.migrations.length < n := by
  rw [lt_maxVersion, ← exists_later_iff ascending ships bound]
  unfold appliedChecksums
  rw [List.map_map]
  exact ⟨fun ⟨p, mem, later⟩ => by
      obtain ⟨m, own, same⟩ := List.mem_map.mp mem
      subst same
      exact ⟨m, own, later⟩,
    fun ⟨m, own, later⟩ => ⟨_, List.mem_map_of_mem own, later⟩⟩

/-- `migrate` goes on exactly if nothing was applied that its release does not ship. -/
theorem checkMigratable_history (sha : Sha256) (bound : n ≤ history.length) :
    checkMigratable sha release (appliedChecksums ((history.take n).map (Migration.row sha))) =
      if n ≤ release.migrations.length then .ok ()
      else .error (newerThanMigrator (maxVersion (appliedChecksums ((history.take n).map (Migration.row sha))))
        release.latestVersion) := by
  have newer := lt_maxVersion_history ascending ships sha bound
  unfold checkMigratable
  by_cases within : n ≤ release.migrations.length
  · rw [if_pos within, if_neg (fun clash => Nat.not_lt.mpr within (newer.mp clash.2)), checkChecksums_history ascending ships]
  · have some : appliedChecksums ((history.take n).map (Migration.row sha)) ≠ [] := by
      intro none
      have size := congrArg List.length none
      unfold appliedChecksums at size
      rw [List.length_map, List.length_map, List.length_take, List.length_nil] at size
      omega
    rw [if_neg within, if_pos ⟨some, newer.mpr (Nat.not_le.mp within)⟩]

/-- The schema is accepted exactly if the release's own migrations were applied. -/
theorem verifySchema_history (sha : Sha256) (bound : n ≤ history.length) :
    verifySchema sha release (some ((history.take n).map (Migration.row sha))) = .ok () ↔ n = release.migrations.length := by
  have sorted : ((history.take n).map (Migration.row sha)).insertionSort (fun a b => a.version ≤ b.version) =
      (history.take n).map (Migration.row sha) :=
    (List.pairwise_map.mpr ((ascending.sublist (List.take_sublist n history)).imp fun below => below.le)).insertionSort_eq
  have newer := lt_maxVersion_history ascending ships sha bound
  have versions : (appliedChecksums ((history.take n).map (Migration.row sha))).map Prod.fst =
      (history.take n).map Migration.version := by
    unfold appliedChecksums
    rw [List.map_map, List.map_map]
    rfl
  -- The last migration of the release is applied exactly if all of them are.
  have last : release.latestVersion ∈ (appliedChecksums ((history.take n).map (Migration.row sha))).map Prod.fst ↔
      release.migrations.length ≤ n := by
    obtain ⟨rest, same⟩ := ships
    rw [← List.dropLast_append_getLast release.some, List.append_assoc, List.singleton_append] at same
    have positive := List.length_pos_iff.mpr release.some
    rw [versions]
    refine (mem_take_iff ascending same.symm).trans ?_
    rw [List.length_dropLast]
    omega
  unfold verifySchema
  dsimp only
  rw [sorted]
  constructor
  · intro ok
    split at ok
    · cases ok
    · rename_i current
      rw [not_or, Nat.not_lt] at current
      split at ok
      · cases ok
      · rename_i within
        obtain ⟨p, mem, greatest⟩ := exists_maxVersion current.1
        have equal : p.1 = release.latestVersion := by omega
        have reached := last.mp (equal ▸ List.mem_map_of_mem mem)
        rw [newer, Nat.not_lt] at within
        exact le_antisymm within reached
  · intro same
    obtain ⟨p, mem, equal⟩ := List.mem_map.mp (last.mpr same.ge)
    have greatest := le_maxVersion mem
    have current : ¬(appliedChecksums ((history.take n).map (Migration.row sha)) = [] ∨
        maxVersion (appliedChecksums ((history.take n).map (Migration.row sha))) < release.latestVersion) := by
      rintro (none | older)
      · rw [none] at mem
        exact (List.not_mem_nil mem).elim
      · omega
    have within : ¬release.latestVersion < maxVersion (appliedChecksums ((history.take n).map (Migration.row sha))) := by
      rw [newer]
      omega
    rw [if_neg current, if_neg within]
    exact checkChecksums_history ascending ships sha n

end History

namespace Owners

/-! ### Every interleaving -/

section Interleaved

variable {S C O : Type} {sha : Sha256} {execute : Str → S → Except PgError S} {ships : C → Release}
  {expects : O → Release} {history : List Migration} {initial : S} {s : Owners S C O} {c : C}

theorem Upgraded.bound (h : Upgraded sha execute history initial s) : s.rows.length ≤ history.length := by
  have size := congrArg List.length h.rows
  rw [List.length_map, List.length_take] at size
  omega

theorem Upgraded.versions (h : Upgraded sha execute history initial s) :
    (appliedChecksums s.rows).map Prod.fst = (history.take s.rows.length).map Migration.version := by
  conv_lhs => rw [h.rows]
  unfold appliedChecksums
  rw [List.map_map, List.map_map]
  rfl

variable (ascending : history.Pairwise fun a b => a.version < b.version)

include ascending in
/-- A new connection accepts the schema exactly if its release's own migrations were applied. -/
theorem Upgraded.verifySchema_iff (h : Upgraded sha execute history initial s) {release : Release}
    (shipped : release.migrations <+: history) :
    verifySchema sha release s.table = .ok () ↔ release.migrations.length = s.rows.length := by
  cases made : s.table with
  | none =>
    rw [h.made.mp made]
    exact iff_of_false nofun (mt List.length_eq_zero_iff.mp release.some)
  | some rows =>
    have same : s.rows = rows := congrArg (·.getD []) made
    rw [eq_comm (a := release.migrations.length), ← verifySchema_history ascending shipped sha h.bound, ← h.rows, same]

section Call

variable {applied : List (Nat × Str)} {view : S} {own : List AppliedRow} {m : Migration} {todo : List Migration}
  {appliedNow : List Nat} (upgraded : Upgraded sha execute history initial s) (prefixes : (ships c).migrations <+: history)

include ascending upgraded prefixes

/-- Which of its migrations a call finds applied. -/
theorem Progress.applied_iff (h : Progress sha execute s (ships c) applied view own (m :: todo) appliedNow) {done : List Migration}
    (split : (ships c).migrations = done ++ m :: todo) : m.version ∈ applied.map Prod.fst ↔ done.length < s.rows.length := by
  obtain ⟨rest, whole⟩ := prefixes
  rw [split, List.append_assoc, List.cons_append] at whole
  rw [h.read, upgraded.versions]
  exact mem_take_iff ascending whole.symm

theorem Progress.skip (h : Progress sha execute s (ships c) applied view own (m :: todo) appliedNow)
    (before : m.version ∈ applied.map Prod.fst) : Progress sha execute s (ships c) applied view own todo appliedNow := by
  obtain ⟨done, split, rows, versions, ran⟩ := h.split
  have early := (h.applied_iff ascending upgraded prefixes split).mp before
  have none (rest : List Migration) (short : rest.length ≤ s.rows.length) : rest.drop s.rows.length = [] :=
    List.drop_eq_nil_iff.mpr short
  have long : (done ++ [m]).length ≤ s.rows.length := by
    rw [List.length_append, List.length_singleton]
    exact early
  refine ⟨h.read, h.within, done ++ [m], ?_, ?_, ?_, ?_⟩
  · rw [List.append_assoc, List.singleton_append, split]
  · rw [none _ long, rows, none _ early.le]
  · rw [none _ long, versions, none _ early.le]
  · rwa [none _ long, ← none _ early.le]

theorem Progress.insert {view' : S} (h : Progress sha execute s (ships c) applied view own (m :: todo) appliedNow)
    (pending : m.version ∉ applied.map Prod.fst) (ran : execute m.sql view = .ok view') :
    Progress sha execute s (ships c) applied view' (own ++ [m.row sha]) todo (appliedNow ++ [m.version]) := by
  obtain ⟨done, split, rows, versions, before⟩ := h.split
  have late := Nat.not_lt.mp (mt (h.applied_iff ascending upgraded prefixes split).mpr pending)
  have more : (done ++ [m]).drop s.rows.length = done.drop s.rows.length ++ [m] := List.drop_append_of_le_length late
  refine ⟨h.read, h.within, done ++ [m], ?_, ?_, ?_, ?_⟩
  · rw [List.append_assoc, List.singleton_append, split]
  · rw [more, List.map_append, rows]
    rfl
  · rw [more, List.map_append, versions]
    rfl
  · rw [more]
    exact runScripts_snoc execute before ran

end Call

variable [DecidableEq C]

/-- A committed call has brought the schema to that of its release. -/
theorem Consistent.commit {applied : List (Nat × Str)} {view : S} {own : List AppliedRow} {appliedNow : List Nat}
    (h : Consistent sha execute ships expects history initial s) (prefixes : ∀ c, (ships c).migrations <+: history)
    (applying : s.phase c = .applying applied view own [] appliedNow) :
    Consistent sha execute ships expects history initial { (s.enter c (.returned appliedNow)).release c with
      table := some (s.rows ++ own), objects := view, log := s.log ++ [(c, appliedNow)] } := by
  have progress : Progress sha execute s (ships c) applied view own [] appliedNow := by
    have fits := h.fits c
    rwa [applying] at fits
  obtain ⟨done, split, rows, versions, ran⟩ := progress.split
  rw [List.append_nil] at split
  subst split
  have within := progress.within
  have upgraded := h.upgraded
  have first : history.take s.rows.length = (ships c).migrations.take s.rows.length := take_release (prefixes c) within
  have all : history.take (ships c).migrations.length = (ships c).migrations := by
    rw [take_release (prefixes c) (le_refl _), List.take_length]
  have table : s.rows ++ own = (ships c).migrations.map (Migration.row sha) := by
    rw [rows, upgraded.rows, List.length_map, List.length_take, Nat.min_eq_left upgraded.bound, first, ← List.map_append,
      List.take_append_drop]
  have size : (s.rows ++ own).length = (ships c).migrations.length := by rw [table, List.length_map]
  have holds : (s.phase c).HoldsLock := by
    rw [applying]
    trivial
  have self : (s.enter c (.returned appliedNow)).phase c = .returned appliedNow := enter_self ..
  have grown : s.rows.length ≤ (s.rows ++ own).length := by
    rw [List.length_append]
    omega
  constructor
  · intro d holds'
    by_cases same : d = c
    · subst same
      have holds' : ((s.enter d (.returned appliedNow)).phase d).HoldsLock := holds'
      rw [self] at holds'
      exact holds'.elim
    · have holds' : ((s.enter c (.returned appliedNow)).phase d).HoldsLock := holds'
      rw [enter_other s same] at holds'
      exact (h.alone holds same holds').elim
  · constructor
    · show s.rows ++ own = (history.take (s.rows ++ own).length).map _
      rw [size, all, table]
    · show some (s.rows ++ own) = none ↔ s.rows ++ own = []
      rw [table, List.map_eq_nil_iff]
      exact iff_of_false nofun (ships c).some
    · show runScripts execute (history.take (s.rows ++ own).length) initial = .ok view
      rw [size, all, ← List.take_append_drop s.rows.length (ships c).migrations]
      refine (runScripts_append execute).mpr ⟨s.objects, ?_, ran⟩
      rw [← first]
      exact upgraded.objects
    · show (s.log ++ [(c, appliedNow)]).flatMap Prod.snd = (history.take (s.rows ++ own).length).map _
      rw [List.flatMap_append, upgraded.log, size, all, first, List.flatMap_singleton, versions, ← List.map_append,
        List.take_append_drop]
  · intro d
    show Fits sha execute _ (ships d) ((s.enter c (.returned appliedNow)).phase d)
    by_cases same : d = c
    · subst same
      rw [self]
      exact ⟨size.ge, s.rows.length, versions⟩
    · rw [enter_other s same]
      have unlocked := h.alone holds same
      have fits := h.fits d
      cases at_ : s.phase d with
      | returned now =>
        rw [at_] at fits
        obtain ⟨long, k, equal⟩ := fits
        exact ⟨long.trans grown, k, equal⟩
      | applying applied view own todo appliedNow =>
        rw [at_] at unlocked
        exact (unlocked trivial).elim
      | executed applied view own m todo appliedNow =>
        rw [at_] at unlocked
        exact (unlocked trivial).elim
      | idle => trivial
      | waiting => trivial
      | locked => trivial
      | created => trivial
      | raised e => trivial
  · intro o mem
    exact (h.verified o mem).trans grown

variable (shipped : ∀ c, (ships c).migrations <+: history) (expected : ∀ o, (expects o).migrations <+: history)

include ascending shipped expected

theorem Consistent.step {t : Owners S C O} (h : Consistent sha execute ships expects history initial s)
    (step : Step sha execute ships expects s t) : Consistent sha execute ships expects history initial t := by
  have upgraded := h.upgraded
  cases step with
  | connect c idle => exact h.frame (frame_enter s c _) (enter_self ..) False.elim trivial
  | lock c waiting free =>
    have f : Frame s { s.enter c .locked with holder := some c } c :=
      { frame_enter s c .locked with holder := fun d _ held => by rw [free] at held; cases held }
    exact h.frame f (enter_self s c .locked) (fun _ => rfl) trivial
  | bootstrap c locked =>
    have held := h.lock c (by rw [locked]; trivial)
    exact h.frame (frame_enter s c _) (enter_self ..) (fun _ => held) trivial
  | refuse c created refused => exact h.giveUp c _
  | read c created checked =>
    have held := h.lock c (by rw [created]; trivial)
    have within : s.rows.length ≤ (ships c).migrations.length := by
      have answer := checkMigratable_history ascending (shipped c) sha upgraded.bound
      rw [← upgraded.rows, checked] at answer
      split at answer
      · assumption
      · cases answer
    refine h.frame (frame_enter s c _) (enter_self ..) (fun _ => held) ⟨rfl, within, [], rfl, ?_, ?_, ?_⟩
    all_goals rw [List.drop_nil]; rfl
  | skip c applying before =>
    have held := h.lock c (by rw [applying]; trivial)
    have fits := h.fits c
    rw [applying] at fits
    exact h.frame (frame_enter s c _) (enter_self ..) (fun _ => held)
      (Progress.skip ascending upgraded (shipped c) fits before)
  | execute c applying pending ran =>
    have held := h.lock c (by rw [applying]; trivial)
    have fits := h.fits c
    rw [applying] at fits
    exact h.frame (frame_enter s c _) (enter_self ..) (fun _ => held) ⟨pending, _, ran, fits⟩
  | fail c applying pending failed => exact h.giveUp c _
  | insert c executed fresh =>
    have held := h.lock c (by rw [executed]; trivial)
    have fits := h.fits c
    rw [executed] at fits
    obtain ⟨pending, before, ran, progress⟩ := fits
    exact h.frame (frame_enter s c _) (enter_self ..) (fun _ => held)
      (Progress.insert ascending upgraded (shipped c) progress pending ran)
  | clash c executed taken => exact h.giveUp c _
  | commit c applying => exact h.commit shipped applying
  | abort c running e => exact h.giveUp c e
  | verify o unverified current =>
    refine ⟨h.lock, ⟨upgraded.rows, upgraded.made, upgraded.objects, upgraded.log⟩, fun c => ?_, fun p mem => ?_⟩
    · exact fits_of_same (h.fits c) rfl rfl
    · rcases mem with same | before
      · subst same
        exact ((upgraded.verifySchema_iff ascending (expected p)).mp current).le
      · exact h.verified p before

theorem consistent_run (run : Run sha execute ships expects (start initial) s) :
    Consistent sha execute ships expects history initial s :=
  Transition.holds_after (fun _ _ h step => h.step ascending shipped expected step) run consistent_start

omit ascending shipped expected in
/-- Rows are only added. -/
theorem rows_prefix {t : Owners S C O} (run : Run sha execute ships expects s t) : s.rows <+: t.rows := by
  induction run with
  | refl => exact List.prefix_refl _
  | tail _ step ih =>
    refine ih.trans ?_
    cases step with
    | commit c applying => exact List.prefix_append _ _
    | _ => exact List.prefix_refl _

end Interleaved

/-! ### One owner -/

def firstMigration : Migration where
  version := 1
  name := str "initial_registry"
  sql := str "CREATE TABLE registry_records"

def firstRelease : Release where
  migrations := [firstMigration]
  some := List.cons_ne_nil _ _
  ascending := List.pairwise_singleton _ _

/-- A schema that keeps the scripts it was made with. -/
def keepScript (sql : Str) (scripts : List Str) : Except PgError (List Str) := .ok (scripts ++ [sql])

theorem first_run (sha : Sha256) : ∃ s : Owners (List Str) Unit Unit,
    Run sha keepScript (fun _ => firstRelease) (fun _ => firstRelease) (start []) s ∧ s.phase () = .returned [1] := by
  let step := Step (O := Unit) sha keepScript (fun _ : Unit => firstRelease) (fun _ => firstRelease)
  let connected : Owners (List Str) Unit Unit := (start []).enter () .waiting
  let locked : Owners (List Str) Unit Unit := { connected.enter () .locked with holder := some () }
  let created := locked.enter () .created
  let read := created.enter () (.applying [] [] [] [firstMigration] [])
  let executed := read.enter () (.executed [] [firstMigration.sql] [] firstMigration [] [])
  let inserted := executed.enter () (.applying [] [firstMigration.sql] ([] ++ [firstMigration.row sha]) [] ([] ++ [firstMigration.version]))
  have toConnected : step (start []) connected := .connect () rfl
  have toLocked : step connected locked := .lock () rfl rfl
  have toCreated : step locked created := .bootstrap () rfl
  have toRead : step created read := .read () rfl rfl
  have toExecuted : step read executed := .execute () rfl List.not_mem_nil rfl
  have toInserted : step executed inserted := .insert () rfl List.not_mem_nil
  exact ⟨_, (((((Relation.ReflTransGen.single toConnected).tail toLocked).tail toCreated).tail toRead).tail
    toExecuted |>.tail toInserted).tail (.commit () rfl), rfl⟩

/-- The SHA-256 of `CREATE TABLE registry_records`. -/
def firstChecksum : Str := str "dfe9b6db44d08bca697dc3b5f448fbb24a0472385efe6307eb04d9bdc026689d"

def firstSha : Sha256 := .ofTable [(utf8Octets firstMigration.sql, firstChecksum)] (by
  unfold firstChecksum
  rw [str_ofList]
  simp only [List.forall_mem_singleton]
  decide +kernel)

end Owners

end ModelGuard.Registry
