import ModelGuard.Exceptions
import ModelGuard.Lib.Entries
import ModelGuard.Lib.Json
import ModelGuard.Lib.Normalize

/-!
# The connection string of the PostgreSQL registry

The check looks at `host` and `sslmode`. Where libpq connects to depends on `hostaddr` and on the
environment too.
-/

namespace ModelGuard.Registry.Dsn

open Lib Lib.Fallible

/-- How `conninfo_to_dict` refuses a text. -/
inductive ParseFailure where
  | programmingError
  | raised (e : Raised)

structure Driver where
  /-- `psycopg.conninfo.conninfo_to_dict`, which does not look at the environment. -/
  conninfoToDict : Str → Except ParseFailure (List (Str × Str))
  /-- The texts that libpq takes for a loopback address. -/
  isLoopback : Str → Bool

structure Driver.Documented (driver : Driver) : Prop where
  ipv4 : driver.isLoopback (str "127.0.0.1") = true
  ipv6 : driver.isLoopback (str "::1") = true

/-! ### The check -/

/-- `_LOCAL_HOSTS`. -/
def localHosts : List Str := [str "localhost", str "127.0.0.1", str "::1"]

/-- `_VERIFYING_SSLMODES`. -/
def verifyingSslmodes : List Str := [str "verify-ca", str "verify-full"]

def configurationError (message : String) : Raised := .modelGuard .registryConfigurationError (str message)

/-- `text.split(",")`. -/
def elements (s : Str) : List Str := s.splitOn (cp ',')

def isRemote (host : Str) : Bool := !localHosts.contains host && host.head? ≠ some (cp '/')

/-- `parts.get("sslmode") in _VERIFYING_SSLMODES`. -/
def verifies (parts : List (Str × Str)) : Bool := (parts.lookup (str "sslmode")).any verifyingSslmodes.contains

/-- The `try` block of `_check_dsn`. -/
def parseDsn (driver : Driver) (dsn : Str) : Except Raised (List (Str × Str)) :=
  match driver.conninfoToDict dsn with
  | .ok parts => .ok parts
  | .error .programmingError => .error (configurationError "The PostgreSQL DSN is malformed.")
  | .error (.raised e) => .error e

/-- `_check_dsn`. -/
def checkDsn (driver : Driver) (dsn : Str) (allowInsecureTransport : Bool) : Except Raised Unit := do
  let parts ← parseDsn driver dsn
  match (parts.lookup (str "host")).filter fun host => !host.isEmpty with
  | none =>
    .error (configurationError ("The PostgreSQL DSN must name a host explicitly (or a unix-socket directory); " ++
      "relying on PGHOST would let ambient environment redirect the registry."))
  | some host =>
    let hosts := (elements host).map strip
    let remote := hosts.filter isRemote
    ensure (remote = [] ∨ allowInsecureTransport = true ∨ verifies parts = true)
      (configurationError ("Refusing a non-local PostgreSQL host without sslmode=verify-full (or verify-ca). " ++
        "Weaker modes do not authenticate the server, so an attacker on the network path " ++
        "could forge revocation answers. Set sslmode=verify-full in the DSN."))

structure PostgresRegistry where
  dsn : Str
  connectTimeoutS : Int
  statementTimeoutMs : Int
deriving DecidableEq

/-- `PostgresRegistry.__init__`. -/
def PostgresRegistry.init (driver : Driver) (dsn : Str) (allowInsecureTransport : Bool)
    (connectTimeoutS statementTimeoutMs : Int) : Except Raised PostgresRegistry := do
  checkDsn driver dsn allowInsecureTransport
  return { dsn, connectTimeoutS, statementTimeoutMs }

/-- The parameters that `_connect` gives to libpq: those of the DSN, under three of its own. -/
def PostgresRegistry.connectParams (registry : PostgresRegistry) (parts : List (Str × Str)) : List (Str × Str) :=
  Entries.set (str "application_name") (str "modelguard")
    (Entries.set (str "options") (str "-c statement_timeout=" ++ Json.intText registry.statementTimeoutMs)
      (Entries.set (str "connect_timeout") (Json.intText registry.connectTimeoutS) parts))

/-! ### Where libpq connects to -/

/-- A parameter, with the variable that libpq takes where the connection string does not have it. -/
def effective (environ : Str → Option Str) (params : List (Str × Str)) (name envvar : String) : Option Str :=
  ((params.lookup (str name)).or (environ (str envvar))).filter fun value => !value.isEmpty

/-- The addresses that `hostaddr` lists. -/
def hostaddrs (environ : Str → Option Str) (params : List (Str × Str)) : List Str :=
  match effective environ params "hostaddr" "PGHOSTADDR" with
  | none => []
  | some addresses => (elements addresses).filter fun address => !address.isEmpty

def hostNames (environ : Str → Option Str) (params : List (Str × Str)) : List Str :=
  match effective environ params "host" "PGHOST" with
  | none => []
  | some hosts => elements hosts

/-- An address where one is listed, and the host name of the same place where it is left empty. -/
def places : List Str → List Str → List Str
  | [], _ => []
  | address :: addresses, hosts =>
    (if address.isEmpty then hosts.head?.toList else [address]) ++ places addresses hosts.tail

/-- What a connection may reach. -/
def targets (environ : Str → Option Str) (params : List (Str × Str)) : List Str :=
  match effective environ params "hostaddr" "PGHOSTADDR" with
  | none => hostNames environ params
  | some addresses => places (elements addresses) (hostNames environ params)

/-- A loopback address, `localhost` or the path of a socket. -/
def Local (driver : Driver) (target : Str) : Prop :=
  driver.isLoopback target = true ∨ target = str "localhost" ∨ target.head? = some (cp '/')

/-- No server that does not have to prove its identity is reached over a network. -/
def SafeTransport (driver : Driver) (environ : Str → Option Str) (params : List (Str × Str)) : Prop :=
  verifies params = true ∨ ∀ target ∈ targets environ params, Local driver target

variable {driver : Driver} {environ : Str → Option Str} {dsn : Str} {parts params : List (Str × Str)}
  {registry : PostgresRegistry}

theorem connectParams_lookup {name : String} (timeout : name ≠ "connect_timeout") (options : name ≠ "options")
    (application : name ≠ "application_name") :
    (registry.connectParams parts).lookup (str name) = parts.lookup (str name) := by
  unfold PostgresRegistry.connectParams
  rw [Entries.lookup_set_other (str_injective.ne application), Entries.lookup_set_other (str_injective.ne options),
    Entries.lookup_set_other (str_injective.ne timeout)]

/-- None of the parameters that `_connect` adds moves the connection or changes how it is verified. -/
theorem connectParams_safe :
    SafeTransport driver environ (registry.connectParams parts) ↔ SafeTransport driver environ parts := by
  unfold SafeTransport verifies targets hostNames effective
  rw [connectParams_lookup (by decide) (by decide) (by decide), connectParams_lookup (by decide) (by decide) (by decide),
    connectParams_lookup (by decide) (by decide) (by decide)]

theorem mem_places {target : Str} {addresses hosts : List Str} (h : target ∈ places addresses hosts) :
    target ∈ addresses.filter (fun address => !address.isEmpty) ∨ target ∈ hosts := by
  induction addresses generalizing hosts with
  | nil => cases h
  | cons address addresses ih =>
    unfold places at h
    rcases List.mem_append.mp h with first | rest
    · split at first
      · exact .inr (List.mem_of_mem_head? (Option.mem_toList.mp first))
      · rename_i listed
        have same := List.mem_singleton.mp first
        subst same
        exact .inl (List.mem_filter.mpr ⟨List.mem_cons_self, by simpa using listed⟩)
    · rcases ih rest with address | host
      · have later := List.mem_filter.mp address
        exact .inl (List.mem_filter.mpr ⟨List.mem_cons_of_mem _ later.1, later.2⟩)
      · exact .inr (List.mem_of_mem_tail host)

theorem places_mem {target : Str} {addresses hosts : List Str}
    (h : target ∈ addresses.filter fun address => !address.isEmpty) : target ∈ places addresses hosts := by
  induction addresses generalizing hosts with
  | nil => cases h
  | cons address addresses ih =>
    unfold places
    obtain ⟨member, nonempty⟩ := List.mem_filter.mp h
    apply List.mem_append.mpr
    rcases List.mem_cons.mp member with first | rest
    · subst first
      left
      rw [if_neg (by simpa using nonempty)]
      exact List.mem_singleton_self _
    · right
      exact ih (List.mem_filter.mpr ⟨rest, nonempty⟩)

theorem mem_targets {target : Str} (h : target ∈ targets environ parts) :
    target ∈ hostaddrs environ parts ∨ target ∈ hostNames environ parts := by
  unfold targets at h
  unfold hostaddrs
  cases given : effective environ parts "hostaddr" "PGHOSTADDR" with
  | none =>
    rw [given] at h
    exact .inr h
  | some addresses =>
    rw [given] at h
    exact mem_places h

theorem hostaddrs_target {address : Str} (h : address ∈ hostaddrs environ parts) : address ∈ targets environ parts := by
  unfold hostaddrs at h
  unfold targets
  cases given : effective environ parts "hostaddr" "PGHOSTADDR" with
  | none =>
    rw [given] at h
    cases h
  | some addresses =>
    rw [given] at h
    exact places_mem h

/-- What the check has established of the host names. -/
theorem init_ok {connectTimeoutS statementTimeoutMs : Int}
    (made : PostgresRegistry.init driver dsn false connectTimeoutS statementTimeoutMs = .ok registry) :
    ∃ parts, driver.conninfoToDict dsn = .ok parts ∧ registry.dsn = dsn ∧
      (verifies parts = true ∨ ∀ environ, ∀ host ∈ hostNames environ parts, isRemote (strip host) = false) := by
  unfold PostgresRegistry.init at made
  obtain ⟨_, checked, made⟩ := bind_ok.mp made
  have same := pure_ok.mp made
  subst same
  unfold checkDsn at checked
  obtain ⟨parts, parsed, checked⟩ := bind_ok.mp checked
  refine ⟨parts, ?_, rfl, ?_⟩
  · unfold parseDsn at parsed
    split at parsed
    · rename_i found
      rw [found, Except.ok.inj parsed]
    · cases parsed
    · cases parsed
  · split at checked
    · cases checked
    · rename_i host named
      have given : parts.lookup (str "host") = some host ∧ (!host.isEmpty) = true := Option.filter_eq_some_iff.mp named
      obtain none_remote | insecure | verified := ensure_ok.mp checked
      · right
        intro environ element member
        have listed : hostNames environ parts = elements host := by
          unfold hostNames effective
          rw [given.1, Option.some_or, Option.filter_some, if_pos given.2]
        rw [listed] at member
        have inspected := List.filter_eq_nil_iff.mp none_remote (strip element) (List.mem_map_of_mem member)
        exact Bool.eq_false_iff.mpr inspected
      · cases insecure
      · exact .inl verified

theorem local_of_checked (documented : driver.Documented) {host : Str} (checked : isRemote host = false) :
    Local driver host := by
  unfold isRemote at checked
  unfold Local
  by_cases slash : host.head? = some (cp '/')
  · exact .inr (.inr slash)
  · have listed : host ∈ localHosts := by simpa [slash] using checked
    simp only [localHosts, List.mem_cons, List.not_mem_nil, or_false] at listed
    rcases listed with same | same | same
    · exact .inr (.inl same)
    · exact .inl (same ▸ documented.ipv4)
    · exact .inl (same ▸ documented.ipv6)

/-- What no check has looked at is local: the addresses of `hostaddr`, and a name that has white space around it. -/
def UncheckedLocal (driver : Driver) (environ : Str → Option Str) (parts : List (Str × Str)) : Prop :=
  (∀ address ∈ hostaddrs environ parts, Local driver address) ∧
    ∀ name ∈ targets environ parts, strip name ≠ name → Local driver name

/-- The check keeps an unauthenticated server off the network unless `hostaddr` names one, or a name counts
as local only without its white space. -/
theorem accepted_dsn_safe_iff (documented : driver.Documented) {connectTimeoutS statementTimeoutMs : Int}
    (made : PostgresRegistry.init driver dsn false connectTimeoutS statementTimeoutMs = .ok registry)
    (environ : Str → Option Str) :
    ∃ parts, driver.conninfoToDict registry.dsn = .ok parts ∧
      (SafeTransport driver environ (registry.connectParams parts) ↔
        verifies parts = true ∨ UncheckedLocal driver environ parts) := by
  obtain ⟨parts, parsed, same, checked⟩ := init_ok made
  refine ⟨parts, same ▸ parsed, ?_⟩
  rw [connectParams_safe]
  unfold SafeTransport
  constructor
  · rintro (verified | safe)
    · exact .inl verified
    · exact .inr ⟨fun address given => safe address (hostaddrs_target given), fun name reached _ => safe name reached⟩
  · rintro (verified | ⟨addresses, padded⟩)
    · exact .inl verified
    · obtain verified | inspected := checked
      · exact .inl verified
      · right
        intro target reached
        rcases mem_targets reached with address | name
        · exact addresses target address
        · by_cases bare : strip target = target
          · have accepted := inspected environ target name
            rw [bare] at accepted
            exact local_of_checked documented accepted
          · exact padded target reached bare

/-! ### `hostaddr` beside a local `host` -/

/-- Connection strings of plain `keyword=value` pairs. -/
def plainConninfo (dsn : Str) : List (Str × Str) :=
  (dsn.splitOn (cp ' ')).map fun pair => (pair.takeWhile (· ≠ cp '='), (pair.dropWhile (· ≠ cp '=')).tail)

def plainDriver : Driver where
  conninfoToDict := fun dsn => .ok (plainConninfo dsn)
  isLoopback := fun address => address = str "::1" || (str "127.").isPrefixOf address

theorem plainDriver_documented : plainDriver.Documented where
  ipv4 := by decide
  ipv6 := by decide

def redirectedDsn : Str := str "host=localhost hostaddr=10.0.0.5 dbname=mg"

def redirectedRegistry : PostgresRegistry where
  dsn := redirectedDsn
  connectTimeoutS := 5
  statementTimeoutMs := 10000

theorem redirected_accepted : PostgresRegistry.init plainDriver redirectedDsn false 5 10000 = .ok redirectedRegistry := by
  decide +kernel

theorem accepted_dsn_safe_iff_redirected :
    ∃ parts, plainDriver.conninfoToDict redirectedRegistry.dsn = .ok parts ∧
      (SafeTransport plainDriver (fun _ => none) (redirectedRegistry.connectParams parts) ↔
        verifies parts = true ∨ UncheckedLocal plainDriver (fun _ => none) parts) :=
  accepted_dsn_safe_iff plainDriver_documented redirected_accepted fun _ => none

/-- The check accepts `host=localhost`, and the connection goes to `hostaddr`. -/
theorem redirected_dsn_reaches_remote :
    ¬ ∀ (driver : Driver) (dsn : Str) (connectTimeoutS statementTimeoutMs : Int) (registry : PostgresRegistry)
      (parts : List (Str × Str)) (environ : Str → Option Str), driver.Documented →
        PostgresRegistry.init driver dsn false connectTimeoutS statementTimeoutMs = .ok registry →
          driver.conninfoToDict registry.dsn = .ok parts →
            SafeTransport driver environ (registry.connectParams parts) := by
  intro claimed
  have safe := claimed plainDriver redirectedDsn 5 10000 redirectedRegistry _ (fun _ => none) plainDriver_documented
    redirected_accepted rfl
  rw [connectParams_safe] at safe
  obtain verified | reached := safe
  · exact absurd verified (by decide +kernel)
  · have remote := reached (str "10.0.0.5") (by decide +kernel)
    exact absurd remote (by unfold Local; decide +kernel)

end ModelGuard.Registry.Dsn
