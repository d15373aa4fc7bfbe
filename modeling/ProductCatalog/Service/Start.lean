import ProductCatalog.Broker.Connection
import ProductCatalog.CommandLine.Usage
import ProductCatalog.Database.Connection
import ProductCatalog.Log.Filter
import ProductCatalog.Service.Failure
import ProductCatalog.Settings.Load

/-!
# Starting a service

A service reads its command line, then its settings, and then connects: the
products service to its database first, whose tables it brings up to date
if the settings say so, and both services to the broker. The first of these
steps that fails ends the start. Only the command line is answered without
a failure, when it asks for help or for the version.

What the network holds is not decided here: a `Network` says what comes of
each question to a database or a broker. `Network.offline` is the one in
which nothing is reached.

## Main definitions

* `Network` — what comes of the questions to other machines.
* `start` — the start of a service; `Start`, `StartOutcome`.
-/

namespace ProductCatalog

open Settings (Service ServiceSettings SettingsError DatabaseSettings Surroundings)

/-- What comes of questions to other machines. -/
structure Network where
  /-- Attempts to connect to a database, by their numbers. -/
  dial : Database.Address → UInt32 → Except Database.ConnectFault Unit
  /-- Bringing the tables of the database up to date. -/
  migrate : Except String Unit
  lookUp : Broker.LookUp

/-- The network in which nothing is reached. -/
def Network.offline : Network where
  dial _ _ := .error (.communication "Network is unreachable (os error 101)")
  migrate := .error "Network is unreachable (os error 101)"
  lookUp _ _ _ := .error "dispatch failure: Network is unreachable (os error 101)"

/-- How the start of a service ends. -/
inductive StartOutcome
  /-- The command line has been answered. -/
  | answered (text : String)
  /-- The command line has been refused. -/
  | misused (report : String)
  | failed (failure : Failure)
  /-- The service is connected. -/
  | ready (settings : ServiceSettings)
deriving Repr, DecidableEq

/-- The status with which the program ends, unless it goes on. -/
def StartOutcome.status? : StartOutcome → Option Nat
  | answered _ => some 0
  | misused _ | failed _ => some 1
  | ready _ => none

/-- The start of a service. -/
structure Start where
  /-- What it has told the log, all levels. -/
  log : List Signal
  outcome : StartOutcome
deriving Repr, DecidableEq

namespace Start

/-- The program that a service is. -/
def program : Service → String
  | .products => "products-service"
  | .notifications => "notifications-service"

/-- The causes of a fault in the settings. -/
def settingsCauses (e : SettingsError) : List String :=
  match e with
  | .load fault => [e.message, fault.message]
  | .invalid _ => [e.message]

/-- The variable that holds the log filter. -/
def filterVariable : String := "RUST_LOG"

/-- The log filter that an environment asks for. -/
def filterOf (env : Settings.DotEnv.Environment) : LogFilter :=
  match Settings.DotEnv.valueOf? env filterVariable with
  | some text => .ofText text
  | none => .standard

/-! ## Connecting -/

/-- Where the connection to the database is told from. -/
def databaseTarget : String := "catalog_infra::db"

/-- Where the connection to the broker is told from. -/
def brokerTarget : String := "catalog_infra::queue::sqs"

/-- The attempts to connect to the database that settings name. -/
def dialings (network : Network) (d : DatabaseSettings) : Database.Course Unit :=
  Database.attempts
    (fun number =>
      match Database.Address.ofText d.dsn with
      | .ok address => network.dial address number
      | .error fault => .error (.badAddress fault))
    (UInt32.ofNat d.connectRetries) d.retryDelay

/-- Connects to the database, and brings its tables up to date. -/
def connectDatabase (network : Network) (d : DatabaseSettings) : List Signal × Option Failure :=
  let course := dialings network d
  let log := (course.log (UInt32.ofNat d.connectRetries)).map (·.signal databaseTarget none)
  match course.ending with
  | .failed fault => (log, some ⟨"failed to connect to postgres", fault.causes⟩)
  | .brokenOff => (log, some ⟨"failed to connect to postgres", []⟩)
  | .connected () =>
    if d.autoMigrate then
      match network.migrate with
      | .error cause => (log, some ⟨"failed to apply database migrations", [cause]⟩)
      | .ok () =>
        let entry : LogEntry := ⟨.info, "database migrations applied", []⟩
        (log ++ [entry.signal databaseTarget none], none)
    else (log, none)

/-- Connects to the broker. -/
def connectBroker (network : Network) (s : ServiceSettings) : List Signal × Option Failure :=
  match Broker.connect network.lookUp s.broker with
  | .error fault => ([], some ⟨"failed to connect to SQS", [fault.message]⟩)
  | .ok connection => ([connection.entry.signal brokerTarget none], none)

/-- Connects a service with given settings. -/
def connect (network : Network) (s : ServiceSettings) : Start :=
  let (log, failure) := match s.database with
    | some d => connectDatabase network d
    | none => ([], none)
  match failure with
  | some failure => ⟨log, .failed failure⟩
  | none =>
    match connectBroker network s with
    | (more, some failure) => ⟨log ++ more, .failed failure⟩
    | (more, none) => ⟨log ++ more, .ready s⟩

end Start

/-- Starts a service in given surroundings, called with given arguments. -/
def start (service : Service) (network : Network) (around : Surroundings)
    (arguments : List String) : Start :=
  match CommandLine.read arguments (Settings.DotEnv.valueOf? around.env Settings.fileVariable) with
  | .error .help => ⟨[], .answered (CommandLine.helpText (Start.program service))⟩
  | .error .version => ⟨[], .answered CommandLine.versionText⟩
  | .error refusal => ⟨[], .misused (refusal.report (Start.program service))⟩
  | .ok path =>
    match ServiceSettings.load service around path with
    | .error e => ⟨[], .failed ⟨"failed to load configuration", Start.settingsCauses e⟩⟩
    | .ok settings => Start.connect network settings

end ProductCatalog
