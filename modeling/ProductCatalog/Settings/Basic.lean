import ProductCatalog.Consumer.Basic
import ProductCatalog.Settings.Reading
import ProductCatalog.Text.Blank
import ProductCatalog.Text.SocketAddress

/-!
# Settings of the services

Both services have settings for HTTP and for the message broker; the
products service has settings for its database as well. All have defaults,
and some must be changed for a service to start: `problems` lists what
keeps it from starting, all of it, in a fixed order.

## Main definitions

* `HttpSettings`, `BrokerSettings`, `DatabaseSettings` — the sections.
* `ServiceSettings` — all settings of a service; `ServiceSettings.ofTree` reads
  them from a tree.
* `Problem`, `ServiceSettings.problems` — what keeps a service from starting.
-/

namespace ProductCatalog.Settings

open Text

/-- The two services. -/
inductive Service
  | products
  | notifications
deriving Repr, DecidableEq

/-- Settings for HTTP. -/
structure HttpSettings where
  listenAddress : String := "0.0.0.0:8080"
  /-- How long open requests may go on after a shutdown, in milliseconds. -/
  gracefulTimeout : Nat := 10000
  bodyLimit : Nat := 1048576
deriving Repr, DecidableEq

/-- Settings for the message broker. Times are milliseconds unless they say otherwise. -/
structure BrokerSettings where
  queueUrl : String := ""
  region : String := "us-east-1"
  /-- The endpoint to use in place of the one in the queue's URL. -/
  endpointUrl : Option String := none
  maxMessages : Nat := 10
  waitTimeSeconds : Nat := 20
  retryDelay : Nat := 5000
  handlerTimeout : Nat := 30000
  deleteTimeout : Nat := 10000
deriving Repr, DecidableEq

/-- Settings for the database. Times are milliseconds. -/
structure DatabaseSettings where
  dsn : String := ""
  maxConnections : Nat := 10
  connectRetries : Nat := 5
  retryDelay : Nat := 2000
  acquireTimeout : Nat := 5000
  autoMigrate : Bool := true
deriving Repr, DecidableEq

/-- All settings of a service. -/
structure ServiceSettings where
  http : HttpSettings := {}
  broker : BrokerSettings := {}
  /-- Only the products service has a database. -/
  database : Option DatabaseSettings := none
deriving Repr, DecidableEq

/-- What governs a consumer under the settings of a broker. -/
def BrokerSettings.consumer (b : BrokerSettings) : Consumer.Settings where
  maxMessages := b.maxMessages
  waitTime := b.waitTimeSeconds * 1000
  retryDelay := b.retryDelay
  handlerTimeout := b.handlerTimeout
  deleteTimeout := b.deleteTimeout

/-! ## Reading -/

/-- Reads the settings for HTTP from a tree. -/
def HttpSettings.ofTree (root : Value) : Except LoadFault HttpSettings := do
  let s ← Section.of? root "http" "HttpSettings"
  let d : HttpSettings := {}
  return {
    listenAddress := ← Section.read s "listen_address" 0 d.listenAddress readText
    gracefulTimeout := ← Section.read s "graceful_timeout_ms" 1 d.gracefulTimeout readNumber
    bodyLimit := ← Section.read s "body_limit_bytes" 2 d.bodyLimit readNumber }

/-- Reads the settings for the broker from a tree. -/
def BrokerSettings.ofTree (root : Value) : Except LoadFault BrokerSettings := do
  let s ← Section.of? root "broker" "BrokerSettings"
  let d : BrokerSettings := {}
  return {
    queueUrl := ← Section.read s "queue_url" 0 d.queueUrl readText
    region := ← Section.read s "region" 1 d.region readText
    endpointUrl := ← Section.read s "endpoint_url" 2 d.endpointUrl readOptionalText
    maxMessages := ← Section.read s "max_messages" 3 d.maxMessages readSmallNumber
    waitTimeSeconds := ← Section.read s "wait_time_seconds" 4 d.waitTimeSeconds readNumber
    retryDelay := ← Section.read s "retry_delay_ms" 5 d.retryDelay readNumber
    handlerTimeout := ← Section.read s "handler_timeout_ms" 6 d.handlerTimeout readNumber
    deleteTimeout := ← Section.read s "delete_timeout_ms" 7 d.deleteTimeout readNumber }

/-- Reads the settings for the database from a tree. -/
def DatabaseSettings.ofTree (root : Value) : Except LoadFault DatabaseSettings := do
  let s ← Section.of? root "postgres" "PostgresSettings"
  let d : DatabaseSettings := {}
  return {
    dsn := ← Section.read s "dsn" 0 d.dsn readText
    maxConnections := ← Section.read s "max_connections" 1 d.maxConnections readSmallNumber
    connectRetries := ← Section.read s "connect_retries" 2 d.connectRetries readSmallNumber
    retryDelay := ← Section.read s "retry_delay_ms" 3 d.retryDelay readNumber
    acquireTimeout := ← Section.read s "acquire_timeout_ms" 4 d.acquireTimeout readNumber
    autoMigrate := ← Section.read s "auto_migrate" 5 d.autoMigrate readBoolean }

/-- Reads the settings of a service from a tree. -/
def ServiceSettings.ofTree (service : Service) (root : Value) :
    Except LoadFault ServiceSettings := do
  let http ← HttpSettings.ofTree root
  let broker ← BrokerSettings.ofTree root
  match service with
  | .products => return { http, broker, database := some (← DatabaseSettings.ofTree root) }
  | .notifications => return { http, broker }

/-! ## Checking -/

/-- Something that keeps a service from starting. -/
inductive Problem
  /-- The address to listen on is none. -/
  | notSocketAddress (address : String)
  /-- A text is blank. -/
  | required (key : String)
  /-- A number is zero. -/
  | notPositive (key : String)
  /-- The broker gives between one and ten messages at once. -/
  | maxMessagesOutOfRange
  /-- The broker waits at most twenty seconds. -/
  | waitTooLong
deriving Repr, DecidableEq

/-- The sentence that reports a problem. -/
def Problem.message : Problem → String
  | notSocketAddress address =>
    "http.listen_address " ++ quoted address ++ " is not a socket address"
  | required key => key ++ " is required"
  | notPositive key => key ++ " must be positive"
  | maxMessagesOutOfRange => "broker.max_messages must be between 1 and 10"
  | waitTooLong => "broker.wait_time_seconds must be at most 20"

/-- A problem, if there is one. -/
def problemIf (present : Bool) (p : Problem) : List Problem := if present then [p] else []

/-- Whether a text is empty but for blanks. -/
def isBlankText (s : String) : Bool := s.toList.all isBlank

/-- What is wrong with settings for HTTP. -/
def HttpSettings.problems (s : HttpSettings) : List Problem :=
  problemIf (!isSocketAddress s.listenAddress) (.notSocketAddress s.listenAddress) ++
    problemIf (s.bodyLimit = 0) (.notPositive "http.body_limit_bytes")

/-- What is wrong with settings for the broker. -/
def BrokerSettings.problems (s : BrokerSettings) : List Problem :=
  problemIf (isBlankText s.queueUrl) (.required "broker.queue_url") ++
    problemIf (isBlankText s.region) (.required "broker.region") ++
    problemIf (s.maxMessages = 0 || 10 < s.maxMessages) .maxMessagesOutOfRange ++
    problemIf (20 < s.waitTimeSeconds) .waitTooLong ++
    problemIf (s.retryDelay = 0) (.notPositive "broker.retry_delay_ms") ++
    problemIf (s.handlerTimeout = 0) (.notPositive "broker.handler_timeout_ms") ++
    problemIf (s.deleteTimeout = 0) (.notPositive "broker.delete_timeout_ms")

/-- What is wrong with settings for the database. -/
def DatabaseSettings.problems (s : DatabaseSettings) : List Problem :=
  problemIf (isBlankText s.dsn) (.required "postgres.dsn") ++
    problemIf (s.maxConnections = 0) (.notPositive "postgres.max_connections")

/-- What keeps a service with these settings from starting. -/
def ServiceSettings.problems (s : ServiceSettings) : List Problem :=
  s.http.problems ++ s.broker.problems ++ (s.database.map (·.problems)).getD []

/-- Why a service has no settings to start with. -/
inductive SettingsError
  | load (fault : LoadFault)
  | invalid (problems : List Problem)
deriving Repr, DecidableEq

/-- The sentence that reports why a service has no settings. -/
def SettingsError.message : SettingsError → String
  | load fault => "failed to load configuration: " ++ fault.message
  | invalid problems =>
    "invalid configuration: " ++ "; ".intercalate (problems.map Problem.message)

/-- The settings in a tree, if nothing is wrong with them. -/
def ServiceSettings.check (service : Service) (root : Value) :
    Except SettingsError ServiceSettings :=
  match ServiceSettings.ofTree service root with
  | .error fault => .error (.load fault)
  | .ok s => if s.problems.isEmpty then .ok s else .error (.invalid s.problems)

end ProductCatalog.Settings
