import Mailroom.Error
import Mailroom.Json.Decode
import Mailroom.Text.Blank

/-!
The settings of the program: every section with its defaults, how they are read and written, and the
conditions that they have to meet together.
-/

namespace Mailroom

open Json (Decoder Fields)

structure ApiSettings where
  bind : String := "0.0.0.0:8080"
deriving DecidableEq, Repr, Inhabited

structure DatabaseSettings where
  backend : String := "postgres"
  url : Option String := none
  maxConnections : Nat := 20
  minConnections : Nat := 2
deriving DecidableEq, Repr, Inhabited

/-- How servers are chosen and how many others are tried. -/
structure RoutingSettings where
  strategy : StrategyKind := .roundRobin
  failover : Bool := true
  maxRetries : Nat := 2
deriving DecidableEq, Repr, Inhabited

structure EngineSettings where
  pollSeconds : Nat := 5
  batchSize : Int := 100
  concurrency : Nat := 10
  reconcileBatchSize : Int := 100
deriving DecidableEq, Repr, Inhabited

/-- How often expired counters are dropped. -/
structure RateLimitSettings where
  sweepSeconds : Nat := 300
deriving DecidableEq, Repr, Inhabited

structure LoggingSettings where
  level : String := "info"
  format : String := "json"
deriving DecidableEq, Repr, Inhabited

structure ServerSettings where
  name : String
  url : String
  apiKey : Option String := none
  weight : Nat := 1
  timeoutSeconds : Nat := 30
deriving DecidableEq, Repr, Inhabited

structure Settings where
  api : ApiSettings := {}
  database : DatabaseSettings := {}
  routing : RoutingSettings := {}
  engine : EngineSettings := {}
  rateLimit : RateLimitSettings := {}
  logging : LoggingSettings := {}
  servers : List ServerSettings := []
deriving DecidableEq, Repr, Inhabited

/-- How single values are read, and whether an array may hold more than the fields of a section. -/
structure Leaves where
  text : Decoder String
  bool : Decoder Bool
  nat32 : Decoder Nat
  nat64 : Decoder Nat
  int64 : Decoder Int
  strategy : Decoder StrategyKind
  spare : Bool

namespace Leaves

/-- Every value has to be of its own kind. -/
def strict : Leaves := ⟨.text, .bool, .nat32, .nat64, .int64, .word, false⟩

end Leaves

namespace ApiSettings

def fields (l : Leaves) : Fields ApiSettings :=
  ApiSettings.mk <$> .defaulted "bind" l.text (ApiSettings.bind {})

end ApiSettings

namespace DatabaseSettings

def fields (l : Leaves) : Fields DatabaseSettings :=
  let d : DatabaseSettings := {}
  DatabaseSettings.mk <$> .defaulted "backend" l.text d.backend <*> .optional "url" l.text
    <*> .defaulted "max_connections" l.nat32 d.maxConnections
    <*> .defaulted "min_connections" l.nat32 d.minConnections

/-- The address of the database; only one backend has any. -/
def address (s : DatabaseSettings) : Except Failure String :=
  if s.backend != "postgres" then
    .error (.config ("Backend " ++ s.backend ++ " has no connection pool"))
  else
    match s.url.filter fun url => Text.trimmed url != "" with
    | some url => .ok url
    | none => .error (.config "database.url is required for postgres")

end DatabaseSettings

namespace RoutingSettings

def fields (l : Leaves) : Fields RoutingSettings :=
  let d : RoutingSettings := {}
  RoutingSettings.mk <$> .defaulted "strategy" l.strategy d.strategy
    <*> .defaulted "failover_enabled" l.bool d.failover
    <*> .defaulted "max_retries" l.nat32 d.maxRetries

end RoutingSettings

namespace EngineSettings

def fields (l : Leaves) : Fields EngineSettings :=
  let d : EngineSettings := {}
  EngineSettings.mk <$> .defaulted "poll_interval_secs" l.nat64 d.pollSeconds
    <*> .defaulted "batch_size" l.int64 d.batchSize
    <*> .defaulted "concurrency" l.nat64 d.concurrency
    <*> .defaulted "reconcile_batch_size" l.int64 d.reconcileBatchSize

end EngineSettings

namespace RateLimitSettings

def fields (l : Leaves) : Fields RateLimitSettings :=
  RateLimitSettings.mk
    <$> .defaulted "sweep_interval_secs" l.nat64 (RateLimitSettings.sweepSeconds {})

end RateLimitSettings

namespace LoggingSettings

def fields (l : Leaves) : Fields LoggingSettings :=
  let d : LoggingSettings := {}
  LoggingSettings.mk <$> .defaulted "level" l.text d.level <*> .defaulted "format" l.text d.format

end LoggingSettings

namespace ServerSettings

def fields (l : Leaves) : Fields ServerSettings :=
  ServerSettings.mk <$> .required "name" l.text <*> .required "url" l.text
    <*> .optional "api_key" l.text <*> .defaulted "weight" l.nat32 1
    <*> .defaulted "timeout_secs" l.nat64 30

def toJson (s : ServerSettings) : Json :=
  .obj
    [("name", .str s.name), ("url", .str s.url), ("api_key", .ofOption s.apiKey),
      ("weight", .ofNat s.weight), ("timeout_secs", .ofNat s.timeoutSeconds)]

end ServerSettings

namespace Settings

def fields (l : Leaves) : Fields Settings :=
  Settings.mk <$> .defaulted "api" ((ApiSettings.fields l).read l.spare) {}
    <*> .defaulted "database" ((DatabaseSettings.fields l).read l.spare) {}
    <*> .defaulted "routing" ((RoutingSettings.fields l).read l.spare) {}
    <*> .defaulted "engine" ((EngineSettings.fields l).read l.spare) {}
    <*> .defaulted "rate_limit" ((RateLimitSettings.fields l).read l.spare) {}
    <*> .defaulted "logging" ((LoggingSettings.fields l).read l.spare) {}
    <*> .defaulted "servers" (.list ((ServerSettings.fields l).read l.spare)) []

def toJson (s : Settings) : Json :=
  .obj
    [("api", .obj [("bind", .str s.api.bind)]),
      ("database", .obj
        [("backend", .str s.database.backend), ("url", .ofOption s.database.url),
          ("max_connections", .ofNat s.database.maxConnections),
          ("min_connections", .ofNat s.database.minConnections)]),
      ("routing", .obj
        [("strategy", .str (Vocabulary.word s.routing.strategy)),
          ("failover_enabled", .bool s.routing.failover),
          ("max_retries", .ofNat s.routing.maxRetries)]),
      ("engine", .obj
        [("poll_interval_secs", .ofNat s.engine.pollSeconds),
          ("batch_size", .int s.engine.batchSize),
          ("concurrency", .ofNat s.engine.concurrency),
          ("reconcile_batch_size", .int s.engine.reconcileBatchSize)]),
      ("rate_limit", .obj [("sweep_interval_secs", .ofNat s.rateLimit.sweepSeconds)]),
      ("logging", .obj [("level", .str s.logging.level), ("format", .str s.logging.format)]),
      ("servers", .arr (s.servers.map ServerSettings.toJson))]

/-- Servers need names, each its own; `seen` are the names before them. -/
def checkServers : List ServerSettings → List String → Except Failure Unit
  | [], _ => .ok ()
  | s :: rest, seen =>
      if Text.trimmed s.name = "" then .error (.config "Server name must not be empty")
      else if seen.contains s.name then .error (.config ("Duplicate server name: " ++ s.name))
      else checkServers rest (s.name :: seen)

/-- The conditions that reading alone does not ensure. -/
def validate (s : Settings) : Except Failure Settings := do
  checkServers s.servers []
  if s.engine.concurrency = 0 then throw (.config "engine.concurrency must be at least 1")
  if s.engine.batchSize ≤ 0 ∨ s.engine.reconcileBatchSize ≤ 0 then
    throw (.config "engine batch sizes must be positive")
  return s

end Settings

end Mailroom
