import Serving.Cache.Memory
import Serving.Source

/-!
# Settings of the cache

A table of cache types, each with a time to live, the levels it uses from the fastest on, a capacity of
its own and tags for invalidation; the capacity of the others; and how the distributed level is reached.
-/

namespace Serving

namespace Cache

inductive Level
  | memory
  | distributed
  deriving DecidableEq, Repr, Inhabited

namespace Level

def name : Level → String
  | memory => "memory"
  | distributed => "distributed"

def ofName? : String → Option Level
  | "memory" => some memory
  | "distributed" => some distributed
  | _ => none

end Level

structure TypeConfig where
  ttl : Duration
  /-- Capacity of the memory level for this type, if it has its own. -/
  capacity : Option Nat := none
  /-- From the fastest on. -/
  levels : List Level
  tags : List String := []
  deriving Inhabited

namespace TypeConfig

def read : Reader TypeConfig := fun s => do
  let given ← Source.fields ["ttl", "max_entries", "levels", "tags"] s
  return {
    ttl := ← given.require "ttl" Source.duration
    capacity := ← given.get "max_entries" (Source.optional Source.word) none
    levels := ← given.require "levels" (Source.list (Source.choice Level.ofName?))
    tags := ← given.get "tags" (Source.list Source.text) [] }

def toJson (c : TypeConfig) : Json :=
  .obj [("ttl", .ofDuration c.ttl), ("max_entries", .ofOption .ofNat c.capacity),
    ("levels", .arr (c.levels.map fun l => .str l.name)), ("tags", .arr (c.tags.map .str))]

end TypeConfig

structure RemoteConfig where
  enabled : Bool := false
  /-- The whole address; it goes before the fields that follow. -/
  url : Option String := none
  host : String := "localhost"
  port : UInt16 := 6379
  database : Int := 0
  password : Option String := none
  /-- Put in front of every key. -/
  keyPrefix : String := ""
  connectionTimeout : Duration := .ofSeconds 2
  operationTimeout : Duration := .ofMillis 250
  /-- The least time between a failed attempt to connect and the next one. -/
  backoff : Duration := .ofSeconds 5
  deriving Inhabited

namespace RemoteConfig

def isUnreserved (b : UInt8) : Bool :=
  let c := Char.ofNat b.toNat
  b < 128 && (c.isAlphanum || c == '-' || c == '.' || c == '_' || c == '~')

/-- Two capital hexadecimal digits behind a percent sign. -/
def escape (b : UInt8) : List Char :=
  ['%', (Nat.digitChar (b.toNat / 16)).toUpper, (Nat.digitChar (b.toNat % 16)).toUpper]

def percentEncoded (s : String) : String :=
  String.ofList (s.toUTF8.toList.flatMap fun b => if isUnreserved b then [Char.ofNat b.toNat] else escape b)

def address (c : RemoteConfig) : String :=
  match c.url with
  | some url => url
  | none =>
    let secret := match c.password with
      | some password => ":" ++ percentEncoded password ++ "@"
      | none => ""
    "redis://" ++ secret ++ c.host ++ ":" ++ toString c.port.toNat ++ "/" ++ toString c.database

def fieldNames : List String :=
  ["enabled", "url", "host", "port", "db", "password", "key_prefix", "connection_timeout",
    "operation_timeout", "reconnect_backoff"]

def read : Reader RemoteConfig := fun s => do
  let given ← Source.fields fieldNames s
  return {
    enabled := ← given.get "enabled" Source.bool false
    url := ← given.get "url" (Source.optional Source.text) none
    host := ← given.get "host" Source.text "localhost"
    port := UInt16.ofNat (← given.get "port" Source.port 6379)
    database := ← given.get "db" Source.integer 0
    password := ← given.get "password" (Source.optional Source.text) none
    keyPrefix := ← given.get "key_prefix" Source.text ""
    connectionTimeout := ← given.get "connection_timeout" Source.duration (.ofSeconds 2)
    operationTimeout := ← given.get "operation_timeout" Source.duration (.ofMillis 250)
    backoff := ← given.get "reconnect_backoff" Source.duration (.ofSeconds 5) }

def toJson (c : RemoteConfig) : Json :=
  .obj [("enabled", .bool c.enabled), ("url", .ofOption .str c.url), ("host", .str c.host),
    ("port", .ofNat c.port.toNat), ("db", .int c.database), ("password", .ofOption .str c.password),
    ("key_prefix", .str c.keyPrefix), ("connection_timeout", .ofDuration c.connectionTimeout),
    ("operation_timeout", .ofDuration c.operationTimeout), ("reconnect_backoff", .ofDuration c.backoff)]

end RemoteConfig

/-- A cache type of the usual table: both levels, and a time to live in seconds. -/
def usualType (seconds : Nat) (tags : List String) : TypeConfig :=
  { ttl := .ofSeconds seconds, levels := [.memory, .distributed], tags }

/-- The cache types that are there if none are given. -/
def usualTypes : Table TypeConfig :=
  .ofList [
    ("financial_analysis", usualType 3600 ["financial", "analysis"]),
    ("compliance_check", usualType 7200 ["compliance", "regulatory"]),
    ("market_intelligence", usualType 900 ["market", "intelligence"]),
    ("ai_responses", usualType 1800 ["ai", "llm"]),
    ("database_queries", usualType 300 ["database"]),
    ("user_sessions", usualType 86400 ["session", "user"])]

structure Config where
  /-- Capacity of the memory level for types without their own. -/
  capacity : Nat := Memory.usualCapacity
  remote : RemoteConfig := {}
  types : Table TypeConfig := usualTypes

inductive Problem
  | noCapacity
  | noTypes
  | noLevels (type : String)
  | noTtl (type : String)
  | emptyPartition (type : String)
  | repeatedLevel (type : String)
  deriving DecidableEq, Repr

def Problem.message : Problem → String
  | noCapacity => "cache.memory_max_entries must be greater than 0"
  | noTypes => "cache.cache_types must define at least one cache type"
  | noLevels type => "cache type '" ++ type ++ "' must use at least one level"
  | noTtl type => "cache type '" ++ type ++ "' must have a non-zero ttl"
  | emptyPartition type => "cache type '" ++ type ++ "' has max_entries = 0"
  | repeatedLevel type => "cache type '" ++ type ++ "' lists a level twice"

def TypeConfig.problems (name : String) (c : TypeConfig) : List Problem :=
  (if c.levels.isEmpty then [.noLevels name] else []) ++
    (if c.ttl = 0 then [.noTtl name] else []) ++
    (if c.capacity = some 0 then [.emptyPartition name] else []) ++
    (if c.levels.Nodup then [] else [.repeatedLevel name])

namespace Config

instance : Inhabited Config := ⟨{}⟩

def problems (c : Config) : List Problem :=
  (if c.capacity = 0 then [.noCapacity] else []) ++
    (if c.types.toList.isEmpty then [.noTypes] else []) ++
    c.types.toList.flatMap fun (name, type) => type.problems name

def read : Reader Config := fun s => do
  let given ← Source.fields ["memory_max_entries", "redis", "cache_types"] s
  return {
    capacity := ← given.get "memory_max_entries" Source.word Memory.usualCapacity
    remote := ← given.get "redis" RemoteConfig.read {}
    types := ← given.get "cache_types" (Source.table TypeConfig.read) usualTypes }

def toJson (c : Config) : Json :=
  .obj [("memory_max_entries", .ofNat c.capacity), ("redis", c.remote.toJson),
    ("cache_types", .ofTable TypeConfig.toJson c.types)]

def capacityOf (c : Config) (type : TypeConfig) : Nat := type.capacity.getD c.capacity

end Config

end Cache

end Serving
