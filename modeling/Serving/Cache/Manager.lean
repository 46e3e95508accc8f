import Serving.Cache.Config
import Serving.Cache.Key
import Serving.Cache.Store
import Serving.Json.Parser
import Serving.Routine
import Serving.Sorted

/-!
# The cache

A cache keeps values of several types at the levels configured for each type. A read tries the levels
from the fastest on; what it finds at one level it copies to the faster ones. A write goes to all
levels. The memory level has a partition for each type. The distributed level is an outside store; a
call to it that fails or takes too long counts as an error and otherwise as if nothing was there.
-/

namespace Serving

structure Cache where
  config : Cache.Config
  partitions : Table Cache.Memory
  isDistributed : Bool
  hits : Nat := 0
  misses : Nat := 0
  memoryHits : Nat := 0
  distributedHits : Nat := 0
  sets : Nat := 0
  /-- Calls to the distributed level that failed or took too long. -/
  backendErrors : Nat := 0

namespace Cache

def new (config : Config) (isDistributed : Bool) : Cache where
  config := config
  partitions := config.types.map fun _ type => .new (config.capacityOf type)
  isDistributed := isDistributed

structure Encoding (α : Type) where
  encode : α → Except String Bytes
  decode : Bytes → Option α

namespace Encoding

def ofJson {α : Type} (write : α → Json) (read : Json → Option α) : Encoding α where
  encode a := .ok (Json.compact (Json.canonical (write a))).toUTF8
  decode b := (String.fromUTF8? b).bind fun s => (Json.parse s).bind read

def json : Encoding Json := ofJson id some

end Encoding

/-- An operation on a cache that may call the distributed level. No answer stands for a failed call. -/
abbrev Operation (α : Type) := Routine Call (fun c => Option c.Reply) Cache α

variable {α : Type}

def run {τ : Type} (store : Store τ) (operation : Operation α) (timeout : Duration) (t : τ)
    (now : Instant) : α × Cache × τ × Instant :=
  operation.run (store.ask timeout) t now

def typeConfig (c : Cache) (type : String) : Except Error TypeConfig :=
  match c.config.types.find? type with
  | some config => .ok config
  | none => .error (.unknownCacheType type)

/-- Calls the distributed level. A call without an answer is counted. -/
def ask (c : Cache) (call : Call) (next : Option call.Reply → Cache → Instant → Operation α) :
    Operation α :=
  .call call c fun reply c now =>
    next reply (if reply.isNone then { c with backendErrors := c.backendErrors + 1 } else c) now

def readLevel (c : Cache) (now : Instant) (type key : String) (level : Level)
    (next : Option Bytes → Cache → Instant → Operation α) : Operation α :=
  match level with
  | .memory =>
    match c.partitions.find? type with
    | none => next none c now
    | some partition =>
      let (value, partition) := partition.get now key
      next value { c with partitions := c.partitions.insert type partition } now
  | .distributed =>
    if c.isDistributed then c.ask (.get key) fun reply => next reply.join else next none c now

/-- Writes bytes under a key at each of some levels. -/
def writeLevels (type key : String) (value : Bytes) (ttl : Duration) (next : Cache → Instant → Operation α) :
    List Level → Cache → Instant → Operation α
  | [], c, now => next c now
  | .memory :: rest, c, now =>
    let c := { c with partitions := c.partitions.modify type (·.set now key value ttl) }
    writeLevels type key value ttl next rest c now
  | .distributed :: rest, c, now =>
    if c.isDistributed then
      c.ask (.set key value ttl) fun _ => writeLevels type key value ttl next rest
    else writeLevels type key value ttl next rest c now

def countHit (c : Cache) : Level → Cache
  | .memory => { c with hits := c.hits + 1, memoryHits := c.memoryHits + 1 }
  | .distributed => { c with hits := c.hits + 1, distributedHits := c.distributedHits + 1 }

/-- Looks through levels; those of `faster` were tried in vain. What cannot be decoded is passed over. -/
def lookup (decode : Bytes → Option α) (type key : String) (ttl : Duration) (faster : List Level) :
    List Level → Cache → Instant → Operation (Except Error (Option α))
  | [], c, _ => .done (.ok none) { c with misses := c.misses + 1 }
  | level :: rest, c, now =>
    c.readLevel now type key level fun value c now =>
      match value with
      | none => lookup decode type key ttl (faster ++ [level]) rest c now
      | some bytes =>
        match decode bytes with
        | none => lookup decode type key ttl (faster ++ [level]) rest c now
        | some v =>
          writeLevels type key bytes ttl (fun c _ => .done (.ok (some v)) (c.countHit level)) faster c now

def get (c : Cache) (now : Instant) (decode : Bytes → Option α) (type : String) (params : Params) :
    Operation (Except Error (Option α)) :=
  match c.typeConfig type with
  | .error e => .done (.error e) c
  | .ok config => lookup decode type (Key.derive type params) config.ttl [] config.levels c now

/-- Writes a value, given as its bytes or as why it has none. -/
def set (c : Cache) (now : Instant) (type : String) (params : Params) (value : Except String Bytes) :
    Operation (Except Error Unit) :=
  match c.typeConfig type with
  | .error e => .done (.error e) c
  | .ok config =>
    match value with
    | .error reason => .done (.error (.serialization reason)) c
    | .ok bytes =>
      writeLevels type (Key.derive type params) bytes config.ttl
        (fun c _ => .done (.ok ()) { c with sets := c.sets + 1 }) config.levels c now

/-- Looks for a key through levels without touching anything. -/
def search (type key : String) : List Level → Cache → Instant → Operation (Except Error Bool)
  | [], c, _ => .done (.ok false) c
  | .memory :: rest, c, now =>
    if (c.partitions.find? type).any (·.exists? now key) then .done (.ok true) c
    else search type key rest c now
  | .distributed :: rest, c, now =>
    if c.isDistributed then
      c.ask (.has key) fun reply c now =>
        if reply.getD false then .done (.ok true) c else search type key rest c now
    else search type key rest c now

def exists? (c : Cache) (now : Instant) (type : String) (params : Params) :
    Operation (Except Error Bool) :=
  match c.typeConfig type with
  | .error e => .done (.error e) c
  | .ok config => search type (Key.derive type params) config.levels c now

/-- Deletes a key from levels; `found` tells whether an earlier level had it. -/
def deleteLevels (type key : String) : (found : Bool) → List Level → Cache → Instant →
    Operation (Except Error Bool)
  | found, [], c, _ => .done (.ok found) c
  | found, .memory :: rest, c, now =>
    match c.partitions.find? type with
    | none => deleteLevels type key found rest c now
    | some partition =>
      let (here, partition) := partition.delete key
      deleteLevels type key (found || here) rest
        { c with partitions := c.partitions.insert type partition } now
  | found, .distributed :: rest, c, now =>
    if c.isDistributed then
      c.ask (.delete key) fun reply => deleteLevels type key (found || reply.getD false) rest
    else deleteLevels type key found rest c now

/-- Removes a value from all its levels, and tells whether one of them had it. -/
def invalidate (c : Cache) (now : Instant) (type : String) (params : Params) :
    Operation (Except Error Bool) :=
  match c.typeConfig type with
  | .error e => .done (.error e) c
  | .ok config => deleteLevels type (Key.derive type params) false config.levels c now

def tagged (c : Cache) (tags : List String) : List String :=
  Sorted.names (c.config.types.filter fun _ type => type.tags.any tags.contains).names

/-- Drops all entries of each of some types. -/
def dropTypes : List String → Cache → Instant → (Cache → Instant → Operation α) → Operation α
  | [], c, now, next => next c now
  | type :: rest, c, now, next =>
    let c := { c with partitions := c.partitions.modify type (·.clear) }
    let isRemote := (c.config.types.find? type).any fun config => config.levels.contains .distributed
    if isRemote && c.isDistributed then
      c.ask (.deleteMatching (Key.pattern type)) fun _ c now => dropTypes rest c now next
    else dropTypes rest c now next

/-- Drops all entries of the types that have one of some tags. The result names these types. -/
def invalidateTags (c : Cache) (now : Instant) (tags : List String) : Operation (List String) :=
  let types := c.tagged tags
  dropTypes types c now fun c _ => .done types c

/-- Empties all levels. -/
def clear (c : Cache) : Operation Unit :=
  let c := { c with partitions := c.partitions.map fun _ p => p.clear }
  if c.isDistributed then c.ask .clear fun _ c _ => .done () c else .done () c

/-- Sweeps expired entries out of the memory level, and counts them. -/
def sweep (c : Cache) (now : Instant) : Nat × Cache :=
  ((c.partitions.values.map fun p => (p.sweep now).1).foldr (· + ·) 0,
    { c with partitions := c.partitions.map fun _ p => (p.sweep now).2 })

structure Statistics where
  cache : Cache
  distributed : Option Stats

/-- Collects the counts of all levels. -/
def statistics (c : Cache) : Operation Statistics :=
  if c.isDistributed then c.ask .stats fun reply c _ => .done ⟨c, reply⟩ c else .done ⟨c, none⟩ c

namespace Statistics

def memory (s : Statistics) : Stats := (s.cache.partitions.values.map (·.stats)).foldl .add {}

def hitRatio (s : Statistics) : Float :=
  let total := s.cache.hits + s.cache.misses
  if total = 0 then 0.0 else Float.ofNat s.cache.hits / Float.ofNat total

def toJson (s : Statistics) : Json :=
  let c := s.cache
  .obj [("hits", .ofNat c.hits), ("misses", .ofNat c.misses), ("hit_ratio", .ofFloat s.hitRatio),
    ("memory_hits", .ofNat c.memoryHits), ("distributed_hits", .ofNat c.distributedHits),
    ("sets", .ofNat c.sets), ("backend_errors", .ofNat c.backendErrors), ("memory", s.memory.toJson),
    ("partitions", .ofTable (fun p => Stats.toJson (Memory.stats p)) c.partitions),
    ("distributed", .ofOption Stats.toJson s.distributed)]

end Statistics

structure Status where
  memory : Bool
  /-- Nothing, if there is no distributed level. -/
  distributed : Option Bool
  deriving DecidableEq, Repr

namespace Status

def isHealthy (s : Status) : Bool := s.memory && s.distributed.getD true

def toJson (s : Status) : Json := .obj [("memory", .bool s.memory), ("distributed", .ofOption .bool s.distributed)]

end Status

/-- Checks all levels. -/
def status (c : Cache) : Operation Status :=
  let memory := c.partitions.values.all (·.isHealthy)
  if c.isDistributed then
    c.ask .health fun reply c _ => .done ⟨memory, some (reply.getD false)⟩ c
  else .done ⟨memory, none⟩ c

end Cache

end Serving
