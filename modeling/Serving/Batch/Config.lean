import Serving.Error
import Serving.Source
import Serving.Text.Blank

/-!
# Settings of batching

When a model's queue goes out as a batch, how large batches get, how long a request may wait, and how
many batches of a model run at once; and what may be wrong with such settings.
-/

namespace Serving

namespace Batch

/-- When a queue goes out. -/
inductive Strategy
  /-- When it is full. -/
  | sizeBased
  /-- When its timer runs out. -/
  | timeBased
  /-- At once with a critical request, else when it is full. -/
  | priorityBased
  /-- At the ideal size, or earlier for a busy model. -/
  | adaptive
  deriving DecidableEq, Repr, Inhabited

namespace Strategy

def name : Strategy → String
  | sizeBased => "size_based"
  | timeBased => "time_based"
  | priorityBased => "priority_based"
  | adaptive => "adaptive"

def ofName? : String → Option Strategy
  | "size_based" => some sizeBased
  | "time_based" => some timeBased
  | "priority_based" => some priorityBased
  | "adaptive" => some adaptive
  | _ => none

def normalized (s : String) : String :=
  String.ofList ((Text.lower s).toList.map fun c => if c == '-' then '_' else c)

/-- Reads a strategy in any case of letters, with hyphens for underscores, or by its first word. -/
def parse (s : String) : Except Error Strategy :=
  match normalized s with
  | "size" => .ok sizeBased
  | "time" => .ok timeBased
  | "priority" => .ok priorityBased
  | other =>
    match ofName? other with
    | some strategy => .ok strategy
    | none => .error (.configuration ("Unknown batching strategy: " ++ other))

theorem ofName?_name (s : Strategy) : ofName? s.name = some s := by cases s <;> rfl

end Strategy

structure Model where
  maxSize : Nat := 16
  idealSize : Nat := 8
  /-- How long a queue may wait before it goes out. -/
  timeout : Duration := .ofSeconds 1
  /-- Batches that may run at once. -/
  concurrency : Nat := 5
  baseLatency : Duration := .ofMillis 200
  /-- Simulated cost of each request in a batch. -/
  itemLatency : Duration := .ofMillis 10
  initialInstances : Nat := 2
  deriving DecidableEq, Inhabited

inductive Model.Problem
  | noSize
  | idealOutOfRange (maxSize : Nat)
  | noConcurrency
  | noTimeout
  deriving DecidableEq, Repr

def Model.Problem.message (name : String) (p : Model.Problem) : String :=
  "model '" ++ name ++ "': " ++ match p with
    | noSize => "max_batch_size must be at least 1"
    | idealOutOfRange maxSize => "ideal_batch_size must be in 1..=" ++ toString maxSize
    | noConcurrency => "concurrency_limit must be at least 1"
    | noTimeout => "batch_timeout must be non-zero"

namespace Model

def problems (m : Model) : List Problem :=
  (if m.maxSize = 0 then [.noSize] else []) ++
    (if m.idealSize = 0 ∨ m.maxSize < m.idealSize then [.idealOutOfRange m.maxSize] else []) ++
    (if m.concurrency = 0 then [.noConcurrency] else []) ++
    (if m.timeout = 0 then [.noTimeout] else [])

/-- The largest number of requests that the simulated cost counts. -/
def mostItems : Nat := 4294967295

/-- The simulated time that a batch takes, up to the longest duration. -/
def latency (m : Model) (items : Nat) : Duration :=
  Duration.addCapped m.baseLatency (Duration.mulCapped m.itemLatency (min items mostItems))

def read : Reader Model := fun s => do
  let given ← Source.fields ["max_batch_size", "ideal_batch_size", "batch_timeout", "concurrency_limit",
    "base_latency", "per_item_latency", "initial_instances"] s
  return {
    maxSize := ← given.get "max_batch_size" Source.word 16
    idealSize := ← given.get "ideal_batch_size" Source.word 8
    timeout := ← given.get "batch_timeout" Source.duration (.ofSeconds 1)
    concurrency := ← given.get "concurrency_limit" Source.word 5
    baseLatency := ← given.get "base_latency" Source.duration (.ofMillis 200)
    itemLatency := ← given.get "per_item_latency" Source.duration (.ofMillis 10)
    initialInstances := ← given.get "initial_instances" Source.word 2 }

def toJson (m : Model) : Json :=
  .obj [("max_batch_size", .ofNat m.maxSize), ("ideal_batch_size", .ofNat m.idealSize),
    ("batch_timeout", .ofDuration m.timeout), ("concurrency_limit", .ofNat m.concurrency),
    ("base_latency", .ofDuration m.baseLatency), ("per_item_latency", .ofDuration m.itemLatency),
    ("initial_instances", .ofNat m.initialInstances)]

end Model

/-- When the adaptive strategy sends a queue out early. -/
structure Adaptive where
  earlyRatio : Float := 0.7
  threshold : Float := 5.0
  window : Nat := 5

namespace Adaptive

instance : Inhabited Adaptive := ⟨{}⟩

def read : Reader Adaptive := fun s => do
  let given ← Source.fields ["early_fire_ratio", "throughput_threshold", "throughput_window"] s
  return {
    earlyRatio := ← given.get "early_fire_ratio" Source.float 0.7
    threshold := ← given.get "throughput_threshold" Source.float 5.0
    window := ← given.get "throughput_window" Source.word 5 }

def toJson (a : Adaptive) : Json :=
  .obj [("early_fire_ratio", .ofFloat a.earlyRatio), ("throughput_threshold", .ofFloat a.threshold),
    ("throughput_window", .ofNat a.window)]

end Adaptive

/-- The models that are there if none are given. -/
def usualModels : Table Model :=
  .ofList [
    ("llm-large", ⟨8, 4, .ofMillis 2000, 2, .ofMillis 800, .ofMillis 50, 2⟩),
    ("llm-fast", ⟨16, 8, .ofMillis 1000, 5, .ofMillis 200, .ofMillis 10, 2⟩),
    ("embedding", ⟨32, 16, .ofMillis 500, 10, .ofMillis 50, .ofMillis 2, 2⟩)]

structure Config where
  strategy : Strategy := .adaptive
  /-- How often all queues are looked at. -/
  tickInterval : Duration := .ofMillis 100
  /-- How long a caller waits who does not say. -/
  requestTimeout : Duration := .ofSeconds 30
  adaptive : Adaptive := {}
  models : Table Model := usualModels

inductive Problem
  | noModels
  | noTickInterval
  | noRequestTimeout
  | earlyRatioOutOfRange
  | noWindow
  | model (name : String) (problem : Model.Problem)
  deriving DecidableEq, Repr

def Problem.message : Problem → String
  | noModels => "batching: at least one model must be configured"
  | noTickInterval => "batching: tick_interval must be non-zero"
  | noRequestTimeout => "batching: default_request_timeout must be non-zero"
  | earlyRatioOutOfRange => "batching: adaptive.early_fire_ratio must be in (0, 1]"
  | noWindow => "batching: adaptive.throughput_window must be at least 1"
  | model name problem => problem.message name

namespace Config

instance : Inhabited Config := ⟨{}⟩

def problems (c : Config) : List Problem :=
  (if c.models.toList.isEmpty then [.noModels] else []) ++
    (if c.tickInterval = 0 then [.noTickInterval] else []) ++
    (if c.requestTimeout = 0 then [.noRequestTimeout] else []) ++
    (if 0.0 < c.adaptive.earlyRatio ∧ c.adaptive.earlyRatio ≤ 1.0 then [] else [.earlyRatioOutOfRange]) ++
    (if c.adaptive.window = 0 then [.noWindow] else []) ++
    c.models.toList.flatMap fun (name, m) => m.problems.map (.model name)

def read : Reader Config := fun s => do
  let given ← Source.fields
    ["strategy", "tick_interval", "default_request_timeout", "adaptive", "models"] s
  return {
    strategy := ← given.get "strategy" (Source.choice Strategy.ofName?) .adaptive
    tickInterval := ← given.get "tick_interval" Source.duration (.ofMillis 100)
    requestTimeout := ← given.get "default_request_timeout" Source.duration (.ofSeconds 30)
    adaptive := ← given.get "adaptive" Adaptive.read {}
    models := ← given.get "models" (Source.table Model.read) usualModels }

def toJson (c : Config) : Json :=
  .obj [("strategy", .str c.strategy.name), ("tick_interval", .ofDuration c.tickInterval),
    ("default_request_timeout", .ofDuration c.requestTimeout), ("adaptive", c.adaptive.toJson),
    ("models", .ofTable Model.toJson c.models)]

end Config

end Batch

end Serving
