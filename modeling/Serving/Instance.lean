import Serving.Source
import Serving.Timestamp

/-!
# Service instances

An instance serves one service type at a host and port. Its record carries the health status, the
resource figures last reported, and moving averages over the requests it has answered.
-/

namespace Serving

/-- The life of an instance: it starts, is healthy or not, and stops. -/
inductive Health
  | healthy
  | unhealthy
  | degraded
  | starting
  | stopping
  deriving DecidableEq, Repr, Inhabited

namespace Health

def name : Health → String
  | healthy => "healthy"
  | unhealthy => "unhealthy"
  | degraded => "degraded"
  | starting => "starting"
  | stopping => "stopping"

def ofName? : String → Option Health
  | "healthy" => some healthy
  | "unhealthy" => some unhealthy
  | "degraded" => some degraded
  | "starting" => some starting
  | "stopping" => some stopping
  | _ => none

/-- The status after a probe that passed or failed. Instances that start or stop keep theirs. -/
def afterProbe : Health → Bool → Health
  | unhealthy, true | degraded, true => healthy
  | healthy, false | degraded, false => unhealthy
  | status, _ => status

theorem ofName?_name (h : Health) : ofName? h.name = some h := by cases h <;> rfl

end Health

structure Instance where
  id : String
  service : String
  host : String
  port : UInt16
  health : Health := .starting
  /-- Processor use in percent. -/
  cpu : Float := 0.0
  /-- Memory use in percent. -/
  memory : Float := 0.0
  /-- Moving average of the response time in seconds. -/
  responseTime : Float := 0.0
  /-- Moving average of the failures, from 0 to 1. -/
  errorRate : Float := 0.0
  active : Nat := 0
  completed : Nat := 0
  weight : Float := 1.0
  metadata : Table String := ∅
  lastCheck : Option Timestamp := none
  created : Timestamp := ⟨0, 0⟩

namespace Instance

def isHealthy (i : Instance) : Bool := i.health == .healthy

def endpoint (i : Instance) : String := i.host ++ ":" ++ toString i.port.toNat

def responseShare : Float := 0.1

def failureShare : Float := 0.1

def successDecay : Float := 0.05

/-- The record after a request that took `took` ended. -/
def finish (i : Instance) (success : Bool) (took : Duration) : Instance :=
  let sample := Duration.seconds took
  { i with
    active := i.active - 1
    responseTime :=
      if i.completed == 0 then sample
      else i.responseTime * (1.0 - responseShare) + sample * responseShare
    completed := i.completed + 1
    errorRate :=
      if success then i.errorRate * (1.0 - successDecay)
      else i.errorRate * (1.0 - failureShare) + failureShare }

def fieldNames : List String :=
  ["instance_id", "service_type", "host", "port", "health_status", "cpu_usage", "memory_usage",
    "response_time", "error_rate", "active_connections", "completed_requests", "weight", "metadata",
    "last_health_check", "created_at"]

def readTimestamp : Reader Timestamp := fun s => (Source.text s).bind Timestamp.parse?

def read : Reader Instance := fun s => do
  let given ← Source.allFields fieldNames s
  return {
    id := ← given.require "instance_id" Source.text
    service := ← given.require "service_type" Source.text
    host := ← given.require "host" Source.text
    port := UInt16.ofNat (← given.require "port" Source.port)
    health := ← given.require "health_status" (Source.choice Health.ofName?)
    cpu := ← given.require "cpu_usage" Source.float
    memory := ← given.require "memory_usage" Source.float
    responseTime := ← given.require "response_time" Source.float
    errorRate := ← given.require "error_rate" Source.float
    active := ← given.require "active_connections" Source.word
    completed := ← given.require "completed_requests" Source.word
    weight := ← given.require "weight" Source.float
    metadata := ← given.require "metadata" (Source.table Source.text)
    lastCheck := ← given.get "last_health_check" (Source.optional readTimestamp) none
    created := ← given.require "created_at" readTimestamp }

def toJson (i : Instance) : Json :=
  .obj [("instance_id", .str i.id), ("service_type", .str i.service), ("host", .str i.host),
    ("port", .ofNat i.port.toNat), ("health_status", .str i.health.name),
    ("cpu_usage", .ofFloat i.cpu), ("memory_usage", .ofFloat i.memory),
    ("response_time", .ofFloat i.responseTime), ("error_rate", .ofFloat i.errorRate),
    ("active_connections", .ofNat i.active), ("completed_requests", .ofNat i.completed),
    ("weight", .ofFloat i.weight), ("metadata", .ofTable .str i.metadata),
    ("last_health_check", .ofOption (fun t => .str t.text) i.lastCheck),
    ("created_at", .str i.created.text)]

@[simp]
theorem finish_health (i : Instance) (success : Bool) (took : Duration) :
    (i.finish success took).health = i.health := rfl

@[simp]
theorem finish_active (i : Instance) (success : Bool) (took : Duration) :
    (i.finish success took).active = i.active - 1 := rfl

end Instance

end Serving
