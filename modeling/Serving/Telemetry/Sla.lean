import Serving.Source
import Serving.Time

/-!
# Service levels

Counts of answered requests and of the time they took, held against a target share of successes and a
target for the mean time.
-/

namespace Serving

namespace Sla

structure Config where
  targetTime : Duration := .ofSeconds 2
  /-- From 0 to 1. -/
  targetRate : Float := 0.99

inductive Problem
  | noTargetTime
  | rateOutOfRange
  deriving DecidableEq, Repr

def Problem.message : Problem → String
  | noTargetTime => "sla: target_response_time must be non-zero"
  | rateOutOfRange => "sla: target_success_rate must be in [0, 1]"

namespace Config

instance : Inhabited Config := ⟨{}⟩

def problems (c : Config) : List Problem :=
  (if c.targetTime = 0 then [.noTargetTime] else []) ++
    (if 0.0 ≤ c.targetRate ∧ c.targetRate ≤ 1.0 then [] else [.rateOutOfRange])

def read : Reader Config := fun s => do
  let given ← Source.fields ["target_response_time", "target_success_rate"] s
  return {
    targetTime := ← given.get "target_response_time" Source.duration (.ofSeconds 2)
    targetRate := ← given.get "target_success_rate" Source.float 0.99 }

def toJson (c : Config) : Json :=
  .obj [("target_response_time", .ofDuration c.targetTime), ("target_success_rate", .ofFloat c.targetRate)]

end Config

end Sla

structure Sla where
  config : Sla.Config
  total : Nat := 0
  successful : Nat := 0
  failed : Nat := 0
  /-- Requests answered from the cache. -/
  cached : Nat := 0
  /-- Seconds of all requests together. -/
  totalTime : Float := 0.0
  /-- Seconds of the slowest request. -/
  longest : Float := 0.0

namespace Sla

def new (config : Config) : Sla := { config }

def record (s : Sla) (took : Duration) (success cached : Bool) : Sla :=
  let time := Duration.seconds took
  { s with
    total := s.total + 1
    successful := s.successful + (if success then 1 else 0)
    failed := s.failed + (if success then 0 else 1)
    cached := s.cached + (if cached then 1 else 0)
    totalTime := s.totalTime + time
    longest := if s.longest < time then time else s.longest }

/-- Forgets all requests. -/
def reset (s : Sla) : Sla := new s.config

/-- The share of all requests that `count` makes up, or a share to go by while there are none. -/
def share (s : Sla) (count : Nat) (ofNone : Float) : Float :=
  if s.total = 0 then ofNone else Float.ofNat count / Float.ofNat s.total

def successRate (s : Sla) : Float := s.share s.successful 1.0

def meanTime (s : Sla) : Float := if s.total = 0 then 0.0 else s.totalTime / Float.ofNat s.total

def isCompliant (s : Sla) : Bool :=
  decide (s.config.targetRate ≤ s.successRate) && decide (s.meanTime ≤ Duration.seconds s.config.targetTime)

def toJson (s : Sla) : Json :=
  .obj [("total_requests", .ofNat s.total), ("successful_requests", .ofNat s.successful),
    ("failed_requests", .ofNat s.failed), ("cached_responses", .ofNat s.cached),
    ("success_rate", .ofFloat s.successRate), ("cache_hit_rate", .ofFloat (s.share s.cached 0.0)),
    ("average_response_time", .ofFloat s.meanTime), ("max_response_time", .ofFloat s.longest),
    ("compliant", .bool s.isCompliant)]

@[simp]
theorem record_total (s : Sla) (took : Duration) (success cached : Bool) :
    (s.record took success cached).total = s.total + 1 := rfl

end Sla

end Serving
