import Serving.Source

/-!
# Scaling policies

How many instances a service may have and what load they should carry; and what may be wrong with
such a policy.
-/

namespace Serving

namespace Scaling

structure Policy where
  minInstances : Nat := 2
  maxInstances : Nat := 10
  /-- Percent. -/
  targetCpu : Float := 70.0
  /-- Percent. -/
  targetMemory : Float := 80.0
  targetTime : Duration := .ofSeconds 1
  /-- A mean above this share of its target asks for more instances. -/
  upThreshold : Float := 1.0
  /-- Means all below this share of their targets allow fewer instances. -/
  downThreshold : Float := 0.3
  upCooldown : Duration := .ofSeconds 300
  downCooldown : Duration := .ofSeconds 600
  window : Duration := .ofSeconds 300

inductive Policy.Problem
  | noInstances
  | minAboveMax (minInstances maxInstances : Nat)
  | cpuOutOfRange
  | memoryOutOfRange
  | noTargetTime
  | thresholdsOutOfOrder
  | noWindow
  deriving DecidableEq, Repr

def Policy.Problem.message (name : String) (p : Policy.Problem) : String :=
  "scaling policy '" ++ name ++ "': " ++ match p with
    | noInstances => "max_instances must be at least 1"
    | minAboveMax minInstances maxInstances =>
      "min_instances (" ++ toString minInstances ++ ") exceeds max_instances (" ++ toString maxInstances ++ ")"
    | cpuOutOfRange => "target_cpu must be in (0, 100]"
    | memoryOutOfRange => "target_memory must be in (0, 100]"
    | noTargetTime => "target_response_time must be non-zero"
    | thresholdsOutOfOrder => "need 0 < scale_down_threshold < scale_up_threshold"
    | noWindow => "metrics_window must be non-zero"

namespace Policy

instance : Inhabited Policy := ⟨{}⟩

def isPercentage (x : Float) : Bool := decide (0.0 < x ∧ x ≤ 100.0)

def problems (p : Policy) : List Problem :=
  (if p.maxInstances = 0 then [.noInstances] else []) ++
    (if p.maxInstances < p.minInstances then [.minAboveMax p.minInstances p.maxInstances] else []) ++
    (if isPercentage p.targetCpu then [] else [.cpuOutOfRange]) ++
    (if isPercentage p.targetMemory then [] else [.memoryOutOfRange]) ++
    (if p.targetTime = 0 then [.noTargetTime] else []) ++
    (if 0.0 < p.downThreshold ∧ p.downThreshold < p.upThreshold then [] else [.thresholdsOutOfOrder]) ++
    (if p.window = 0 then [.noWindow] else [])

def fieldNames : List String :=
  ["min_instances", "max_instances", "target_cpu", "target_memory", "target_response_time",
    "scale_up_threshold", "scale_down_threshold", "scale_up_cooldown", "scale_down_cooldown",
    "metrics_window"]

def read : Reader Policy := fun s => do
  let given ← Source.fields fieldNames s
  return {
    minInstances := ← given.get "min_instances" Source.word 2
    maxInstances := ← given.get "max_instances" Source.word 10
    targetCpu := ← given.get "target_cpu" Source.float 70.0
    targetMemory := ← given.get "target_memory" Source.float 80.0
    targetTime := ← given.get "target_response_time" Source.duration (.ofSeconds 1)
    upThreshold := ← given.get "scale_up_threshold" Source.float 1.0
    downThreshold := ← given.get "scale_down_threshold" Source.float 0.3
    upCooldown := ← given.get "scale_up_cooldown" Source.duration (.ofSeconds 300)
    downCooldown := ← given.get "scale_down_cooldown" Source.duration (.ofSeconds 600)
    window := ← given.get "metrics_window" Source.duration (.ofSeconds 300) }

def toJson (p : Policy) : Json :=
  .obj [("min_instances", .ofNat p.minInstances), ("max_instances", .ofNat p.maxInstances),
    ("target_cpu", .ofFloat p.targetCpu), ("target_memory", .ofFloat p.targetMemory),
    ("target_response_time", .ofDuration p.targetTime), ("scale_up_threshold", .ofFloat p.upThreshold),
    ("scale_down_threshold", .ofFloat p.downThreshold), ("scale_up_cooldown", .ofDuration p.upCooldown),
    ("scale_down_cooldown", .ofDuration p.downCooldown), ("metrics_window", .ofDuration p.window)]

end Policy

def usualPolicy (minInstances maxInstances : Nat) : Policy := { minInstances, maxInstances }

/-- The policies that are there if none are given. -/
def usualPolicies : Table Policy :=
  .ofList [("llm-large", usualPolicy 2 6), ("llm-fast", usualPolicy 2 10), ("embedding", usualPolicy 2 8)]

structure Config where
  /-- How often all services are evaluated. -/
  interval : Duration := .ofSeconds 30
  startupDelay : Duration := .ofSeconds 10
  /-- How long a stopping instance stays in the pool. -/
  gracePeriod : Duration := .ofSeconds 30
  historyLimit : Nat := 100
  /-- Services without a policy are never scaled. -/
  policies : Table Policy := usualPolicies

inductive Problem
  | noInterval
  | policy (name : String) (problem : Policy.Problem)
  deriving DecidableEq, Repr

def Problem.message : Problem → String
  | noInterval => "scaling.evaluation_interval must be non-zero"
  | policy name problem => problem.message name

namespace Config

instance : Inhabited Config := ⟨{}⟩

def policyProblems (c : Config) : List Problem :=
  c.policies.toList.flatMap fun (name, p) => p.problems.map (.policy name)

def problems (c : Config) : List Problem :=
  (if c.interval = 0 then [.noInterval] else []) ++ c.policyProblems

def read : Reader Config := fun s => do
  let given ← Source.fields
    ["evaluation_interval", "startup_delay", "grace_period", "history_limit", "policies"] s
  return {
    interval := ← given.get "evaluation_interval" Source.duration (.ofSeconds 30)
    startupDelay := ← given.get "startup_delay" Source.duration (.ofSeconds 10)
    gracePeriod := ← given.get "grace_period" Source.duration (.ofSeconds 30)
    historyLimit := ← given.get "history_limit" Source.word 100
    policies := ← given.get "policies" (Source.table Policy.read) usualPolicies }

def toJson (c : Config) : Json :=
  .obj [("evaluation_interval", .ofDuration c.interval), ("startup_delay", .ofDuration c.startupDelay),
    ("grace_period", .ofDuration c.gracePeriod), ("history_limit", .ofNat c.historyLimit),
    ("policies", .ofTable Policy.toJson c.policies)]

end Config

end Scaling

end Serving
