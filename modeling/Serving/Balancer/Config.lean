import Serving.Balancer.Algorithm
import Serving.Breaker

/-!
# Settings of the balancer

How instances are chosen, how often they are probed, when their breakers open, and the weight of
instances that the scaler adds; and what may be wrong with such settings.
-/

namespace Serving

namespace Balancer

structure Config where
  algorithm : Algorithm := .roundRobin
  /-- How often every instance is probed. -/
  healthInterval : Duration := .ofSeconds 30
  breaker : Breaker.Config := {}
  defaultWeight : Float := 1.0

inductive Problem
  | noHealthInterval
  | noRetries
  | weightNotPositive
  deriving DecidableEq, Repr

def Problem.message : Problem → String
  | noHealthInterval => "load_balancing.health_check_interval must be non-zero"
  | noRetries => "load_balancing.circuit_breaker.max_retries must be at least 1"
  | weightNotPositive => "load_balancing.default_weight must be positive"

namespace Config

instance : Inhabited Config := ⟨{}⟩

def problems (c : Config) : List Problem :=
  (if c.healthInterval = 0 then [.noHealthInterval] else []) ++
    (if c.breaker.maxRetries = 0 then [.noRetries] else []) ++
    (if 0.0 < c.defaultWeight then [] else [.weightNotPositive])

def read : Reader Config := fun s => do
  let given ← Source.fields ["algorithm", "health_check_interval", "circuit_breaker", "default_weight"] s
  return {
    algorithm := ← given.get "algorithm" (Source.choice Algorithm.ofName?) .roundRobin
    healthInterval := ← given.get "health_check_interval" Source.duration (.ofSeconds 30)
    breaker := ← given.get "circuit_breaker" Breaker.Config.read {}
    defaultWeight := ← given.get "default_weight" Source.float 1.0 }

def toJson (c : Config) : Json :=
  .obj [("algorithm", .str c.algorithm.name), ("health_check_interval", .ofDuration c.healthInterval),
    ("circuit_breaker", c.breaker.toJson), ("default_weight", .ofFloat c.defaultWeight)]

end Config

end Balancer

end Serving
