import Serving.Balancer.Config
import Serving.Batch.Config
import Serving.Cache.Config
import Serving.Scaling.Policy
import Serving.Telemetry.Config
import Serving.Telemetry.Sla

/-!
# Settings

The settings of all parts together, and all that is wrong with them at once. Some of it lies between
the parts: a request type may be routed to a cache type that there is none of.
-/

namespace Serving

structure Routing where
  /-- The cache type of each request type that is cached. -/
  cacheTypes : Table String := .ofList [("ai_model", "ai_responses"), ("database", "database_queries")]
  defaultModel : String := "llm-fast"

namespace Routing

instance : Inhabited Routing := ⟨{}⟩

def read : Reader Routing := fun s => do
  let given ← Source.fields ["cache_types", "default_model"] s
  return {
    cacheTypes := ← given.get "cache_types" (Source.table Source.text) ({} : Routing).cacheTypes
    defaultModel := ← given.get "default_model" Source.text "llm-fast" }

def toJson (r : Routing) : Json :=
  .obj [("cache_types", .ofTable .str r.cacheTypes), ("default_model", .str r.defaultModel)]

end Routing

structure Maintenance where
  statsInterval : Duration := .ofSeconds 300
  sweepInterval : Duration := .ofSeconds 60
  cleanupInterval : Duration := .ofSeconds 3600
  /-- How long figures on a query are kept after it was last seen. -/
  retention : Duration := .ofSeconds 86400
  deriving DecidableEq, Inhabited

namespace Maintenance

def read : Reader Maintenance := fun s => do
  let given ← Source.fields ["cache_stats_interval", "expired_sweep_interval",
    "db_metrics_cleanup_interval", "db_metrics_retention"] s
  return {
    statsInterval := ← given.get "cache_stats_interval" Source.duration (.ofSeconds 300)
    sweepInterval := ← given.get "expired_sweep_interval" Source.duration (.ofSeconds 60)
    cleanupInterval := ← given.get "db_metrics_cleanup_interval" Source.duration (.ofSeconds 3600)
    retention := ← given.get "db_metrics_retention" Source.duration (.ofSeconds 86400) }

def toJson (m : Maintenance) : Json :=
  .obj [("cache_stats_interval", .ofDuration m.statsInterval),
    ("expired_sweep_interval", .ofDuration m.sweepInterval),
    ("db_metrics_cleanup_interval", .ofDuration m.cleanupInterval),
    ("db_metrics_retention", .ofDuration m.retention)]

end Maintenance

structure Settings where
  cache : Cache.Config := {}
  balancing : Balancer.Config := {}
  scaling : Scaling.Config := {}
  batching : Batch.Config := {}
  routing : Routing := {}
  maintenance : Maintenance := {}
  sla : Sla.Config := {}
  logging : Logging.Config := {}
  metrics : Metrics.Config := {}

namespace Settings

instance : Inhabited Settings := ⟨{}⟩

inductive Problem
  | cache (p : Cache.Problem)
  | balancing (p : Balancer.Problem)
  | scaling (p : Scaling.Problem)
  | batching (p : Batch.Problem)
  | unknownCacheType (request type : String)
  | unknownDefaultModel (model : String)
  | noMaintenanceInterval
  | sla (p : Sla.Problem)
  | logging (p : Logging.Problem)
  | metrics (p : Metrics.Problem)
  deriving DecidableEq, Repr

def Problem.message : Problem → String
  | cache p => p.message
  | balancing p => p.message
  | scaling p => p.message
  | batching p => p.message
  | unknownCacheType request type =>
    "routing: request type '" ++ request ++ "' maps to unknown cache type '" ++ type ++ "'"
  | unknownDefaultModel model => "routing.default_model '" ++ model ++ "' has no batching configuration"
  | noMaintenanceInterval => "maintenance intervals must be non-zero"
  | sla p => p.message
  | logging p => p.message
  | metrics p => p.message

def routingProblems (s : Settings) : List Problem :=
  (s.routing.cacheTypes.toList.filterMap fun (request, type) =>
    if s.cache.types.contains type then none else some (.unknownCacheType request type)) ++
  (if s.batching.models.contains s.routing.defaultModel then []
    else [.unknownDefaultModel s.routing.defaultModel])

def maintenanceProblems (m : Maintenance) : List Problem :=
  if m.statsInterval = 0 ∨ m.sweepInterval = 0 ∨ m.cleanupInterval = 0 then [.noMaintenanceInterval] else []

/-- All that is wrong with settings. -/
def problems (s : Settings) : List Problem :=
  s.cache.problems.map .cache ++ s.balancing.problems.map .balancing ++ s.scaling.problems.map .scaling ++
    s.batching.problems.map .batching ++ s.routingProblems ++ maintenanceProblems s.maintenance ++
    s.sla.problems.map .sla ++ s.logging.problems.map .logging ++ s.metrics.problems.map .metrics

/-- Whether nothing is wrong with settings. -/
def IsValid (s : Settings) : Prop := s.problems = []

/-- One error for all that is wrong with settings. -/
def validate (s : Settings) : Except Error Unit :=
  match s.problems with
  | [] => .ok ()
  | problems => .error (.configuration
      ("Configuration validation failed: " ++ "; ".intercalate (problems.map Problem.message)))

def fieldNames : List String :=
  ["cache", "load_balancing", "scaling", "batching", "routing", "maintenance", "sla", "logging", "metrics"]

def read : Reader Settings := fun s => do
  let given ← Source.fields fieldNames s
  return {
    cache := ← given.get "cache" Cache.Config.read {}
    balancing := ← given.get "load_balancing" Balancer.Config.read {}
    scaling := ← given.get "scaling" Scaling.Config.read {}
    batching := ← given.get "batching" Batch.Config.read {}
    routing := ← given.get "routing" Routing.read {}
    maintenance := ← given.get "maintenance" Maintenance.read {}
    sla := ← given.get "sla" Sla.Config.read {}
    logging := ← given.get "logging" Logging.Config.read {}
    metrics := ← given.get "metrics" Metrics.Config.read {} }

def toJson (s : Settings) : Json :=
  .obj [("cache", s.cache.toJson), ("load_balancing", s.balancing.toJson), ("scaling", s.scaling.toJson),
    ("batching", s.batching.toJson), ("routing", s.routing.toJson),
    ("maintenance", s.maintenance.toJson), ("sla", s.sla.toJson), ("logging", s.logging.toJson),
    ("metrics", s.metrics.toJson)]

theorem validate_eq_ok_iff (s : Settings) : s.validate = .ok () ↔ s.IsValid := by
  simp only [validate, IsValid]
  split
  · simp_all
  · rename_i h
    simp only [reduceCtorEq, false_iff]
    exact h

end Settings

end Serving
