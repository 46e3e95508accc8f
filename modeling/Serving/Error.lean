import Serving.Json.Basic

/-!
# Errors

What can go wrong for a caller, with the text, the short code and the coarse category of each error.
A store's own errors stay apart: the cache absorbs them.
-/

namespace Serving

inductive Error
  /-- The cache type is not in the table. -/
  | unknownCacheType (name : String)
  | invalidRequest (message : String)
  /-- The model has no batching configuration. -/
  | unknownModelType (name : String)
  | cacheBackendUnavailable (backend reason : String)
  /-- No healthy instance with a closed circuit serves the type. -/
  | noCapacity (service : String)
  /-- No result came before the caller's deadline. -/
  | requestTimeout (request : String) (millis : Nat)
  | batchExecution (model reason : String)
  /-- The scaler may not act now. -/
  | scalingPolicyViolation (service reason : String)
  | shuttingDown
  | configuration (message : String)
  | serialization (message : String)
  | internal (message : String)
  deriving DecidableEq, Repr, Inhabited

inductive Category
  | request
  | capacity
  | infrastructure
  | internal
  deriving DecidableEq, Repr

def Category.name : Category → String
  | .request => "request"
  | .capacity => "capacity"
  | .infrastructure => "infrastructure"
  | .internal => "internal"

namespace Error

def message : Error → String
  | unknownCacheType name => "Unknown cache type: " ++ name
  | invalidRequest m => "Invalid request: " ++ m
  | unknownModelType name => "Unknown model type: " ++ name
  | cacheBackendUnavailable backend reason => "Cache backend unavailable (" ++ backend ++ "): " ++ reason
  | noCapacity service => "No capacity available for service type: " ++ service
  | requestTimeout request millis => "Request " ++ request ++ " timed out after " ++ toString millis ++ "ms"
  | batchExecution model reason => "Batch execution failed for model " ++ model ++ ": " ++ reason
  | scalingPolicyViolation service reason =>
    "Scaling policy prevents action for " ++ service ++ ": " ++ reason
  | shuttingDown => "Optimizer is shutting down"
  | configuration m => "Configuration error: " ++ m
  | serialization m => "Serialization error: " ++ m
  | internal m => "Internal error: " ++ m

def code : Error → String
  | unknownCacheType _ => "unknown_cache_type"
  | invalidRequest _ => "invalid_request"
  | unknownModelType _ => "unknown_model_type"
  | cacheBackendUnavailable _ _ => "cache_backend_unavailable"
  | noCapacity _ => "no_capacity"
  | requestTimeout _ _ => "request_timeout"
  | batchExecution _ _ => "batch_execution"
  | scalingPolicyViolation _ _ => "scaling_policy_violation"
  | shuttingDown => "shutting_down"
  | configuration _ => "configuration"
  | serialization _ => "serialization"
  | internal _ => "internal"

def toJson (e : Error) : Json := .obj [("error", .str e.code), ("message", .str e.message)]

def category : Error → Category
  | unknownCacheType _ | unknownModelType _ | invalidRequest _ => .request
  | requestTimeout _ _ | noCapacity _ | batchExecution _ _ => .capacity
  | cacheBackendUnavailable _ _ => .infrastructure
  | scalingPolicyViolation _ _ | shuttingDown | configuration _ | serialization _ | internal _ => .internal

/-- Whether the same request may succeed later. -/
def isRetryable : Error → Bool
  | noCapacity _ | requestTimeout _ _ | batchExecution _ _ | cacheBackendUnavailable _ _ => true
  | _ => false

end Error

/-- Why a cache store did not answer a call. -/
inductive StoreError
  | server (reason : String)
  | timeout
  | unavailable
  deriving DecidableEq, Repr, Inhabited

namespace StoreError

def toError : StoreError → Error
  | server reason => .cacheBackendUnavailable "redis" reason
  | timeout => .cacheBackendUnavailable "distributed" "operation timed out"
  | unavailable => .cacheBackendUnavailable "distributed" "not connected"

def kind : StoreError → String
  | server _ => "redis"
  | timeout => "timeout"
  | unavailable => "unavailable"

end StoreError

end Serving
