import Serving.Settings.Basic
import Serving.Text.Whole

/-!
# Overrides

Variables of the environment that take the place of single settings. They are looked at in a fixed
order; the first one that cannot be read is an error that names it.
-/

namespace Serving

abbrev Environment := String → Option String

namespace Settings

structure Override where
  name : String
  apply : String → Settings → Except String Settings

namespace Override

variable {α : Type}

/-- A variable whose value is taken as it is. -/
def ofText (name : String) (set : String → Settings → Settings) : Override :=
  ⟨name, fun value s => .ok (set value s)⟩

/-- A variable whose value is read without the blanks around it. -/
def ofValue (name : String) (read : String → Except String α) (set : α → Settings → Settings) : Override :=
  ⟨name, fun value s => (read (Text.trim value)).map fun a => set a s⟩

def boolean (s : String) : Except String Bool :=
  match s with
  | "true" => .ok true
  | "false" => .ok false
  | _ => .error "provided string was not \x60true\x60 or \x60false\x60"

def natural (limit : Nat) (s : String) : Except String Nat := (Text.natural limit s).mapError (·.message)

def integer (s : String) : Except String Int := (Text.integer s).mapError (·.message)

def duration (s : String) : Except String Duration := (Duration.read s).mapError (·.message)

/-- A choice whose error is told in full. -/
def choice (parse : String → Except Error α) (s : String) : Except String α := (parse s).mapError (·.message)

end Override

def updateRemote (f : Cache.RemoteConfig → Cache.RemoteConfig) (s : Settings) : Settings :=
  { s with cache := { s.cache with remote := f s.cache.remote } }

open Override in
def overrides : List Override := [
  ofValue "OPTIMIZER_REDIS_ENABLED" boolean fun b => updateRemote fun r => { r with enabled := b },
  ofText "OPTIMIZER_REDIS_URL" fun u => updateRemote fun r => { r with url := some u, enabled := true },
  ofText "OPTIMIZER_REDIS_HOST" fun h => updateRemote fun r => { r with host := h },
  ofValue "OPTIMIZER_REDIS_PORT" (natural 65535) fun n =>
    updateRemote fun r => { r with port := UInt16.ofNat n },
  ofValue "OPTIMIZER_REDIS_DB" integer fun n => updateRemote fun r => { r with database := n },
  ofText "OPTIMIZER_REDIS_PASSWORD" fun p => updateRemote fun r => { r with password := some p },
  ofValue "OPTIMIZER_REDIS_OPERATION_TIMEOUT" duration fun d =>
    updateRemote fun r => { r with operationTimeout := d },
  ofValue "OPTIMIZER_MEMORY_MAX_ENTRIES" (natural 18446744073709551615) fun n s =>
    { s with cache := { s.cache with capacity := n } },
  ofValue "OPTIMIZER_LB_ALGORITHM" (choice Algorithm.parse) fun a s =>
    { s with balancing := { s.balancing with algorithm := a } },
  ofValue "OPTIMIZER_HEALTH_CHECK_INTERVAL" duration fun d s =>
    { s with balancing := { s.balancing with healthInterval := d } },
  ofValue "OPTIMIZER_BATCHING_STRATEGY" (choice Batch.Strategy.parse) fun a s =>
    { s with batching := { s.batching with strategy := a } },
  ofValue "OPTIMIZER_REQUEST_TIMEOUT" duration fun d s =>
    { s with batching := { s.batching with requestTimeout := d } },
  ofText "OPTIMIZER_LOG_LEVEL" fun l s => { s with logging := { s.logging with level := l } },
  ofValue "OPTIMIZER_LOG_FORMAT" (choice LogFormat.parse) fun f s =>
    { s with logging := { s.logging with format := f } },
  ofValue "OPTIMIZER_PROMETHEUS_ENABLED" boolean fun b s =>
    { s with metrics := { s.metrics with enabled := b } },
  ofText "OPTIMIZER_PROMETHEUS_ADDRESS" fun a s => { s with metrics := { s.metrics with address := a } }]

/-- Applies one variable, if it is set. -/
def applyOverride (env : Environment) (s : Settings) (o : Override) : Except Error Settings :=
  match env o.name with
  | none => .ok s
  | some value => (o.apply value s).mapError fun reason =>
    .configuration ("Invalid " ++ o.name ++ ": " ++ reason)

/-- Applies all variables that are set. -/
def applyOverrides (env : Environment) (s : Settings) : Except Error Settings :=
  overrides.foldlM (applyOverride env) s

theorem applyOverrides_empty (s : Settings) : s.applyOverrides (fun _ => none) = .ok s := rfl

end Settings

end Serving
