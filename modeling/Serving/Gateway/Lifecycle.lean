import Serving.Gateway.Clock

/-!
# From start to shutdown

A gateway is built from settings with which nothing is wrong. It starts once: it fills the pool up and
begins its upkeep. A shutdown stops the upkeep, lets the batcher drain, and calls off what the scaler
left for later; the gateway answers requests before the start and after the shutdown too, but the batcher
takes no more of them then.
-/

namespace Serving

namespace Gateway

variable {τ π : Type}

/-- Builds a gateway from settings, if nothing is wrong with them. -/
def build (parties : Parties τ π) (settings : Settings) (isDistributed : Bool) (store : τ)
    (provisioner : π) : Except Error (Gateway τ π) := do
  settings.validate
  return assemble parties settings isDistributed store provisioner

def provide {α : Type} (g : Gateway τ π) (operation : Scaling.Operation α) : α × Gateway τ π :=
  let (a, fleet, provisioner) := Scaling.Fleet.run g.parties.provisioner operation g.provisioner g.now
  (a, { g with fleet, provisioner })

/-- The number of instances that each model starts with. -/
def initialInstances (s : Settings) : List (String × Nat) :=
  s.batching.models.toList.map fun (name, model) => (name, model.initialInstances)

/-- Fills the pool up: first to what the models start with, then to the least that the policies ask for. -/
def bootstrap (g : Gateway τ π) : Scaling.Operation (Except Error Nat) :=
  (Scaling.Fleet.ensureAll (initialInstances g.settings) 0 g.fleet g.now).andThen g.now fun r fleet now =>
    match r with
    | .error e => .done (.error e) fleet
    | .ok made => (fleet.ensureMinimums now).map fun r => r.map (made + ·)

/-- The upkeep and how often each part of it is done. -/
def upkeep (g : Gateway τ π) : List (Chore × Duration) :=
  [(.probing g.parties.probe, g.settings.balancing.healthInterval), (.scaling, g.fleet.config.interval),
    (.flushing, g.settings.batching.tickInterval), (.counting, g.settings.maintenance.statsInterval),
    (.sweeping, g.settings.maintenance.sweepInterval), (.pruning, g.settings.maintenance.cleanupInterval)]

/-- Starts the gateway. If the pool cannot be filled up there is no upkeep, and there will not be any. -/
def start (g : Gateway τ π) : Except Error Unit × Gateway τ π :=
  if g.isStarted then (.ok (), g)
  else
    let (r, g) := { g with isStarted := true }.provide g.bootstrap
    match r with
    | .error e => (.error e, g)
    | .ok _ =>
      (.ok (), if g.isShutDown then g
        else g.upkeep.foldl (fun g (chore, period) => g.startLoop chore period) g)

def isLoopWaiting (g : Gateway τ π) : Bool :=
  g.waiting.any fun w => match w.owner with
    | .loop _ => true
    | .caller _ => false

/-- Drains the batcher: time passes until all its batches have ended. A batcher that was shut down before
is not waited for. -/
def drainBatcher (g : Gateway τ π) : Gateway τ π :=
  if g.batcher.isShutDown then g
  else
    let (effects, batcher) := g.batcher.shutDown g.now
    ({ g with batcher }.enactAll effects) |> passUntil (·.batcher.isDrained) manySteps

/-- Calls off what the scaler left for later. -/
def stopScaler (g : Gateway τ π) : Gateway τ π := { g with fleet := g.fleet.stop }

def shutDown (g : Gateway τ π) : Gateway τ π :=
  let g := { g.stopLoops with isShutDown := true, feed := none }
  passUntil (!·.isLoopWaiting) manySteps g.drainBatcher.stopScaler

/-- Starts listening to a feed of settings, which may already hold news. -/
def listen (g : Gateway τ π) (feed : Feed Settings) : Gateway τ π :=
  if g.isShutDown then g else { g with feed := some feed }.soon .feedArrives

def announce (g : Gateway τ π) (news : List Settings) : Gateway τ π :=
  match g.feed with
  | some feed => { g with feed := some (news.foldl .publish feed) }.soon .feedArrives
  | none => g

/-- Takes requests of callers, in order. The numbers are those of their callers. -/
def takeRequests : List Request → Gateway τ π → List Nat × Gateway τ π
  | [], g => ([], g)
  | r :: rest, g =>
    let (caller, g) := g.admitCaller
    let (callers, g) := takeRequests rest (g.soon (.arrival caller r))
    (caller :: callers, g)

/-- Takes requests of callers for the batcher, in order. The numbers are those of their callers. -/
def takeSubmissions : List Batch.Request → Gateway τ π → List Nat × Gateway τ π
  | [], g => ([], g)
  | r :: rest, g =>
    let (caller, g) := g.admitCaller
    let (callers, g) := takeSubmissions rest (g.soon (.submission caller r))
    (caller :: callers, g)

def takeOrder (g : Gateway τ π) (model : String) (items : List Batch.Item) : Nat × Gateway τ π :=
  let (caller, g) := g.admitCaller
  (caller, g.order (.caller caller) model items)

def isRunning (g : Gateway τ π) : Bool := g.isStarted && !g.isShutDown

def status (g : Gateway τ π) : Json × Gateway τ π :=
  let running := g.isRunning
  let (statistics, g) := g.perform g.cache.statistics
  let (health, g) := g.perform g.cache.status
  (.obj [("running", .bool running), ("cache", statistics.toJson), ("cache_health", health.toJson),
    ("load_balancer", g.balancer.statistics g.now), ("batcher", g.batcher.statistics),
    ("processor", g.processor.statistics), ("sla", g.desk.sla.toJson),
    ("scaling_events", .ofNat g.fleet.history.length)], g)

end Gateway

end Serving
