import Serving.Balancer.Config
import Serving.Sorted

/-!
# The balancer

The balancer owns the instances, one breaker for each, and counts of how often each was chosen. All
operations take the time of the call. An instance may be chosen for a service if it serves that
service, is healthy, and its breaker lets requests through.
-/

namespace Serving

/-- How often an instance was chosen, and when last. -/
structure Selections where
  count : Nat := 0
  last : Option Timestamp := none
  deriving Inhabited

structure Balancer where
  config : Balancer.Config
  instances : Table Instance := ∅
  breakers : Table Breaker := ∅
  strategy : Strategy
  selections : Table Selections := ∅
  selected : Nat := 0
  /-- Calls that found no instance. -/
  unserved : Nat := 0
  /-- The throw of the dice for each selection by weight, by its number. -/
  dice : Nat → Float := fun _ => 0.0

namespace Balancer

def new (config : Config) : Balancer := { config, strategy := ⟨config.algorithm, ∅⟩ }

/-- Adds an instance with a fresh breaker. An instance of the same id is replaced in its place. -/
def register (b : Balancer) (i : Instance) : Balancer :=
  { b with
    instances := b.instances.insert i.id i
    breakers := b.breakers.insert i.id (.new b.config.breaker) }

/-- Removes an instance and all that is known of it. -/
def unregister (b : Balancer) (id : String) : Option Instance × Balancer :=
  (b.instances.find? id,
    { b with
      instances := b.instances.erase id
      breakers := b.breakers.erase id
      selections := b.selections.erase id })

def instance? (b : Balancer) (id : String) : Option Instance := b.instances.find? id

def serving (b : Balancer) (service : String) : List Instance :=
  b.instances.values.filter (·.service == service)

def healthyCount (b : Balancer) (service : String) : Nat := (b.serving service).countP (·.isHealthy)

def services (b : Balancer) : List String := Sorted.names (b.instances.values.map (·.service)).eraseDups

/-- Asks the breaker of each instance in turn. Instances without a breaker pass. -/
def admitted (now : Instant) : List Instance → Table Breaker → List Instance × Table Breaker
  | [], breakers => ([], breakers)
  | i :: rest, breakers =>
    match breakers.find? i.id with
    | none =>
      let (others, breakers) := admitted now rest breakers
      (i :: others, breakers)
    | some breaker =>
      let (passes, breaker) := breaker.admits now
      let (others, breakers) := admitted now rest (breakers.insert i.id breaker)
      (if passes then i :: others else others, breakers)

/-- Chooses an instance for a request to a service. The key ties callers to instances under `ipHash`. -/
def select (b : Balancer) (now : Instant) (service : String) (key : Option String := none) :
    Option Instance × Balancer :=
  let (candidates, breakers) := admitted now ((b.serving service).filter (·.isHealthy)) b.breakers
  let (place, strategy) := b.strategy.choose service candidates key (b.dice b.selected)
  let b := { b with breakers, strategy }
  match place.bind (candidates[·]?) with
  | some i =>
    let count := ((b.selections.find? i.id).getD {}).count
    (some i,
      { b with
        selected := b.selected + 1
        selections := b.selections.insert i.id ⟨count + 1, some (.ofNanos now)⟩ })
  | none => (none, { b with unserved := b.unserved + 1 })

def modify (b : Balancer) (id : String) (f : Instance → Instance) : Bool × Balancer :=
  (b.instances.contains id, { b with instances := b.instances.modify id f })

def startRequest (b : Balancer) (id : String) : Bool × Balancer :=
  b.modify id fun i => { i with active := i.active + 1 }

/-- Takes the end of a request into the averages and the breaker of an instance, if it is still there. -/
def endRequest (b : Balancer) (now : Instant) (id : String) (success : Bool) (took : Duration) : Balancer :=
  if b.instances.contains id then
    let breaker := (b.breakers.find? id).getD (.new b.config.breaker)
    { b with
      instances := b.instances.modify id (·.finish success took)
      breakers := b.breakers.insert id (if success then breaker.succeed else (breaker.fail now).2) }
  else b

/-- Takes in what a probe found. The result is the change of status, if it changed. -/
def recordProbe (b : Balancer) (now : Instant) (id : String) (healthy : Bool) (cpu memory : Float) :
    Option (Health × Health) × Balancer :=
  match b.instances.find? id with
  | none => (none, b)
  | some i =>
    let status := i.health.afterProbe healthy
    (if status = i.health then none else some (i.health, status),
      { b with
        instances := b.instances.modify id fun i =>
          { i with cpu, memory, lastCheck := some (.ofNanos now), health := status } })

def setHealth (b : Balancer) (id : String) (status : Health) : Bool × Balancer :=
  b.modify id fun i => { i with health := status }

def percentage (x : Float) : Float := if x < 0.0 then 0.0 else if 100.0 < x then 100.0 else x

def updateResources (b : Balancer) (id : String) (cpu memory : Float) : Bool × Balancer :=
  b.modify id fun i => { i with cpu := percentage cpu, memory := percentage memory }

/-- Changes the way of choosing. A change starts every service's turns anew. -/
def setAlgorithm (b : Balancer) (a : Algorithm) : Balancer :=
  if b.strategy.algorithm = a then b else { b with strategy := ⟨a, ∅⟩ }

def algorithm (b : Balancer) : Algorithm := b.strategy.algorithm

def breakerState (b : Balancer) (id : String) : Option Breaker.State := (b.breakers.find? id).map (·.state)

def openBreakers (b : Balancer) : Nat := b.breakers.values.countP (·.isOpen)

def statistics (b : Balancer) (now : Instant) : Json :=
  .obj [("algorithm", .str b.algorithm.name), ("total_selections", .ofNat b.selected),
    ("failed_selections", .ofNat b.unserved), ("open_circuits", .ofNat b.openBreakers),
    ("instances", .arr (b.instances.toList.map fun (id, i) =>
      let selections := (b.selections.find? id).getD {}
      .obj [("instance", i.toJson), ("circuit", .ofOption (·.toJson now) (b.breakers.find? id)),
        ("stats", .obj [("selections", .ofNat selections.count),
          ("last_selected", .ofOption (fun t => .str t.text) selections.last)])]))]

@[simp]
theorem register_names (b : Balancer) (i : Instance) :
    (b.register i).instances.names =
      if i.id ∈ b.instances.names then b.instances.names else b.instances.names ++ [i.id] :=
  Table.names_insert ..

@[simp]
theorem unregister_names (b : Balancer) (id : String) :
    (b.unregister id).2.instances.names = b.instances.names.filter (· != id) :=
  Table.names_erase ..

@[simp]
theorem modify_names (b : Balancer) (id : String) (f : Instance → Instance) :
    (b.modify id f).2.instances.names = b.instances.names :=
  Table.names_modify ..

theorem select_instances (b : Balancer) (now : Instant) (service : String) (key : Option String) :
    (b.select now service key).2.instances = b.instances := by
  simp only [select]
  split <;> rfl

end Balancer

end Serving
