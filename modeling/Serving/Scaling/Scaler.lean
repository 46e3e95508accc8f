import Serving.Balancer.Basic
import Serving.Routine
import Serving.Scaling.Decision

/-!
# The scaler

The scaler grows and shrinks the balancer's pool, one instance at a time, as the policies decide. An
evaluation takes a sample of the load first. The time of a step counts from its decision on, before a
new instance has been made. A new instance becomes healthy after a while, and a retired one leaves the
pool after a while; both are left to the caller as things to do later.
-/

namespace Serving

namespace Scaling

inductive Direction
  | up
  | down
  deriving DecidableEq, Repr

def Direction.name : Direction → String
  | up => "up"
  | down => "down"

structure Event where
  service : String
  direction : Direction
  instanceId : String
  reason : String
  /-- Instances that did not stop, before the step. -/
  before : Nat

def Event.toJson (e : Event) : Json :=
  .obj [("service_type", .str e.service), ("direction", .str e.direction.name),
    ("instance_id", .str e.instanceId), ("reason", .str e.reason), ("instances_before", .ofNat e.before)]

/-- Something to do when a time has passed. -/
inductive Later
  | started (id : String)
  | retired (victim : Instance)

structure Fleet where
  config : Config
  records : Table Record := ∅
  /-- Steps taken, the oldest first. -/
  history : List Event := []
  isStopped : Bool := false
  balancer : Balancer

abbrev Operation (α : Type) := Routine String (fun _ => Except Error Instance) Fleet α

structure Provisioner (π : Type) where
  provision : String → π → Except Error Instance × π
  decommission : Instance → π → Except Error Unit × π

structure Ports where
  host : String := "127.0.0.1"
  next : UInt16 := 8100
  weight : Float := 1.0
  made : Nat := 0
  suffix : Nat → String

def Ports.provision (service : String) (p : Ports) : Instance × Ports :=
  ({ id := service ++ "-" ++ p.suffix p.made, service, host := p.host, port := p.next, weight := p.weight },
    { p with next := p.next + 1, made := p.made + 1 })

/-- A digit to the base 16. -/
def hexDigit (n : Nat) : Char := if n < 10 then Char.ofNat (48 + n) else Char.ofNat (87 + n)

/-- A number as so many digits to the base 16, higher ones cut off. -/
def hexDigits : (digits : Nat) → Nat → List Char
  | 0, _ => []
  | digits + 1, n => hexDigits digits (n / 16) ++ [hexDigit (n % 16)]

/-- The ports that are used if nothing is said. Ids end in eight digits. -/
def Ports.usual (weight : Float) : Ports where
  weight := weight
  suffix n := String.ofList (hexDigits 8 n)

def Ports.provisioner : Provisioner Ports where
  provision service p :=
    let (i, p) := p.provision service
    (.ok i, p)
  decommission _ p := (.ok (), p)

namespace Fleet

variable {α π : Type}

/-- Runs an operation against a provisioner that takes no time. -/
def run (provisioner : Provisioner π) (operation : Operation α) (p : π) (now : Instant) : α × Fleet × π :=
  let (a, s, p, _) := operation.run (fun service p now =>
    let (r, p) := provisioner.provision service p
    (r, p, now)) p now
  (a, s, p)

/-- The instances of a service that do not stop. -/
def activeCount (s : Fleet) (service : String) : Nat :=
  (s.balancer.serving service).countP fun i => i.health != .stopping

def policy (s : Fleet) (service : String) : Option Policy := s.config.policies.find? service

def services (s : Fleet) : List String := Sorted.names s.config.policies.names

def problemsError (problems : List Problem) : Error :=
  .configuration ("; ".intercalate (problems.map Problem.message))

/-- Sets the policy of a service, if nothing is wrong with it. -/
def updatePolicy (s : Fleet) (service : String) (p : Policy) : Except Error Unit × Fleet :=
  match p.problems with
  | [] => (.ok (), { s with config := { s.config with policies := s.config.policies.insert service p } })
  | problems => (.error (problemsError (problems.map (.policy service))), s)

/-- Takes new settings, if nothing is wrong with their policies. -/
def updateConfig (s : Fleet) (config : Config) : Except Error Unit × Fleet :=
  match config.policyProblems with
  | [] => (.ok (), { s with config })
  | problems => (.error (problemsError problems), s)

def record (s : Fleet) (service : String) : Record := (s.records.find? service).getD {}

def currentLoad (s : Fleet) (service : String) : Option Load := Load.ofSamples (s.record service).samples

/-- A sample of the healthy instances of a service, if it has any. -/
def sample (s : Fleet) (service : String) (now : Instant) : Option Sample :=
  let healthy := (s.balancer.serving service).filter (·.isHealthy)
  if healthy.isEmpty then none
  else some {
    time := now
    cpu := mean (healthy.map (·.cpu))
    memory := mean (healthy.map (·.memory))
    responseTime := mean (healthy.map (·.responseTime)) }

/-- The record after a decision that is going to be carried out. -/
def commit (r : Record) (d : Decision) (now : Instant) : Record :=
  match d with
  | .none => r
  | .up _ _ => { r with lastUp := some now }
  | .down _ _ => { r with lastDown := some now }

/-- Decides for a service. Only a decision that is going to be carried out keeps its sample and counts
for the cool-downs. -/
def decide (s : Fleet) (service : String) (now : Instant) (isFinal : Bool) : Decision × Fleet :=
  match s.policy service with
  | none => (.none, s)
  | some p =>
    let kept := (s.record service).prune now p.window
    let samples := kept.samples ++ (s.sample service now).toList
    let d := p.decision service (s.activeCount service) (Load.ofSamples samples) kept now
    let after := if isFinal then commit { kept with samples } d now else kept
    (d, { s with records := s.records.insert service after })

/-- Decides without carrying it out. -/
def evaluate (s : Fleet) (service : String) (now : Instant) : Decision × Fleet := s.decide service now false

/-- Remembers a step; of too many the oldest are forgotten. -/
def remember (s : Fleet) (e : Event) : Fleet :=
  let history := s.history ++ [e]
  { s with history := history.drop (history.length - max s.config.historyLimit 1) }

/-- How an evaluation ended, and what is to be done later, after how long. -/
structure Step where
  outcome : Except Error Decision
  later : Option (Duration × Later)

def scaleUp (s : Fleet) (d : Decision) (service : String) (reason : Reason) : Operation Step :=
  let before := s.activeCount service
  .call service s fun made s _ =>
    match made with
    | .error e => .done ⟨.error e, none⟩ s
    | .ok i =>
      let i := { i with health := .starting }
      let s := { s with balancer := s.balancer.register i }
      .done ⟨.ok d, some (s.config.startupDelay, .started i.id)⟩
        (s.remember ⟨service, .up, i.id, reason.text, before⟩)

/-- The first healthy instance of a service with the fewest requests in flight. -/
def victim? (s : Fleet) (service : String) : Option Instance :=
  let healthy := (s.balancer.serving service).filter (·.isHealthy)
  (Strategy.placeOfLeast (healthy.map (·.active))).bind (healthy[·]?)

def scaleDown (s : Fleet) (d : Decision) (service : String) (reason : Reason) : Step × Fleet :=
  match s.victim? service with
  | none => (⟨.ok d, none⟩, s)
  | some v =>
    let before := s.activeCount service
    let s := { s with balancer := (s.balancer.setHealth v.id .stopping).2 }
    (⟨.ok d, some (s.config.gracePeriod, .retired v)⟩,
      s.remember ⟨service, .down, v.id, reason.text, before⟩)

def evaluateAndScale (s : Fleet) (service : String) (now : Instant) : Operation Step :=
  let (d, s) := s.decide service now true
  match d with
  | .none => .done ⟨.ok .none, none⟩ s
  | .up service reason => s.scaleUp d service reason
  | .down service reason =>
    let (step, s) := s.scaleDown d service reason
    .done step s

/-- Adds healthy instances until a service has `count` that do not stop, in at most `rounds` rounds.
`made` were added before. -/
def addInstances (service : String) (count : Nat) : (rounds made : Nat) → Fleet → Operation (Except Error Nat)
  | 0, made, s => .done (.ok made) s
  | rounds + 1, made, s =>
    if s.activeCount service < count then
      .call service s fun r s _ =>
        match r with
        | .error e => .done (.error e) s
        | .ok i =>
          addInstances service count rounds (made + 1)
            { s with balancer := s.balancer.register { i with health := .healthy } }
    else .done (.ok made) s

/-- Makes sure that a service has `count` instances that do not stop, and tells how many were added. A
new instance that takes the id of another one may leave their number as it is; with distinct ids this
happens no more often than there are instances. -/
def ensureInstances (s : Fleet) (service : String) (count : Nat) : Operation (Except Error Nat) :=
  addInstances service count (count - s.activeCount service + s.balancer.instances.size) 0 s

/-- Makes sure of a number of instances for each of some services; `made` were added before. -/
def ensureAll : List (String × Nat) → (made : Nat) → Fleet → Instant → Operation (Except Error Nat)
  | [], made, s, _ => .done (.ok made) s
  | (service, count) :: rest, made, s, now =>
    (s.ensureInstances service count).andThen now fun r s now =>
      match r with
      | .error e => .done (.error e) s
      | .ok n => ensureAll rest (made + n) s now

/-- The services with a policy and the least numbers of their instances. -/
def minimums (s : Fleet) : List (String × Nat) :=
  s.services.filterMap fun service => (s.policy service).map fun p => (service, p.minInstances)

/-- Makes sure that every service has the least number of instances of its policy. -/
def ensureMinimums (s : Fleet) (now : Instant) : Operation (Except Error Nat) := ensureAll s.minimums 0 s now

/-- Calls off all that is to be done later. -/
def stop (s : Fleet) : Fleet := { s with isStopped := true }

def finishStart (s : Fleet) (id : String) : Fleet :=
  if s.isStopped then s
  else if (s.balancer.instance? id).any (·.health == .starting) then
    { s with balancer := (s.balancer.setHealth id .healthy).2 }
  else s

/-- A retired instance has had its time to finish: it is taken back and leaves the pool. -/
def finishRetirement (provisioner : Provisioner π) (s : Fleet) (p : π) (victim : Instance) : Fleet × π :=
  if s.isStopped then (s, p)
  else
    let (_, p) := provisioner.decommission victim p
    ({ s with balancer := (s.balancer.unregister victim.id).2 }, p)

end Fleet

end Scaling

end Serving
