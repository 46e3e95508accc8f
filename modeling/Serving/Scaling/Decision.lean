import Serving.Decimal.Text
import Serving.Scaling.Policy

/-!
# Scaling decisions

Samples of the load that a service's instances carry, the means over some samples, and what a policy
makes of them together with the number of instances and the times of the last steps.
-/

namespace Serving

namespace Scaling

/-- The load of a service at one time: means over its healthy instances. -/
structure Sample where
  time : Instant
  cpu : Float
  memory : Float
  /-- Seconds. -/
  responseTime : Float

structure Load where
  cpu : Float
  memory : Float
  /-- Seconds. -/
  responseTime : Float
  samples : Nat

def sum (xs : List Float) : Float := xs.foldl (· + ·) 0.0

def mean (xs : List Float) : Float := sum xs / Float.ofNat xs.length

namespace Load

/-- The means over some samples, if there are any. -/
def ofSamples (samples : List Sample) : Option Load :=
  if samples.isEmpty then none
  else some {
    cpu := mean (samples.map (·.cpu))
    memory := mean (samples.map (·.memory))
    responseTime := mean (samples.map (·.responseTime))
    samples := samples.length }

def toJson (l : Load) : Json :=
  .obj [("avg_cpu", .ofFloat l.cpu), ("avg_memory", .ofFloat l.memory),
    ("avg_response_time", .ofFloat l.responseTime), ("samples", .ofNat l.samples)]

end Load

inductive Pressure
  | cpu (mean target : Float)
  | memory (mean target : Float)
  | responseTime (mean target : Float)

/-- Why a service gets more or fewer instances. -/
inductive Reason
  | belowMinimum (active minInstances : Nat)
  | pressure (causes : List Pressure)
  | idle (load : Load) (threshold : Float)

/-- Percentages have one decimal and times three. -/
def Pressure.text : Pressure → String
  | cpu mean target => "cpu " ++ Decimal.fixed 1 mean ++ "% > " ++ Decimal.fixed 1 target ++ "%"
  | memory mean target => "memory " ++ Decimal.fixed 1 mean ++ "% > " ++ Decimal.fixed 1 target ++ "%"
  | responseTime mean target =>
    "response time " ++ Decimal.fixed 3 mean ++ "s > " ++ Decimal.fixed 3 target ++ "s"

def Reason.text : Reason → String
  | belowMinimum active minInstances =>
    toString active ++ " active instances, minimum is " ++ toString minInstances
  | pressure causes => ", ".intercalate (causes.map Pressure.text)
  | idle load threshold =>
    "cpu " ++ Decimal.fixed 1 load.cpu ++ "%, memory " ++ Decimal.fixed 1 load.memory ++
      "%, response time " ++ Decimal.fixed 3 load.responseTime ++ "s below " ++
      Decimal.fixed 0 (threshold * 100.0) ++ "% of targets"

inductive Decision
  | none
  | up (service : String) (reason : Reason)
  | down (service : String) (reason : Reason)

namespace Decision

def isNone : Decision → Bool
  | none => true
  | _ => false

def toJson : Decision → Json
  | none => .str "None"
  | up service reason =>
    .obj [("ScaleUp", .obj [("service_type", .str service), ("reason", .str reason.text)])]
  | down service reason =>
    .obj [("ScaleDown", .obj [("service_type", .str service), ("reason", .str reason.text)])]

end Decision

/-- What is known of a service from earlier evaluations. -/
structure Record where
  /-- The oldest first. -/
  samples : List Sample := []
  lastUp : Option Instant := none
  lastDown : Option Instant := none

instance : Inhabited Record := ⟨{}⟩

namespace Record

/-- Drops the oldest samples for as long as they have outlived the window. -/
def prune (r : Record) (now : Instant) (window : Duration) : Record :=
  { r with samples := r.samples.dropWhile fun s => decide (window < now - s.time) }

end Record

def isCooling (last : Option Instant) (cooldown : Duration) (now : Instant) : Bool :=
  last.any fun t => decide (now - t ≤ cooldown)

namespace Policy

def pressures (p : Policy) (l : Load) : List Pressure :=
  let targetTime := Duration.seconds p.targetTime
  (if p.targetCpu * p.upThreshold < l.cpu then [.cpu l.cpu p.targetCpu] else []) ++
    (if p.targetMemory * p.upThreshold < l.memory then [.memory l.memory p.targetMemory] else []) ++
    (if targetTime * p.upThreshold < l.responseTime then [.responseTime l.responseTime targetTime] else [])

/-- Whether all figures of a load are well below their targets. -/
def isIdle (p : Policy) (l : Load) : Bool :=
  decide (l.cpu < p.targetCpu * p.downThreshold) && decide (l.memory < p.targetMemory * p.downThreshold) &&
    decide (l.responseTime < Duration.seconds p.targetTime * p.downThreshold)

/-- What a policy decides for a service with so many instances that do not stop, given the load. -/
def decision (p : Policy) (service : String) (active : Nat) (load : Option Load) (r : Record)
    (now : Instant) : Decision :=
  if active < p.minInstances then .up service (.belowMinimum active p.minInstances)
  else match load with
    | none => .none
    | some l =>
      let causes := p.pressures l
      if !causes.isEmpty then
        if p.maxInstances ≤ active || isCooling r.lastUp p.upCooldown now then .none
        else .up service (.pressure causes)
      else if p.isIdle l then
        if active ≤ p.minInstances || isCooling r.lastDown p.downCooldown now then .none
        else .down service (.idle l p.downThreshold)
      else .none

end Policy

end Scaling

end Serving
