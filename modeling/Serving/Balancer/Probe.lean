import Serving.Balancer.Basic

/-!
# Probing the pool

A probe looks at an instance and tells whether it is well and how busy it is. A pass probes every
instance of the pool but those that are stopping.
-/

namespace Serving

namespace Balancer

structure Finding where
  healthy : Bool
  cpu : Float
  memory : Float

abbrev Probe := Instance → Finding

namespace Probe

/-- Finds every instance well and lightly used. -/
def healthy : Probe := fun _ => ⟨true, 10.0, 10.0⟩

/-- Finds every instance down. -/
def unhealthy : Probe := fun _ => ⟨false, 0.0, 0.0⟩

/-- The point of a range that a throw of the dice, from 0 up to but not including 1, falls on. -/
def pointIn (range : Float × Float) (dice : Float) : Float :=
  if range.1 < range.2 then range.1 + dice * (range.2 - range.1) else range.1

/-- Fails at a rate and reports figures within ranges, as throws of the dice decide. -/
def simulated (failureRate : Float) (cpu memory : Float × Float) (dice : Float) : Probe :=
  fun _ => ⟨decide (failureRate ≤ dice), pointIn cpu dice, pointIn memory dice⟩

end Probe

/-- Probes the listed instances, as far as they are still there, and counts changes of status. -/
def probeEach (probe : Probe) (now : Instant) : List String → Balancer → Nat × Balancer
  | [], b => (0, b)
  | id :: rest, b =>
    match b.instance? id with
    | none => probeEach probe now rest b
    | some i =>
      if i.health = .stopping then probeEach probe now rest b
      else
        let finding := probe i
        let (change, b) := b.recordProbe now id finding.healthy finding.cpu finding.memory
        let (changes, b) := probeEach probe now rest b
        (changes + (if change.isSome then 1 else 0), b)

/-- Probes the whole pool once. The count is that of changes of status. -/
def probeAll (b : Balancer) (probe : Probe) (now : Instant) : Nat × Balancer :=
  probeEach probe now b.instances.names b

end Balancer

end Serving
