import Serving.Batch.Config

/-!
# Fire decisions

Whether a queue goes out now, and why, from a look at the queue alone. Of several reasons a critical
request comes first, then an early start of a busy model, then the size, then the timer.
-/

namespace Serving

namespace Batch

structure Snapshot where
  pending : Nat
  critical : Nat
  timerExpired : Bool
  deriving DecidableEq, Repr, Inhabited

inductive Reason
  | critical
  | earlyAdaptive
  | idealSize
  | maxSize
  | timer
  | shutdown
  deriving DecidableEq, Repr

def Reason.name : Reason → String
  | critical => "critical"
  | earlyAdaptive => "early_adaptive"
  | idealSize => "ideal_size"
  | maxSize => "max_size"
  | timer => "timer"
  | shutdown => "shutdown"

def Reason.all : List Reason := [critical, earlyAdaptive, idealSize, maxSize, timer, shutdown]

/-- Requests in a second over some batches, given with their sizes and times. -/
def throughput (recent : List (Nat × Duration)) : Option Float :=
  let items := (recent.map (·.1)).foldr (· + ·) 0
  let seconds := (recent.map fun r => Duration.seconds r.2).foldl (· + ·) 0.0
  if 0 < items ∧ 0.0 < seconds then some (Float.ofNat items / seconds) else none

def earlySize (m : Model) (a : Adaptive) : Nat :=
  max 1 (Float.ceil (Float.ofNat m.idealSize * a.earlyRatio)).toUInt64.toNat

def isBusy (a : Adaptive) (throughput : Option Float) : Bool :=
  throughput.any fun t => decide (a.threshold < t)

def bySize (m : Model) (s : Snapshot) : Option Reason :=
  if m.maxSize ≤ s.pending then some .maxSize else none

def byStrategy (strategy : Strategy) (m : Model) (a : Adaptive) (s : Snapshot)
    (throughput : Option Float) : Option Reason :=
  match strategy with
  | .sizeBased => bySize m s
  | .timeBased => none
  | .priorityBased => if 0 < s.critical then some .critical else bySize m s
  | .adaptive =>
    if 0 < s.critical then some .critical
    else if isBusy a throughput && earlySize m a ≤ s.pending && s.pending < m.idealSize then
      some .earlyAdaptive
    else if m.idealSize ≤ s.pending then some .idealSize
    else bySize m s

/-- Why a queue goes out now, if it does. An empty queue never does. -/
def fireReason (strategy : Strategy) (m : Model) (a : Adaptive) (s : Snapshot)
    (throughput : Option Float) : Option Reason :=
  if s.pending = 0 then none
  else (byStrategy strategy m a s throughput).or (if s.timerExpired then some .timer else none)

@[simp]
theorem fireReason_of_empty (strategy : Strategy) (m : Model) (a : Adaptive) (s : Snapshot)
    (throughput : Option Float) (h : s.pending = 0) :
    fireReason strategy m a s throughput = none := by simp [fireReason, h]

end Batch

end Serving
