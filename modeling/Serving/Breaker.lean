import Serving.Source
import Serving.Time

/-!
# Circuit breakers

A breaker counts the failures in a row of one instance. With enough of them it opens, and the
instance gets no requests until a cool-down has passed since the last failure. An open breaker whose
cool-down is over closes when it is asked; it keeps its count, so the next failure opens it again
while a success clears it.
-/

namespace Serving

namespace Breaker

structure Config where
  maxRetries : UInt32 := 3
  /-- How long an open breaker stays open after the last failure. -/
  cooldown : Duration := .ofSeconds 60

instance : Inhabited Config := ⟨{}⟩

inductive State
  | closed
  | opened
  deriving DecidableEq, Repr

/-- The largest count of failures in a row; the count stops there. -/
def mostFailures : Nat := 4294967295

end Breaker

structure Breaker where
  config : Breaker.Config
  /-- Failures since the last success. -/
  failures : Nat := 0
  lastFailure : Option Instant := none
  isOpen : Bool := false
  timesOpened : Nat := 0
  rejections : Nat := 0

namespace Breaker

/-- A breaker that has seen nothing yet. -/
def new (config : Config) : Breaker := { config }

/-- Whether the cool-down since the last failure is over. -/
def hasCooledDown (b : Breaker) (now : Instant) : Bool :=
  match b.lastFailure with
  | some t => decide (b.config.cooldown ≤ now - t)
  | none => true

/-- Whether the instance may get a request now. An open breaker closes here once it has cooled down. -/
def admits (b : Breaker) (now : Instant) : Bool × Breaker :=
  if !b.isOpen then (true, b)
  else if b.hasCooledDown now then (true, { b with isOpen := false })
  else (false, { b with rejections := b.rejections + 1 })

def succeed (b : Breaker) : Breaker := { b with failures := 0, isOpen := false }

def fail (b : Breaker) (now : Instant) : Bool × Breaker :=
  let b := { b with failures := min (b.failures + 1) mostFailures, lastFailure := some now }
  if !b.isOpen && b.config.maxRetries.toNat ≤ b.failures then
    (true, { b with isOpen := true, timesOpened := b.timesOpened + 1 })
  else (false, b)

def state (b : Breaker) : State := if b.isOpen then .opened else .closed

namespace State

def name : State → String
  | closed => "closed"
  | opened => "open"

end State

namespace Config

def read : Reader Config := fun s => do
  let given ← Source.fields ["max_retries", "cooldown"] s
  return {
    maxRetries := UInt32.ofNat (← given.get "max_retries" (Source.natural mostFailures) 3)
    cooldown := ← given.get "cooldown" Source.duration (.ofSeconds 60) }

def toJson (c : Config) : Json :=
  .obj [("max_retries", .ofNat c.maxRetries.toNat), ("cooldown", .ofDuration c.cooldown)]

end Config

def toJson (b : Breaker) (now : Instant) : Json :=
  .obj [("state", .str b.state.name), ("consecutive_failures", .ofNat b.failures),
    ("times_opened", .ofNat b.timesOpened), ("rejected_selections", .ofNat b.rejections),
    ("seconds_since_last_failure",
      .ofOption (fun t => Json.ofFloat (Duration.seconds (now - t))) b.lastFailure)]

theorem admits_of_closed (b : Breaker) (now : Instant) (h : b.isOpen = false) :
    b.admits now = (true, b) := by simp [admits, h]

@[simp]
theorem succeed_failures (b : Breaker) : b.succeed.failures = 0 := rfl

@[simp]
theorem fail_lastFailure (b : Breaker) (now : Instant) : (b.fail now).2.lastFailure = some now := by
  simp only [fail]
  split <;> rfl

@[simp]
theorem admits_failures (b : Breaker) (now : Instant) : (b.admits now).2.failures = b.failures := by
  simp only [admits]
  split
  · rfl
  · split <;> rfl

@[simp]
theorem admits_config (b : Breaker) (now : Instant) : (b.admits now).2.config = b.config := by
  simp only [admits]
  split
  · rfl
  · split <;> rfl

end Breaker

end Serving
