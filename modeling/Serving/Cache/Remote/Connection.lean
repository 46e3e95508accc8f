import Serving.Time

/-!
# One connection for all

Callers of a server share one connection. The first caller who finds none starts an attempt to
connect, and those who come meanwhile wait for the same attempt. A caller may give up without harm to
the attempt. After an attempt that failed no other one starts for a while; a connection once made stays.
-/

namespace Serving

namespace Cache

structure Connection where
  isUp : Bool := false
  isConnecting : Bool := false
  lastFailure : Option Instant := none
  failures : Nat := 0
  /-- Callers who wait for the attempt under way, the latest first. -/
  waiting : List Nat := []
  deriving DecidableEq, Repr, Inhabited

namespace Connection

inductive Entrance
  | connected
  /-- Too soon after a failure. -/
  | refused
  /-- The caller waits; `starts` tells whether this starts an attempt. -/
  | waits (starts : Bool)
  deriving DecidableEq, Repr

def isBackingOff (c : Connection) (backoff : Duration) (now : Instant) : Bool :=
  c.lastFailure.any fun t => decide (now - t < backoff)

def enter (c : Connection) (backoff : Duration) (now : Instant) (caller : Nat) : Entrance × Connection :=
  if c.isUp then (.connected, c)
  else if c.isConnecting then (.waits false, { c with waiting := caller :: c.waiting })
  else if c.isBackingOff backoff now then (.refused, c)
  else (.waits true, { c with isConnecting := true, waiting := caller :: c.waiting })

def giveUp (c : Connection) (caller : Nat) : Connection :=
  { c with waiting := c.waiting.filter (· != caller) }

/-- The attempt under way ends. The callers who waited for it learn whether there is a connection. -/
def finish (c : Connection) (now : Instant) (success : Bool) : List (Nat × Bool) × Connection :=
  (c.waiting.reverse.map (·, success),
    if success then { c with isUp := true, isConnecting := false, lastFailure := none, waiting := [] }
    else
      { c with isConnecting := false, lastFailure := some now, failures := c.failures + 1, waiting := [] })

/-- A caller enters, and an attempt that this starts ends at once. The result tells whether there is a
connection, and whether it is new. -/
def connect (c : Connection) (backoff : Duration) (now : Instant) (reachable : Bool) :
    Bool × Bool × Connection :=
  match c.enter backoff now 0 with
  | (.connected, c) => (true, false, c)
  | (.refused, c) => (false, false, c)
  | (.waits _, c) => (reachable, reachable, (c.finish now reachable).2)

end Connection

end Cache

end Serving
