import Mathlib.Tactic.Lemma
import Serving.Cache.Remote.Connection

/-! Runs of callers who share one connection. An attempt to connect ends when it likes, and those who waited for it are
called then, but each of them goes on in its own time and takes what is there by then. Callers are numbered as they
come, and so are attempts. -/

namespace Serving.Cache.Connection

inductive Ending
  | made
  | failed
  | timedOut
  deriving DecidableEq

structure Attempt where
  began : Instant
  /-- Nothing as long as it runs. -/
  ended : Option (Instant × Ending) := none
  deriving DecidableEq

namespace Attempt

def isRunning (a : Attempt) : Bool := a.ended.isNone

def hasFailed (a : Attempt) : Bool := a.ended.any fun e => e.2 ≠ .made

/-- It came to nothing at a time. -/
def Failed (a : Attempt) (t : Instant) : Prop := ∃ e, a.ended = some (t, e) ∧ e ≠ .made

lemma Failed.not_running {a : Attempt} {t : Instant} (h : a.Failed t) : a.isRunning = false := by
  obtain ⟨e, he, -⟩ := h
  simp [isRunning, he]

end Attempt

/-- How far a caller has come. -/
inductive Stage
  | waits
  /-- The attempt that it waited for is over, and it has not gone on yet. -/
  | called
  | gone
  /-- It has the connection that an attempt made, or none. -/
  | served (attempt : Option Nat)
  deriving DecidableEq

def Stage.giveUp : Stage → Stage
  | waits | called => gone
  | stage => stage

inductive Move
  | arrival
  | givesUp (caller : Nat)
  | ends (attempt : Nat) (ending : Ending)
  | goesOn (caller : Nat)
  | timePasses (d : Duration)
  deriving DecidableEq

def Move.isGivesUp : Move → Bool
  | givesUp _ => true
  | _ => false

structure History where
  connection : Connection := {}
  now : Instant := 0
  attempts : List Attempt := []
  /-- The attempt that made the connection last. -/
  maker : Option Nat := none
  callers : List Stage := []

namespace History

/-- The connection that there is, by the attempt that made it. -/
def there (h : History) : Option Nat := if h.connection.isUp then h.maker else none

def step (backoff : Duration) (h : History) : Move → History
  | .arrival =>
    match h.connection.enter backoff h.now h.callers.length with
    | (.connected, connection) => { h with connection, callers := h.callers ++ [.served h.there] }
    | (.refused, connection) => { h with connection, callers := h.callers ++ [.served none] }
    | (.waits starts, connection) =>
      { h with
        connection
        callers := h.callers ++ [.waits]
        attempts := if starts then h.attempts ++ [{ began := h.now }] else h.attempts }
  | .givesUp n => { h with connection := h.connection.giveUp n, callers := h.callers.modify n Stage.giveUp }
  | .ends k ending =>
    match h.attempts[k]? with
    | some ⟨began, none⟩ =>
      let (told, connection) := h.connection.finish h.now (ending = .made)
      { h with
        connection
        attempts := h.attempts.set k ⟨began, some (h.now, ending)⟩
        maker := if ending = .made then some k else h.maker
        callers := h.callers.mapIdx fun n stage => if n ∈ told.map Prod.fst then .called else stage }
    | _ => h
  | .goesOn n =>
    match h.callers[n]? with
    | some .called => { h with callers := h.callers.set n (.served h.there) }
    | _ => h
  | .timePasses d => { h with now := h.now + d }

def run (backoff : Duration) (moves : List Move) : History := moves.foldl (step backoff) {}

lemma run_append (backoff : Duration) (moves later : List Move) :
    run backoff (moves ++ later) = later.foldl (step backoff) (run backoff moves) := List.foldl_append ..

lemma run_concat (backoff : Duration) (moves : List Move) (m : Move) :
    run backoff (moves ++ [m]) = step backoff (run backoff moves) m := run_append ..

end History

end Serving.Cache.Connection
