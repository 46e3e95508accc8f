import Serving.Gateway.Upkeep

/-!
# Time

Time passes in the gateway by working off its agenda: the clock moves to the time of the next entry, and
the entry's event takes place. Between two calls from outside, all that is due has taken place.
-/

namespace Serving

namespace Gateway

variable {τ π : Type}

def handle (g : Gateway τ π) : Event → Gateway τ π
  | .submission caller request => g.acceptSubmission caller request
  | .arrival caller request => g.acceptRequest caller request
  | .timerStarts model timer => g.startTimer model timer
  | .timerEnds model generation => g.ringTimer model generation
  | .runAsks number => ((g.order? number).map g.askPermit).getD g
  | .runBegins number => ((g.order? number).map g.beginRun).getD g
  | .runEnds number verdict => g.finishRun number verdict
  | .patienceEnds ticket =>
    match g.giveUp ticket with
    | (some (client, e), g) => g.hearAnswer client.owner (.error e)
    | (none, g) => g
  | .ticketAnswered ticket result =>
    match g.takeClient ticket with
    | (some client, g) => g.hearAnswer client.owner result
    | (none, g) => g
  | .storeAnswers owner isAnswered => g.hearStore owner isAnswered
  | .queryEnds owner query started run => (g.noteQuery query started run).hearAnswer owner run.result
  | .handlerEnds owner result => g.hearAnswer owner result
  | .laterStarts wait later => g.startLater wait later
  | .laterComes later => g.carryOut later
  | .loopStarts number => g.beginLoop number
  | .loopTicks number => g.tick number
  | .feedArrives => g.readFeed

/-- Lets the first event take place that is due by `limit`, if there is one. -/
def step? (g : Gateway τ π) (limit : Instant) : Option (Gateway τ π) :=
  (g.agenda.next? limit).map fun (due, e, agenda) =>
    { g with now := max g.now due, agenda }.handle e

/-- Works the agenda off up to `limit`, in at most so many steps. -/
def workOff (limit : Instant) : (steps : Nat) → Gateway τ π → Gateway τ π
  | 0, g => g
  | steps + 1, g =>
    match g.step? limit with
    | some g => workOff limit steps g
    | none => g

def manySteps : Nat := 1000000000000

/-- Lets all take place that is due by now. -/
def settle (g : Gateway τ π) : Gateway τ π := workOff g.now manySteps g

/-- Lets time pass up to `limit`. -/
def passTo (limit : Instant) (g : Gateway τ π) : Gateway τ π :=
  let g := workOff limit manySteps g
  { g with now := max g.now limit }

def advance (g : Gateway τ π) (d : Duration) : Gateway τ π := passTo (g.now + d) g

/-- Lets time pass until `stop` holds or nothing is left to come, in at most so many steps. -/
def passUntil (stop : Gateway τ π → Bool) : (steps : Nat) → Gateway τ π → Gateway τ π
  | 0, g => g
  | steps + 1, g =>
    if stop g then g
    else match g.agenda.first? with
      | some (due, e, agenda) =>
        passUntil stop steps ({ g with now := max g.now due, agenda }.handle e)
      | none => g

/-- Runs an operation on the cache and waits for its end; everything else goes on meanwhile. -/
def perform {α : Type} (g : Gateway τ π) (operation : Cache.Operation α) : α × Gateway τ π :=
  g.operate passTo operation

end Gateway

end Serving
