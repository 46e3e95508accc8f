import Serving.Gateway.Batches

/-!
# Work in progress

How work at the desk goes on: what it needs is asked of the right party, an answer that is there at once
is used at once, and otherwise the work waits under its owner. Work of a caller ends in a response, work
of a loop in the next round of the loop.
-/

namespace Serving

namespace Gateway

variable {τ π : Type}

/-- How late a loop may be without losing its beat. -/
def tolerance : Duration := .ofMillis 5

/-- When a loop that ticks now is due again: one period after it was due, or after now if it is late. -/
def Loop.dueAfter (l : Loop) (now : Instant) : Instant :=
  if l.due + tolerance < now then now + l.period else l.due + l.period

def loop? (g : Gateway τ π) (number : Nat) : Option Loop := g.loops.find? (·.number == number)

/-- Puts the next tick of a loop down, if the loop has not been stopped. -/
def arm (g : Gateway τ π) (number : Nat) : Gateway τ π :=
  match g.loop? number with
  | some l => g.post (max g.now l.due.roundUp) (.loopTicks number)
  | none => g

/-- Sets when a loop is due. -/
def setDue (g : Gateway τ π) (number : Nat) (due : Instant) : Gateway τ π :=
  { g with loops := g.loops.map fun l => if l.number = number then { l with due } else l }

def close (g : Gateway τ π) (owner : Owner) (response : Option Response) : Gateway τ π :=
  match owner, response with
  | .caller number, some response => g.report (.responded number g.now response)
  | .caller _, none => g
  | .loop number, _ => g.arm number

def storeReply (g : Gateway τ π) (call : Cache.Call) (isAnswered : Bool) :
    Option call.Reply × Gateway τ π :=
  if isAnswered then
    let (reply, store) := g.parties.store.perform call g.store g.now
    (reply.toOption, { g with store })
  else (none, g)

/-- When a call of the store that starts now is over, and whether it is answered. -/
def callStore (g : Gateway τ π) (call : Cache.Call) : (Instant × Bool) × Gateway τ π :=
  let store := g.parties.store.accept call g.store
  (Cache.Store.ending (g.parties.store.delay call store) g.settings.cache.remote.operationTimeout g.now,
    { g with store })

def noteQuery (g : Gateway τ π) (query : String) (started : Instant) (run : QueryRun) : Gateway τ π :=
  { g with log := g.log.note g.now query (g.now - started) run }

/-- Sends a request where it goes. There is an answer now, or an event later. -/
def send (g : Gateway τ π) (owner : Owner) : Destination → Option (Except Error Json) × Gateway τ π
  | .model r => g.submit owner r
  | .database query params =>
    let run := g.parties.database query params
    if run.took = 0 then (some run.result, g.noteQuery query g.now run)
    else (none, g.after run.took (.queryEnds owner query g.now run))
  | .handler type payload =>
    let handled := g.parties.handler type payload
    if handled.took = 0 then (some handled.result, g)
    else (none, g.after handled.took (.handlerEnds owner handled.result))

/-- Asks for what some work needs. There is a reply now, or an event later. -/
def ask (g : Gateway τ π) (owner : Owner) : (need : Need) → Option need.Reply × Gateway τ π
  | .store call =>
    let ((ends, isAnswered), g) := g.callStore call
    if ends ≤ g.now then
      let (reply, g) := g.storeReply call isAnswered
      (some reply, g)
    else (none, g.post ends (.storeAnswers owner isAnswered))
  | .answer destination => g.send owner destination

/-- Goes on with an owner's work until it is done or has to wait. -/
def proceed (owner : Owner) : Service (Option Response) → Gateway τ π → Gateway τ π
  | .done response desk, g => { g with desk }.close owner response
  | .call need desk resume, g =>
    match { g with desk }.ask owner need with
    | (some reply, g) => proceed owner (resume reply g.desk g.now) g
    | (none, g) => g.wait { owner, need, resume }

def hearStore (g : Gateway τ π) (owner : Owner) (isAnswered : Bool) : Gateway τ π :=
  match g.takeWaiting owner with
  | (some ⟨_, .store call, resume⟩, g) =>
    let (reply, g) := g.storeReply call isAnswered
    g.proceed owner (resume reply g.desk g.now)
  | _ => g

/-- There is an answer for an owner. A caller without work at the desk gets it directly. -/
def hearAnswer (g : Gateway τ π) (owner : Owner) (result : Except Error Json) : Gateway τ π :=
  match g.takeWaiting owner with
  | (some ⟨_, .answer _, resume⟩, g) => g.proceed owner (resume result g.desk g.now)
  | _ =>
    match owner with
    | .caller number => g.report (.answered number g.now result)
    | .loop _ => g

def acceptSubmission (g : Gateway τ π) (caller : Nat) (r : Batch.Request) : Gateway τ π :=
  match g.submit (.caller caller) r with
  | (some result, g) => g.report (.answered caller g.now result)
  | (none, g) => g

def requestId (caller : Nat) : String := "request-" ++ toString caller

def acceptRequest (g : Gateway τ π) (caller : Nat) (r : Request) : Gateway τ π :=
  g.proceed (.caller caller) ((serve g.settings (requestId caller) r g.desk g.now).map some)

/-- Runs an operation on the cache for someone who waits for its end. While the store takes its time,
`pass` lets everything else go on until the call is over. -/
def operate {α : Type} (pass : Instant → Gateway τ π → Gateway τ π) :
    Cache.Operation α → Gateway τ π → α × Gateway τ π
  | .done a cache, g => (a, g.setCache cache)
  | .call call cache resume, g =>
    let ((ends, isAnswered), g) := (g.setCache cache).callStore call
    let g := if ends ≤ g.now then g else pass ends g
    let (reply, g) := g.storeReply call isAnswered
    operate pass (resume reply g.cache g.now) g

end Gateway

end Serving
