import Serving.Gateway.Basic

/-!
# Batches on their way

What becomes of the effects of the batcher: timers are put down on the agenda, and batches become runs.
A run asks for its permit when its turn comes. When it ends, first its permit goes to the next run in
line, and then the answers go out.
-/

namespace Serving

namespace Gateway

variable {τ π : Type}

def order (g : Gateway τ π) (purpose : Purpose) (model : String) (items : List Batch.Item) : Gateway τ π :=
  let number := g.nextRun
  let ordered : Order := { number, purpose, model, items }
  { g with nextRun := number + 1, orders := g.orders ++ [ordered] }.soon (.runAsks number)

def enact (g : Gateway τ π) : Batch.Effect → Gateway τ π
  | .timerSet model timer => g.soon (.timerStarts model timer)
  | .batchSent batch => g.order (.batch batch.number) batch.model batch.items

def enactAll (g : Gateway τ π) (effects : List Batch.Effect) : Gateway τ π := effects.foldl enact g

def deliver (g : Gateway τ π) (deliveries : List Batch.Delivery) : Gateway τ π :=
  deliveries.foldl (fun g d => g.soon (.ticketAnswered d.ticket d.result)) g

/-- A run is over, with its results or without if it broke off. -/
def conclude (g : Gateway τ π) (o : Order) (results : Option (List (Except Error Json))) : Gateway τ π :=
  let g := { g with orders := g.orders.filter (·.number != o.number) }
  match o.purpose, results with
  | .batch number, some results =>
    let (deliveries, batcher) := g.batcher.complete g.now number results
    { g with batcher }.deliver deliveries
  | .batch number, none =>
    let (deliveries, batcher) := g.batcher.breakOff number
    { g with batcher }.deliver deliveries
  | .caller number, some results => g.report (.ran number g.now results)
  | .caller _, none => g

def passPermit (g : Gateway τ π) (next : Option Nat) : Gateway τ π :=
  match next with
  | some number => g.soon (.runBegins number)
  | none => g

def endRun (g : Gateway τ π) (o : Order) (run : Batch.Run) (verdict : Batch.Verdict) : Gateway τ π :=
  let (ended, processor, balancer) := g.processor.finish g.balancer g.now run verdict
  (({ g with processor }.setBalancer balancer).passPermit ended.next).conclude o ended.results

/-- Begins a run that has a permit. An execution that takes no time ends at once. -/
def beginRun (g : Gateway τ π) (o : Order) : Gateway τ π :=
  let (beginning, processor, balancer) := g.processor.begin g.balancer g.now o.number o.model o.items
  let g := { g with processor }.setBalancer balancer
  match beginning with
  | .noCapacity results next => (g.passPermit next).conclude o (some results)
  | .begun run =>
    let execution := g.parties.executor run.model run.target run.items
    let g := g.report (.executing run)
    if execution.took = 0 then g.endRun o run execution.verdict
    else g.after execution.took (.runEnds o.number execution.verdict)

def askPermit (g : Gateway τ π) (o : Order) : Gateway τ π :=
  let (admission, processor) := g.processor.requestPermit o.number o.model o.items
  let g := { g with processor }
  match admission with
  | .over results => g.conclude o (some results)
  | .granted => g.beginRun o
  | .waits => g

def order? (g : Gateway τ π) (number : Nat) : Option Order := g.orders.find? (·.number == number)

def finishRun (g : Gateway τ π) (number : Nat) (verdict : Batch.Verdict) : Gateway τ π :=
  match g.order? number, g.processor.running.find? (·.number == number) with
  | some o, some run => g.endRun o run verdict
  | _, _ => g

def ringTimer (g : Gateway τ π) (model : String) (generation : Nat) : Gateway τ π :=
  let (effects, batcher) := g.batcher.timerFires g.now model generation
  { g with batcher }.enactAll effects

/-- A queue's timer starts. One that is set for no time runs out at once. -/
def startTimer (g : Gateway τ π) (model : String) (timer : Batch.Timer) : Gateway τ π :=
  if timer.due ≤ g.now then g.ringTimer model timer.generation
  else g.post timer.due.roundUp (.timerEnds model timer.generation)

/-- Sends out all batches that are ready, and counts them. -/
def flush (g : Gateway τ π) : Nat × Gateway τ π :=
  let (effects, batcher) := g.batcher.flush g.now
  (Batcher.sentCount effects, { g with batcher }.enactAll effects)

def timeoutError (b : Batcher) (r : Batch.Request) : Error :=
  .requestTimeout r.id (Duration.wholeMillis (b.timeoutOf r))

/-- The client of a ticket gives up, if it is still waiting. -/
def giveUp (g : Gateway τ π) (ticket : Nat) : Option (Client × Error) × Gateway τ π :=
  match g.clients.find? (·.ticket == ticket) with
  | some client =>
    if g.batcher.isOpen ticket then
      (some (client, timeoutError g.batcher client.request),
        { g with
          batcher := g.batcher.giveUp ticket client.request.model
          clients := g.clients.filter (·.ticket != ticket) })
    else (none, g)
  | none => (none, g)

/-- Takes the client whose ticket has an answer. -/
def takeClient (g : Gateway τ π) (ticket : Nat) : Option Client × Gateway τ π :=
  (g.clients.find? (·.ticket == ticket), { g with clients := g.clients.filter (·.ticket != ticket) })

/-- Hands a request to the batcher. There is an answer at once if the batcher refuses it, or if its
client does not wait at all. -/
def submit (g : Gateway τ π) (owner : Owner) (r : Batch.Request) : Option (Except Error Json) × Gateway τ π :=
  let (accepted, batcher) := g.batcher.submit g.now r
  let g := { g with batcher }
  match accepted with
  | .error e => (some (.error e), g)
  | .ok accepted =>
    let g := g.enactAll accepted.effects
    let g := { g with clients := { ticket := accepted.ticket, owner, request := r } :: g.clients }
    let patience := g.batcher.timeoutOf r
    if patience = 0 then
      let (gaveUp, g) := g.giveUp accepted.ticket
      (gaveUp.map fun (_, e) => .error e, g)
    else (none, g.after patience (.patienceEnds accepted.ticket))

end Gateway

end Serving
