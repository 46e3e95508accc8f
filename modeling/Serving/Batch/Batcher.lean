import Serving.Batch.Fire
import Serving.Batch.Request

/-!
# The batcher

The batcher keeps the requests of each model in a queue with a lane for each priority and sends them
out in batches: after a new request, at a tick, when the queue's timer runs out, and at shutdown. It
knows which callers still wait. A request whose caller has given up is an orphan: it is passed over
when a batch is put together, and an answer to it is dropped.

A timer belongs to one generation of its queue. It is set when the queue turns non-empty, and called
off when a batch goes out; requests that stay behind get a new one. A timer of another generation than
the queue's does nothing.
-/

namespace Serving

namespace Batch

structure Queued where
  ticket : Nat
  request : Request

structure Timer where
  generation : Nat
  due : Instant
  deriving DecidableEq, Repr

structure Counts where
  submitted : Nat := 0
  completed : Nat := 0
  failed : Nat := 0
  timedOut : Nat := 0
  /-- Requests whose caller had given up. -/
  orphaned : Nat := 0
  batches : Nat := 0
  deriving DecidableEq, Repr, Inhabited

structure Queue where
  model : Model
  /-- The waiting requests, each lane in order of arrival. -/
  waiting : List Queued := []
  timer : Option Timer := none
  generation : Nat := 0
  /-- Sizes and times of the latest batches, the oldest first. -/
  recent : List (Nat × Duration) := []
  counts : Counts := {}
  /-- Requests in all batches that have ended. -/
  dispatched : Nat := 0
  deriving Inhabited

namespace Queue

def lane (q : Queue) (p : Priority) : List Queued := q.waiting.filter (·.request.priority == p)

def inOrder (q : Queue) : List Queued := Priority.drainOrder.flatMap q.lane

def pending (q : Queue) : Nat := q.waiting.length

def snapshot (q : Queue) (timerExpired : Bool) : Snapshot :=
  ⟨q.pending, (q.lane .critical).length, timerExpired⟩

def cancelTimer (q : Queue) : Queue := { q with timer := none, generation := q.generation + 1 }

def setTimer (q : Queue) (now : Instant) : Queue :=
  let q := q.cancelTimer
  { q with timer := some ⟨q.generation, now + q.model.timeout⟩ }

end Queue

structure Drained where
  batch : List Queued
  orphans : Nat
  rest : List Queued

/-- Takes up to `limit` requests whose callers wait off the front; orphans on the way drop out. -/
def drain (isOpen : Nat → Bool) : (limit : Nat) → List Queued → Drained
  | 0, queued => ⟨[], 0, queued⟩
  | _, [] => ⟨[], 0, []⟩
  | limit + 1, r :: rest =>
    if isOpen r.ticket then
      let d := drain isOpen limit rest
      { d with batch := r :: d.batch }
    else
      let d := drain isOpen (limit + 1) rest
      { d with orphans := d.orphans + 1 }

structure Sent where
  number : Nat
  model : String
  reason : Reason
  requests : List Queued
  started : Instant

def Sent.items (s : Sent) : List Item := s.requests.map fun r => ⟨r.request.id, r.request.payload⟩

structure Delivery where
  ticket : Nat
  result : Except Error Json

inductive Effect
  | timerSet (model : String) (timer : Timer)
  | batchSent (batch : Sent)

end Batch

open Batch in
/-- The queues, the callers who wait, and the batches on their way. -/
structure Batcher where
  config : Batch.Config
  queues : Table Queue
  isShutDown : Bool := false
  /-- Tickets whose callers still wait. -/
  callers : List Nat := []
  inFlight : List Sent := []
  nextTicket : Nat := 0
  nextBatch : Nat := 0

namespace Batcher

open Batch

def new (config : Batch.Config) : Batcher where
  config := config
  queues := config.models.map fun _ m => { model := m }

def isOpen (b : Batcher) (ticket : Nat) : Bool := b.callers.contains ticket

def setQueue (b : Batcher) (model : String) (q : Queue) : Batcher :=
  { b with queues := b.queues.insert model q }

def drainQueue (b : Batcher) (q : Queue) : List Queued × Queue :=
  let d := drain b.isOpen (max q.model.maxSize 1) q.inOrder
  (d.batch,
    { q with waiting := d.rest, counts := { q.counts with orphaned := q.counts.orphaned + d.orphans } })

def send (b : Batcher) (now : Instant) (model : String) (reason : Reason) (requests : List Queued) :
    Effect × Batcher :=
  let batch : Sent := ⟨b.nextBatch, model, reason, requests, now⟩
  (.batchSent batch, { b with inFlight := b.inFlight ++ [batch], nextBatch := b.nextBatch + 1 })

def sendAll (now : Instant) (model : String) : List (Reason × List Queued) → Batcher → List Effect × Batcher
  | [], b => ([], b)
  | (reason, requests) :: rest, b =>
    let (effect, b) := b.send now model reason requests
    let (effects, b) := sendAll now model rest b
    (effect :: effects, b)

def reasonNow (b : Batcher) (q : Queue) (timerExpired : Bool) : Option Reason :=
  fireReason b.config.strategy q.model b.config.adaptive (q.snapshot timerExpired) (Batch.throughput q.recent)

/-- Takes batches out of a queue for as long as it has a reason to go out. Each of them takes at least
one request, so as many rounds as requests are enough. -/
def readyBatches (b : Batcher) : (rounds : Nat) → Queue → List (Reason × List Queued) × Queue
  | 0, q => ([], q)
  | rounds + 1, q =>
    match b.reasonNow q false with
    | none => ([], q)
    | some reason =>
      let (batch, q) := b.drainQueue q
      if batch.isEmpty then ([], q)
      else
        let (batches, q) := b.readyBatches rounds q
        ((reason, batch) :: batches, q)

/-- Sets a timer for a queue that is not empty. -/
def rearm (now : Instant) (model : String) (q : Queue) : List Effect × Queue :=
  if q.pending = 0 then ([], q)
  else
    let q := q.setTimer now
    ((q.timer.map (.timerSet model)).toList, q)

/-- Sends out what is ready in a queue. If anything is, the timer starts anew. -/
def flushQueue (b : Batcher) (now : Instant) (model : String) (q : Queue) : List Effect × Batcher :=
  let (batches, q) := b.readyBatches q.pending q
  if batches.isEmpty then ([], b.setQueue model q)
  else
    let (timers, q) := rearm now model q.cancelTimer
    let (sent, b) := sendAll now model batches (b.setQueue model q)
    (timers ++ sent, b)

structure Accepted where
  ticket : Nat
  effects : List Effect

def submit (b : Batcher) (now : Instant) (r : Request) : Except Error Accepted × Batcher :=
  if b.isShutDown then (.error .shuttingDown, b)
  else match b.queues.find? r.model with
    | none => (.error (.unknownModelType r.model), b)
    | some q =>
      let ticket := b.nextTicket
      let b := { b with callers := ticket :: b.callers, nextTicket := ticket + 1 }
      let wasEmpty := q.pending == 0
      let q := { q with
        waiting := q.waiting ++ [⟨ticket, r⟩]
        counts := { q.counts with submitted := q.counts.submitted + 1 } }
      let (timers, q) := if wasEmpty then rearm now r.model q else ([], q)
      let (effects, b) := b.flushQueue now r.model q
      (.ok ⟨ticket, timers ++ effects⟩, b)

def timeoutOf (b : Batcher) (r : Request) : Duration := r.timeout.getD b.config.requestTimeout

def flushModels (now : Instant) : List String → Batcher → List Effect × Batcher
  | [], b => ([], b)
  | model :: rest, b =>
    match b.queues.find? model with
    | none => flushModels now rest b
    | some q =>
      let (effects, b) := b.flushQueue now model q
      let (more, b) := flushModels now rest b
      (effects ++ more, b)

/-- Looks at every queue and sends out what is ready. -/
def flush (b : Batcher) (now : Instant) : List Effect × Batcher := flushModels now b.queues.names b

def sentCount (effects : List Effect) : Nat :=
  effects.countP fun
    | .batchSent _ => true
    | .timerSet _ _ => false

def timerFires (b : Batcher) (now : Instant) (model : String) (generation : Nat) : List Effect × Batcher :=
  match b.queues.find? model with
  | none => ([], b)
  | some q =>
    if q.generation = generation then
      let q := q.cancelTimer
      let (batch, q) := if (b.reasonNow q true).isSome then b.drainQueue q else ([], q)
      let (timers, q) := rearm now model q
      let b := b.setQueue model q
      if batch.isEmpty then (timers, b)
      else
        let (effect, b) := b.send now model .timer batch
        (timers ++ [effect], b)
    else ([], b)

def giveUp (b : Batcher) (ticket : Nat) (model : String) : Batcher :=
  if b.isOpen ticket then
    { b with
      callers := b.callers.filter (· != ticket)
      queues := b.queues.modify model fun q =>
        { q with counts := { q.counts with timedOut := q.counts.timedOut + 1 } } }
  else b

/-- The batch under a number, and the batcher without it. -/
def takeSent (b : Batcher) (number : Nat) : Option (Sent × Batcher) :=
  (b.inFlight.find? (·.number == number)).map fun batch =>
    (batch, { b with inFlight := b.inFlight.filter (·.number != number) })

def deliveries (b : Batcher) (results : List (Queued × Except Error Json)) : List Delivery :=
  (results.filter fun r => b.isOpen r.1.ticket).map fun r => ⟨r.1.ticket, r.2⟩

def remember (window : Nat) (recent : List (Nat × Duration)) (size : Nat) (took : Duration) :
    List (Nat × Duration) :=
  let all := recent ++ [(size, took)]
  all.drop (all.length - max window 1)

/-- A batch ends with one result for each of its requests. -/
def complete (b : Batcher) (now : Instant) (number : Nat) (results : List (Except Error Json)) :
    List Delivery × Batcher :=
  match b.takeSent number with
  | none => ([], b)
  | some (batch, b) =>
    let pairs := batch.requests.zip results
    let answers := b.deliveries pairs
    let good := answers.countP fun d => d.result.isOk
    let b := { b with
      callers := b.callers.filter fun t => !answers.any (·.ticket == t)
      queues := b.queues.modify batch.model fun q =>
        { q with
          counts := { q.counts with
            batches := q.counts.batches + 1
            completed := q.counts.completed + good
            failed := q.counts.failed + (answers.length - good)
            orphaned := q.counts.orphaned + (pairs.length - answers.length) }
          dispatched := q.dispatched + batch.requests.length
          recent := remember b.config.adaptive.window q.recent batch.requests.length (now - batch.started) } }
    (answers, b)

/-- The error of a request whose batch broke off. -/
def droppedError (r : Request) : Error :=
  .internal ("request " ++ r.id ++ " was dropped without a result")

/-- The execution of a batch breaks off. Nothing is counted. -/
def breakOff (b : Batcher) (number : Nat) : List Delivery × Batcher :=
  match b.takeSent number with
  | none => ([], b)
  | some (batch, b) =>
    let answers := b.deliveries (batch.requests.map fun r => (r, .error (droppedError r.request)))
    (answers, { b with callers := b.callers.filter fun t => !answers.any (·.ticket == t) })

/-- Takes a queue apart into batches. As many rounds as requests are enough. -/
def emptyQueue (b : Batcher) : (rounds : Nat) → Queue → List (List Queued) × Queue
  | 0, q => ([], q)
  | rounds + 1, q =>
    let (batch, q) := b.drainQueue q
    if batch.isEmpty then ([], q)
    else
      let (batches, q) := b.emptyQueue rounds q
      (batch :: batches, q)

def emptyQueues : List String → Batcher → List (String × List Queued) × Batcher
  | [], b => ([], b)
  | model :: rest, b =>
    match b.queues.find? model with
    | none => emptyQueues rest b
    | some q =>
      let q := q.cancelTimer
      let (batches, q) := b.emptyQueue (q.pending + 1) q
      let (others, b) := emptyQueues rest (b.setQueue model q)
      (batches.map (model, ·) ++ others, b)

def sendLast (now : Instant) : List (String × List Queued) → Batcher → List Effect × Batcher
  | [], b => ([], b)
  | (model, requests) :: rest, b =>
    let (effect, b) := b.send now model .shutdown requests
    let (effects, b) := sendLast now rest b
    (effect :: effects, b)

/-- Takes no more requests and sends out all that wait. A second shutdown does nothing. -/
def shutDown (b : Batcher) (now : Instant) : List Effect × Batcher :=
  if b.isShutDown then ([], b)
  else
    let (batches, b) := emptyQueues b.queues.names { b with isShutDown := true }
    sendLast now batches b

/-- Whether all batches have ended. -/
def isDrained (b : Batcher) : Bool := b.inFlight.isEmpty

def pending (b : Batcher) (model : String) : Nat := ((b.queues.find? model).map (·.pending)).getD 0

def queueStatistics (q : Queue) : Json :=
  let c := q.counts
  .obj [("submitted", .ofNat c.submitted), ("completed", .ofNat c.completed), ("failed", .ofNat c.failed),
    ("timed_out", .ofNat c.timedOut), ("orphaned", .ofNat c.orphaned), ("batches", .ofNat c.batches),
    ("pending", .ofNat q.pending),
    ("average_batch_size",
      .ofFloat (if c.batches = 0 then 0.0 else Float.ofNat q.dispatched / Float.ofNat c.batches)),
    ("recent_throughput", .ofOption .ofFloat (Batch.throughput q.recent))]

def statistics (b : Batcher) : Json :=
  .obj [("strategy", .str b.config.strategy.name), ("models", .ofTable queueStatistics b.queues)]

theorem drain_length (isOpen : Nat → Bool) (limit : Nat) (queued : List Queued) :
    (drain isOpen limit queued).batch.length + (drain isOpen limit queued).orphans +
      (drain isOpen limit queued).rest.length = queued.length := by
  induction queued generalizing limit with
  | nil => cases limit <;> simp [drain]
  | cons r rest ih =>
    cases limit with
    | zero => simp [drain]
    | succ n =>
      have hn := ih n
      have hs := ih (n + 1)
      by_cases h : isOpen r.ticket <;> simp [drain, h] <;> omega

end Batcher

end Serving
