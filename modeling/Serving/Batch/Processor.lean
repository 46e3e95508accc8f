import Serving.Balancer.Basic
import Serving.Batch.Request

/-!
# Running batches

A batch runs on one instance that the balancer chooses for its model, and takes a permit of the model
while it does; batches without a permit wait in line. It fails as a whole if there is no instance, if
the executor fails, and if the executor does not answer item by item; every item then has the same
error. The end of a run is charged to the instance.
-/

namespace Serving

namespace Batch

structure RunCounts where
  batches : Nat := 0
  items : Nat := 0
  failedBatches : Nat := 0
  noCapacity : Nat := 0
  /-- Seconds of all runs together. -/
  totalTime : Float := 0.0
  deriving Inhabited

structure Permits where
  free : Nat
  line : List Nat := []
  deriving DecidableEq, Repr, Inhabited

structure Run where
  number : Nat
  model : String
  items : List Item
  target : Instance
  started : Instant

end Batch

open Batch in
structure Processor where
  permits : Table Permits
  running : List Run := []
  counts : Table RunCounts := ∅

namespace Processor

open Batch

def new (models : Table Model) : Processor where
  permits := models.map fun _ m => { free := max m.concurrency 1 }

def fanOut (e : Error) (items : List Item) : List (Except Error Json) := items.map fun _ => .error e

/-- Where a run stands after it has asked for a permit. -/
inductive Admission
  /-- It is over before it began. -/
  | over (results : List (Except Error Json))
  | granted
  | waits
  deriving Inhabited

def requestPermit (p : Processor) (number : Nat) (model : String) (items : List Item) : Admission × Processor :=
  if items.isEmpty then (.over [], p)
  else match p.permits.find? model with
    | none => (.over (fanOut (.unknownModelType model) items), p)
    | some permits =>
      if permits.free = 0 then
        (.waits, { p with permits := p.permits.insert model { permits with line := permits.line ++ [number] } })
      else
        (.granted, { p with permits := p.permits.insert model { permits with free := permits.free - 1 } })

/-- Gives a permit back. The first run in line gets it, if there is one. -/
def release (p : Processor) (model : String) : Option Nat × Processor :=
  match p.permits.find? model with
  | none => (none, p)
  | some permits =>
    match permits.line with
    | next :: line => (some next, { p with permits := p.permits.insert model { permits with line } })
    | [] => (none, { p with permits := p.permits.insert model { permits with free := permits.free + 1 } })

def countRun (p : Processor) (model : String) (f : RunCounts → RunCounts) : Processor :=
  { p with counts := p.counts.insert model (f ((p.counts.find? model).getD {})) }

inductive Beginning
  /-- There was no instance. The permit is given back, perhaps to another run. -/
  | noCapacity (results : List (Except Error Json)) (next : Option Nat)
  | begun (run : Run)

/-- Begins a run: chooses an instance and counts the request as in flight there. -/
def begin (p : Processor) (b : Balancer) (now : Instant) (number : Nat) (model : String)
    (items : List Item) : Beginning × Processor × Balancer :=
  let (chosen, b) := b.select now model
  match chosen with
  | none =>
    let p := p.countRun model fun c => { c with noCapacity := c.noCapacity + 1 }
    let (next, p) := p.release model
    (.noCapacity (fanOut (.noCapacity model) items) next, p, b)
  | some i =>
    let run : Run := ⟨number, model, items, i, now⟩
    (.begun run, { p with running := p.running ++ [run] }, (b.startRequest i.id).2)

/-- The results of a run that was answered, or the error of all its items. -/
def judge (run : Run) : List Outcome → Except Error (List (Except Error Json))
  | outcomes =>
    if outcomes.length ≠ run.items.length then
      .error (.batchExecution run.model ("executor returned " ++ toString outcomes.length ++
        " results for " ++ toString run.items.length ++ " items"))
    else if outcomes.map (·.id) ≠ run.items.map (·.id) then
      .error (.batchExecution run.model "executor results do not match request ids")
    else .ok (outcomes.map (·.result))

/-- What a verdict means for the items of a run; nothing if the run broke off. -/
def resultOf (run : Run) : Verdict → Option (Except Error (List (Except Error Json)))
  | .answered outcomes => some (judge run outcomes)
  | .failed e => some (.error e)
  | .crashed => none

/-- The counts after a run that ended. -/
def RunCounts.add (c : RunCounts) (items : Nat) (failed : Bool) (took : Duration) : RunCounts :=
  { c with
    batches := c.batches + 1
    items := c.items + items
    failedBatches := c.failedBatches + (if failed then 1 else 0)
    totalTime := c.totalTime + Duration.seconds took }

structure Ended where
  /-- One result for each item; nothing if the run broke off. -/
  results : Option (List (Except Error Json))
  next : Option Nat

def finish (p : Processor) (b : Balancer) (now : Instant) (run : Run) (verdict : Verdict) :
    Ended × Processor × Balancer :=
  let took := now - run.started
  let result := resultOf run verdict
  let success := result.any (·.isOk)
  let b := b.endRequest now run.target.id success took
  let p := { p with running := p.running.filter (·.number != run.number) }
  let p := if result.isSome then
    p.countRun run.model fun c => RunCounts.add c run.items.length (!success) took else p
  let (next, p) := p.release run.model
  (⟨result.map fun
      | .ok results => results
      | .error e => fanOut e run.items, next⟩, p, b)

def leaveLine (p : Processor) (number : Nat) (model : String) : Processor :=
  { p with permits := p.permits.modify model fun permits =>
      { permits with line := permits.line.filter (· != number) } }

def available (p : Processor) (model : String) : Option Nat := (p.permits.find? model).map (·.free)

def runStatistics (c : RunCounts) : Json :=
  .obj [("batches", .ofNat c.batches), ("items", .ofNat c.items), ("failed_batches", .ofNat c.failedBatches),
    ("no_capacity", .ofNat c.noCapacity),
    ("average_latency",
      .ofFloat (if c.batches = 0 then 0.0 else c.totalTime / Float.ofNat c.batches))]

def statistics (p : Processor) : Json := .ofTable runStatistics p.counts

theorem length_fanOut (e : Error) (items : List Item) : (fanOut e items).length = items.length := by
  simp [fanOut]

theorem length_of_judge_ok {run : Run} {outcomes : List Outcome} {results : List (Except Error Json)}
    (h : judge run outcomes = .ok results) : results.length = run.items.length := by
  simp only [judge] at h
  split at h
  · cases h
  · rename_i hl
    split at h
    · cases h
    · cases h
      simpa using hl

end Processor

end Serving
