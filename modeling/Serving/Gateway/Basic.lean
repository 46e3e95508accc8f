import Serving.Agenda
import Serving.Balancer.Probe
import Serving.Batch.Batcher
import Serving.Batch.Processor
import Serving.Database
import Serving.Gateway.Request
import Serving.Handler
import Serving.Scaling.Scaler
import Serving.Settings.Feed

/-!
# The gateway

The gateway puts the cache, the balancer, the scaler, the batcher and the outside parties together. It
has a clock and an agenda: whatever takes time or waits for its turn is put down on the agenda and comes
up as an event. Events of one time come up in the order in which they were put down. Callers from
outside have numbers, and what the gateway has to tell them is kept in reports.
-/

namespace Serving

namespace Gateway

/-- The outside parties: a store with states `τ`, a provisioner with states `π`, and others without. -/
structure Parties (τ π : Type) where
  store : Cache.Store τ
  provisioner : Scaling.Provisioner π
  executor : Batch.Executor
  database : Database
  handler : Handler
  probe : Balancer.Probe

/-- Whose work it is that waits. -/
inductive Owner
  | caller (number : Nat)
  | loop (number : Nat)
  deriving DecidableEq, Repr

inductive Event
  | submission (caller : Nat) (request : Batch.Request)
  | arrival (caller : Nat) (request : Request)
  | timerStarts (model : String) (timer : Batch.Timer)
  | timerEnds (model : String) (generation : Nat)
  | runAsks (number : Nat)
  | runBegins (number : Nat)
  | runEnds (number : Nat) (verdict : Batch.Verdict)
  | patienceEnds (ticket : Nat)
  | ticketAnswered (ticket : Nat) (result : Except Error Json)
  | storeAnswers (owner : Owner) (isAnswered : Bool)
  | queryEnds (owner : Owner) (query : String) (started : Instant) (run : QueryRun)
  | handlerEnds (owner : Owner) (result : Except Error Json)
  /-- The wait for something that the scaler left for later starts. -/
  | laterStarts (wait : Duration) (later : Scaling.Later)
  | laterComes (later : Scaling.Later)
  | loopStarts (number : Nat)
  | loopTicks (number : Nat)
  | feedArrives

structure Waiting where
  owner : Owner
  need : Need
  resume : need.Reply → Desk → Instant → Service (Option Response)

structure Client where
  ticket : Nat
  owner : Owner
  request : Batch.Request

inductive Purpose
  | batch (number : Nat)
  | caller (number : Nat)

/-- A run that was ordered and has not ended. -/
structure Order where
  number : Nat
  purpose : Purpose
  model : String
  items : List Batch.Item

inductive Chore
  | probing (probe : Balancer.Probe)
  | scaling
  | flushing
  | counting
  | sweeping
  | pruning

/-- Whether a chore is done at once when its loop starts, or after one period. -/
def Chore.isImmediate : Chore → Bool
  | probing _ | scaling | flushing => true
  | counting | sweeping | pruning => false

structure Loop where
  number : Nat
  chore : Chore
  period : Duration
  /-- When the chore is due next. -/
  due : Instant

inductive Report
  | answered (caller : Nat) (time : Instant) (result : Except Error Json)
  | ran (caller : Nat) (time : Instant) (results : List (Except Error Json))
  | responded (caller : Nat) (time : Instant) (response : Response)
  | executing (run : Batch.Run)

end Gateway

open Gateway in
structure Gateway (τ π : Type) where
  parties : Parties τ π
  settings : Settings
  now : Instant := 0
  agenda : Agenda Event := {}
  desk : Desk
  store : τ
  fleet : Scaling.Fleet
  provisioner : π
  batcher : Batcher
  processor : Processor
  log : QueryLog := {}
  waiting : List Waiting := []
  clients : List Client := []
  orders : List Order := []
  loops : List Loop := []
  /-- News of settings, if the gateway listens. -/
  feed : Option (Feed Settings) := none
  isStarted : Bool := false
  isShutDown : Bool := false
  /-- The latest first. -/
  reports : List Report := []
  nextCaller : Nat := 0
  nextRun : Nat := 0
  nextLoop : Nat := 0

namespace Gateway

variable {τ π : Type}

def assemble (parties : Parties τ π) (settings : Settings) (isDistributed : Bool) (store : τ)
    (provisioner : π) : Gateway τ π where
  parties := parties
  settings := settings
  desk := { cache := .new settings.cache isDistributed, sla := .new settings.sla }
  store := store
  fleet := { config := settings.scaling, balancer := .new settings.balancing }
  provisioner := provisioner
  batcher := .new settings.batching
  processor := .new settings.batching.models

def balancer (g : Gateway τ π) : Balancer := g.fleet.balancer

def setBalancer (g : Gateway τ π) (balancer : Balancer) : Gateway τ π :=
  { g with fleet := { g.fleet with balancer } }

def cache (g : Gateway τ π) : Cache := g.desk.cache

def setCache (g : Gateway τ π) (cache : Cache) : Gateway τ π := { g with desk := { g.desk with cache } }

def post (g : Gateway τ π) (due : Instant) (e : Event) : Gateway τ π :=
  { g with agenda := g.agenda.post due e }

/-- Puts an event down for now, behind all that is due now. -/
def soon (g : Gateway τ π) (e : Event) : Gateway τ π := g.post g.now e

/-- Puts an event down for when a time has passed. -/
def after (g : Gateway τ π) (d : Duration) (e : Event) : Gateway τ π := g.post (Instant.alarm g.now d) e

def report (g : Gateway τ π) (r : Report) : Gateway τ π := { g with reports := r :: g.reports }

/-- Takes the reports, the earliest first. -/
def takeReports (g : Gateway τ π) : List Report × Gateway τ π :=
  (g.reports.reverse, { g with reports := [] })

def admitCaller (g : Gateway τ π) : Nat × Gateway τ π :=
  (g.nextCaller, { g with nextCaller := g.nextCaller + 1 })

def wait (g : Gateway τ π) (w : Waiting) : Gateway τ π := { g with waiting := g.waiting ++ [w] }

def takeWaiting (g : Gateway τ π) (owner : Owner) : Option Waiting × Gateway τ π :=
  (g.waiting.find? (·.owner == owner),
    { g with waiting := g.waiting.filter (·.owner != owner) })

end Gateway

end Serving
