import Serving.Gateway.Work

/-!
# Upkeep

What the gateway does again and again without being asked: it probes the pool, scales it, sends out
ready batches, looks at the cache's counts, sweeps the cache, and prunes the log of queries. A loop that
has no period never does anything.
-/

namespace Serving

namespace Gateway

variable {τ π : Type}

def startLoop (g : Gateway τ π) (chore : Chore) (period : Duration) : Gateway τ π :=
  if period = 0 then g
  else
    let number := g.nextLoop
    let loops := g.loops ++ [{ number, chore, period, due := g.now }]
    { g with loops, nextLoop := number + 1 }.soon (.loopStarts number)

/-- Stops all loops. What they have begun goes on to its end. -/
def stopLoops (g : Gateway τ π) : Gateway τ π := { g with loops := [] }

/-- Decides for a service, carries it out, and puts down what is left for later. -/
def scale (g : Gateway τ π) (service : String) : Except Error Scaling.Decision × Gateway τ π :=
  let (step, fleet, provisioner) :=
    Scaling.Fleet.run g.parties.provisioner (g.fleet.evaluateAndScale service g.now) g.provisioner g.now
  let g := { g with fleet, provisioner }
  (step.outcome, match step.later with
    | some (wait, later) => g.soon (.laterStarts wait later)
    | none => g)

/-- Does what the scaler left for later. -/
def carryOut (g : Gateway τ π) : Scaling.Later → Gateway τ π
  | .started id => { g with fleet := g.fleet.finishStart id }
  | .retired victim =>
    let (fleet, provisioner) := g.fleet.finishRetirement g.parties.provisioner g.provisioner victim
    { g with fleet, provisioner }

/-- The wait for something left for later starts. -/
def startLater (g : Gateway τ π) (wait : Duration) (later : Scaling.Later) : Gateway τ π :=
  if wait = 0 then g.carryOut later else g.after wait (.laterComes later)

/-- Does a chore that does not have to wait. -/
def doChore (g : Gateway τ π) : Chore → Gateway τ π
  | .probing probe => g.setBalancer (g.balancer.probeAll probe g.now).2
  | .scaling => g.fleet.services.foldl (fun g service => (g.scale service).2) g
  | .flushing => g.flush.2
  | .counting => g
  | .sweeping => g.setCache (g.cache.sweep g.now).2
  | .pruning => { g with log := (g.log.prune g.now g.settings.maintenance.retention).2 }

def work (g : Gateway τ π) (l : Loop) : Gateway τ π :=
  match l.chore with
  | .counting => g.proceed (.loop l.number) ((onCache g.cache.statistics g.desk).map fun _ => none)
  | chore => (g.doChore chore).arm l.number

def tick (g : Gateway τ π) (number : Nat) : Gateway τ π :=
  match g.loop? number with
  | some l => (g.setDue number (l.dueAfter g.now)).work l
  | none => g

def beginLoop (g : Gateway τ π) (number : Nat) : Gateway τ π :=
  match g.loop? number with
  | some l =>
    if l.chore.isImmediate then (g.setDue number g.now).tick number
    else (g.setDue number (g.now + l.period)).arm number
  | none => g

/-- Takes settings over that came into force elsewhere: those of the scaler, unless something is wrong
with them, and the balancer's way of choosing. -/
def adopt (g : Gateway τ π) (s : Settings) : Gateway τ π :=
  let g := { g with fleet := (g.fleet.updateConfig s.scaling).2 }
  g.setBalancer (g.balancer.setAlgorithm s.balancing.algorithm)

/-- Takes over all settings in the feed, in order. -/
def readFeed (g : Gateway τ π) : Gateway τ π :=
  match g.feed with
  | some feed =>
    let (news, feed) := feed.drain
    news.foldl adopt { g with feed := some feed }
  | none => g

end Gateway

end Serving
