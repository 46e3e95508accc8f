import Serving.Cache.Store

/-!
# A store for rehearsals

A memory store behind a gate. The gate writes down the calls that come, lets them wait, and turns them
away when it is told to.
-/

namespace Serving

namespace Rehearsal

inductive Mode
  | lets
  /-- Turns every call away. -/
  | fails (e : StoreError)
  /-- Lets calls through, but says that the store is not well. -/
  | sick

structure Gate where
  memory : Cache.Memory
  mode : Mode := .lets
  /-- How long every call waits. -/
  delay : Duration := 0
  /-- The names of the calls that came, the latest first. -/
  calls : List String := []

/-- The store behind a gate. Whether a call is turned away is decided when it has waited. -/
def Gate.store : Cache.Store Gate where
  accept c g := { g with calls := c.name :: g.calls }
  delay _ g := some g.delay
  perform c g now :=
    match g.mode, c with
    | .fails e, _ => (.error e, g)
    | .sick, .health => (.ok false, g)
    | _, c =>
      let (reply, memory) := g.memory.answer now c
      (.ok reply, { g with memory })

end Rehearsal

end Serving
