/-!
# Feeds

A feed carries values to a subscriber who looks at them now and then. It keeps the latest values only,
up to its capacity. A subscriber who comes too late for some is told so once, and goes on with the
oldest one kept.
-/

namespace Serving

structure Feed (α : Type) where
  capacity : Nat
  /-- The oldest first. -/
  kept : List α := []
  /-- Values that were lost since the subscriber last looked. -/
  missed : Nat := 0

namespace Feed

variable {α : Type}

inductive Look (α : Type)
  | value (a : α)
  | lagged (missed : Nat)
  | nothing

/-- Adds a value; the oldest one is lost if there are too many. -/
def publish (f : Feed α) (a : α) : Feed α :=
  let kept := f.kept ++ [a]
  let excess := kept.length - f.capacity
  { f with kept := kept.drop excess, missed := f.missed + excess }

def next (f : Feed α) : Look α × Feed α :=
  if f.missed = 0 then
    match f.kept with
    | [] => (.nothing, f)
    | a :: rest => (.value a, { f with kept := rest })
  else (.lagged f.missed, { f with missed := 0 })

/-- Takes the values up to the first gap or the end. -/
def takeAll (f : Feed α) : List α × Feed α :=
  if f.missed = 0 then (f.kept, { f with kept := [] }) else ([], { f with missed := 0 })

/-- Takes all values that are kept, gap or no gap. -/
def drain (f : Feed α) : List α × Feed α := (f.kept, { f with kept := [], missed := 0 })

theorem length_publish_le (f : Feed α) (a : α) (h : f.kept.length ≤ f.capacity) :
    (f.publish a).kept.length ≤ f.capacity := by
  simp only [publish, List.length_drop, List.length_append, List.length_cons, List.length_nil]
  omega

end Feed

end Serving
