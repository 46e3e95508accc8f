import Serving.Cache.Manager

/-!
# Computing through the cache

A computation behind the cache runs only if its value is not found. A value that it yields is written
back; an error is not. A write that fails is passed over.
-/

namespace Serving

namespace Cache

variable {α : Type}

/-- A value and whether it came from the cache. -/
structure Found (α : Type) where
  value : α
  isHit : Bool
  deriving DecidableEq, Repr

/-- How a computation through the cache ended, and how often the computation ran. -/
structure Computed (α : Type) where
  outcome : Except Error (Found α)
  runs : Nat

/-- Takes a value from the cache or computes it. -/
def compute (c : Cache) (now : Instant) (encoding : Encoding α) (type : String) (params : Params)
    (computation : Unit → Except Error α) : Operation (Computed α) :=
  (c.get now encoding.decode type params).andThen now fun looked c now =>
    match looked with
    | .error e => .done ⟨.error e, 0⟩ c
    | .ok (some v) => .done ⟨.ok ⟨v, true⟩, 0⟩ c
    | .ok none =>
      match computation () with
      | .error e => .done ⟨.error e, 1⟩ c
      | .ok v => (c.set now type params (encoding.encode v)).map fun _ => ⟨.ok ⟨v, false⟩, 1⟩

/-- Takes a value from the cache or computes it, and tells no more than the value. -/
def getOrCompute (c : Cache) (now : Instant) (encoding : Encoding α) (type : String) (params : Params)
    (computation : Unit → Except Error α) : Operation (Except Error α × Nat) :=
  (c.compute now encoding type params computation).map fun r => (r.outcome.map (·.value), r.runs)

end Cache

end Serving
