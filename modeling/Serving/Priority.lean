import Serving.Error
import Serving.Source
import Serving.Text.Blank

/-!
# Priorities

Four levels of urgency and the order in which waiting requests are taken: the most urgent first.
-/

namespace Serving

inductive Priority
  | low
  | normal
  | high
  | critical
  deriving DecidableEq, Repr, Inhabited

namespace Priority

/-- The priorities from the first taken to the last. -/
def drainOrder : List Priority := [critical, high, normal, low]

/-- The rank of a priority, from the least urgent up. -/
def rank : Priority → Nat
  | low => 0
  | normal => 1
  | high => 2
  | critical => 3

def name : Priority → String
  | low => "low"
  | normal => "normal"
  | high => "high"
  | critical => "critical"

def ofName? : String → Option Priority
  | "low" => some low
  | "normal" => some normal
  | "high" => some high
  | "critical" => some critical
  | _ => none

def parse (s : String) : Except Error Priority :=
  match ofName? (Text.lower s) with
  | some p => .ok p
  | none => .error (.configuration ("Unknown priority: " ++ Text.lower s))

theorem ofName?_name (p : Priority) : ofName? p.name = some p := by cases p <;> rfl

theorem mem_drainOrder (p : Priority) : p ∈ drainOrder := by cases p <;> decide

end Priority

end Serving
