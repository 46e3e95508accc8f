import Serving.Batch.Config
import Serving.Instance
import Serving.Priority

/-!
# Requests and their execution

What a caller asks of a model, what an executor sees of it, and how the execution of a batch ends. An
executor gets a batch as a whole and owes one outcome for each item, in order and under its name.
-/

namespace Serving

namespace Batch

structure Request where
  id : String
  model : String
  payload : Json
  priority : Priority := .normal
  /-- How long the caller waits, if it says. -/
  timeout : Option Duration := none
  deriving Inhabited

structure Item where
  id : String
  payload : Json
  deriving Inhabited

structure Outcome where
  id : String
  result : Except Error Json

inductive Verdict
  | answered (outcomes : List Outcome)
  | failed (e : Error)
  /-- The execution broke off without an answer. -/
  | crashed

structure Execution where
  took : Duration
  verdict : Verdict

abbrev Executor := String → Instance → List Item → Execution

/-- An executor that takes the model's simulated time and hands the payloads back. It fails at a rate,
as a throw of the dice from 0 up to but not including 1 decides. -/
def simulated (models : Table Model) (failureRate dice : Float) : Executor := fun model i items =>
  { took := ((models.find? model).map fun m => m.latency items.length).getD 0
    verdict :=
      if 0.0 < failureRate && dice < failureRate then
        .failed (.batchExecution model ("simulated transport failure on " ++ i.endpoint))
      else .answered (items.map fun item =>
        { id := item.id
          result := .ok (.obj [("model", .str model), ("instance_id", .str i.id),
            ("batch_size", .ofNat items.length), ("output", item.payload)]) }) }

end Batch

end Serving
