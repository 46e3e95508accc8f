import Serving.Error
import Serving.Json.Basic
import Serving.Time

/-!
# Handlers

A handler answers the requests that have no way of their own.
-/

namespace Serving

/-- How a handler deals with a request: the time it takes, and the answer. -/
structure Handled where
  took : Duration
  result : Except Error Json

abbrev Handler := String → Json → Handled

namespace Handler

/-- Hands type and payload back at once. -/
def echo : Handler := fun type payload =>
  ⟨0, .ok (.obj [("request_type", .str type), ("payload", payload)])⟩

end Handler

end Serving
