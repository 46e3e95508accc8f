import Serving.Batch.Request
import Serving.Cache.Computation
import Serving.Settings.Basic
import Serving.Telemetry.Sla

/-!
# Serving a request

A request is looked up in the cache, if it asks for that and its type has a cache type. If it is not
found there it goes on to where requests of its type go: to a model, to the database, or to the handler
of all others. A good answer is written back to the cache, and every answer is counted. The cache never
makes a request fail that could be answered without it.
-/

namespace Serving

namespace Gateway

def modelType : String := "ai_model"

def databaseType : String := "database"

structure Request where
  type : String
  payload : Json
  /-- What the answer is cached under; nothing bypasses the cache. -/
  params : Option Cache.Params := none
  priority : Priority := .normal
  model : Option String := none
  /-- How long a model may take, if the request says. -/
  timeout : Option Duration := none

namespace Request

def ofModel (payload : Json) : Request := { type := modelType, payload }

def ofQuery (query : String) (params : Json) : Request where
  type := databaseType
  payload := .obj [("query", .str query), ("params", params)]

end Request

structure Response where
  id : String
  result : Except Error Json
  /-- Whether the answer came from the cache. -/
  isCached : Bool
  took : Duration

/-- A response without its id; a failure is there if there is no success. -/
def Response.toJson (r : Response) : Json :=
  .obj ([("success", .bool r.result.isOk), ("cached", .bool r.isCached), ("data", .ofOption (·) r.result.toOption),
    ("response_ms", .ofNat (Duration.wholeMillis r.took))] ++ match r.result with
      | .ok _ => []
      | .error e => [("failure", e.toJson)])

/-- Where requests go that the cache does not answer. -/
inductive Destination
  | model (request : Batch.Request)
  | database (query : String) (params : Json)
  | handler (type : String) (payload : Json)

inductive Need
  | store (call : Cache.Call)
  | answer (destination : Destination)

abbrev Need.Reply : Need → Type
  | store call => Option call.Reply
  | answer _ => Except Error Json

structure Desk where
  cache : Cache
  sla : Sla

abbrev Service (α : Type) := Routine Need Need.Reply Desk α

variable {α : Type}

def onCache (operation : Cache.Operation α) (desk : Desk) : Service α :=
  operation.embed Need.store (fun _ reply => reply) Desk.cache (fun cache desk => { desk with cache }) desk

/-- What a request is looked up under: a cache type and parameters. -/
def cacheUse (s : Settings) (r : Request) : Option (String × Cache.Params) :=
  r.params.bind fun params => (s.routing.cacheTypes.find? r.type).map fun type => (type, params)

def modelOf (s : Settings) (r : Request) : String :=
  (r.model.or ((r.payload.field? "model").bind Json.text?)).getD s.routing.defaultModel

def destination (s : Settings) (id : String) (r : Request) : Except Error Destination :=
  if r.type = modelType then
    .ok (.model { id, model := modelOf s r, payload := r.payload, priority := r.priority, timeout := r.timeout })
  else if r.type = databaseType then
    match (r.payload.field? "query").bind Json.text? with
    | some query => .ok (.database query ((r.payload.field? "params").getD .null))
    | none => .error (.invalidRequest "database request requires a 'query' string")
  else .ok (.handler r.type r.payload)

def dispatch (s : Settings) (id : String) (r : Request) (desk : Desk) : Service (Except Error Json) :=
  match destination s id r with
  | .error e => .done (.error e) desk
  | .ok d => .call (.answer d) desk fun result desk _ => .done result desk

def finish (id : String) (started : Instant) (isCached : Bool) (result : Except Error Json) (desk : Desk)
    (now : Instant) : Service Response :=
  let took := now - started
  .done { id, result, isCached, took } { desk with sla := desk.sla.record took result.isOk isCached }

def keep (use : Option (String × Cache.Params)) (result : Except Error Json) (desk : Desk) (now : Instant)
    (next : Desk → Instant → Service α) : Service α :=
  match use, result with
  | some (type, params), .ok value =>
    (onCache (desk.cache.set now type params (Cache.Encoding.json.encode value)) desk).andThen now
      fun _ desk now => next desk now
  | _, _ => next desk now

def serveAnew (s : Settings) (id : String) (r : Request) (use : Option (String × Cache.Params))
    (started : Instant) (desk : Desk) (now : Instant) : Service Response :=
  (dispatch s id r desk).andThen now fun result desk now =>
    keep use result desk now fun desk now => finish id started false result desk now

def serve (s : Settings) (id : String) (r : Request) (desk : Desk) (now : Instant) : Service Response :=
  match cacheUse s r with
  | none => serveAnew s id r none now desk now
  | some (type, params) =>
    (onCache (desk.cache.get now Cache.Encoding.json.decode type params) desk).andThen now
      fun looked desk later =>
        match looked with
        | .error e => finish id now false (.error e) desk later
        | .ok (some value) => finish id now true (.ok value) desk later
        | .ok none => serveAnew s id r (some (type, params)) now desk later

end Gateway

end Serving
