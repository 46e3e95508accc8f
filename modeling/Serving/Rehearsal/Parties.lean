import Serving.Balancer.Probe
import Serving.Batch.Request
import Serving.Database
import Serving.Handler
import Serving.Scaling.Scaler

/-!
# Parties for rehearsals

Outside parties that do what the payloads tell them, for rehearsals of a gateway without real ones.
-/

namespace Serving

namespace Rehearsal

def delayOf (payload : Json) : Duration :=
  match payload.field? "delay_ms" with
  | some (.int n) => .ofMillis n.toNat
  | _ => 0

def errorOf (payload : Json) : Option Error :=
  ((payload.field? "error").bind (·.text?)).map .invalidRequest

/-- Hands a payload back, unless it tells otherwise. -/
def echo (payload : Json) : Except Error Json :=
  match errorOf payload with
  | some e => .error e
  | none => .ok payload

def asksFor (items : List Batch.Item) (word : String) : Bool := items.any fun i => i.payload.text? == some word

/-- Marks the id of the first outcome. -/
def renameFirst : List Batch.Outcome → List Batch.Outcome
  | o :: rest => { o with id := o.id ++ "!" } :: rest
  | [] => []

/-- Ways to spoil the outcomes of a batch, each under the word that asks for it. -/
def spoilings : List (String × (List Batch.Outcome → List Batch.Outcome)) :=
  [("short", List.dropLast), ("long", (· ++ [⟨"extra", .ok .null⟩])), ("reverse", List.reverse),
    ("rename", renameFirst)]

/-- An executor that hands the payloads back, unless they tell otherwise. -/
def executor (delay : Duration) : Batch.Executor := fun model _ items =>
  { took := delay + (items.map fun i => delayOf i.payload).foldr (· + ·) 0
    verdict :=
      if asksFor items "crash" then .crashed
      else if asksFor items "fail" then .failed (.batchExecution model "scripted failure")
      else if asksFor items "internal" then .failed (.internal "scripted internal error")
      else .answered (spoilings.foldl (fun outcomes (word, spoil) =>
        if asksFor items word then spoil outcomes else outcomes) (items.map fun i => ⟨i.id, echo i.payload⟩)) }

def occursIn (part : List Char) : List Char → Bool
  | [] => part.isEmpty
  | c :: rest => part.isPrefixOf (c :: rest) || occursIn part rest

/-- A database that hands queries back and drops nothing. -/
def database : Database := fun query params =>
  { took := 0
    result :=
      if occursIn "DROP".toList query.toList then .error (.invalidRequest "destructive statements are not allowed")
      else .ok (.obj [("echo", .str query), ("params", params)]) }

def handler : Handler := fun type payload =>
  { took := delayOf payload
    result := (echo payload).map fun _ => .obj [("handled", .str type), ("payload", payload)] }

def probe (usual : Balancer.Finding) (own : Table Balancer.Finding) : Balancer.Probe := fun i =>
  (own.find? i.id).getD usual

/-- Ports for each service, or for all services together, with switches for failures. -/
structure Ports where
  fresh : Scaling.Ports
  isShared : Bool := false
  used : Table Scaling.Ports := ∅
  failsToProvision : Bool := false
  failsToDecommission : Bool := false
  /-- The ids of all instances that were to be taken back. -/
  decommissioned : List String := []

/-- Ports under which the instances of each service are numbered from one. -/
def Ports.numbered (host : String) (next : UInt16) (weight : Float) : Ports where
  fresh := { host, next, weight, suffix := fun n => toString (n + 1) }

def Ports.provisioner : Scaling.Provisioner Ports where
  provision service p :=
    if p.failsToProvision then (.error (.internal "scripted provisioning failure"), p)
    else
      let owner := if p.isShared then "" else service
      let (i, ports) := ((p.used.find? owner).getD p.fresh).provision service
      (.ok i, { p with used := p.used.insert owner ports })
  decommission i p :=
    (if p.failsToDecommission then .error (.internal "scripted decommission failure") else .ok (),
      { p with decommissioned := p.decommissioned ++ [i.id] })

end Rehearsal

end Serving
