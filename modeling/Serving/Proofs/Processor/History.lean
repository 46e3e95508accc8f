import Serving.Batch.Processor
import Serving.Proofs.Balancer.Eligibility

/-! Runs of a processor. Calls ask for a permit, wait in line, begin, end one way or another, and are dropped
at any of these waits, while others use the same balancer and time passes. A permit that a call gives back
goes to the first call in line, which begins some time later. -/

namespace Serving.Processor

open Batch

structure Call where
  number : Nat
  model : String
  items : List Item

structure History where
  processor : Processor
  balancer : Balancer
  now : Instant := 0
  line : List Call := []
  /-- Calls that have a permit and no instance yet. -/
  admitted : List Call := []
  calls : Nat := 0

inductive Event
  | call (model : String) (items : List Item)
  | begins (number : Nat)
  | ends (number : Nat) (verdict : Verdict)
  | cancelled (number : Nat)
  | elsewhere (o : Balancer.Operation)

namespace History

def passOn (s : History) : Option Nat → History
  | none => s
  | some next =>
    match s.line.find? (·.number == next) with
    | some c => { s with line := s.line.filter (·.number != next), admitted := s.admitted ++ [c] }
    | none => s

def handBack (s : History) (model : String) : History :=
  let (next, processor) := s.processor.release model
  { s with processor }.passOn next

def call (s : History) (model : String) (items : List Item) : History :=
  let c : Call := ⟨s.calls, model, items⟩
  let (admission, processor) := s.processor.requestPermit c.number model items
  let s := { s with processor, calls := s.calls + 1 }
  match admission with
  | .over _ => s
  | .granted => { s with admitted := s.admitted ++ [c] }
  | .waits => { s with line := s.line ++ [c] }

def begins (s : History) (number : Nat) : History :=
  match s.admitted.find? (·.number == number) with
  | none => s
  | some c =>
    let s := { s with admitted := s.admitted.filter (·.number != number) }
    match s.processor.begin s.balancer s.now number c.model c.items with
    | (.noCapacity _ next, processor, balancer) => { s with processor, balancer }.passOn next
    | (.begun _, processor, balancer) => { s with processor, balancer }

def ends (s : History) (number : Nat) (verdict : Verdict) : History :=
  match s.processor.running.find? (·.number == number) with
  | none => s
  | some run =>
    let (ended, processor, balancer) := s.processor.finish s.balancer s.now run verdict
    { s with processor, balancer }.passOn ended.next

/-- A call that is dropped leaves the line, or gives its permit back, or breaks off its run. -/
def cancelled (s : History) (number : Nat) : History :=
  match s.line.find? (·.number == number), s.admitted.find? (·.number == number) with
  | some c, _ =>
    { s with line := s.line.filter (·.number != number), processor := s.processor.leaveLine number c.model }
  | none, some c => { s with admitted := s.admitted.filter (·.number != number) }.handBack c.model
  | none, none => s.ends number .crashed

def elsewhere (s : History) (o : Balancer.Operation) : History :=
  { s with balancer := s.balancer.perform s.now o, now := s.now + o.duration }

def step (s : History) : Event → History
  | .call model items => s.call model items
  | .begins number => s.begins number
  | .ends number verdict => s.ends number verdict
  | .cancelled number => s.cancelled number
  | .elsewhere o => s.elsewhere o

def start (models : Table Model) (config : Balancer.Config) (dice : Nat → Float) : History :=
  { processor := Processor.new models, balancer := { Balancer.new config with dice } }

def run (models : Table Model) (config : Balancer.Config) (dice : Nat → Float)
    (events : List Event) : History :=
  events.foldl step (start models config dice)

lemma run_append (models : Table Model) (config : Balancer.Config) (dice : Nat → Float) (events : List Event)
    (e : Event) : run models config dice (events ++ [e]) = (run models config dice events).step e := by
  rw [run, List.foldl_append]
  rfl

def numbers (s : History) : List Nat :=
  s.line.map (·.number) ++ s.admitted.map (·.number) ++ s.processor.running.map (·.number)

/-- Calls of a model that have a permit. -/
def holders (s : History) (model : String) : Nat :=
  s.admitted.countP (·.model == model) + s.processor.running.countP (·.model == model)

/-- Batches that execute on an instance now. -/
def executing (s : History) (id : String) : Nat := s.processor.running.countP (·.target.id == id)

end History

end Serving.Processor
