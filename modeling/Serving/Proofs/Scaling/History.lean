import Mathlib.Tactic.Lemma
import Serving.Balancer.Probe
import Serving.Proofs.Balancer.History
import Serving.Scaling.Scaler

/-! Runs of a scaler. Services are evaluated, for show or to act on it, and a call that needs an instance waits
for the provisioner; policies are replaced; what was put off is done some time after it is due; and the
balancer goes on with its own work, in any order. -/

namespace Serving.Scaling

/-- An evaluation that waits for an instance. -/
structure Call where
  service : String
  /-- The policy that was in force when it was decided. -/
  policy : Option Policy
  /-- How many updates there had been then. -/
  updates : Nat
  resume : Except Error Instance → Fleet → Instant → Operation Fleet.Step

/-- A fleet in the middle of a run, beside a provisioner in a state of type `π`. -/
structure History (π : Type) where
  fleet : Fleet
  ports : π
  now : Instant := 0
  calls : List Call := []
  /-- What was put off, with the time when it is due. -/
  pending : List (Instant × Later) := []
  /-- How often policies or settings were replaced. -/
  updates : Nat := 0

inductive Move
  | evaluate (service : String)
  | evaluateAndScale (service : String)
  | answer (call : Nat)
  | finish (task : Nat)
  | updatePolicy (service : String) (p : Policy)
  | updateConfig (config : Config)
  | probeAll (probe : Balancer.Probe)
  | balance (o : Balancer.Operation)
  | stop

namespace History

variable {π : Type} (provisioner : Provisioner π)

/-- Goes on with an evaluation until it is over or waits. -/
def follow (s : History π) (policy : Option Policy) (updates : Nat) : Operation Fleet.Step → History π
  | .done step fleet =>
    { s with
      fleet
      pending := s.pending ++ step.later.toList.map fun (delay, task) => (s.now + delay, task) }
  | .call service fleet resume => { s with fleet, calls := s.calls ++ [⟨service, policy, updates, resume⟩] }

def answer (s : History π) (call : Nat) : History π :=
  match s.calls[call]? with
  | none => s
  | some c =>
    let (made, ports) := provisioner.provision c.service s.ports
    { s with ports, calls := s.calls.eraseIdx call }.follow c.policy c.updates (c.resume made s.fleet s.now)

def finish (s : History π) (task : Nat) : History π :=
  match s.pending[task]? with
  | none => s
  | some (due, later) =>
    if due ≤ s.now then
      let s := { s with pending := s.pending.eraseIdx task }
      match later with
      | .started id => { s with fleet := s.fleet.finishStart id }
      | .retired victim =>
        let (fleet, ports) := s.fleet.finishRetirement provisioner s.ports victim
        { s with fleet, ports }
    else s

def update (s : History π) : Except Error Unit × Fleet → History π
  | (.ok _, fleet) => { s with fleet, updates := s.updates + 1 }
  | (.error _, fleet) => { s with fleet }

def step (s : History π) : Move → History π
  | .evaluate service => { s with fleet := (s.fleet.evaluate service s.now).2 }
  | .evaluateAndScale service =>
    s.follow (s.fleet.policy service) s.updates (s.fleet.evaluateAndScale service s.now)
  | .answer call => s.answer provisioner call
  | .finish task => s.finish provisioner task
  | .updatePolicy service p => s.update (s.fleet.updatePolicy service p)
  | .updateConfig config => s.update (s.fleet.updateConfig config)
  | .probeAll probe =>
    { s with fleet := { s.fleet with balancer := (s.fleet.balancer.probeAll probe s.now).2 } }
  | .balance o =>
    { s with
      fleet := { s.fleet with balancer := s.fleet.balancer.perform s.now o }
      now := s.now + o.duration }
  | .stop => { s with fleet := s.fleet.stop }

/-- A new scaler over a balancer that has a past of its own. -/
def start (config : Config) (b : Balancer.History) (ports : π) : History π where
  fleet := { config, balancer := b.balancer }
  ports := ports
  now := b.now

def run (s : History π) (moves : List Move) : History π := moves.foldl (step provisioner) s

/-- What is asked of every move of a run, each in the state it is made in. -/
def Throughout (C : History π → Move → Prop) : History π → List Move → Prop
  | _, [] => True
  | s, m :: moves => C s m ∧ Throughout C (s.step provisioner m) moves

instance Throughout.decidable {C : History π → Move → Prop} [∀ s m, Decidable (C s m)] :
    (s : History π) → (moves : List Move) → Decidable (Throughout provisioner C s moves)
  | _, [] => .isTrue trivial
  | s, m :: moves => @instDecidableAnd _ _ _ (Throughout.decidable (s.step provisioner m) moves)

variable {provisioner}

theorem run_induction {C : History π → Move → Prop} {P : History π → Prop} {s : History π} {moves : List Move}
    (hC : Throughout provisioner C s moves) (h₀ : P s)
    (hs : ∀ s m, C s m → P s → P (s.step provisioner m)) : P (s.run provisioner moves) := by
  induction moves generalizing s with
  | nil => exact h₀
  | cons m moves ih => exact ih hC.2 (hs s m hC.1 h₀)

end History

end Serving.Scaling
