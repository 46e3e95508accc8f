import Serving.Proofs.Balancer.Eligibility
import Serving.Proofs.Scaling.Evaluation
import Serving.Proofs.Scaling.History

/-! What a move can come to in a run in which everything is allowed: calls overlap, operators interfere, and the
provisioner answers as it likes. Every call that waits goes on with the instance it asked for in the same way,
and whatever is done to the pool is something that could have been done to the balancer alone. -/

namespace Serving.Scaling

/-- A call that goes on with the instance it gets. -/
def Call.Waits (c : Call) : Prop :=
  ∃ d reason before, c.resume = Fleet.takeIn d c.service reason before

namespace History

variable {π : Type} {provisioner : Provisioner π} {s s' : History π} {m : Move}

/-- What a move comes to, by what it finds and is answered. -/
inductive Turn (provisioner : Provisioner π) (s : History π) : Move → History π → Prop
  | nothing {m : Move} (idle : ∀ service, m ≠ .evaluateAndScale service) : Turn provisioner s m s
  | shows {service : String} {d : Decision} {fleet : Fleet}
      (decided : s.fleet.decide service s.now false = (d, fleet)) :
    Turn provisioner s (.evaluate service) { s with fleet }
  | rests {service : String} {fleet : Fleet} (decided : s.fleet.decide service s.now true = (.none, fleet)) :
    Turn provisioner s (.evaluateAndScale service) { s with fleet }
  | misses {service : String} {reason : Reason} {fleet : Fleet}
      (decided : s.fleet.decide service s.now true = (.down service reason, fleet))
      (victim : s.fleet.victim? service = none) :
    Turn provisioner s (.evaluateAndScale service) { s with fleet }
  | retires {service : String} {reason : Reason} {fleet : Fleet} {v : Instance}
      (decided : s.fleet.decide service s.now true = (.down service reason, fleet))
      (victim : s.fleet.victim? service = some v) :
    Turn provisioner s (.evaluateAndScale service)
      { s with
        fleet := fleet.retire service v reason
        pending := s.pending ++ [(s.now + s.fleet.config.gracePeriod, .retired v)] }
  | asks {service : String} {reason : Reason} {fleet : Fleet}
      (decided : s.fleet.decide service s.now true = (.up service reason, fleet)) :
    Turn provisioner s (.evaluateAndScale service)
      { s with
        fleet
        calls := s.calls ++ [⟨service, s.fleet.policy service, s.updates,
          Fleet.takeIn (.up service reason) service reason (s.fleet.activeCount service)⟩] }
  | fails {call : Nat} {c : Call} {e : Error} {ports : π} (found : s.calls[call]? = some c)
      (made : provisioner.provision c.service s.ports = (.error e, ports)) :
    Turn provisioner s (.answer call) { s with ports, calls := s.calls.eraseIdx call }
  | joins {call : Nat} {c : Call} {i : Instance} {ports : π} {reason : Reason} {before : Nat}
      (found : s.calls[call]? = some c) (made : provisioner.provision c.service s.ports = (.ok i, ports)) :
    Turn provisioner s (.answer call)
      { s with
        fleet := { s.fleet with balancer := s.fleet.balancer.register { i with health := .starting } }.remember
          ⟨c.service, .up, i.id, reason.text, before⟩
        ports
        calls := s.calls.eraseIdx call
        pending := s.pending ++ [(s.now + s.fleet.config.startupDelay, .started i.id)] }
  | starts {task : Nat} {due : Instant} {id : String} (found : s.pending[task]? = some (due, .started id)) :
    Turn provisioner s (.finish task)
      { s with fleet := s.fleet.finishStart id, pending := s.pending.eraseIdx task }
  | drops {task : Nat} {e : Instant × Later} (found : s.pending[task]? = some e) :
    Turn provisioner s (.finish task) { s with pending := s.pending.eraseIdx task }
  | removes {task : Nat} {due : Instant} {v : Instance} {ports : π}
      (found : s.pending[task]? = some (due, .retired v)) :
    Turn provisioner s (.finish task)
      { s with
        fleet := { s.fleet with balancer := (s.fleet.balancer.unregister v.id).2 }
        ports
        pending := s.pending.eraseIdx task }
  | governs {service : String} {p : Policy} (valid : p.problems = []) :
    Turn provisioner s (.updatePolicy service p)
      { s with
        fleet := { s.fleet with
          config := { s.fleet.config with policies := s.fleet.config.policies.insert service p } }
        updates := s.updates + 1 }
  | replaces {config : Config} (valid : config.policyProblems = []) :
    Turn provisioner s (.updateConfig config)
      { s with fleet := { s.fleet with config }, updates := s.updates + 1 }
  | probes (probe : Balancer.Probe) :
    Turn provisioner s (.probeAll probe)
      { s with fleet := { s.fleet with balancer := (s.fleet.balancer.probeAll probe s.now).2 } }
  | balances (o : Balancer.Operation) :
    Turn provisioner s (.balance o)
      { s with
        fleet := { s.fleet with balancer := s.fleet.balancer.perform s.now o }
        now := s.now + o.duration }
  | stops : Turn provisioner s .stop { s with fleet := s.fleet.stop }

lemma turn_evaluateAndScale (s : History π) (service : String) :
    Turn provisioner s (.evaluateAndScale service) (s.step provisioner (.evaluateAndScale service)) := by
  have hc := s.fleet.conducted service s.now
  rw [step]
  generalize s.fleet.evaluateAndScale service s.now = operation at hc ⊢
  cases hc with
  | rests decided =>
    simp only [follow, Option.toList_none, List.map_nil, List.append_nil]
    exact .rests decided
  | asks decided => exact .asks decided
  | retires decided victim => exact .retires decided victim
  | misses decided victim =>
    simp only [follow, Option.toList_none, List.map_nil, List.append_nil]
    exact .misses decided victim

lemma turn_answer (hw : ∀ c ∈ s.calls, c.Waits) (call : Nat) :
    Turn provisioner s (.answer call) (s.step provisioner (.answer call)) := by
  rw [step, answer]
  cases hc : s.calls[call]? with
  | none => exact .nothing (by simp)
  | some c =>
    obtain ⟨d, reason, before, hresume⟩ := hw c (List.mem_of_getElem? hc)
    rcases hmade : provisioner.provision c.service s.ports with ⟨made, ports⟩
    -- Every call goes on in the one way, so the answer alone tells what becomes of it.
    simp only [hmade, hresume]
    cases made with
    | error e =>
      simp only [Fleet.takeIn, follow, Option.toList_none, List.map_nil, List.append_nil]
      exact .fails hc hmade
    | ok i => exact .joins hc hmade

lemma turn_finish (s : History π) (task : Nat) :
    Turn provisioner s (.finish task) (s.step provisioner (.finish task)) := by
  rw [step, finish]
  cases ht : s.pending[task]? with
  | none => exact .nothing (by simp)
  | some e =>
    obtain ⟨due, later⟩ := e
    dsimp only
    split
    · cases later with
      | started id => exact .starts ht
      | retired v =>
        simp only [Fleet.finishRetirement]
        split
        · exact .drops ht
        · exact .removes ht
    · exact .nothing (by simp)

theorem turn (hw : ∀ c ∈ s.calls, c.Waits) (m : Move) : Turn provisioner s m (s.step provisioner m) := by
  cases m with
  | evaluate service => exact .shows rfl
  | evaluateAndScale service => exact turn_evaluateAndScale s service
  | answer call => exact turn_answer hw call
  | finish task => exact turn_finish s task
  | updatePolicy service p =>
    rw [step, Fleet.updatePolicy]
    split
    · rename_i hp
      exact .governs hp
    · exact .nothing (by simp)
  | updateConfig config =>
    rw [step, Fleet.updateConfig]
    split
    · rename_i hc
      exact .replaces hc
    · exact .nothing (by simp)
  | probeAll probe => exact .probes probe
  | balance o => exact .balances o
  | stop => exact .stops

namespace Turn

lemma waits (ht : Turn provisioner s m s') (hw : ∀ c ∈ s.calls, c.Waits) : ∀ c ∈ s'.calls, c.Waits := by
  cases ht with
  | asks =>
    intro c hc
    obtain hc | hc := List.mem_append.1 hc
    · exact hw c hc
    · obtain rfl := List.mem_singleton.1 hc
      exact ⟨_, _, _, rfl⟩
  | fails | joins => exact fun c hc => hw c (List.mem_of_mem_eraseIdx hc)
  | nothing | shows | rests | misses | retires | starts | drops | removes | governs | replaces | probes
  | balances | stops => exact hw

end Turn

/-- What holds in every run: each call waits for an instance, and the balancer is one that can be tracked. -/
structure Coherent (settings : Balancer.Config) (s : History π) : Prop where
  waits : ∀ c ∈ s.calls, c.Waits
  tracked : ∃ past : Balancer.History, past.Tracked settings ∧ past.balancer = s.fleet.balancer ∧ past.now = s.now

namespace Coherent

variable {settings : Balancer.Config}

lemma names (h : Coherent settings s) : s.fleet.balancer.instances.names.Nodup := by
  obtain ⟨past, hp, hb, _⟩ := h.tracked
  rw [← hb]
  exact hp.names

lemma keyed (h : Coherent settings s) {id : String} {i : Instance} (hi : s.fleet.balancer.instance? id = some i) :
    i.id = id := by
  obtain ⟨past, hp, hb, _⟩ := h.tracked
  rw [← hb] at hi
  exact hp.keyed id i hi

lemma find?_victim (h : Coherent settings s) {service : String} {v : Instance}
    (hv : s.fleet.victim? service = some v) : s.fleet.balancer.instance? v.id = some v ∧ v.service = service :=
  Fleet.find?_of_victim? h.names (fun _ _ => h.keyed) hv

lemma start (config : Config) {past : Balancer.History} (hp : past.Tracked settings) (ports : π) :
    Coherent settings (start config past ports) where
  waits _ hc := by cases hc
  tracked := ⟨past, hp, rfl, rfl⟩

lemma tracked_probeEach {past : Balancer.History} (hp : past.Tracked settings) (probe : Balancer.Probe)
    (ids : List String) : ∃ past' : Balancer.History, past'.Tracked settings ∧
      past'.balancer = (Balancer.probeEach probe past.now ids past.balancer).2 ∧ past'.now = past.now := by
  induction ids generalizing past with
  | nil => exact ⟨past, hp, rfl, rfl⟩
  | cons id rest ih =>
    rw [Balancer.probeEach]
    cases past.balancer.instance? id with
    | none => exact ih hp
    | some i =>
      dsimp only
      split
      · exact ih hp
      · exact ih (hp.step (.recordProbe id (probe i).healthy (probe i).cpu (probe i).memory))

lemma turned (h : Coherent settings s) (ht : Turn provisioner s m s') : Coherent settings s' := by
  refine ⟨ht.waits h.waits, ?_⟩
  obtain ⟨past, hp, hb, hn⟩ := h.tracked
  cases ht with
  | nothing | fails | drops | governs | replaces | stops => exact ⟨past, hp, hb, hn⟩
  | shows decided | rests decided | misses decided | asks decided =>
    obtain ⟨records, rfl⟩ := (Fleet.judged_of_decide decided).records
    exact ⟨past, hp, hb, hn⟩
  | @retires service reason fleet v decided =>
    obtain ⟨records, rfl⟩ := (Fleet.judged_of_decide decided).records
    exact ⟨past.step (.setHealth v.id .stopping), hp.step _, by rw [← hb]; rfl, hn⟩
  | @joins call c i =>
    exact ⟨past.step (.register { i with health := .starting }), hp.step _, by rw [← hb]; rfl, hn⟩
  | @starts task due id =>
    rw [Fleet.finishStart]
    split
    · exact ⟨past, hp, hb, hn⟩
    · split
      · exact ⟨past.step (.setHealth id .healthy), hp.step _, by rw [← hb]; rfl, hn⟩
      · exact ⟨past, hp, hb, hn⟩
  | @removes task due v => exact ⟨past.step (.unregister v.id), hp.step _, by rw [← hb]; rfl, hn⟩
  | probes probe =>
    rw [← hb, ← hn]
    exact tracked_probeEach hp probe _
  | balances o => exact ⟨past.step o, hp.step o, by rw [← hb, ← hn]; rfl, by rw [← hn]; rfl⟩

lemma step (h : Coherent settings s) (m : Move) : Coherent settings (s.step provisioner m) :=
  h.turned (turn h.waits m)

theorem run (h : Coherent settings s) (moves : List Move) : Coherent settings (s.run provisioner moves) :=
  List.foldlRecOn moves _ h fun _ h m _ => h.step m

end Coherent

/-- The state after some run, whatever moves it was made of, over a balancer that had a run of its own before. -/
def Reachable (provisioner : Provisioner π) (s : History π) : Prop :=
  ∃ config settings dice past ports moves,
    s = (start config (Balancer.History.run settings dice past) ports).run provisioner moves

lemma Reachable.coherent (h : Reachable provisioner s) : ∃ settings, Coherent settings s := by
  obtain ⟨config, settings, dice, past, ports, moves, rfl⟩ := h
  exact ⟨settings, (Coherent.start config (.run settings dice past) ports).run moves⟩

end History

end Serving.Scaling
