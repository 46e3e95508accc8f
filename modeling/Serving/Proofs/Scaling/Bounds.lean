import Mathlib.Data.List.Perm.Basic
import Serving.Proofs.Scaling.Roster
import Serving.Proofs.Scaling.Turns

/-! The size of a pool. As long as evaluations that act do not overlap and nobody but the scaler brings instances
in or takes them out, the instances of a service that do not stop become more only up to the greatest number
that its policy allows, and fewer only down to the least. -/

namespace Serving.Scaling

lemma Config.policyProblems_eq_nil_iff {config : Config} :
    config.policyProblems = [] ↔ ∀ e ∈ config.policies.toList, e.2.problems = [] := by
  simp [policyProblems, List.flatMap_eq_nil_iff]

/-- An answer that gives an instance gives one of the service asked for, under an id that nobody in the pool has. -/
def Delivers (service : String) (b : Balancer) : Except Error Instance → Prop
  | .error _ => True
  | .ok i => i.service = service ∧ i.id ∉ b.instances.names

instance (service : String) (b : Balancer) : DecidablePred (Delivers service b)
  | .error _ => .isTrue trivial
  | .ok i => inferInstanceAs (Decidable (i.service = service ∧ i.id ∉ b.instances.names))

/-- The id of an instance that waits to be removed. -/
def Later.leaver? : Later → Option String
  | .started _ => none
  | .retired v => some v.id

namespace History

variable {π : Type} {provisioner : Provisioner π} {s s' : History π} {m : Move}

/-- No evaluation begins while another one waits, the provisioner delivers what it is asked for, and no operator
interferes with the pool. -/
def Orderly (provisioner : Provisioner π) (s : History π) : Move → Prop
  | .evaluateAndScale _ => s.calls = []
  | .answer call =>
    ∀ c ∈ s.calls[call]?, Delivers c.service s.fleet.balancer (provisioner.provision c.service s.ports).1
  | .balance o => o.IsOrdinary
  | _ => True

instance (s : History π) : DecidablePred (Orderly provisioner s)
  | .evaluateAndScale _ => inferInstanceAs (Decidable (s.calls = []))
  | .answer call => inferInstanceAs (Decidable (∀ c ∈ s.calls[call]?, _))
  | .balance o => inferInstanceAs (Decidable o.IsOrdinary)
  | .evaluate _ | .finish _ | .updatePolicy _ _ | .updateConfig _ | .probeAll _ | .stop => .isTrue trivial

def Refused (s : History π) : Move → Prop
  | .updatePolicy service p => ∃ e, (s.fleet.updatePolicy service p).1 = .error e
  | .updateConfig config => ∃ e, (s.fleet.updateConfig config).1 = .error e
  | _ => False

/-- Whether and how a move changes the numbers of instances that do not stop. -/
inductive Resized (s : History π) : Move → History π → Prop
  | same {m : Move} {s' : History π}
      (count : ∀ service, s'.fleet.activeCount service = s.fleet.activeCount service)
      (history : s'.fleet.history = s.fleet.history) : Resized s m s'
  | up {call : Nat} {c : Call} {p : Policy} {s' : History π}
      (found : s.calls[call]? = some c)
      (policy : c.policy = some p)
      (still : c.updates = s.updates → s.fleet.policy c.service = some p)
      (logged : ∃ e, s'.fleet.history.getLast? = some e ∧ e.service = c.service ∧ e.direction = .up)
      (count : s'.fleet.activeCount c.service = s.fleet.activeCount c.service + 1)
      (bound : s'.fleet.activeCount c.service ≤ p.maxInstances)
      (others : ∀ other, other ≠ c.service → s'.fleet.activeCount other = s.fleet.activeCount other) :
      Resized s (.answer call) s'
  | down {service : String} {p : Policy} {s' : History π}
      (policy : s.fleet.policy service = some p)
      (logged : ∃ e, s'.fleet.history.getLast? = some e ∧ e.service = service ∧ e.direction = .down)
      (count : s.fleet.activeCount service = s'.fleet.activeCount service + 1)
      (bound : p.minInstances ≤ s'.fleet.activeCount service)
      (others : ∀ other, other ≠ service → s'.fleet.activeCount other = s.fleet.activeCount other) :
      Resized s (.evaluateAndScale service) s'

def leaving (s : History π) : List String := s.pending.filterMap (·.2.leaver?)

/-- A call for an instance that there is room for under the policy it was decided under. -/
structure Awaits (s : History π) (c : Call) (p : Policy) : Prop where
  policy : c.policy = some p
  earlier : c.updates ≤ s.updates
  still : c.updates = s.updates → s.fleet.policy c.service = some p
  room : s.fleet.activeCount c.service < p.maxInstances
  resume : ∃ d reason before, c.resume = Fleet.takeIn d c.service reason before

/-- What holds between the moves of an orderly run. -/
structure Sound (s : History π) : Prop where
  valid : ∀ e ∈ s.fleet.config.policies.toList, e.2.problems = []
  roster : Consistent s.fleet.balancer.roster s.leaving
  alone : s.calls.length ≤ 1
  waiting : ∀ c ∈ s.calls, ∃ p, s.Awaits c p

/-- Nothing that bears on the size of the pool has changed, except that something that was awaited is over. -/
structure Quiet (s s' : History π) : Prop where
  roster : s'.fleet.balancer.roster = s.fleet.balancer.roster
  history : s'.fleet.history = s.fleet.history
  config : s'.fleet.config = s.fleet.config
  updates : s'.updates = s.updates
  leaving : s'.leaving.Sublist s.leaving
  calls : s'.calls.Sublist s.calls

inductive Effect (s : History π) : Move → History π → Prop
  | quiet {m : Move} {s' : History π} (h : Quiet s s') : Effect s m s'
  | replaces {m : Move} (config : Config) (valid : ∀ e ∈ config.policies.toList, e.2.problems = []) :
      Effect s m { s with fleet := { s.fleet with config }, updates := s.updates + 1 }
  | asks {service : String} {p : Policy} {d : Decision} {reason : Reason} {records : Table Record} {before : Nat}
      (alone : s.calls = []) (policy : s.fleet.policy service = some p)
      (room : s.fleet.activeCount service < p.minInstances ∨ s.fleet.activeCount service < p.maxInstances) :
      Effect s (.evaluateAndScale service)
        { s with
          fleet := { s.fleet with records }
          calls := [⟨service, some p, s.updates, Fleet.takeIn d service reason before⟩] }
  | joins {call : Nat} {c : Call} {i : Instance} {e : Event} {ports : π}
      (found : s.calls[call]? = some c) (service : i.service = c.service) (health : i.health = .starting)
      (fresh : i.id ∉ s.fleet.balancer.roster.names) (logged : e.service = c.service ∧ e.direction = .up) :
      Effect s (.answer call)
        { s with
          fleet := { s.fleet with balancer := s.fleet.balancer.register i }.remember e
          ports
          calls := s.calls.eraseIdx call
          pending := s.pending ++ [(s.now + s.fleet.config.startupDelay, .started i.id)] }
  | retires {service : String} {p : Policy} {reason : Reason} {records : Table Record} {v : Instance}
      (alone : s.calls = []) (policy : s.fleet.policy service = some p)
      (victim : s.fleet.victim? service = some v) (spare : p.minInstances < s.fleet.activeCount service) :
      Effect s (.evaluateAndScale service)
        { s with
          fleet := { s.fleet with records }.retire service v reason
          pending := s.pending ++ [(s.now + s.fleet.config.gracePeriod, .retired v)] }
  | removes {task : Nat} {due : Instant} {v : Instance} {ports : π}
      (found : s.pending[task]? = some (due, .retired v)) :
      Effect s (.finish task)
        { s with
          fleet := { s.fleet with balancer := (s.fleet.balancer.unregister v.id).2 }
          ports
          pending := s.pending.eraseIdx task }

lemma leaving_of_getElem? {task : Nat} {e : Instant × Later} (h : s.pending[task]? = some e) :
    s.leaving.Perm (e.2.leaver?.toList ++ (s.pending.eraseIdx task).filterMap (·.2.leaver?)) := by
  obtain ⟨hlt, rfl⟩ := List.getElem?_eq_some_iff.1 h
  refine ((List.getElem_cons_eraseIdx_perm hlt).symm.filterMap _).trans ?_
  rw [List.filterMap_cons]
  cases s.pending[task].2.leaver? <;> exact .refl _

section Roster

variable {service : String} {v : Instance}

lemma victim_on_roster (h : Consistent s.fleet.balancer.roster s.leaving) (hv : s.fleet.victim? service = some v) :
    s.fleet.balancer.roster.find? v.id = some ⟨v.id, service, false⟩ := by
  have hn : s.fleet.balancer.instances.names.Nodup := by
    rw [← Balancer.names_roster]
    exact h.names
  have hk (id : String) (i : Instance) (hi : s.fleet.balancer.instances.find? id = some i) : i.id = id := by
    refine h.keyed id i.member ?_
    rw [Balancer.find?_roster, hi, Option.map_some]
  obtain ⟨hfind, hservice⟩ := Fleet.find?_of_victim? hn hk hv
  obtain ⟨_, hhealthy⟩ := Fleet.mem_of_victim? hv
  rw [Instance.isHealthy, beq_iff_eq] at hhealthy
  rw [Balancer.find?_roster, hfind, Option.map_some, Instance.member, hservice, hhealthy]
  rfl

lemma consistent_start {config : Config} {past : Balancer.History} {settings : Balancer.Config}
    (hp : past.Tracked settings) (ports : π) :
    Consistent (start config past ports).fleet.balancer.roster (start config past ports).leaving where
  names := by
    rw [Balancer.names_roster]
    exact hp.names
  keyed id m hm := by
    rw [Balancer.find?_roster] at hm
    obtain ⟨i, hi, rfl⟩ := Option.map_eq_some_iff.1 hm
    exact hp.keyed id i hi
  present _ hid := by cases hid
  once := List.nodup_nil

lemma consistent_joins (h : Consistent s.fleet.balancer.roster s.leaving) {i : Instance}
    (hf : i.id ∉ s.fleet.balancer.roster.names) (due : Instant) :
    Consistent (s.fleet.balancer.register i).roster
      ((s.pending ++ [(due, Later.started i.id)]).filterMap (·.2.leaver?)) := by
  have hleaving : (s.pending ++ [(due, Later.started i.id)]).filterMap (·.2.leaver?) = s.leaving := by
    rw [List.filterMap_append]
    exact List.append_nil _
  rw [Balancer.roster_register, hleaving]
  exact h.insert (m := i.member) hf

lemma consistent_retires (h : Consistent s.fleet.balancer.roster s.leaving) (hv : s.fleet.victim? service = some v)
    (due : Instant) :
    Consistent (s.fleet.balancer.setHealth v.id .stopping).2.roster
      ((s.pending ++ [(due, Later.retired v)]).filterMap (·.2.leaver?)) := by
  have hleaving : (s.pending ++ [(due, Later.retired v)]).filterMap (·.2.leaver?) = s.leaving ++ [v.id] :=
    List.filterMap_append
  rw [Balancer.roster_stopping, hleaving]
  exact h.stop (m := ⟨v.id, service, false⟩) (victim_on_roster h hv) rfl

lemma consistent_removes (h : Consistent s.fleet.balancer.roster s.leaving) {task : Nat} {due : Instant}
    (hv : s.pending[task]? = some (due, .retired v)) :
    Consistent (s.fleet.balancer.unregister v.id).2.roster
      ((s.pending.eraseIdx task).filterMap (·.2.leaver?)) := by
  rw [Balancer.roster_unregister]
  exact h.erase (leaving_of_getElem? hv)

lemma activeCount_joins {i : Instance} (hf : i.id ∉ s.fleet.balancer.roster.names) (hs : i.service = service)
    (hh : i.health = .starting) (e : Event) (other : String) :
    ({ s.fleet with balancer := s.fleet.balancer.register i }.remember e).activeCount other =
      s.fleet.activeCount other + if service = other then 1 else 0 := by
  have hcount := Fleet.activeCount_of_insert (s := s.fleet) (m := i.member)
    (t := { s.fleet with balancer := s.fleet.balancer.register i }.remember e) (Balancer.roster_register ..) hf other
  simpa [Instance.member, Member.counts, hs, hh] using hcount

lemma activeCount_retires (h : Consistent s.fleet.balancer.roster s.leaving)
    (hv : s.fleet.victim? service = some v) (records : Table Record) (reason : Reason) (other : String) :
    s.fleet.activeCount other = ({ s.fleet with records }.retire service v reason).activeCount other +
      if service = other then 1 else 0 := by
  have hcount := Fleet.activeCount_of_stopping (s := s.fleet) (t := { s.fleet with records }.retire service v reason)
    (Balancer.roster_stopping ..) h.names (victim_on_roster h hv) other
  simpa [Member.counts] using hcount

lemma activeCount_removes (h : Consistent s.fleet.balancer.roster s.leaving) {task : Nat} {due : Instant}
    (hv : s.pending[task]? = some (due, .retired v)) (other : String) :
    { s.fleet with balancer := (s.fleet.balancer.unregister v.id).2 }.activeCount other =
      s.fleet.activeCount other := by
  obtain ⟨m, hm, hs⟩ := h.present v.id ((leaving_of_getElem? hv).mem_iff.2 List.mem_cons_self)
  have hcount := Fleet.activeCount_of_erase (s := s.fleet)
    (t := { s.fleet with balancer := (s.fleet.balancer.unregister v.id).2 })
    (Balancer.roster_unregister ..) h.names hm other
  simpa [Member.counts, hs] using hcount.symm

end Roster

namespace Quiet

lemma refl (s : History π) : Quiet s s := ⟨rfl, rfl, rfl, rfl, .refl _, .refl _⟩

lemma activeCount (h : Quiet s s') (service : String) :
    s'.fleet.activeCount service = s.fleet.activeCount service := Fleet.activeCount_congr h.roster service

lemma policy (h : Quiet s s') (service : String) : s'.fleet.policy service = s.fleet.policy service := by
  rw [Fleet.policy, h.config, Fleet.policy]

end Quiet

namespace Sound

lemma policy_valid (h : Sound s) {service : String} {p : Policy} (hp : s.fleet.policy service = some p) :
    p.problems = [] := h.valid _ (Table.mem_of_find? hp)

lemma eraseIdx_calls (h : Sound s) {call : Nat} {c : Call} (hc : s.calls[call]? = some c) :
    s.calls.eraseIdx call = [] := by
  have halone := h.alone
  obtain ⟨hlt, _⟩ := List.getElem?_eq_some_iff.1 hc
  apply List.eq_nil_of_length_eq_zero
  rw [List.length_eraseIdx_of_lt hlt]
  omega

lemma start {config : Config} (hc : config.policyProblems = []) {past : Balancer.History}
    {settings : Balancer.Config} (hp : past.Tracked settings) (ports : π) : Sound (start config past ports) where
  valid := Config.policyProblems_eq_nil_iff.1 hc
  roster := consistent_start hp ports
  alone := Nat.zero_le _
  waiting _ hc := by cases hc

lemma quiet (h : Sound s) (hq : Quiet s s') : Sound s' where
  valid := by
    rw [hq.config]
    exact h.valid
  roster := by
    rw [hq.roster]
    exact h.roster.sublist hq.leaving
  alone := Nat.le_trans hq.calls.length_le h.alone
  waiting c hc := by
    obtain ⟨p, hp⟩ := h.waiting c (hq.calls.subset hc)
    refine ⟨p, hp.policy, ?_, ?_, ?_, hp.resume⟩
    · rw [hq.updates]
      exact hp.earlier
    · rw [hq.updates, hq.policy]
      exact hp.still
    · rw [hq.activeCount]
      exact hp.room

lemma replaces (h : Sound s) {config : Config} (hv : ∀ e ∈ config.policies.toList, e.2.problems = []) :
    Sound { s with fleet := { s.fleet with config }, updates := s.updates + 1 } where
  valid := hv
  roster := h.roster
  alone := h.alone
  waiting c hc := by
    obtain ⟨p, hp⟩ := h.waiting c hc
    refine ⟨p, hp.policy, Nat.le_succ_of_le hp.earlier, fun he => ?_, hp.room, hp.resume⟩
    exact absurd (he ▸ hp.earlier) (Nat.not_succ_le_self _)

lemma asks (h : Sound s) {service : String} {p : Policy} {d : Decision} {reason : Reason} {records : Table Record}
    {before : Nat} (hp : s.fleet.policy service = some p)
    (hroom : s.fleet.activeCount service < p.minInstances ∨ s.fleet.activeCount service < p.maxInstances) :
    Sound { s with
      fleet := { s.fleet with records }
      calls := [⟨service, some p, s.updates, Fleet.takeIn d service reason before⟩] } where
  valid := h.valid
  roster := h.roster
  alone := Nat.le_refl _
  waiting c hc := by
    obtain rfl := List.mem_singleton.1 hc
    -- Below the least number there is room as well, for the policy is valid.
    have hmax := Policy.min_le_max (h.policy_valid hp)
    have hlt : s.fleet.activeCount service < p.maxInstances := by omega
    exact ⟨p, rfl, Nat.le_refl _, fun _ => hp, hlt, d, reason, before, rfl⟩

lemma joins (h : Sound s) {call : Nat} {c : Call} {i : Instance} {e : Event} {ports : π}
    (hc : s.calls[call]? = some c) (hf : i.id ∉ s.fleet.balancer.roster.names) :
    Sound { s with
      fleet := { s.fleet with balancer := s.fleet.balancer.register i }.remember e
      ports
      calls := s.calls.eraseIdx call
      pending := s.pending ++ [(s.now + s.fleet.config.startupDelay, .started i.id)] } := by
  constructor
  case valid => exact h.valid
  case roster => exact consistent_joins h.roster hf _
  -- The call that has its answer was the only one.
  case alone =>
    rw [h.eraseIdx_calls hc]
    exact Nat.zero_le _
  case waiting =>
    rw [h.eraseIdx_calls hc]
    rintro _ ⟨⟩

lemma retires (h : Sound s) {service : String} {reason : Reason} {records : Table Record} {v : Instance}
    (ha : s.calls = []) (hv : s.fleet.victim? service = some v) :
    Sound { s with
      fleet := { s.fleet with records }.retire service v reason
      pending := s.pending ++ [(s.now + s.fleet.config.gracePeriod, .retired v)] } := by
  constructor
  case valid => exact h.valid
  case roster => exact consistent_retires h.roster hv _
  case alone =>
    rw [ha]
    exact Nat.zero_le _
  case waiting =>
    rw [ha]
    rintro _ ⟨⟩

lemma removes (h : Sound s) {task : Nat} {due : Instant} {v : Instance} {ports : π}
    (hv : s.pending[task]? = some (due, .retired v)) :
    Sound { s with
      fleet := { s.fleet with balancer := (s.fleet.balancer.unregister v.id).2 }
      ports
      pending := s.pending.eraseIdx task } where
  valid := h.valid
  roster := consistent_removes h.roster hv
  alone := h.alone
  waiting c hc := by
    obtain ⟨p, hp⟩ := h.waiting c hc
    refine ⟨p, hp.policy, hp.earlier, hp.still, ?_, hp.resume⟩
    rw [activeCount_removes h.roster hv]
    exact hp.room

end Sound

namespace Effect

theorem sound (he : Effect s m s') (h : Sound s) : Sound s' := by
  cases he with
  | quiet hq => exact h.quiet hq
  | replaces config valid => exact h.replaces valid
  | asks _ policy room => exact h.asks policy room
  | joins found _ _ fresh _ => exact h.joins found fresh
  | retires alone _ victim _ => exact h.retires alone victim
  | removes found => exact h.removes found

theorem resized (he : Effect s m s') (h : Sound s) : s.Resized m s' := by
  cases he with
  | quiet hq => exact .same hq.activeCount hq.history
  | replaces config valid => exact .same (fun _ => rfl) rfl
  | asks _ policy room => exact .same (fun _ => rfl) rfl
  | @joins call c i e ports found service health fresh logged =>
    obtain ⟨p, hp⟩ := h.waiting c (List.mem_of_getElem? found)
    have hcount := activeCount_joins fresh service health e
    have hown := hcount c.service
    rw [if_pos rfl] at hown
    refine .up found hp.policy hp.still ⟨e, Fleet.getLast?_remember .., logged⟩ hown (hown ▸ hp.room) ?_
    intro other ho
    exact (hcount other).trans (by rw [if_neg ho.symm, Nat.add_zero])
  | @retires service p reason records v alone policy victim spare =>
    have hcount := activeCount_retires h.roster victim records reason
    have hown := hcount service
    rw [if_pos rfl] at hown
    have hspare := Nat.le_of_lt_succ (Nat.lt_of_lt_of_eq spare hown)
    refine .down policy ⟨_, Fleet.getLast?_remember .., rfl, rfl⟩ hown hspare ?_
    intro other ho
    exact ((hcount other).trans (by rw [if_neg ho.symm, Nat.add_zero])).symm
  | removes found => exact .same (activeCount_removes h.roster found) rfl

end Effect

theorem Turn.effect (ht : Turn provisioner s m s') (h : Sound s) (ho : s.Orderly provisioner m) : Effect s m s' := by
  have hfewer (task : Nat) : ((s.pending.eraseIdx task).filterMap (·.2.leaver?)).Sublist s.leaving :=
    (List.eraseIdx_sublist ..).filterMap _
  cases ht with
  | nothing => exact .quiet (.refl s)
  | shows decided | rests decided | misses decided =>
    obtain ⟨records, rfl⟩ := (Fleet.judged_of_decide decided).records
    exact .quiet ⟨rfl, rfl, rfl, rfl, .refl _, .refl _⟩
  | retires decided victim =>
    have hj := Fleet.judged_of_decide decided
    obtain ⟨records, rfl⟩ := hj.records
    obtain ⟨p, hp⟩ := hj.exists_policy nofun
    cases hj.grants hp with
    | shrink _ spare _ => exact .retires ho hp victim spare
  | asks decided =>
    have hj := Fleet.judged_of_decide decided
    obtain ⟨records, rfl⟩ := hj.records
    obtain ⟨p, hp⟩ := hj.exists_policy nofun
    have ha : s.calls = [] := ho
    simp only [ha, hp, List.nil_append]
    cases hj.grants hp with
    | restore _ short => exact .asks ha hp (.inl short)
    | grow _ _ room _ => exact .asks ha hp (.inr room)
  | fails found made => exact .quiet ⟨rfl, rfl, rfl, rfl, .refl _, List.eraseIdx_sublist ..⟩
  | @joins call c i ports reason before found made =>
    have hdelivers : Delivers c.service s.fleet.balancer (provisioner.provision c.service s.ports).1 := ho c found
    rw [made] at hdelivers
    obtain ⟨hservice, hfresh⟩ := hdelivers
    rw [← Balancer.names_roster] at hfresh
    exact .joins (i := { i with health := .starting }) found hservice rfl hfresh ⟨rfl, rfl⟩
  | @starts task due id found =>
    obtain ⟨b, hb, hroster⟩ := Fleet.finishStart_eq h.roster.names id
    rw [hb]
    exact .quiet ⟨hroster, rfl, rfl, rfl, hfewer task, .refl _⟩
  | @drops task e found => exact .quiet ⟨rfl, rfl, rfl, rfl, hfewer task, .refl _⟩
  | removes found => exact .removes found
  | @governs service p valid =>
    refine .replaces { s.fleet.config with policies := s.fleet.config.policies.insert service p } fun e he => ?_
    rcases Table.mem_insert he with rfl | he
    · exact valid
    · exact h.valid e he
  | replaces valid => exact .replaces _ (Config.policyProblems_eq_nil_iff.1 valid)
  | probes probe =>
    exact .quiet ⟨Balancer.roster_probeAll h.roster.names probe s.now, rfl, rfl, rfl, .refl _, .refl _⟩
  | balances o =>
    exact .quiet ⟨Balancer.roster_perform h.roster.names s.now ho, rfl, rfl, rfl, .refl _, .refl _⟩
  | stops => exact .quiet ⟨rfl, rfl, rfl, rfl, .refl _, .refl _⟩

lemma Sound.waits (h : Sound s) : ∀ c ∈ s.calls, c.Waits := by
  intro c hc
  obtain ⟨p, hp⟩ := h.waiting c hc
  exact hp.resume

theorem effect_step (h : Sound s) (ho : s.Orderly provisioner m) : Effect s m (s.step provisioner m) :=
  (turn h.waits m).effect h ho

lemma fleet_update (s : History π) (r : Except Error Unit × Fleet) : (s.update r).fleet = r.2 := by
  obtain ⟨answer, fleet⟩ := r
  cases answer <;> rfl

lemma Refused.fleet_step (h : s.Refused m) : (s.step provisioner m).fleet = s.fleet := by
  cases m with
  | updatePolicy service p =>
    obtain ⟨e, he⟩ := h
    rw [step, fleet_update, Fleet.updatePolicy_of_error he]
  | updateConfig config =>
    obtain ⟨e, he⟩ := h
    rw [step, fleet_update, Fleet.updateConfig_of_error he]
  | evaluate | evaluateAndScale | answer | finish | probeAll | balance | stop => exact h.elim

def chatConfig : Config where
  startupDelay := 10
  gracePeriod := 30
  policies := .ofList [("chat", { minInstances := 1, maxInstances := 2, upCooldown := 5, window := 5 })]

/-- A pool grows to its least number, grows on under load, and then the load is gone. -/
def busyThenCalm : List Move :=
  [.evaluateAndScale "chat", .updatePolicy "chat" (usualPolicy 2 1), .answer 0, .balance (.timePasses 10), .finish 0,
    .balance (.recordProbe "chat-00000000" true 95.0 95.0), .evaluateAndScale "chat", .answer 0,
    .balance (.timePasses 10), .finish 0, .probeAll .healthy]

end History

end Serving.Scaling
