import Serving.Proofs.Scaling.Bounds

/-! What is put off and what it finds when it is due. A step that was put off knows no more than an id, and what
is registered under that id may have changed in the meantime. The end of a start looks at the status it finds. The end
of a retirement does not: it takes out whatever is there, which is an instance that stops as long as nobody
has revived or replaced the one that was retired. -/

namespace Serving

lemma Health.afterProbe_eq_iff {status : Health} (h : status = .starting ∨ status = .stopping) (before : Health)
    (healthy : Bool) : before.afterProbe healthy = status ↔ before = status := by
  rcases h with rfl | rfl <;> cases before <;> cases healthy <;> decide

namespace Balancer

/-- The status of an instance, if it is there. -/
def health? (b : Balancer) (id : String) : Option Health := (b.instance? id).map (·.health)

lemma health?_register (b : Balancer) (i : Instance) (id : String) :
    (b.register i).health? id = if i.id = id then some i.health else b.health? id := by
  rw [health?, instance?, register, Table.find?_insert]
  split
  · rw [if_pos (Eq.symm ‹_›), Option.map_some]
  · rw [if_neg (Ne.symm ‹_›)]
    rfl

lemma health?_unregister (b : Balancer) (gone id : String) :
    (b.unregister gone).2.health? id = if gone = id then none else b.health? id := by
  rw [health?, instance?, unregister, Table.find?_erase]
  split
  · rw [if_pos (Eq.symm ‹_›), Option.map_none]
  · rw [if_neg (Ne.symm ‹_›)]
    rfl

lemma health?_setHealth (b : Balancer) (target : String) (status : Health) (id : String) :
    (b.setHealth target status).2.health? id =
      if target = id then (b.health? id).map fun _ => status else b.health? id := by
  simp only [health?, instance?, setHealth, modify, Table.find?_modify]
  by_cases h : target = id
  · simp [h, Function.comp_def]
  · simp [h, Ne.symm h]

/-- What an operation makes of the status of an instance. -/
def Operation.healthAfter (id : String) (status : Option Health) : Operation → Option Health
  | .register i => if i.id = id then some i.health else status
  | .unregister gone => if gone = id then none else status
  | .recordProbe probed healthy _ _ => if probed = id then status.map (·.afterProbe healthy) else status
  | .setHealth target given => if target = id then status.map fun _ => given else status
  | _ => status

namespace History.Tracked

variable {config : Config} {s : History}

lemma health?_eq (h : Tracked config s) (id : String) :
    s.balancer.health? id = (s.past.standing id).map (·.2) := by
  rw [← h.standing id, Option.map_map]
  rfl

lemma health?_perform (h : Tracked config s) (o : Operation) (id : String) :
    (s.balancer.perform s.now o).health? id = o.healthAfter id (s.balancer.health? id) := by
  have hstep := (h.step o).health?_eq id
  rw [h.health?_eq]
  refine hstep.trans ?_
  cases o with
  | register | unregister | recordProbe | setHealth =>
    simp only [History.step, Past.standing, Operation.healthAfter]
    split <;> simp [Function.comp_def]
  | select | startRequest | endRequest | updateResources | setAlgorithm | timePasses => rfl

end History.Tracked

/-- What probes make of a status: those that start or stop go on doing so, and nobody comes or goes. -/
structure Probed (before after : Option Health) : Prop where
  absent : after = none ↔ before = none
  fixed : ∀ status : Health, status = .starting ∨ status = .stopping →
    (after = some status ↔ before = some status)

namespace Probed

variable {before between after : Option Health}

lemma of_eq (h : after = before) : Probed before after := ⟨by rw [h], fun _ _ => by rw [h]⟩

lemma trans (h : Probed before between) (h' : Probed between after) : Probed before after where
  absent := h'.absent.trans h.absent
  fixed status hs := (h'.fixed status hs).trans (h.fixed status hs)

lemma afterProbe (before : Option Health) (healthy : Bool) : Probed before (before.map (·.afterProbe healthy)) where
  absent := Option.map_eq_none_iff
  fixed status hs := by
    cases before with
    | none => simp
    | some before => simp [Health.afterProbe_eq_iff hs]

end Probed

end Balancer

namespace Scaling

open Balancer (Probed)

namespace Later

/-- The id that a step was put off for. -/
def id : Later → String
  | .started id => id
  | .retired v => v.id

/-- What is left of a status when a step is due that was put off. -/
def healthAfter : Later → Option Health → Option Health
  | .started _, status => status.map fun h => if h = .starting then .healthy else h
  | .retired _, _ => none

/-- What a step that was put off does to the pool. -/
inductive Ends : Later → Balancer → Balancer → Prop
  | nothing {later : Later} {b : Balancer} : Ends later b b
  | starts {id : String} {i : Instance} {b : Balancer} (found : b.instance? id = some i)
      (starting : i.health = .starting) : Ends (.started id) b (b.setHealth id .healthy).2
  | removes {v : Instance} {b : Balancer} : Ends (.retired v) b (b.unregister v.id).2

end Later

namespace History

variable {π : Type} {provisioner : Provisioner π} {settings : Balancer.Config} {s s' : History π} {m : Move}
  {id : String}

/-- What was put off for an id. -/
def tasks (s : History π) (id : String) : List (Instant × Later) := s.pending.filter (·.2.id == id)

/-- What a move comes to for one id. -/
inductive Fate (provisioner : Provisioner π) (id : String) (s : History π) : Move → History π → Prop
  | keeps {m : Move} {s' : History π} (health : s'.fleet.balancer.health? id = s.fleet.balancer.health? id)
      (tasks : s'.tasks id = s.tasks id) : Fate provisioner id s m s'
  | performs {o : Balancer.Operation} {s' : History π}
      (health : s'.fleet.balancer.health? id = o.healthAfter id (s.fleet.balancer.health? id))
      (tasks : s'.tasks id = s.tasks id) : Fate provisioner id s (.balance o) s'
  | probes {probe : Balancer.Probe} {s' : History π}
      (health : Probed (s.fleet.balancer.health? id) (s'.fleet.balancer.health? id))
      (tasks : s'.tasks id = s.tasks id) : Fate provisioner id s (.probeAll probe) s'
  | joins {call : Nat} {c : Call} {i : Instance} {s' : History π} (found : s.calls[call]? = some c)
      (made : (provisioner.provision c.service s.ports).1 = .ok i) (name : i.id = id)
      (health : s'.fleet.balancer.health? id = some .starting)
      (tasks : s'.tasks id = s.tasks id ++ [(s.now + s.fleet.config.startupDelay, .started id)]) :
      Fate provisioner id s (.answer call) s'
  | retires {service : String} {v : Instance} {s' : History π} (victim : s.fleet.victim? service = some v)
      (name : v.id = id) (before : s.fleet.balancer.health? id = some .healthy)
      (health : s'.fleet.balancer.health? id = some .stopping)
      (tasks : s'.tasks id = s.tasks id ++ [(s.now + s.fleet.config.gracePeriod, .retired v)]) :
      Fate provisioner id s (.evaluateAndScale service) s'
  | finishes {task : Nat} {due : Instant} {later : Later} {s' : History π}
      (found : s.pending[task]? = some (due, later)) (ripe : due ≤ s.now) (name : later.id = id)
      (health : s'.fleet.balancer.health? id =
        if s.fleet.isStopped then s.fleet.balancer.health? id else later.healthAfter (s.fleet.balancer.health? id))
      (tasks : (s.tasks id).Perm ((due, later) :: s'.tasks id)) : Fate provisioner id s (.finish task) s'

section Finish

variable {task : Nat} {due : Instant} {later : Later}

lemma finishStart_eq_ite (f : Fleet) (id : String) :
    f.finishStart id =
      if f.isStopped = false ∧ f.balancer.health? id = some .starting then
        { f with balancer := (f.balancer.setHealth id .healthy).2 }
      else f := by
  have hany : (f.balancer.instance? id).any (·.health == .starting) = true ↔
      f.balancer.health? id = some .starting := by
    rw [Balancer.health?]
    cases f.balancer.instance? id <;> simp
  rw [Fleet.finishStart]
  cases f.isStopped <;> simp [hany]

lemma health?_finishStart (f : Fleet) (target id : String) :
    (f.finishStart target).balancer.health? id =
      if f.isStopped ∨ target ≠ id then f.balancer.health? id
      else (Later.started target).healthAfter (f.balancer.health? id) := by
  rw [finishStart_eq_ite, Later.healthAfter]
  by_cases ht : target = id
  · subst ht
    cases hf : f.isStopped with
    | true => simp
    | false =>
      cases hh : f.balancer.health? target with
      | none => simp [hh]
      | some h => by_cases hs : h = .starting <;> simp [hh, hs, Balancer.health?_setHealth]
  · split <;> simp [ht, Balancer.health?_setHealth]

lemma finish_eq (provisioner : Provisioner π) (found : s.pending[task]? = some (due, later)) (ripe : due ≤ s.now) :
    ∃ fleet ports, s.step provisioner (.finish task) =
        { s with fleet, ports, pending := s.pending.eraseIdx task } ∧
      later.Ends s.fleet.balancer fleet.balancer ∧
      ∀ id, fleet.balancer.health? id =
        if s.fleet.isStopped ∨ later.id ≠ id then s.fleet.balancer.health? id
        else later.healthAfter (s.fleet.balancer.health? id) := by
  simp only [step, finish, found, if_pos ripe]
  cases later with
  | started target =>
    refine ⟨_, _, rfl, ?_, health?_finishStart s.fleet target⟩
    rw [finishStart_eq_ite]
    split
    · rename_i h
      obtain ⟨i, hi, hs⟩ := Option.map_eq_some_iff.1 h.2
      exact .starts hi hs
    · exact .nothing
  | retired v =>
    refine ⟨_, _, rfl, ?_, fun id => ?_⟩
    · rw [Fleet.finishRetirement]
      split
      · exact .nothing
      · exact .removes
    · rw [Fleet.finishRetirement]
      split
      · simp [*]
      · simp only [Balancer.health?_unregister, *]
        split <;> simp [*, Later.id, Later.healthAfter]

end Finish

section Tasks

variable {task : Nat} {due : Instant} {later : Later}

lemma tasks_append (s : History π) (due : Instant) (later : Later) (id : String) :
    (s.pending ++ [(due, later)]).filter (·.2.id == id) =
      if later.id = id then s.tasks id ++ [(due, later)] else s.tasks id := by
  rw [List.filter_append]
  by_cases h : later.id = id <;> simp [h, tasks]

lemma tasks_eraseIdx (found : s.pending[task]? = some (due, later)) (id : String) :
    (s.tasks id).Perm ((if later.id = id then [(due, later)] else []) ++
      (s.pending.eraseIdx task).filter (·.2.id == id)) := by
  obtain ⟨hlt, he⟩ := List.getElem?_eq_some_iff.1 found
  refine ((List.getElem_cons_eraseIdx_perm hlt).symm.filter _).trans ?_
  rw [he, List.filter_cons]
  by_cases h : later.id = id <;> simp [h]

lemma tasks_eraseIdx_of_ne (found : s.pending[task]? = some (due, later)) (hid : later.id ≠ id) :
    (s.pending.eraseIdx task).filter (·.2.id == id) = s.tasks id := by
  obtain ⟨hlt, he⟩ := List.getElem?_eq_some_iff.1 found
  rw [tasks, List.eraseIdx_eq_take_drop_succ]
  conv_rhs => rw [← List.take_append_drop task s.pending, List.drop_eq_getElem_cons hlt, he]
  simp [List.filter_append, hid]

end Tasks

lemma fate_finish (s : History π) (task : Nat) (id : String) :
    Fate provisioner id s (.finish task) (s.step provisioner (.finish task)) := by
  cases found : s.pending[task]? with
  | none =>
    have hs : s.step provisioner (.finish task) = s := by simp only [step, finish, found]
    rw [hs]
    exact .keeps rfl rfl
  | some e =>
    obtain ⟨due, later⟩ := e
    by_cases ripe : due ≤ s.now
    · obtain ⟨fleet, ports, hs, _, hh⟩ := finish_eq provisioner found ripe
      rw [hs]
      by_cases hid : later.id = id
      · refine .finishes found ripe hid ?_ ?_
        · simpa [hid] using hh id
        · simpa [hid, tasks] using tasks_eraseIdx found id
      · refine .keeps ?_ (tasks_eraseIdx_of_ne found hid)
        simpa [hid] using hh id
    · have hs : s.step provisioner (.finish task) = s := by simp only [step, finish, found, if_neg ripe]
      rw [hs]
      exact .keeps rfl rfl

lemma probed_probeEach {past : Balancer.History} (hp : past.Tracked settings) (probe : Balancer.Probe)
    (ids : List String) : Probed (past.balancer.health? id)
      ((Balancer.probeEach probe past.now ids past.balancer).2.health? id) := by
  induction ids generalizing past with
  | nil => exact .of_eq rfl
  | cons first rest ih =>
    rw [Balancer.probeEach]
    cases past.balancer.instance? first with
    | none => exact ih hp
    | some i =>
      dsimp only
      split
      · exact ih hp
      · let o : Balancer.Operation := .recordProbe first (probe i).healthy (probe i).cpu (probe i).memory
        have hone : Probed (past.balancer.health? id) ((past.step o).balancer.health? id) := by
          rw [Balancer.History.step, hp.health?_perform o id, Balancer.Operation.healthAfter]
          split
          · exact .afterProbe ..
          · exact .of_eq rfl
        exact hone.trans (ih (hp.step o))

lemma Coherent.probed (h : Coherent settings s) (probe : Balancer.Probe) (id : String) :
    Probed (s.fleet.balancer.health? id) ((s.fleet.balancer.probeAll probe s.now).2.health? id) := by
  obtain ⟨past, hp, hb, hn⟩ := h.tracked
  rw [← hb, ← hn]
  exact probed_probeEach hp probe _

lemma Coherent.health?_perform (h : Coherent settings s) (o : Balancer.Operation) (id : String) :
    (s.fleet.balancer.perform s.now o).health? id = o.healthAfter id (s.fleet.balancer.health? id) := by
  obtain ⟨past, hp, hb, hn⟩ := h.tracked
  rw [← hb, ← hn]
  exact hp.health?_perform o id

lemma Coherent.health?_victim (h : Coherent settings s) {service : String} {v : Instance}
    (hv : s.fleet.victim? service = some v) : s.fleet.balancer.health? v.id = some .healthy := by
  obtain ⟨hfound, _⟩ := h.find?_victim hv
  obtain ⟨_, hhealthy⟩ := Fleet.mem_of_victim? hv
  rw [Balancer.health?, hfound, Option.map_some, beq_iff_eq.1 hhealthy]

theorem Coherent.fate (h : Coherent settings s) (m : Move) (id : String) :
    Fate provisioner id s m (s.step provisioner m) := by
  have ht : Turn provisioner s m (s.step provisioner m) := turn h.waits m
  generalize hs : s.step provisioner m = s' at ht
  cases ht with
  | nothing | fails | governs | replaces | stops => exact .keeps rfl rfl
  | shows decided | rests decided | misses decided | asks decided =>
    obtain ⟨records, rfl⟩ := (Fleet.judged_of_decide decided).records
    exact .keeps rfl rfl
  | @retires service reason fleet v decided victim =>
    obtain ⟨records, rfl⟩ := (Fleet.judged_of_decide decided).records
    have hh := s.fleet.balancer.health?_setHealth v.id .stopping id
    have hv := h.health?_victim victim
    by_cases hid : v.id = id
    · subst hid
      rw [if_pos rfl, hv] at hh
      exact .retires victim rfl hv hh ((tasks_append ..).trans (if_pos rfl))
    · exact .keeps (hh.trans (if_neg hid)) ((tasks_append ..).trans (if_neg hid))
  | @joins call c i ports reason before found made =>
    have hh := s.fleet.balancer.health?_register { i with health := .starting } id
    by_cases hid : i.id = id
    · subst hid
      exact .joins found (congrArg Prod.fst made) rfl (hh.trans (if_pos rfl)) ((tasks_append ..).trans (if_pos rfl))
    · exact .keeps (hh.trans (if_neg hid)) ((tasks_append ..).trans (if_neg hid))
  | @starts task | @drops task | @removes task =>
    rw [← hs]
    exact fate_finish s task id
  | probes probe => exact .probes (h.probed probe id) rfl
  | balances o => exact .performs (h.health?_perform o id) rfl

/-- The answer of a provisioner gives no instance of this id. -/
def Avoids (id : String) : Except Error Instance → Prop
  | .error _ => True
  | .ok i => i.id ≠ id

instance (id : String) : DecidablePred (Avoids id)
  | .error _ => .isTrue trivial
  | .ok i => inferInstanceAs (Decidable (i.id ≠ id))

/-- A move that does not bring an id back to life while an instance of that id is on its way out. -/
def Spares (provisioner : Provisioner π) (id : String) (s : History π) (m : Move) : Prop :=
  id ∈ s.leaving →
    match m with
    | .balance (.register i) => i.id = id → i.health = .stopping
    | .balance (.setHealth target status) => target = id → status = .stopping
    | .answer call => ∀ c ∈ s.calls[call]?, Avoids id (provisioner.provision c.service s.ports).1
    | _ => True

instance (id : String) (s : History π) : DecidablePred (Spares provisioner id s) := fun m =>
  @instDecidableForall _ _ _ <| match m with
    | .balance (.register i) => inferInstanceAs (Decidable (i.id = id → i.health = .stopping))
    | .balance (.setHealth target status) => inferInstanceAs (Decidable (target = id → status = .stopping))
    | .answer call => inferInstanceAs (Decidable (∀ c ∈ s.calls[call]?, _))
    | .balance (.unregister _) | .balance (.select _ _) | .balance (.startRequest _) | .balance (.endRequest _ _ _)
    | .balance (.recordProbe _ _ _ _) | .balance (.updateResources _ _ _) | .balance (.setAlgorithm _)
    | .balance (.timePasses _) | .evaluate _ | .evaluateAndScale _ | .finish _ | .updatePolicy _ _
    | .updateConfig _ | .probeAll _ | .stop => inferInstanceAs (Decidable True)

/-- Whoever has the id of an instance on its way out stops. -/
def Outgoing (id : String) (s : History π) : Prop :=
  id ∈ s.leaving → ∀ status ∈ s.fleet.balancer.health? id, status = .stopping

lemma mem_leaving_iff (s : History π) (id : String) :
    id ∈ s.leaving ↔ ∃ e ∈ s.tasks id, e.2.leaver?.isSome := by
  simp only [leaving, tasks, List.mem_filterMap, List.mem_filter, beq_iff_eq]
  constructor
  · rintro ⟨e, he, hl⟩
    obtain ⟨due, later⟩ := e
    cases later with
    | started other => cases hl
    | retired v => exact ⟨_, ⟨he, Option.some.inj hl⟩, rfl⟩
  · rintro ⟨e, ⟨he, hid⟩, hl⟩
    obtain ⟨due, later⟩ := e
    cases later with
    | started other => cases hl
    | retired v => exact ⟨_, he, congrArg some hid⟩

/-- A call that spares an id leaves it stopping if it was. -/
lemma Spares.healthAfter {o : Balancer.Operation} (hm : Spares provisioner id s (.balance o)) (hl : id ∈ s.leaving)
    (hbefore : ∀ status ∈ s.fleet.balancer.health? id, status = .stopping) :
    ∀ status ∈ o.healthAfter id (s.fleet.balancer.health? id), status = .stopping := by
  intro status hs
  have hm := hm hl
  cases o with
  | register i =>
    simp only [Balancer.Operation.healthAfter] at hs
    split at hs
    · rw [← Option.some.inj hs, hm ‹_›]
    · exact hbefore status hs
  | setHealth target given =>
    simp only [Balancer.Operation.healthAfter] at hs
    split at hs
    · obtain ⟨_, _, rfl⟩ := Option.map_eq_some_iff.1 hs
      exact hm ‹_›
    · exact hbefore status hs
  | unregister gone =>
    simp only [Balancer.Operation.healthAfter] at hs
    split at hs
    · cases hs
    · exact hbefore status hs
  | recordProbe probed healthy cpu memory =>
    simp only [Balancer.Operation.healthAfter] at hs
    split at hs
    · obtain ⟨before, hb, rfl⟩ := Option.map_eq_some_iff.1 hs
      exact (Health.afterProbe_eq_iff (.inr rfl) before healthy).2 (hbefore before hb)
    · exact hbefore status hs
  | select | startRequest | endRequest | updateResources | setAlgorithm | timePasses => exact hbefore status hs

lemma Fate.outgoing (hf : Fate provisioner id s m s') (hm : Spares provisioner id s m) (ho : Outgoing id s) :
    Outgoing id s' := by
  have hsame (ht : s'.tasks id = s.tasks id) (h : id ∈ s'.leaving) : id ∈ s.leaving := by
    rwa [mem_leaving_iff, ht, ← mem_leaving_iff] at h
  intro hl status hs
  cases hf with
  | keeps health tasks => exact ho (hsame tasks hl) status (health ▸ hs)
  | performs health tasks =>
    have hl := hsame tasks hl
    exact hm.healthAfter hl (ho hl) status (health ▸ hs)
  | probes health tasks =>
    have hbefore := ho (hsame tasks hl)
    cases hb : s.fleet.balancer.health? id with
    | none =>
      rw [health.absent.2 hb] at hs
      cases hs
    | some before =>
      obtain rfl := hbefore before hb
      exact (Option.some.inj ((health.fixed _ (.inr rfl)).2 hb ▸ hs)).symm
  | @joins call c i _ found made name health tasks =>
    -- To join under the id is what a move that spares it does not do.
    have hleaving : id ∈ s.leaving := by
      rw [mem_leaving_iff, tasks] at hl
      obtain ⟨e, he, hlater⟩ := hl
      refine (mem_leaving_iff s id).2 ⟨e, ?_, hlater⟩
      obtain he | he := List.mem_append.1 he
      · exact he
      · rw [List.mem_singleton.1 he] at hlater
        cases hlater
    have havoids : Avoids id (provisioner.provision c.service s.ports).1 := hm hleaving c found
    rw [made] at havoids
    exact absurd name havoids
  | retires _ _ _ health _ => exact (Option.some.inj (health ▸ hs)).symm
  | @finishes task due later _ found ripe name health tasks =>
    have hleaving : id ∈ s.leaving := by
      rw [mem_leaving_iff] at hl ⊢
      obtain ⟨e, he, hlater⟩ := hl
      exact ⟨e, tasks.mem_iff.2 (List.mem_cons_of_mem _ he), hlater⟩
    have hbefore := ho hleaving
    rw [health] at hs
    split at hs
    · exact hbefore status hs
    · cases later with
      | started other =>
        obtain ⟨before, hb, rfl⟩ := Option.map_eq_some_iff.1 hs
        rw [hbefore before hb]
        rfl
      | retired v => cases hs

/-- In every run, whatever becomes of the ids in the meantime, the end of a start makes an instance healthy that it
finds starting and changes nothing else, and the end of a retirement takes out at most what is registered under the
id of the retired instance. That is an instance that stops, if no move of the run revived or replaced
one that was on its way out under that id. -/
theorem put_off_steps_find_their_own (provisioner : Provisioner π) (config : Config) (settings : Balancer.Config)
    (dice : Nat → Float) (past : List Balancer.Operation) (ports : π) (moves : List Move) :
    let s₀ := start config (.run settings dice past) ports
    let s := s₀.run provisioner moves
    ∀ (task : ℕ) (due : Instant) (later : Later), s.pending[task]? = some (due, later) →
      later.Ends s.fleet.balancer (s.step provisioner (.finish task)).fleet.balancer ∧
        ∀ v, later = .retired v → Throughout provisioner (Spares provisioner v.id) s₀ moves →
          ∀ i, s.fleet.balancer.instance? v.id = some i → i.health = .stopping := by
  intro s₀ s task due later found
  constructor
  · by_cases ripe : due ≤ s.now
    · obtain ⟨fleet, ports, hs, hends, _⟩ := finish_eq provisioner found ripe
      rw [hs]
      exact hends
    · have hs : s.step provisioner (.finish task) = s := by simp only [step, finish, found, if_neg ripe]
      rw [hs]
      exact .nothing
  · rintro v rfl hspared i hi
    have hstart : Coherent settings s₀ := .start config (.run settings dice past) ports
    have hs : Coherent settings s ∧ Outgoing v.id s := by
      refine run_induction (P := fun s => Coherent settings s ∧ Outgoing v.id s) hspared ⟨hstart, ?_⟩ ?_
      · rintro ⟨⟩
      · exact fun s m hm h => ⟨h.1.step m, (h.1.fate m v.id).outgoing hm h.2⟩
    refine hs.2 (List.mem_filterMap.2 ⟨_, List.mem_of_getElem? found, rfl⟩) i.health ?_
    rw [Balancer.health?, hi]
    rfl

def idle (id : String) (port : UInt16) : Instance :=
  { id, service := "chat", host := "localhost", port, health := .healthy }

/-- One of two idle instances is retired, and after what happens meanwhile its grace period is over. -/
def retirement (meanwhile : List Move) : List Move :=
  [.balance (.register (idle "a" 1)), .balance (.register (idle "b" 2)), .evaluateAndScale "chat"] ++ meanwhile ++
    [.balance (.timePasses 30)]

def retired (meanwhile : List Move) : History Ports :=
  (start chatConfig (.run {} (fun _ => 0.0) []) (.usual 1.0)).run Ports.provisioner (retirement meanwhile)

theorem put_off_steps_find_their_own_retired :
    ∃ v, (retired []).pending[0]? = some (30, .retired v) ∧
      (retired []).fleet.balancer.health? v.id = some .stopping ∧
      ((retired []).step Ports.provisioner (.finish 0)).fleet.balancer.health? v.id = none ∧
      (Later.retired v).Ends (retired []).fleet.balancer
        ((retired []).step Ports.provisioner (.finish 0)).fleet.balancer ∧
      ∀ i, (retired []).fleet.balancer.instance? v.id = some i → i.health = .stopping := by
  have hpending : (retired []).pending[0]?.map (fun e => (e.1, e.2.leaver?)) = some (30, some "a") := by
    decide +kernel
  obtain ⟨⟨due, later⟩, found, he⟩ := Option.map_eq_some_iff.1 hpending
  obtain ⟨rfl, hl⟩ := Prod.mk.inj he
  cases later with
  | started => cases hl
  | retired v =>
    have hid : v.id = "a" := Option.some.inj hl
    have hm : Throughout Ports.provisioner (Spares Ports.provisioner v.id)
        (start chatConfig (.run {} (fun _ => 0.0) []) (.usual 1.0)) (retirement []) := by
      rw [hid]
      decide +kernel
    have hboth := put_off_steps_find_their_own Ports.provisioner chatConfig {} (fun _ => 0.0) [] (.usual 1.0)
      (retirement []) 0 30 (.retired v) found
    rw [← retired] at hboth
    have hbefore : (retired []).fleet.balancer.health? "a" = some .stopping := by decide +kernel
    have hafter : ((retired []).step Ports.provisioner (.finish 0)).fleet.balancer.health? "a" = none := by
      decide +kernel
    rw [← hid] at hbefore hafter
    exact ⟨v, found, hbefore, hafter, hboth.1, hboth.2 v rfl hm⟩

/-- What is put off when the grace period is over, and whether there is an instance `a` and how it is, before and
after what was put off is done. -/
def takenOut (meanwhile : Move) : List (Instant × Option String) × Option Health × Option Health :=
  let s := retired [meanwhile]
  (s.pending.map fun e => (e.1, e.2.leaver?), s.fleet.balancer.health? "a",
    (s.step Ports.provisioner (.finish 0)).fleet.balancer.health? "a")

/-- The end of a retirement takes out a healthy instance that was registered in place of the one that was retired,
and one that an operator has revived. -/
theorem retirement_takes_out_a_healthy_instance :
    takenOut (.balance (.register (idle "a" 3))) = ([(30, some "a")], some .healthy, none) ∧
      takenOut (.balance (.setHealth "a" .healthy)) = ([(30, some "a")], some .healthy, none) := by
  decide +kernel

end History

end Scaling

end Serving
