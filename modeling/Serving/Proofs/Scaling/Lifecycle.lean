import Serving.Proofs.Scaling.Delays

/-! The life of an instance. As long as no operator sets a status, no id is registered twice and the scaler is
not stopped, an instance that the scaler makes starts until its delay is over and is healthy from then on, and one
that the scaler retires stops until its grace period is over and is gone from then on. In between nobody chooses
it, no probe changes its status, and only a caller who removes it cuts the time short. -/

namespace Serving.Scaling

open Balancer (Probed)

/-- The status that a step which was put off waits with. -/
def Later.awaited : Later → Health
  | .started _ => .starting
  | .retired _ => .stopping

lemma Later.awaited_fixed (later : Later) : later.awaited = .starting ∨ later.awaited = .stopping := by
  cases later with
  | started => exact .inl rfl
  | retired => exact .inr rfl

lemma Later.awaited_ne_healthy (later : Later) : later.awaited ≠ .healthy := by cases later <;> simp [awaited]

namespace History

variable {π : Type} (provisioner : Provisioner π)

/-- A move of a run in which no operator sets a status, the scaler goes on, and what was put off is done when it is
due: no time passes beyond that. -/
def Unattended (s : History π) : Move → Prop
  | .balance (.setHealth _ _) | .stop => False
  | .balance (.timePasses d) => ∀ e ∈ s.pending, s.now + d ≤ e.1
  | _ => True

instance (s : History π) : DecidablePred s.Unattended
  | .balance (.setHealth _ _) | .stop => .isFalse id
  | .balance (.timePasses d) => inferInstanceAs (Decidable (∀ e ∈ s.pending, s.now + d ≤ e.1))
  | .balance (.register _) | .balance (.unregister _) | .balance (.select _ _) | .balance (.startRequest _)
  | .balance (.endRequest _ _ _) | .balance (.recordProbe _ _ _ _) | .balance (.updateResources _ _ _)
  | .balance (.setAlgorithm _) | .evaluate _ | .evaluateAndScale _ | .answer _ | .finish _ | .updatePolicy _ _
  | .updateConfig _ | .probeAll _ => .isTrue trivial

/-- The ids that a move registers. -/
def registers (s : History π) : Move → List String
  | .balance (.register i) => [i.id]
  | .answer call =>
    match s.calls[call]? with
    | none => []
    | some c => (provisioner.provision c.service s.ports).1.toOption.toList.map (·.id)
  | _ => []

/-- All ids that are registered in a run, as often as they are. -/
def registrations : History π → List Move → List String
  | _, [] => []
  | s, m :: moves => s.registers provisioner m ++ registrations (s.step provisioner m) moves

/-- In every state of a run. -/
def Always (P : History π → Prop) : History π → List Move → Prop
  | s, [] => P s
  | s, m :: moves => P s ∧ Always P (s.step provisioner m) moves

/-- In every state of a run, up to a move that ends it. -/
def Until (P : History π → Prop) (Q : History π → Move → List Move → Prop) : History π → List Move → Prop
  | s, [] => P s
  | s, m :: moves => P s ∧ (Q s m moves ∨ Until P Q (s.step provisioner m) moves)

/-- What a move puts off, and when it is due. -/
inductive PutsOff (s : History π) : Move → Instant → Later → Prop
  | start {call : ℕ} {c : Call} {i : Instance} (found : s.calls[call]? = some c)
      (made : (provisioner.provision c.service s.ports).1 = .ok i) :
      PutsOff s (.answer call) (s.now + s.fleet.config.startupDelay) (.started i.id)
  | retirement {service : String} {reason : Reason} {v : Instance}
      (decided : (s.fleet.decide service s.now true).1 = .down service reason)
      (victim : s.fleet.victim? service = some v) :
      PutsOff s (.evaluateAndScale service) (s.now + s.fleet.config.gracePeriod) (.retired v)

/-- An instance that waits for what was put off for it. -/
structure Underway (due : Instant) (later : Later) (s : History π) : Prop where
  status : s.fleet.balancer.health? later.id = some later.awaited
  early : s.now ≤ due
  unchosen : ∀ service key i, (s.fleet.balancer.select s.now service key).1 = some i → i.id ≠ later.id
  unretired : ∀ service v, s.fleet.victim? service = some v → v.id ≠ later.id
  /-- No pass, nor what is left of one, looks at an instance that stops. -/
  unprobed : later.awaited = .stopping → ∀ (ids : List String) (probe probe' : Balancer.Probe),
    (∀ i, i.id ≠ later.id → probe i = probe' i) →
      Balancer.probeEach probe s.now ids s.fleet.balancer = Balancer.probeEach probe' s.now ids s.fleet.balancer

/-- Nobody has the id. -/
def Gone (id : String) (s : History π) : Prop := s.fleet.balancer.health? id = none

/-- How waiting ends: a caller removes the instance, or what was put off is done, just when it is due. -/
inductive Over (due : Instant) (s : History π) : Later → Move → List Move → Prop
  | unregistered {later : Later} {moves : List Move}
      (gone : Always provisioner (Gone later.id) (s.step provisioner (.balance (.unregister later.id))) moves) :
      Over due s later (.balance (.unregister later.id)) moves
  | started {id : String} {task : ℕ} {moves : List Move} (found : s.pending[task]? = some (due, .started id))
      (ripe : s.now = due)
      (healthy : (s.step provisioner (.finish task)).fleet.balancer.health? id = some .healthy) :
      Over due s (.started id) (.finish task) moves
  | left {v : Instance} {task : ℕ} {moves : List Move} (found : s.pending[task]? = some (due, .retired v))
      (ripe : s.now = due) (gone : Always provisioner (Gone v.id) (s.step provisioner (.finish task)) moves) :
      Over due s (.retired v) (.finish task) moves

variable {provisioner} {settings : Balancer.Config} {s s' : History π} {m : Move} {moves : List Move} {id : String}
  {used : List String}

/-- Something is put off for an id once at most, and whoever has the id waits for it. -/
structure Tended (id : String) (s : History π) : Prop where
  once : (s.tasks id).length ≤ 1
  waits : ∀ e ∈ s.tasks id, ∀ status ∈ s.fleet.balancer.health? id, status = e.2.awaited

/-- What holds in every unattended run that has registered these ids. -/
structure Regular (settings : Balancer.Config) (used : List String) (s : History π) : Prop where
  coherent : Coherent settings s
  running : s.fleet.isStopped = false
  due : ∀ e ∈ s.pending, s.now ≤ e.1
  tended : ∀ id, Tended id s
  fresh : ∀ id ∉ used, s.fleet.balancer.health? id = none ∧ s.tasks id = []

section Step

lemma isStopped_step (hw : ∀ c ∈ s.calls, c.Waits) (hm : s.Unattended m) :
    (s.step provisioner m).fleet.isStopped = s.fleet.isStopped := by
  have ht : Turn provisioner s m (s.step provisioner m) := turn hw m
  generalize s.step provisioner m = s' at ht
  cases ht with
  | shows decided | rests decided | misses decided | asks decided | retires decided =>
    obtain ⟨records, rfl⟩ := (Fleet.judged_of_decide decided).records
    rfl
  | starts =>
    rw [finishStart_eq_ite]
    split <;> rfl
  | stops => exact hm.elim
  | nothing | fails | joins | drops | removes | governs | replaces | probes | balances => rfl

lemma due_step (hw : ∀ c ∈ s.calls, c.Waits) (hm : s.Unattended m) (hd : ∀ e ∈ s.pending, s.now ≤ e.1) :
    ∀ e ∈ (s.step provisioner m).pending, (s.step provisioner m).now ≤ e.1 := by
  have ht : Turn provisioner s m (s.step provisioner m) := turn hw m
  generalize s.step provisioner m = s' at ht
  have happend (delay : Duration) (later : Later) : ∀ e ∈ s.pending ++ [(s.now + delay, later)], s.now ≤ e.1 := by
    intro e he
    obtain he | he := List.mem_append.1 he
    · exact hd e he
    · rw [List.mem_singleton.1 he]
      exact Nat.le_add_right _ _
  cases ht with
  | retires | joins => exact happend _ _
  | starts | drops | removes => exact fun e he => hd e (List.mem_of_mem_eraseIdx he)
  | balances o =>
    cases o with
    | timePasses d => exact hm
    | register | unregister | select | startRequest | endRequest | recordProbe | setHealth | updateResources
    | setAlgorithm => exact hd
  | nothing | shows | rests | misses | asks | fails | governs | replaces | probes | stops => exact hd

lemma mem_registers_answer {call : ℕ} {c : Call} {i : Instance} (found : s.calls[call]? = some c)
    (made : (provisioner.provision c.service s.ports).1 = .ok i) : i.id ∈ s.registers provisioner (.answer call) := by
  simp [registers, found, made, Except.toOption]

/-- What an unattended move comes to for an id that it does not register. -/
inductive Course (id : String) (s : History π) : Move → History π → Prop
  | lasts {m : Move} {s' : History π}
      (health : Probed (s.fleet.balancer.health? id) (s'.fleet.balancer.health? id))
      (tasks : s'.tasks id = s.tasks id) : Course id s m s'
  | leaves {s' : History π} (health : s'.fleet.balancer.health? id = none) (tasks : s'.tasks id = s.tasks id) :
      Course id s (.balance (.unregister id)) s'
  | stops {service : String} {v : Instance} {s' : History π} (name : v.id = id)
      (before : s.fleet.balancer.health? id = some .healthy) (health : s'.fleet.balancer.health? id = some .stopping)
      (tasks : s'.tasks id = s.tasks id ++ [(s.now + s.fleet.config.gracePeriod, .retired v)]) :
      Course id s (.evaluateAndScale service) s'
  | ends {task : ℕ} {due : Instant} {later : Later} {s' : History π} (found : s.pending[task]? = some (due, later))
      (ripe : due ≤ s.now) (name : later.id = id)
      (health : s'.fleet.balancer.health? id = later.healthAfter (s.fleet.balancer.health? id))
      (tasks : (s.tasks id).Perm ((due, later) :: s'.tasks id)) : Course id s (.finish task) s'

lemma Fate.course (hf : Fate provisioner id s m s') (hc : s.Unattended m) (hr : s.fleet.isStopped = false)
    (hm : id ∉ s.registers provisioner m) : Course id s m s' := by
  cases hf with
  | keeps health tasks => exact .lasts (.of_eq health) tasks
  | @performs o _ health tasks =>
    cases o with
    | register i =>
      have hid : i.id ≠ id := fun h => hm (List.mem_singleton.2 h.symm)
      exact .lasts (.of_eq (health.trans (if_neg hid))) tasks
    | unregister gone =>
      by_cases hid : gone = id
      · subst hid
        exact .leaves (health.trans (if_pos rfl)) tasks
      · exact .lasts (.of_eq (health.trans (if_neg hid))) tasks
    | recordProbe probed healthy cpu memory =>
      refine .lasts ?_ tasks
      rw [health, Balancer.Operation.healthAfter]
      split
      · exact .afterProbe ..
      · exact .of_eq rfl
    | setHealth => exact hc.elim
    | select | startRequest | endRequest | updateResources | setAlgorithm | timePasses =>
      exact .lasts (.of_eq health) tasks
  | probes health tasks => exact .lasts health tasks
  | joins found made name => exact absurd (mem_registers_answer found made) (name ▸ hm)
  | retires _ name before health tasks => exact .stops name before health tasks
  | finishes found ripe name health tasks =>
    rw [hr] at health
    exact .ends found ripe name health tasks

lemma Fate.tended_of_fresh (hf : Fate provisioner id s m s') (hh : s.fleet.balancer.health? id = none)
    (ht : s.tasks id = []) : Tended id s' := by
  cases hf with
  | keeps _ tasks | performs _ tasks | probes _ tasks =>
    rw [ht] at tasks
    constructor <;> simp [tasks]
  | joins _ _ _ health tasks =>
    rw [ht] at tasks
    constructor <;> simp [tasks, health, Later.awaited]
  | retires _ _ before =>
    rw [hh] at before
    cases before
  | finishes _ _ _ _ tasks =>
    rw [ht] at tasks
    exact absurd tasks.nil_eq (List.cons_ne_nil _ _).symm

lemma Tended.tasks_of_healthy (h : Tended id s) (hs : s.fleet.balancer.health? id = some .healthy) :
    s.tasks id = [] := by
  refine List.eq_nil_iff_forall_not_mem.2 fun e he => ?_
  exact e.2.awaited_ne_healthy (h.waits e he _ hs).symm

namespace Course

lemma gone (h : Course id s m s') (hh : s.fleet.balancer.health? id = none) :
    s'.fleet.balancer.health? id = none := by
  cases h with
  | lasts health => exact health.absent.2 hh
  | leaves health => exact health
  | stops _ before =>
    rw [hh] at before
    cases before
  | @ends _ _ later _ _ _ _ health =>
    rw [health, hh]
    cases later <;> rfl

lemma fresh (h : Course id s m s') (hh : s.fleet.balancer.health? id = none) (ht : s.tasks id = []) :
    s'.fleet.balancer.health? id = none ∧ s'.tasks id = [] := by
  refine ⟨h.gone hh, ?_⟩
  cases h with
  | lasts _ tasks | leaves _ tasks => exact tasks.trans ht
  | stops _ before =>
    rw [hh] at before
    cases before
  | ends _ _ _ _ tasks =>
    rw [ht] at tasks
    exact absurd tasks.nil_eq (List.cons_ne_nil _ _).symm

lemma tended (h : Course id s m s') (ht : Tended id s) : Tended id s' := by
  cases h with
  | lasts health tasks =>
    refine ⟨tasks ▸ ht.once, fun e he status hs => ?_⟩
    rw [tasks] at he
    cases hb : s.fleet.balancer.health? id with
    | none =>
      rw [health.absent.2 hb] at hs
      cases hs
    | some before =>
      obtain rfl := ht.waits e he before hb
      rw [(health.fixed _ e.2.awaited_fixed).2 hb] at hs
      exact (Option.some.inj hs).symm
  | leaves health tasks =>
    refine ⟨tasks ▸ ht.once, fun e he status hs => ?_⟩
    rw [health] at hs
    cases hs
  | stops name before health tasks =>
    rw [ht.tasks_of_healthy before] at tasks
    constructor <;> simp [tasks, health, Later.awaited]
  | ends found ripe name health tasks =>
    have hlength := tasks.length_eq
    have honce := ht.once
    have hnone : s'.tasks id = [] := List.eq_nil_of_length_eq_zero (by simp at hlength; omega)
    constructor <;> simp [hnone]

end Course

theorem Regular.step (h : Regular settings used s) (hc : s.Unattended m)
    (hm : ∀ id ∈ s.registers provisioner m, id ∉ used) :
    Regular settings (used ++ s.registers provisioner m) (s.step provisioner m) where
  coherent := h.coherent.step m
  running := (isStopped_step h.coherent.waits hc).trans h.running
  due := due_step h.coherent.waits hc h.due
  tended id := by
    have hf : Fate provisioner id s m (s.step provisioner m) := h.coherent.fate m id
    by_cases hid : id ∈ s.registers provisioner m
    · obtain ⟨hh, ht⟩ := h.fresh id (hm id hid)
      exact hf.tended_of_fresh hh ht
    · exact (hf.course hc h.running hid).tended (h.tended id)
  fresh id hid := by
    obtain ⟨hused, hreg⟩ := not_or.1 (mt List.mem_append.2 hid)
    obtain ⟨hh, ht⟩ := h.fresh id hused
    exact ((h.coherent.fate m id).course hc h.running hreg).fresh hh ht

end Step

section Waiting

variable {due : Instant} {later : Later}

lemma filter_append_self (hnone : s.tasks later.id = []) (due : Instant) :
    (s.pending ++ [(due, later)]).filter (·.2.id == later.id) = [(due, later)] := by
  rw [tasks_append, if_pos rfl, hnone, List.nil_append]

lemma PutsOff.waits (hp : PutsOff provisioner s m due later) (h : Coherent settings s)
    (hnone : s.tasks later.id = []) :
    (s.step provisioner m).fleet.balancer.health? later.id = some later.awaited ∧
      (s.step provisioner m).tasks later.id = [(due, later)] := by
  cases hp with
  | @start call c i found made =>
    obtain ⟨d, reason, before, hresume⟩ := h.waits c (List.mem_of_getElem? found)
    rcases hmade : provisioner.provision c.service s.ports with ⟨answer, ports⟩
    obtain rfl : answer = .ok i := by rw [← made, hmade]
    simp only [step, answer, found, hmade, hresume, Fleet.takeIn, follow]
    constructor
    · exact (s.fleet.balancer.health?_register { i with health := .starting } i.id).trans (if_pos rfl)
    · exact filter_append_self hnone _
  | @retirement service reason v decided victim =>
    have ht : Turn provisioner s (.evaluateAndScale service) _ := turn_evaluateAndScale s service
    generalize s.step provisioner (.evaluateAndScale service) = s' at ht
    cases ht with
    | nothing idle => exact absurd rfl (idle service)
    | rests decided' | asks decided' =>
      rw [decided'] at decided
      cases decided
    | misses _ victim' =>
      rw [victim] at victim'
      cases victim'
    | retires decided' victim' =>
      obtain rfl := Option.some.inj (victim.symm.trans victim')
      obtain ⟨records, rfl⟩ := (Fleet.judged_of_decide decided').records
      have hh := s.fleet.balancer.health?_setHealth v.id .stopping v.id
      rw [if_pos rfl, h.health?_victim victim] at hh
      exact ⟨hh, filter_append_self hnone _⟩

lemma probeEach_congr {past : Balancer.History} (hp : past.Tracked settings)
    (hs : past.balancer.health? id = some .stopping) {probe probe' : Balancer.Probe}
    (hprobe : ∀ i, i.id ≠ id → probe i = probe' i) (ids : List String) :
    Balancer.probeEach probe past.now ids past.balancer = Balancer.probeEach probe' past.now ids past.balancer := by
  induction ids generalizing past with
  | nil => rfl
  | cons first rest ih =>
    rw [Balancer.probeEach, Balancer.probeEach]
    cases hi : past.balancer.instance? first with
    | none => exact ih hp hs
    | some i =>
      dsimp only
      by_cases hstop : i.health = .stopping
      · rw [if_pos hstop, if_pos hstop]
        exact ih hp hs
      · have hne : first ≠ id := by
          rintro rfl
          rw [Balancer.health?, hi] at hs
          exact hstop (Option.some.inj hs)
        have hkeyed : i.id = first := hp.keyed first i hi
        rw [if_neg hstop, if_neg hstop, ← hprobe i (hkeyed ▸ hne)]
        let o : Balancer.Operation := .recordProbe first (probe i).healthy (probe i).cpu (probe i).memory
        have hone : (past.step o).balancer.health? id = some .stopping := by
          rw [Balancer.History.step, hp.health?_perform o id, hs]
          exact if_neg hne
        have hrest := ih (hp.step o) hone
        simp only [Balancer.History.step, Balancer.perform, o, Balancer.Operation.duration, Nat.add_zero] at hrest
        rw [hrest]

lemma Coherent.unchosen (h : Coherent settings s) {status : Health}
    (hs : s.fleet.balancer.health? id = some status) (hne : status ≠ .healthy) (service : String)
    (key : Option String) (i : Instance) (hi : (s.fleet.balancer.select s.now service key).1 = some i) : i.id ≠ id := by
  rintro rfl
  obtain ⟨past, hp, hb, hn⟩ := h.tracked
  have hmem := Balancer.mem_of_select hi
  rw [← hb, ← hn] at hmem
  obtain ⟨_, heligible⟩ := hp.mem_candidates_iff.1 hmem
  have hhealth := hp.health?_eq i.id
  rw [heligible.standing, hb, hs] at hhealth
  exact hne (Option.some.inj hhealth)

lemma Regular.underway (h : Regular settings used s) (hs : s.fleet.balancer.health? later.id = some later.awaited)
    (ht : s.tasks later.id = [(due, later)]) : Underway due later s where
  status := hs
  early := h.due (due, later) (List.mem_filter.1 (ht ▸ List.mem_singleton_self _)).1
  unchosen := h.coherent.unchosen hs later.awaited_ne_healthy
  unretired service v hv hid := by
    have hv := h.coherent.health?_victim hv
    rw [hid, hs] at hv
    exact later.awaited_ne_healthy (Option.some.inj hv)
  unprobed hstop ids probe probe' hprobe := by
    obtain ⟨past, hp, hb, hn⟩ := h.coherent.tracked
    rw [← hb, ← hn]
    rw [hstop, ← hb] at hs
    exact probeEach_congr hp hs hprobe ids

lemma Regular.fresh_of_nodup (hn : (used ++ registrations provisioner s (m :: moves)).Nodup) :
    (∀ id ∈ s.registers provisioner m, id ∉ used) ∧
      ((used ++ s.registers provisioner m) ++ registrations provisioner (s.step provisioner m) moves).Nodup := by
  rw [registrations, ← List.append_assoc] at hn
  have hused := List.nodup_append.1 (List.nodup_append.1 hn).1
  exact ⟨fun id hreg hid => hused.2.2 id hid id hreg rfl, hn⟩

theorem Regular.gone (h : Regular settings used s) (hc : Throughout provisioner Unattended s moves)
    (hn : (used ++ registrations provisioner s moves).Nodup) (hid : id ∈ used) (hg : Gone id s) :
    Always provisioner (Gone id) s moves := by
  induction moves generalizing s used with
  | nil => exact hg
  | cons m moves ih =>
    obtain ⟨hfresh, hn⟩ := fresh_of_nodup hn
    have hcourse := (h.coherent.fate m id).course hc.1 h.running fun hreg => hfresh id hreg hid
    exact ⟨hg, ih (h.step hc.1 hfresh) hc.2 hn (List.mem_append_left _ hid) (hcourse.gone hg)⟩

theorem Regular.waits (h : Regular settings used s) (hc : Throughout provisioner Unattended s moves)
    (hn : (used ++ registrations provisioner s moves).Nodup) (hid : later.id ∈ used)
    (hs : s.fleet.balancer.health? later.id = some later.awaited) (ht : s.tasks later.id = [(due, later)]) :
    Until provisioner (Underway due later) (fun t m rest => Over provisioner due t later m rest) s moves := by
  induction moves generalizing s used with
  | nil => exact h.underway hs ht
  | cons m moves ih =>
    obtain ⟨hfresh, hn⟩ := fresh_of_nodup hn
    have hcourse := (h.coherent.fate m later.id).course hc.1 h.running fun hreg => hfresh later.id hreg hid
    have hnext := h.step hc.1 hfresh
    have hgone (hg : Gone later.id (s.step provisioner m)) :=
      hnext.gone hc.2 hn (List.mem_append_left _ hid) hg
    have hearly := (h.underway hs ht).early
    refine ⟨h.underway hs ht, ?_⟩
    generalize hs' : s.step provisioner m = s' at hcourse
    cases hcourse with
    | lasts health tasks =>
      subst hs'
      have hlasts := (health.fixed _ later.awaited_fixed).2 hs
      exact .inr (ih hnext hc.2 hn (List.mem_append_left _ hid) hlasts (tasks.trans ht))
    | leaves health =>
      subst hs'
      exact .inl (.unregistered (hgone health))
    | stops _ before =>
      rw [hs] at before
      exact absurd (Option.some.inj before) later.awaited_ne_healthy
    | @ends task due' later' _ found ripe name health tasks =>
      subst hs'
      -- What is done for the id is what was put off, and no sooner than it is due.
      have hmem : (due', later') ∈ s.tasks later.id := tasks.mem_iff.2 List.mem_cons_self
      rw [ht] at hmem
      obtain ⟨rfl, rfl⟩ := Prod.mk.inj (List.mem_singleton.1 hmem)
      have hnow := Nat.le_antisymm hearly ripe
      rw [hs] at health
      cases later' with
      | started id => exact .inl (.started found hnow health)
      | retired v => exact .inl (.left found hnow (hgone health))

end Waiting

lemma Throughout.of_append {C : History π → Move → Prop} {first rest : List Move}
    (h : Throughout provisioner C s (first ++ rest)) :
    Throughout provisioner C s first ∧ Throughout provisioner C (s.run provisioner first) rest := by
  induction first generalizing s with
  | nil => exact ⟨trivial, h⟩
  | cons m first ih =>
    obtain ⟨hfirst, hrest⟩ := ih h.2
    exact ⟨⟨h.1, hfirst⟩, hrest⟩

lemma registrations_append (s : History π) (first rest : List Move) :
    registrations provisioner s (first ++ rest) =
      registrations provisioner s first ++ registrations provisioner (s.run provisioner first) rest := by
  induction first generalizing s with
  | nil => rfl
  | cons m first ih =>
    rw [List.cons_append, registrations, ih, ← List.append_assoc]
    rfl

theorem Regular.run (h : Regular settings used s) (hc : Throughout provisioner Unattended s moves)
    (hn : (used ++ registrations provisioner s moves).Nodup) :
    Regular settings (used ++ registrations provisioner s moves) (s.run provisioner moves) := by
  induction moves generalizing s used with
  | nil => rwa [registrations, List.append_nil]
  | cons m moves ih =>
    obtain ⟨hfresh, hn⟩ := fresh_of_nodup hn
    rw [registrations, ← List.append_assoc]
    exact ih (h.step hc.1 hfresh) hc.2 hn

lemma Regular.start (config : Config) (settings : Balancer.Config) (dice : ℕ → Float) (ports : π) :
    Regular settings [] (start config (.run settings dice []) ports) where
  coherent := .start config (.run settings dice []) ports
  running := rfl
  due _ he := by cases he
  tended _ := ⟨Nat.zero_le _, fun _ he => by cases he⟩
  fresh _ _ := ⟨rfl, rfl⟩

variable {due : Instant} {later : Later}

lemma PutsOff.unused (hp : PutsOff provisioner s m due later) (h : Regular settings used s)
    (hm : ∀ id ∈ s.registers provisioner m, id ∉ used) :
    later.id ∈ used ++ s.registers provisioner m ∧ s.tasks later.id = [] := by
  cases hp with
  | start found made =>
    have hreg := mem_registers_answer found made
    exact ⟨List.mem_append_right _ hreg, (h.fresh _ (hm _ hreg)).2⟩
  | @retirement service reason v decided victim =>
    have hhealthy := h.coherent.health?_victim victim
    refine ⟨List.mem_append_left _ ?_, (h.tended v.id).tasks_of_healthy hhealthy⟩
    by_contra hused
    rw [(h.fresh v.id hused).1] at hhealthy
    cases hhealthy

theorem PutsOff.until_over (hp : PutsOff provisioner s m due later) (h : Regular settings used s)
    (hc : Throughout provisioner Unattended s (m :: moves))
    (hn : (used ++ registrations provisioner s (m :: moves)).Nodup) :
    Until provisioner (Underway due later) (fun t n rest => Over provisioner due t later n rest)
      (s.step provisioner m) moves := by
  obtain ⟨hfresh, hn⟩ := Regular.fresh_of_nodup hn
  obtain ⟨hid, hnone⟩ := hp.unused h hfresh
  obtain ⟨hstatus, htasks⟩ := hp.waits h.coherent hnone
  exact (h.step hc.1 hfresh).waits hc.2 hn hid hstatus htasks

/-- A pass of probes, or one probe of it that comes back. -/
def IsProbe : Move → Prop
  | .probeAll _ | .balance (.recordProbe _ _ _ _) => True
  | _ => False

lemma Coherent.probed_step (h : Coherent settings s) (hm : IsProbe m) (id : String) :
    Probed (s.fleet.balancer.health? id) ((s.step provisioner m).fleet.balancer.health? id) := by
  cases m with
  | probeAll probe => exact h.probed probe id
  | balance o =>
    cases o with
    | recordProbe =>
      rw [History.step, h.health?_perform, Balancer.Operation.healthAfter]
      split
      · exact .afterProbe ..
      · exact .of_eq rfl
    | register | unregister | select | startRequest | endRequest | setHealth | updateResources | setAlgorithm
    | timePasses => exact hm.elim
  | evaluate | evaluateAndScale | answer | finish | updatePolicy | updateConfig | stop => exact hm.elim

/-- In every run without operators who set a status, in which no id is registered twice and the scaler is not
stopped: from the move on that makes or retires an instance, it waits until what was put off for it is due, unless a
caller removes it before; it is then healthy, or gone for good. And no probe changes the status of an instance that
starts or stops. -/
theorem instances_live_their_course (provisioner : Provisioner π) (config : Config) (settings : Balancer.Config)
    (dice : ℕ → Float) (ports : π) {before : List Move} {m : Move} {after : List Move}
    (hc : Throughout provisioner Unattended (start config (.run settings dice []) ports) (before ++ m :: after))
    (hn : (registrations provisioner (start config (.run settings dice []) ports) (before ++ m :: after)).Nodup) :
    let s := (start config (.run settings dice []) ports).run provisioner before
    let t := s.step provisioner m
    (∀ due later, s.PutsOff provisioner m due later →
        Until provisioner (Underway due later) (fun u n rest => Over provisioner due u later n rest) t after) ∧
      (IsProbe m → ∀ id status, status = .starting ∨ status = .stopping →
        s.fleet.balancer.health? id = some status → t.fleet.balancer.health? id = some status) := by
  intro s t
  obtain ⟨hbefore, hafter⟩ := hc.of_append
  rw [registrations_append] at hn
  have hs : Regular settings (registrations provisioner (start config (.run settings dice []) ports) before) s :=
    (Regular.start config settings dice ports).run hbefore (List.nodup_append.1 hn).1
  refine ⟨fun due later hp => hp.until_over hs hafter hn, fun hm id status hfixed hstatus => ?_⟩
  exact ((hs.coherent.probed_step hm id).fixed status hfixed).2 hstatus

/-- Two idle instances. -/
def two : History Ports :=
  (start chatConfig (.run {} (fun _ => 0.0) []) (.usual 1.0)).run Ports.provisioner
    [.balance (.register (idle "a" 1)), .balance (.register (idle "b" 2))]

/-- A choice, a pass of probes that all fail, and the time of grace. -/
def untilRetired : List Move :=
  [.balance (.select "chat" none), .probeAll .unhealthy, .balance (.timePasses 30), .finish 0, .probeAll .healthy]

theorem instances_live_their_course_retired :
    ∃ v, two.PutsOff Ports.provisioner (.evaluateAndScale "chat") 30 (.retired v) ∧
      Until Ports.provisioner (Underway 30 (.retired v))
        (fun u n rest => Over Ports.provisioner 30 u (.retired v) n rest)
        (two.step Ports.provisioner (.evaluateAndScale "chat")) untilRetired := by
  obtain ⟨v, hp⟩ : ∃ v, two.PutsOff Ports.provisioner (.evaluateAndScale "chat") 30 (.retired v) := by
    have ht : Turn Ports.provisioner two (.evaluateAndScale "chat") _ := turn_evaluateAndScale two "chat"
    have hlength : (two.step Ports.provisioner (.evaluateAndScale "chat")).pending.length =
        two.pending.length + 1 := by
      decide +kernel
    generalize two.step Ports.provisioner (.evaluateAndScale "chat") = t at ht hlength
    cases ht with
    | nothing idle => exact absurd rfl (idle "chat")
    | rests | misses | asks => exact absurd hlength (Nat.succ_ne_self _).symm
    | @retires _ _ _ v decided victim => exact ⟨v, .retirement (congrArg Prod.fst decided) victim⟩
  have hc : Throughout Ports.provisioner Unattended (start chatConfig (.run {} (fun _ => 0.0) []) (.usual 1.0))
      ([.balance (.register (idle "a" 1)), .balance (.register (idle "b" 2))] ++
        .evaluateAndScale "chat" :: untilRetired) := by
    decide +kernel
  have hn : (registrations Ports.provisioner (start chatConfig (.run {} (fun _ => 0.0) []) (.usual 1.0))
      ([.balance (.register (idle "a" 1)), .balance (.register (idle "b" 2))] ++
        .evaluateAndScale "chat" :: untilRetired)).Nodup := by
    decide +kernel
  have hboth := instances_live_their_course Ports.provisioner chatConfig {} (fun _ => 0.0) (.usual 1.0) hc hn
  rw [← two] at hboth
  exact ⟨v, hp, hboth.1 30 _ hp⟩

end History

end Serving.Scaling
