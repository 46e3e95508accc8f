import Serving.Proofs.Balancer.Order

/-! Choices by the fewest requests under way. How many requests an instance has under way is read off the past, and the
choice falls on the first in order of registration of those that have the fewest. So requests that are begun where the
choice falls even out what the instances have to do, and keep it even. -/

namespace Serving

namespace Strategy

lemma placeOfLeast_first {loads : List Nat} {place : Nat} (h : placeOfLeast loads = some place) :
    ∃ least, loads[place]? = some least ∧
      ∀ other load, loads[other]? = some load → least < load ∨ least = load ∧ place ≤ other := by
  obtain ⟨least, hm, hp⟩ := Option.bind_eq_some_iff.1 h
  obtain ⟨hlt, hat, hfirst⟩ := List.idxOf?_eq_some_iff.1 hp
  refine ⟨least, by rw [List.getElem?_eq_getElem hlt, hat], fun other load hl => ?_⟩
  have hle : least ≤ load := (List.min?_eq_some_iff.1 hm).2 load (List.mem_of_getElem? hl)
  rcases Nat.lt_or_eq_of_le hle with hless | heq
  · exact .inl hless
  · refine .inr ⟨heq, Nat.le_of_not_lt fun hbefore => ?_⟩
    obtain ⟨ho, hl⟩ := List.getElem?_eq_some_iff.1 hl
    exact hfirst other hbefore (hl.trans heq.symm)

lemma choose_of_leastConnections {s : Strategy} (h : s.algorithm = .leastConnections) (service : String)
    (candidates : List Instance) (key : Option String) (dice : Float) :
    s.choose service candidates key dice = (placeOfLeast (candidates.map (·.active)), s) := by
  simp only [choose]
  split
  · rename_i hn
    rw [List.eq_nil_of_length_eq_zero hn]
    rfl
  · rw [h]

end Strategy

namespace Balancer

lemma pairwise_idxOf {l : List String} (h : l.Nodup) : l.Pairwise fun a b => l.idxOf a ≤ l.idxOf b := by
  apply List.pairwise_iff_getElem.2
  intro i j hi hj hij
  rw [h.idxOf_getElem, h.idxOf_getElem]
  exact Nat.le_of_lt hij

namespace Past

/-- The requests that are under way on an instance, given with how many it came. -/
def active (id : String) : Past → Nat
  | [] => 0
  | (_, .register i) :: past => if i.id = id then i.active else active id past
  | (_, .startRequest other) :: past => if other = id then active id past + 1 else active id past
  | (_, .endRequest other _ _) :: past => if other = id then active id past - 1 else active id past
  | _ :: past => active id past

/-- An instance has fewer requests under way than another one, or as many and an earlier place. -/
def Precedes (past : Past) (id other : String) : Prop :=
  past.active id < past.active other ∨
    past.active id = past.active other ∧ past.order.idxOf id ≤ past.order.idxOf other

def Even (past : Past) (ids : List String) : Prop :=
  ∀ id ∈ ids, ∀ other ∈ ids, past.active id ≤ past.active other + 1

lemma Even.startRequest {past : Past} {ids : List String} {id : String} (h : past.Even ids)
    (hid : ∀ other ∈ ids, past.active id ≤ past.active other) (time : Instant) :
    Even ((time, .startRequest id) :: past) ids := by
  intro one hone other hother
  have hle := h one hone other hother
  have hfewest := hid other hother
  simp only [active]
  -- The one that gets the request had no more than the others, so it has at most one more than they.
  by_cases h₁ : id = one
  · subst h₁
    rw [if_pos rfl]
    split <;> omega
  · rw [if_neg h₁]
    split <;> omega

end Past

/-- Begins and ends no request on these instances and puts no other in their places. -/
def Operation.Spares (ids : List String) : Operation → Prop
  | .register i => i.id ∉ ids
  | .startRequest id => id ∉ ids
  | .endRequest id _ _ => id ∉ ids
  | .setAlgorithm a => a = .leastConnections
  | _ => True

lemma Past.active_of_spares {ids : List String} {o : Operation} (ho : o.Spares ids) {id : String} (hid : id ∈ ids)
    (time : Instant) (past : Past) : active id ((time, o) :: past) = past.active id := by
  have hne {target : String} (ht : target ∉ ids) : target ≠ id := fun he => ht (he ▸ hid)
  cases o with
  | register i => exact if_neg (hne ho)
  | startRequest target => exact if_neg (hne ho)
  | endRequest target success took => exact if_neg (hne ho)
  | unregister | select | recordProbe | setHealth | updateResources | setAlgorithm | timePasses => rfl

/-- A request for a service, with what happens before it. -/
structure Round where
  meanwhile : List Operation := []
  key : Option String := none

namespace History

variable {config : Config} {s : History} {service : String} {key : Option String} {ids : List String}

/-- The request is begun where the choice falls. -/
def serve (service : String) (s : History) (r : Round) : History :=
  let s := s.after r.meanwhile
  match s.choice service r.key with
  | some i => (s.step (.select service r.key)).step (.startRequest i.id)
  | none => s.step (.select service r.key)

def serveAll (service : String) (s : History) (rounds : List Round) : History := rounds.foldl (serve service) s

/-- The same instances may be chosen in every round, and only the requests of the rounds are begun on them. -/
inductive Steady (service : String) (ids : List String) : History → List Round → Prop
  | nil (s : History) : Steady service ids s []
  | cons {s : History} {r : Round} {rounds : List Round} (spares : ∀ o ∈ r.meanwhile, o.Spares ids)
    (eligible : (s.after r.meanwhile).eligible service = ids) (rest : Steady service ids (s.serve service r) rounds) :
    Steady service ids s (r :: rounds)

lemma active_after {operations : List Operation} (ho : ∀ o ∈ operations, o.Spares ids) :
    ∀ id ∈ ids, (s.after operations).past.active id = s.past.active id := by
  induction operations generalizing s with
  | nil => exact fun _ _ => rfl
  | cons o operations ih =>
    obtain ⟨ho, hrest⟩ := List.forall_mem_cons.1 ho
    exact fun id hid => (ih hrest id hid).trans (Past.active_of_spares ho hid s.now s.past)

lemma algorithm_after {operations : List Operation} (ha : s.balancer.algorithm = .leastConnections)
    (ho : ∀ o ∈ operations, o.Spares ids) : (s.after operations).balancer.algorithm = .leastConnections := by
  induction operations generalizing s with
  | nil => exact ha
  | cons o operations ih =>
    obtain ⟨ho, hrest⟩ := List.forall_mem_cons.1 ho
    refine ih ((s.algorithm_step o ?_).trans ha) hrest
    rintro a rfl
    exact Eq.trans ho ha.symm

lemma eligible_step {o : Operation} (hc : (s.balancer.perform s.now o).config = s.balancer.config)
    (hd : o.duration = 0) (ho : Past.order ((s.now, o) :: s.past) = s.past.order)
    (hs : ∀ id, Past.standing id ((s.now, o) :: s.past) = s.past.standing id)
    (hf : ∀ id, Past.failures id ((s.now, o) :: s.past) = s.past.failures id) (service : String) :
    (s.step o).eligible service = s.eligible service := by
  simp only [eligible, step, hc, hd, ho]
  refine List.filter_congr fun id _ => decide_eq_decide.2 ?_
  constructor
  · exact fun he => ⟨hs id ▸ he.standing, hf id ▸ he.admitted⟩
  · exact fun he => ⟨hs id ▸ he.standing, hf id ▸ he.admitted⟩

lemma eligible_select (s : History) (asked : String) (key : Option String) (service : String) :
    (s.step (.select asked key)).eligible service = s.eligible service :=
  eligible_step (o := .select asked key) (select_config ..) rfl rfl (fun _ => rfl) (fun _ => rfl) service

lemma eligible_startRequest (s : History) (id service : String) :
    (s.step (.startRequest id)).eligible service = s.eligible service :=
  eligible_step rfl rfl rfl (fun _ => rfl) (fun _ => rfl) service

lemma eligible_serve (s : History) (r : Round) :
    (s.serve service r).eligible service = (s.after r.meanwhile).eligible service := by
  rw [serve]
  cases (s.after r.meanwhile).choice service r.key with
  | some i => exact (eligible_startRequest ..).trans (eligible_select ..)
  | none => exact eligible_select ..

lemma steady_of_quiet {rounds : List Round} (hquiet : ∀ r ∈ rounds, r.meanwhile = []) :
    s.Steady service (s.eligible service) rounds := by
  induction rounds generalizing s with
  | nil => exact .nil s
  | cons r rounds ih =>
    obtain ⟨hr, hrest⟩ := List.forall_mem_cons.1 hquiet
    have hsame : (s.after r.meanwhile).eligible service = s.eligible service := by rw [hr]; rfl
    refine .cons ?_ hsame ?_
    · rw [hr]
      exact fun _ ho => nomatch ho
    · rw [← hsame, ← eligible_serve]
      exact ih hrest

/-- The records of the instances have the requests under way that the past tells. -/
structure Counted (config : Config) (s : History) : Prop extends Ordered config s where
  active : ∀ id i, s.balancer.instances.find? id = some i → i.active = s.past.active id

namespace Counted

section Step

variable {o : Operation}

lemma active_of_modify (h : Counted config s) (target : String) (f : Instance → Instance)
    (hp : (s.balancer.perform s.now o).instances = s.balancer.instances.modify target f)
    (hf : ∀ i, i.active = s.past.active target → (f i).active = Past.active target ((s.now, o) :: s.past))
    (ho : ∀ id, id ≠ target → Past.active id ((s.now, o) :: s.past) = s.past.active id) (id : String) (i : Instance)
    (hi : (s.step o).balancer.instances.find? id = some i) : i.active = (s.step o).past.active id := by
  rw [History.step, hp, Table.find?_modify] at hi
  split at hi
  · rename_i he
    subst he
    obtain ⟨j, hj, rfl⟩ := Option.map_eq_some_iff.1 hi
    exact hf j (h.active id j hj)
  · rename_i he
    exact (h.active id i hi).trans (ho id he).symm

lemma active_of_same (h : Counted config s) (hp : (s.balancer.perform s.now o).instances = s.balancer.instances)
    (ho : ∀ id i, s.balancer.instances.find? id = some i → Past.active id ((s.now, o) :: s.past) = s.past.active id)
    (id : String) (i : Instance) (hi : (s.step o).balancer.instances.find? id = some i) :
    i.active = (s.step o).past.active id := by
  rw [History.step, hp] at hi
  exact (h.active id i hi).trans (ho id i hi).symm

lemma step (h : Counted config s) (o : Operation) : Counted config (s.step o) := by
  refine ⟨h.toOrdered.step o, ?_⟩
  cases o with
  | register new =>
    intro id i hi
    simp only [History.step, perform, register, Table.find?_insert] at hi
    rw [History.step, Past.active]
    by_cases he : id = new.id
    · rw [if_pos he] at hi
      rw [if_pos he.symm, Option.some.inj hi]
    · rw [if_neg he] at hi
      rw [if_neg (Ne.symm he), h.active id i hi]
  | unregister gone =>
    intro id i hi
    simp only [History.step, perform, unregister, Table.find?_erase] at hi
    split at hi
    · cases hi
    · exact h.active id i hi
  | startRequest target =>
    refine h.active_of_modify target (fun i => { i with active := i.active + 1 }) rfl (fun i hi => ?_) fun id hne => ?_
    · rw [Past.active, if_pos rfl, hi]
    · rw [Past.active, if_neg hne.symm]
  | endRequest target success took =>
    cases ht : s.balancer.instances.find? target with
    | none =>
      refine h.active_of_same ?_ fun id i hi => ?_
      · simp [perform, endRequest, Table.contains, ht]
      · have hne : target ≠ id := fun he => by
          rw [← he, ht] at hi
          cases hi
        rw [Past.active, if_neg hne]
    | some j =>
      refine h.active_of_modify target (·.finish success took) ?_ (fun i hi => ?_) fun id hne => ?_
      · simp [perform, endRequest, Table.contains, ht]
      · rw [Instance.finish_active, Past.active, if_pos rfl, hi]
      · rw [Past.active, if_neg hne.symm]
  | recordProbe target healthy cpu memory =>
    cases ht : s.balancer.instances.find? target with
    | none => exact h.active_of_same (by rw [perform, recordProbe, ht]) fun _ _ _ => rfl
    | some j =>
      refine h.active_of_modify target ?_ ?_ (fun _ hi => ?_) fun _ _ => rfl
      · exact fun i =>
          { i with cpu, memory, lastCheck := some (.ofNanos s.now), health := j.health.afterProbe healthy }
      · rw [perform, recordProbe, ht]
      · exact hi
  | select asked key => exact h.active_of_same (select_instances ..) fun _ _ _ => rfl
  | setHealth target status =>
    exact h.active_of_modify target (fun i => { i with health := status }) rfl (fun _ hi => hi) fun _ _ => rfl
  | updateResources target cpu memory =>
    exact h.active_of_modify target (fun i => { i with cpu := percentage cpu, memory := percentage memory }) rfl
      (fun _ hi => hi) fun _ _ => rfl
  | setAlgorithm a =>
    refine h.active_of_same ?_ fun _ _ _ => rfl
    rw [perform, setAlgorithm]
    split <;> rfl
  | timePasses d => exact h.active_of_same rfl fun _ _ _ => rfl

end Step

theorem run (config : Config) (dice : Nat → Float) (operations : List Operation) :
    Counted config (run config dice operations) := by
  refine run_induction ⟨⟨.start config dice, rfl⟩, fun _ _ h => ?_⟩ (fun _ o h => h.step o) operations
  cases h

lemma loads (h : Counted config s) (service : String) :
    (s.balancer.candidates s.now service).map (·.active) = (s.eligible service).map s.past.active := by
  rw [← h.candidates_ids, List.map_map]
  refine List.map_congr_left fun i hi => ?_
  exact h.active i.id i (h.mem_candidates_iff.1 hi).1

lemma first_of_choice (h : Counted config s) (ha : s.balancer.algorithm = .leastConnections) {i : Instance}
    (hi : s.choice service key = some i) :
    s.balancer.instance? i.id = some i ∧ i.id ∈ s.eligible service ∧
      ∀ other ∈ s.eligible service, s.past.Precedes i.id other := by
  obtain ⟨hreg, he⟩ := h.mem_candidates_iff.1 (mem_of_select hi)
  refine ⟨hreg, h.mem_eligible_iff.2 he, fun other ho => ?_⟩
  rw [choice, select_fst, Strategy.choose_of_leastConnections ha, h.loads] at hi
  obtain ⟨place, hplace, hat⟩ := Option.bind_eq_some_iff.1 hi
  obtain ⟨least, hleast, hfirst⟩ := Strategy.placeOfLeast_first hplace
  have hid : (s.eligible service)[place]? = some i.id := by
    rw [← h.candidates_ids, List.getElem?_map, hat, Option.map_some]
  obtain ⟨k, hk, rfl⟩ := List.getElem_of_mem ho
  obtain ⟨hp, hid⟩ := List.getElem?_eq_some_iff.1 hid
  rw [List.getElem?_map, List.getElem?_eq_getElem hp, hid] at hleast
  obtain rfl : s.past.active i.id = least := Option.some.inj hleast
  refine (hfirst k _ (by rw [List.getElem?_map, List.getElem?_eq_getElem hk]; rfl)).imp_right fun hle => ?_
  refine ⟨hle.1, ?_⟩
  -- The list of the eligible ones is in the order in which they came.
  have hsorted := (pairwise_idxOf h.nodup_order).sublist
    (List.filter_sublist (p := fun id => s.past.Eligible s.balancer.config.breaker s.now service id))
  rcases Nat.lt_or_eq_of_le hle.2 with hlt | rfl
  · exact hid ▸ List.pairwise_iff_getElem.1 hsorted place k hp hk hlt
  · exact Nat.le_of_eq (congrArg (List.idxOf · s.past.order) hid.symm)

theorem choice_eq_some_iff (h : Counted config s) (ha : s.balancer.algorithm = .leastConnections) {i : Instance} :
    s.choice service key = some i ↔ s.balancer.instance? i.id = some i ∧ i.id ∈ s.eligible service ∧
      ∀ other ∈ s.eligible service, s.past.Precedes i.id other := by
  refine ⟨h.first_of_choice ha, fun ⟨hreg, hmem, hfirst⟩ => ?_⟩
  cases hj : s.choice service key with
  | none =>
    rw [h.choice_eq_none_iff.1 hj] at hmem
    cases hmem
  | some j =>
    obtain ⟨hregj, hmemj, hfirstj⟩ := h.first_of_choice ha hj
    have hij := hfirst j.id hmemj
    have hji := hfirstj i.id hmem
    have hplace : s.past.order.idxOf i.id = s.past.order.idxOf j.id := by
      rw [Past.Precedes] at hij hji
      omega
    have hid : i.id = j.id := (List.idxOf_inj (List.mem_of_mem_filter hmem)).1 hplace
    rw [hid, hregj] at hreg
    exact hreg

end Counted

/-- A balancer that chooses by the fewest requests, among instances that have about as many of them. -/
structure Balanced (config : Config) (service : String) (ids : List String) (s : History) : Prop
    extends Counted config s where
  algorithm : s.balancer.algorithm = .leastConnections
  eligible : s.eligible service = ids
  even : s.past.Even ids

namespace Balanced

lemma meanwhile (h : Balanced config service ids s) {operations : List Operation}
    (ho : ∀ o ∈ operations, o.Spares ids) (hids : (s.after operations).eligible service = ids) :
    Balanced config service ids (s.after operations) := by
  refine ⟨after_induction (fun _ o h => h.step o) h.toCounted operations, algorithm_after h.algorithm ho, hids, ?_⟩
  intro id hid other hother
  rw [active_after ho id hid, active_after ho other hother]
  exact h.even id hid other hother

lemma select (h : Balanced config service ids s) (key : Option String) :
    Balanced config service ids (s.step (.select service key)) := by
  refine ⟨h.toCounted.step _, ?_, (eligible_select ..).trans h.eligible, h.even⟩
  exact (s.algorithm_step (.select service key) fun _ ha => nomatch ha).trans h.algorithm

lemma startRequest (h : Balanced config service ids s) {id : String}
    (hid : ∀ other ∈ ids, s.past.active id ≤ s.past.active other) :
    Balanced config service ids (s.step (.startRequest id)) := by
  refine ⟨h.toCounted.step _, ?_, (eligible_startRequest ..).trans h.eligible, h.even.startRequest hid s.now⟩
  exact (s.algorithm_step (.startRequest id) fun _ ha => nomatch ha).trans h.algorithm

lemma serve (h : Balanced config service ids s) {r : Round} (ho : ∀ o ∈ r.meanwhile, o.Spares ids)
    (hids : (s.after r.meanwhile).eligible service = ids) : Balanced config service ids (s.serve service r) := by
  have hthen := h.meanwhile ho hids
  rw [History.serve]
  cases hi : (s.after r.meanwhile).choice service r.key with
  | none => exact hthen.select r.key
  | some i =>
    refine (hthen.select r.key).startRequest fun other hother => ?_
    have hfirst := (hthen.first_of_choice hthen.algorithm hi).2.2 other (hthen.eligible ▸ hother)
    exact hfirst.elim Nat.le_of_lt fun hsame => Nat.le_of_eq hsame.1

lemma serveAll (h : Balanced config service ids s) {rounds : List Round} (hsteady : s.Steady service ids rounds) :
    Balanced config service ids (s.serveAll service rounds) := by
  induction hsteady with
  | nil s => exact h
  | cons ho hids rest ih => exact ih (h.serve ho hids)

end Balanced

/-- The choice by the fewest requests falls on the first in order of registration of the eligible ones that have the
fewest under way. So if they have about as many, and in round after round a request is begun where the choice falls,
they have about as many at the end of every round. -/
theorem fewest_requests_first (config : Config) (dice : Nat → Float) (operations : List Operation) (service : String)
    (ha : (run config dice operations).balancer.algorithm = .leastConnections) :
    let s := run config dice operations
    let eligible := s.eligible service
    (∀ id i, s.balancer.instance? id = some i → i.active = s.past.active id) ∧
    (∀ key i, s.choice service key = some i ↔ s.balancer.instance? i.id = some i ∧ i.id ∈ eligible ∧
      ∀ other ∈ eligible, s.past.Precedes i.id other) ∧
    (∀ key, s.choice service key = none ↔ eligible = []) ∧
    (∀ rounds, (∀ r ∈ rounds, r.meanwhile = []) → s.Steady service eligible rounds) ∧
    ∀ rounds, s.Steady service eligible rounds → s.past.Even eligible →
      let t := s.serveAll service rounds
      t.eligible service = eligible ∧ (∀ id i, t.balancer.instance? id = some i → i.active = t.past.active id) ∧
        t.past.Even eligible := by
  intro s eligible
  have h : Counted config s := .run config dice operations
  refine ⟨h.active, fun _ _ => h.choice_eq_some_iff ha, fun _ => h.choice_eq_none_iff,
    fun _ => steady_of_quiet, fun rounds hsteady heven => ?_⟩
  have hend : Balanced config service eligible (s.serveAll service rounds) :=
    Balanced.serveAll ⟨h, ha, rfl, heven⟩ hsteady
  exact ⟨hend.eligible, hend.active, hend.even⟩

def fewest : Config := { algorithm := .leastConnections }

def arrival (id service : String) (active : Nat) : Operation :=
  .register { id, service, host := "localhost", port := 1, health := .healthy, active }

/-- One instance is registered a second time. -/
def opening : List Operation :=
  [arrival "b" "chat" 0, arrival "a" "chat" 0, arrival "d" "image" 0, arrival "c" "chat" 1, arrival "b" "chat" 1]

def rounds : List Round :=
  [{}, { meanwhile := [.startRequest "d", .timePasses 5] }, { key := some "caller" }]

/-- The requests go to the second, the first and the second. -/
theorem fewest_requests_first_of_three :
    let s := run fewest (fun _ => 0.0) opening
    let t := s.serveAll "chat" rounds
    (∃ i, s.choice "chat" none = some i ∧ i.id = "a" ∧ ∀ other ∈ ["b", "a", "c"], s.past.Precedes "a" other) ∧
      ["b", "a", "c"].map (t.past.active ·) = [2, 2, 1] ∧ t.past.Even ["b", "a", "c"] := by
  intro s t
  have ha : s.balancer.algorithm = .leastConnections := rfl
  obtain ⟨heligible, hactive⟩ : s.eligible "chat" = ["b", "a", "c"] ∧
      ["b", "a", "c"].map (s.past.active ·) = [1, 0, 1] := by decide +kernel
  have heven : s.past.Even ["b", "a", "c"] := by
    simp only [List.map_cons, List.map_nil, List.cons.injEq] at hactive
    simp [Past.Even, hactive]
  have hsteady : s.Steady "chat" ["b", "a", "c"] rounds := by
    refine .cons (List.forall_mem_nil _) heligible (.cons ?_ ?_ (.cons (List.forall_mem_nil _) ?_ (.nil _)))
    · simp [Operation.Spares]
    · decide +kernel
    · decide +kernel
  obtain ⟨_, hchoice, _, _, hrounds⟩ := fewest_requests_first fewest (fun _ => 0.0) opening "chat" ha
  refine ⟨?_, by decide +kernel, ?_⟩
  · obtain ⟨i, hi, hid⟩ : ∃ i, s.choice "chat" none = some i ∧ i.id = "a" :=
      Option.map_eq_some_iff.1 (show (s.choice "chat" none).map (·.id) = some "a" by decide +kernel)
    refine ⟨i, hi, hid, fun other hother => ?_⟩
    exact hid ▸ ((hchoice none i).1 hi).2.2 other (heligible ▸ hother)
  · exact heligible ▸ (hrounds rounds (heligible ▸ hsteady) (heligible ▸ heven)).2.2

end History

end Balancer

end Serving
