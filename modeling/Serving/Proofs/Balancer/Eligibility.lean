import Serving.Proofs.Balancer.Selection

/-! Who may be chosen, read off the past of a balancer. The records and the breakers hold what the past tells,
step by step, so the choice falls among the instances that the past admits, and on nobody only if it admits
nobody. -/

namespace Serving.Balancer

/-- As far as the past tells, an instance may be chosen for a service. -/
structure Past.Eligible (config : Breaker.Config) (now : Instant) (service id : String) (past : Past) :
    Prop where
  standing : past.standing id = some (service, .healthy)
  admitted : ¬Breaker.Blocked config now (past.failures id)

namespace History

variable {config : Config} {s : History}

/-- What the balancer knows of its instances is what the past tells. -/
structure Tracked (config : Config) (s : History) : Prop where
  kept : s.balancer.config = config
  names : s.balancer.instances.names.Nodup
  keyed : ∀ id i, s.balancer.instances.find? id = some i → i.id = id
  standing : ∀ id, (s.balancer.instances.find? id).map (fun i => (i.service, i.health)) = s.past.standing id
  breakers : ∀ id i, s.balancer.instances.find? id = some i → ∃ b, s.balancer.breakers.find? id = some b ∧
    b.Tracks config.breaker s.now (s.past.failures id)

namespace Tracked

lemma start (config : Config) (dice : Nat → Float) : Tracked config (start config dice) where
  kept := rfl
  names := List.nodup_nil
  keyed _ _ h := by cases h
  standing _ := rfl
  breakers _ _ h := by cases h

lemma standing_of_find? (h : Tracked config s) {id : String} {i : Instance}
    (hi : s.balancer.instances.find? id = some i) : s.past.standing id = some (i.service, i.health) := by
  rw [← h.standing id, hi, Option.map_some]

lemma find?_of_standing (h : Tracked config s) {id service : String} {status : Health}
    (hs : s.past.standing id = some (service, status)) :
    ∃ i, s.balancer.instances.find? id = some i ∧ i.service = service ∧ i.health = status := by
  rw [← h.standing id] at hs
  obtain ⟨i, hi, he⟩ := Option.map_eq_some_iff.1 hs
  obtain ⟨rfl, rfl⟩ := Prod.mk.inj he
  exact ⟨i, hi, rfl, rfl⟩

section Step

variable {o : Operation}

/-- Steps under which no instance comes or goes. -/
lemma step_of (h : Tracked config s) (f : String → Instance → Instance)
    (hc : (s.balancer.perform s.now o).config = s.balancer.config)
    (hn : (s.balancer.perform s.now o).instances.names = s.balancer.instances.names)
    (hf : ∀ id, (s.balancer.perform s.now o).instances.find? id =
      (s.balancer.instances.find? id).map (f id))
    (hi : ∀ id i, (f id i).id = i.id)
    (hs : ∀ id, Past.standing id ((s.now, o) :: s.past) = (s.balancer.instances.find? id).map fun i =>
      ((f id i).service, (f id i).health))
    (hb : ∀ id i, s.balancer.instances.find? id = some i →
      ∃ b, (s.balancer.perform s.now o).breakers.find? id = some b ∧
        b.Tracks config.breaker (s.now + o.duration) (Past.failures id ((s.now, o) :: s.past))) :
    Tracked config (s.step o) where
  kept := hc.trans h.kept
  names := by
    rw [step, hn]
    exact h.names
  keyed id i hid := by
    obtain ⟨j, hj, rfl⟩ := Option.map_eq_some_iff.1 ((hf id).symm.trans hid)
    rw [hi, h.keyed id j hj]
  standing id := by
    rw [step, hs, hf, Option.map_map]
    rfl
  breakers id i hid := by
    obtain ⟨j, hj, _⟩ := Option.map_eq_some_iff.1 ((hf id).symm.trans hid)
    exact hb id j hj

lemma ids (h : Tracked config s) : s.balancer.instances.values.map (·.id) = s.balancer.instances.names := by
  simp only [Table.values, Table.names, List.map_map]
  refine List.map_congr_left fun e he => ?_
  exact h.keyed e.1 e.2 (Table.find?_of_mem h.names he)

lemma nodup_candidates (h : Tracked config s) (service : String) :
    (((s.balancer.serving service).filter (·.isHealthy)).map (·.id)).Nodup := by
  have hn : (s.balancer.instances.values.map (·.id)).Nodup := by
    rw [h.ids]
    exact h.names
  exact hn.sublist ((List.filter_sublist.trans List.filter_sublist).map _)

lemma step_register (h : Tracked config s) (i : Instance) : Tracked config (s.step (.register i)) where
  kept := h.kept
  names := Table.nodup_names_insert h.names _ _
  keyed id j hj := by
    simp only [step, perform, register, Table.find?_insert] at hj
    split at hj
    · rename_i he
      rw [← Option.some.inj hj, he]
    · exact h.keyed id j hj
  standing id := by
    simp only [step, perform, register, Table.find?_insert, Past.standing]
    by_cases he : id = i.id
    · simp [he]
    · rw [if_neg he, if_neg (Ne.symm he), h.standing]
  breakers id j hj := by
    simp only [step, perform, register, Table.find?_insert, Past.failures, Past.endings] at hj ⊢
    by_cases he : id = i.id
    · rw [if_pos he, if_pos he.symm, h.kept]
      exact ⟨_, rfl, .new config.breaker _⟩
    · rw [if_neg he] at hj
      rw [if_neg he, if_neg (Ne.symm he)]
      exact h.breakers id j hj

lemma step_unregister (h : Tracked config s) (gone : String) : Tracked config (s.step (.unregister gone)) where
  kept := h.kept
  names := by
    simp only [step, perform, unregister_names]
    exact h.names.filter _
  keyed id i hi := by
    simp only [step, perform, unregister, Table.find?_erase] at hi
    split at hi
    · cases hi
    · exact h.keyed id i hi
  standing id := by
    simp only [step, perform, unregister, Table.find?_erase, Past.standing]
    by_cases he : id = gone
    · simp [he]
    · rw [if_neg he, if_neg (Ne.symm he), h.standing]
  breakers id i hi := by
    simp only [step, perform, unregister, Table.find?_erase, Past.failures, Past.endings] at hi ⊢
    split at hi
    · cases hi
    · rename_i he
      rw [if_neg he]
      exact h.breakers id i hi

lemma step_select (h : Tracked config s) (service : String) (key : Option String) :
    Tracked config (s.step (.select service key)) := by
  apply h.step_of fun _ i => i
  · exact select_config ..
  · exact congrArg Table.names (select_instances ..)
  · intro id
    rw [perform, select_instances, Option.map_id']
  · exact fun _ _ => rfl
  · exact fun id => (h.standing id).symm
  · intro id i hi
    obtain ⟨b, hb, ht⟩ := h.breakers id i hi
    rw [perform, select_breakers, find?_admitted _ (h.nodup_candidates service)]
    -- The breakers of the instances in question are asked; the others are not touched.
    split
    · exact ⟨_, by rw [hb, Option.map_some], ht.admits⟩
    · exact ⟨b, hb, ht⟩

/-- Operations that rewrite one record and leave every breaker alone. -/
lemma step_of_modify (h : Tracked config s) (target : String) (f : Instance → Instance)
    (hp : s.balancer.perform s.now o = (s.balancer.modify target f).2) (hi : ∀ i, (f i).id = i.id)
    (hs : ∀ id, Past.standing id ((s.now, o) :: s.past) =
      (s.balancer.instances.find? id).map fun i => if id = target then ((f i).service, (f i).health)
        else (i.service, i.health))
    (hd : o.duration = 0) (hb : ∀ id, Past.failures id ((s.now, o) :: s.past) = s.past.failures id) :
    Tracked config (s.step o) := by
  apply h.step_of fun id i => if id = target then f i else i
  · rw [hp]
    rfl
  · rw [hp, modify_names]
  · intro id
    rw [hp]
    simp only [modify, Table.find?_modify]
    split
    · rename_i he
      simp [he]
    · simp
  · intro id i
    split
    · exact hi i
    · rfl
  · intro id
    rw [hs]
    congr 1
    funext i
    split <;> rfl
  · intro id i hid
    rw [hp, hd, hb]
    exact h.breakers id i hid

lemma step_startRequest (h : Tracked config s) (target : String) :
    Tracked config (s.step (.startRequest target)) := by
  apply h.step_of_modify target (fun i => { i with active := i.active + 1 }) rfl (fun _ => rfl) ?_ rfl
  · exact fun _ => rfl
  · intro id
    simp only [ite_self]
    exact (h.standing id).symm

lemma step_updateResources (h : Tracked config s) (target : String) (cpu memory : Float) :
    Tracked config (s.step (.updateResources target cpu memory)) := by
  apply h.step_of_modify target (fun i => { i with cpu := percentage cpu, memory := percentage memory }) rfl
    (fun _ => rfl) ?_ rfl
  · exact fun _ => rfl
  · intro id
    simp only [ite_self]
    exact (h.standing id).symm

lemma step_setHealth (h : Tracked config s) (target : String) (status : Health) :
    Tracked config (s.step (.setHealth target status)) := by
  apply h.step_of_modify target (fun i => { i with health := status }) rfl (fun _ => rfl) ?_ rfl
  · exact fun _ => rfl
  · intro id
    simp only [Past.standing, ← h.standing id, Option.map_map]
    by_cases he : target = id
    · simp [he, Function.comp_def]
    · simp [he, Ne.symm he]

lemma step_recordProbe (h : Tracked config s) (target : String) (healthy : Bool) (cpu memory : Float) :
    Tracked config (s.step (.recordProbe target healthy cpu memory)) := by
  cases ht : s.balancer.instances.find? target with
  | none =>
    apply h.step_of fun _ i => i
    · simp only [perform, recordProbe, ht]
    · simp only [perform, recordProbe, ht]
    · intro id
      simp only [perform, recordProbe, ht, Option.map_id']
    · exact fun _ _ => rfl
    · intro id
      simp only [Past.standing, ← h.standing id]
      by_cases he : target = id
      · simp [← he, ht]
      · simp [he]
    · intro id i hi
      simp only [perform, recordProbe, ht]
      exact h.breakers id i hi
  | some j =>
    let f (i : Instance) : Instance :=
      { i with cpu, memory, lastCheck := some (.ofNanos s.now), health := j.health.afterProbe healthy }
    apply h.step_of_modify target f ?_ (fun _ => rfl) ?_ rfl
    · exact fun _ => rfl
    · simp only [perform, recordProbe, ht]
      rfl
    · intro id
      simp only [Past.standing, ← h.standing id, Option.map_map]
      by_cases he : target = id
      · subst he
        simp [ht, f]
      · simp [he, Ne.symm he]

lemma step_endRequest (h : Tracked config s) (target : String) (success : Bool) (took : Duration) :
    Tracked config (s.step (.endRequest target success took)) := by
  cases ht : s.balancer.instances.find? target with
  | none =>
    have hp : s.balancer.perform s.now (.endRequest target success took) = s.balancer := by
      simp [perform, endRequest, Table.contains, ht]
    apply h.step_of fun _ i => i
    · rw [hp]
    · rw [hp]
    · intro id
      rw [hp, Option.map_id']
    · exact fun _ _ => rfl
    · exact fun id => (h.standing id).symm
    · intro id i hi
      have hne : target ≠ id := by
        rintro rfl
        rw [ht] at hi
        cases hi
      simp only [hp, Past.failures, Past.endings, if_neg hne]
      exact h.breakers id i hi
  | some j =>
    have hp : s.balancer.perform s.now (.endRequest target success took) =
        { s.balancer with
          instances := s.balancer.instances.modify target (·.finish success took)
          breakers := s.balancer.breakers.insert target
            (let breaker := (s.balancer.breakers.find? target).getD (.new s.balancer.config.breaker)
            if success then breaker.succeed else (breaker.fail s.now).2) } := by
      simp [perform, endRequest, Table.contains, ht]
    apply h.step_of fun id i => if id = target then i.finish success took else i
    · rw [hp]
    · rw [hp, Table.names_modify]
    · intro id
      simp only [hp, Table.find?_modify]
      split
      · rename_i he
        simp [he]
      · simp
    · intro id i
      split <;> rfl
    · intro id
      refine (h.standing id).symm.trans ?_
      congr 1
      funext i
      split <;> rfl
    · intro id i hi
      obtain ⟨b, hb, hk⟩ := h.breakers id i hi
      simp only [hp, Table.find?_insert, Past.failures, Past.endings]
      by_cases he : id = target
      · subst he
        simp only [if_true, hb, Option.getD_some]
        refine ⟨_, rfl, ?_⟩
        cases success with
        | true => exact hk.succeed
        | false => exact hk.fail
      · rw [if_neg he, if_neg (Ne.symm he)]
        exact ⟨b, hb, hk⟩

lemma step_setAlgorithm (h : Tracked config s) (a : Algorithm) : Tracked config (s.step (.setAlgorithm a)) := by
  have hp : s.balancer.setAlgorithm a =
      { s.balancer with strategy := (s.balancer.setAlgorithm a).strategy } := by
    simp only [setAlgorithm]
    split <;> rfl
  apply h.step_of fun _ i => i
  · rw [perform, hp]
  · rw [perform, hp]
  · intro id
    rw [perform, hp, Option.map_id']
  · exact fun _ _ => rfl
  · exact fun id => (h.standing id).symm
  · intro id i hi
    rw [perform, hp]
    exact h.breakers id i hi

lemma step_timePasses (h : Tracked config s) (d : Duration) : Tracked config (s.step (.timePasses d)) where
  kept := h.kept
  names := h.names
  keyed := h.keyed
  standing := h.standing
  breakers id i hi := by
    obtain ⟨b, hb, ht⟩ := h.breakers id i hi
    exact ⟨b, hb, ht.later d⟩

theorem step (h : Tracked config s) (o : Operation) : Tracked config (s.step o) := by
  cases o with
  | register i => exact h.step_register i
  | unregister id => exact h.step_unregister id
  | select service key => exact h.step_select service key
  | startRequest id => exact h.step_startRequest id
  | endRequest id success took => exact h.step_endRequest id success took
  | recordProbe id healthy cpu memory => exact h.step_recordProbe id healthy cpu memory
  | setHealth id status => exact h.step_setHealth id status
  | updateResources id cpu memory => exact h.step_updateResources id cpu memory
  | setAlgorithm a => exact h.step_setAlgorithm a
  | timePasses d => exact h.step_timePasses d

end Step

theorem run (config : Config) (dice : Nat → Float) (operations : List Operation) :
    Tracked config (run config dice operations) :=
  run_induction (start config dice) (fun _ o h => h.step o) operations

theorem mem_candidates_iff (h : Tracked config s) {service : String} {i : Instance} :
    i ∈ s.balancer.candidates s.now service ↔
      s.balancer.instance? i.id = some i ∧ s.past.Eligible config.breaker s.now service i.id := by
  rw [candidates, admitted_fst _ (h.nodup_candidates service)]
  simp only [serving, List.mem_filter, beq_iff_eq, Instance.isHealthy]
  constructor
  · rintro ⟨⟨⟨hm, rfl⟩, hh⟩, ha⟩
    obtain ⟨⟨id, j⟩, he, rfl⟩ := List.mem_map.1 hm
    have hi := Table.find?_of_mem h.names he
    have hid := h.keyed _ _ hi
    rw [← hid] at hi
    obtain ⟨b, hb, ht⟩ := h.breakers _ _ hi
    rw [hb, Option.all_some, ht.admits_iff] at ha
    exact ⟨hi, by rw [h.standing_of_find? hi, hh], ha⟩
  · rintro ⟨hi, hs, ha⟩
    rw [instance?] at hi
    obtain ⟨b, hb, ht⟩ := h.breakers _ _ hi
    have he := h.standing_of_find? hi
    rw [hs] at he
    obtain ⟨hservice, hhealth⟩ := Prod.mk.inj (Option.some.inj he)
    refine ⟨⟨⟨?_, hservice.symm⟩, hhealth.symm⟩, ?_⟩
    · exact List.mem_map.2 ⟨_, Table.mem_of_find? hi, rfl⟩
    · rw [hb, Option.all_some, ht.admits_iff]
      exact ha

end Tracked

/-- In every run, under every way of choosing and whatever the dice, the choice falls on an instance that is
registered for the service, healthy and not blocked by its failures in a row, and it falls on nobody only
if there is no such instance. -/
theorem chooses_among_the_eligible (config : Config) (dice : Nat → Float) (operations : List Operation)
    (service : String) (key : Option String) :
    let s := run config dice operations
    (∀ i, s.choice service key = some i →
      s.balancer.instance? i.id = some i ∧ i.service = service ∧ i.health = .healthy ∧
        s.past.Eligible config.breaker s.now service i.id) ∧
    (s.choice service key = none ↔ ¬∃ id, s.past.Eligible config.breaker s.now service id) := by
  intro s
  have ht : Tracked config s := .run config dice operations
  constructor
  · intro i hi
    obtain ⟨hr, he⟩ := ht.mem_candidates_iff.1 (mem_of_select hi)
    have hs := ht.standing_of_find? hr
    rw [he.standing] at hs
    obtain ⟨hservice, hhealth⟩ := Prod.mk.inj (Option.some.inj hs)
    exact ⟨hr, hservice.symm, hhealth.symm, he⟩
  · rw [choice, select_eq_none_iff, List.eq_nil_iff_forall_not_mem]
    constructor
    · rintro hn ⟨id, he⟩
      obtain ⟨i, hi, _, _⟩ := ht.find?_of_standing he.standing
      have hid := ht.keyed id i hi
      subst hid
      exact hn i (ht.mem_candidates_iff.2 ⟨hi, he⟩)
    · intro hn i hi
      exact hn ⟨i.id, (ht.mem_candidates_iff.1 hi).2⟩

def thriceFailed : List Operation :=
  [.register { id := "a", service := "chat", host := "localhost", port := 1, health := .healthy },
    .register { id := "b", service := "chat", host := "localhost", port := 2 },
    .endRequest "a" false 5, .endRequest "a" false 5, .endRequest "a" false 5]

/-- Three failures block one instance, and the other is chosen as soon as it is healthy. -/
theorem chooses_among_the_eligible_after_failures :
    let s := run {} (fun _ => 0.0) thriceFailed
    let t := run {} (fun _ => 0.0) (thriceFailed ++ [.setHealth "b" .healthy])
    s.choice "chat" none = none ∧ (¬∃ id, s.past.Eligible {} s.now "chat" id) ∧
      ∃ i, t.choice "chat" none = some i ∧ i.id = "b" ∧ t.past.Eligible {} t.now "chat" i.id := by
  intro s t
  have hnone : s.choice "chat" none = none := by rfl
  have hsome : (t.choice "chat" none).map (·.id) = some "b" := by
    decide +kernel
  obtain ⟨i, hi, hid⟩ := Option.map_eq_some_iff.1 hsome
  have hs := (chooses_among_the_eligible {} (fun _ => 0.0) thriceFailed "chat" none).2.1 hnone
  have ht := (chooses_among_the_eligible {} (fun _ => 0.0) _ "chat" none).1 i hi
  exact ⟨hnone, hs, i, hi, hid, ht.2.2.2⟩

end History

end Serving.Balancer
