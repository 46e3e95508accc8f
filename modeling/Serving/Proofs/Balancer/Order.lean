import Serving.Proofs.Balancer.Eligibility

/-! The instances in the order in which they came, as the past tells it. The candidates for a service are in this order
the instances that the past admits, and a choice is a place in their list. -/

namespace Serving

lemma Strategy.choose_algorithm (s : Strategy) (service : String) (candidates : List Instance) (key : Option String)
    (dice : Float) : (s.choose service candidates key dice).2.algorithm = s.algorithm := by
  simp only [choose]
  split
  · rfl
  · cases ha : s.algorithm with
    | ipHash => cases key <;> exact ha
    | roundRobin | leastConnections | weighted => exact ha

namespace Balancer

/-- Only a choice and a change of the way of choosing touch the strategy. -/
lemma perform_strategy (b : Balancer) (now : Instant) (o : Operation) :
    (b.perform now o).strategy = match o with
      | .select service key => (b.strategy.choose service (b.candidates now service) key (b.dice b.selected)).2
      | .setAlgorithm a => if b.strategy.algorithm = a then b.strategy else ⟨a, ∅⟩
      | _ => b.strategy := by
  cases o with
  | select service key =>
    simp only [perform, select, candidates]
    split <;> rfl
  | setAlgorithm a =>
    simp only [perform, setAlgorithm]
    split <;> rfl
  | recordProbe id healthy cpu memory =>
    simp only [perform, recordProbe]
    split <;> rfl
  | endRequest id success took =>
    simp only [perform, endRequest]
    split <;> rfl
  | register | unregister | startRequest | setHealth | updateResources | timePasses => rfl

namespace Past

/-- An instance that is registered anew keeps its place; one that was removed loses it. -/
def order : Past → List String
  | [] => []
  | (_, .register i) :: past => if i.id ∈ order past then order past else order past ++ [i.id]
  | (_, .unregister id) :: past => (order past).filter (· != id)
  | _ :: past => order past

instance (config : Breaker.Config) (now : Instant) (service id : String) (past : Past) :
    Decidable (past.Eligible config now service id) :=
  decidable_of_iff (past.standing id = some (service, .healthy) ∧ ¬Breaker.Blocked config now (past.failures id))
    ⟨fun h => ⟨h.1, h.2⟩, fun h => ⟨h.standing, h.admitted⟩⟩

end Past

namespace History

def eligible (s : History) (service : String) : List String :=
  s.past.order.filter fun id => s.past.Eligible s.balancer.config.breaker s.now service id

variable {config : Config} {s : History}

lemma names_step (s : History) (o : Operation) (h : s.balancer.instances.names = s.past.order) :
    (s.step o).balancer.instances.names = (s.step o).past.order := by
  cases o with
  | register i => simp only [step, perform, register_names, Past.order, h]
  | unregister id => simp only [step, perform, unregister_names, Past.order, h]
  | select service key =>
    rw [step, perform, select_instances]
    exact h
  | startRequest | setHealth | updateResources => exact (Table.names_modify ..).trans h
  | recordProbe id healthy cpu memory =>
    simp only [step, perform, recordProbe]
    split
    · exact h
    · exact (Table.names_modify ..).trans h
  | endRequest id success took =>
    simp only [step, perform, endRequest]
    split
    · exact (Table.names_modify ..).trans h
    · exact h
  | setAlgorithm a =>
    simp only [step, perform, setAlgorithm]
    split <;> exact h
  | timePasses d => exact h

/-- What is known of a balancer from its past, the order of its instances included. -/
structure Ordered (config : Config) (s : History) : Prop extends Tracked config s where
  order : s.balancer.instances.names = s.past.order

lemma algorithm_step (s : History) (o : Operation) (ho : ∀ a, o = .setAlgorithm a → a = s.balancer.algorithm) :
    (s.step o).balancer.algorithm = s.balancer.algorithm := by
  rw [algorithm, step, perform_strategy]
  cases o with
  | select service key => exact Strategy.choose_algorithm ..
  | setAlgorithm a => exact congrArg Strategy.algorithm (if_pos (ho a rfl).symm)
  | register | unregister | startRequest | endRequest | recordProbe | setHealth | updateResources | timePasses => rfl

namespace Ordered

lemma step (h : Ordered config s) (o : Operation) : Ordered config (s.step o) :=
  ⟨h.toTracked.step o, names_step s o h.order⟩

theorem run (config : Config) (dice : Nat → Float) (operations : List Operation) :
    Ordered config (run config dice operations) :=
  run_induction ⟨.start config dice, rfl⟩ (fun _ o h => h.step o) operations

lemma nodup_order (h : Ordered config s) : s.past.order.Nodup := h.order ▸ h.names

lemma nodup_eligible (h : Ordered config s) (service : String) : (s.eligible service).Nodup :=
  h.nodup_order.filter _

lemma mem_eligible_iff (h : Ordered config s) {service id : String} :
    id ∈ s.eligible service ↔ s.past.Eligible config.breaker s.now service id := by
  rw [eligible, h.kept, List.mem_filter, decide_eq_true_eq]
  refine and_iff_right_of_imp fun he => ?_
  obtain ⟨i, hi, _⟩ := h.find?_of_standing he.standing
  exact h.order ▸ Table.mem_names_of_find? hi

lemma candidates_ids (h : Ordered config s) (service : String) :
    (s.balancer.candidates s.now service).map (·.id) = s.eligible service := by
  obtain ⟨asked, hasked⟩ : ∃ asked, s.balancer.candidates s.now service =
      s.balancer.instances.values.filter asked := by
    rw [candidates, admitted_fst _ (h.nodup_candidates service), serving, List.filter_filter, List.filter_filter]
    exact ⟨_, rfl⟩
  rw [eligible, ← h.order, ← h.ids, List.filter_map, hasked]
  congr 1
  refine List.filter_congr fun i hi => ?_
  obtain ⟨e, he, rfl⟩ := List.mem_map.1 hi
  have hfind := Table.find?_of_mem h.names he
  rw [← h.keyed _ _ hfind] at hfind
  have hmem : e.2 ∈ s.balancer.candidates s.now service ↔
      s.past.Eligible config.breaker s.now service e.2.id := by
    rw [h.mem_candidates_iff]
    exact and_iff_right hfind
  rw [hasked, List.mem_filter, and_iff_right hi] at hmem
  rw [Bool.eq_iff_iff, hmem, Function.comp_apply, decide_eq_true_eq, h.kept]

lemma choice_eq_none_iff (h : Ordered config s) {service : String} {key : Option String} :
    s.choice service key = none ↔ s.eligible service = [] := by
  rw [choice, select_eq_none_iff, ← h.candidates_ids, List.map_eq_nil_iff]

end Ordered

end History

end Balancer

end Serving
