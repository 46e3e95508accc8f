import Mathlib.Tactic.Lemma
import Serving.Settings.Basic

/-! What valid settings are good for. What one part says of another is true, and no size, number of permits, bound or
period is one that the parts could not work with. -/

namespace Serving

lemma Batch.Model.sizes_of_problems {m : Model} (h : m.problems = []) :
    1 ≤ m.idealSize ∧ m.idealSize ≤ m.maxSize ∧ 1 ≤ m.concurrency := by
  simp only [problems, List.append_eq_nil_iff, ite_eq_right_iff, List.cons_ne_nil, imp_false, not_or] at h
  omega

lemma Batch.Config.problems_of_model {c : Config} (h : c.problems = []) {name : String} {m : Model}
    (hm : c.models.find? name = some m) : m.problems = [] := by
  have hmodels := (List.append_eq_nil_iff.1 h).2
  exact List.map_eq_nil_iff.1 (List.flatMap_eq_nil_iff.1 hmodels _ (Table.mem_of_find? hm))

lemma Batch.Config.tickInterval_ne_zero {c : Config} (h : c.problems = []) : c.tickInterval ≠ 0 := by
  simp only [problems, List.append_eq_nil_iff, ite_eq_right_iff, List.cons_ne_nil, imp_false] at h
  exact h.1.1.1.1.2

lemma Balancer.Config.healthInterval_ne_zero {c : Config} (h : c.problems = []) : c.healthInterval ≠ 0 := by
  simp only [problems, List.append_eq_nil_iff, ite_eq_right_iff, List.cons_ne_nil, imp_false] at h
  exact h.1.1

lemma Scaling.Config.problems_eq_nil_iff {c : Config} :
    c.problems = [] ↔ c.interval ≠ 0 ∧ c.policyProblems = [] := by
  rw [problems, List.append_eq_nil_iff]
  simp only [ite_eq_right_iff, List.cons_ne_nil, imp_false, ne_eq]

namespace Settings

variable {s : Settings}

lemma maintenance_ne_zero {m : Maintenance} (h : maintenanceProblems m = []) :
    m.statsInterval ≠ 0 ∧ m.sweepInterval ≠ 0 ∧ m.cleanupInterval ≠ 0 := by
  simpa only [maintenanceProblems, ite_eq_right_iff, List.cons_ne_nil, imp_false, not_or] using h

namespace IsValid

/-- Nothing is wrong with the parts that the gateway is made of, nor between them. -/
lemma parts (h : s.IsValid) : s.balancing.problems = [] ∧ s.scaling.problems = [] ∧ s.batching.problems = [] ∧
    s.routingProblems = [] ∧ maintenanceProblems s.maintenance = [] := by
  simp only [IsValid, problems, List.append_eq_nil_iff, List.map_eq_nil_iff] at h
  obtain ⟨⟨⟨⟨⟨⟨⟨⟨-, hbalancing⟩, hscaling⟩, hbatching⟩, hrouting⟩, hmaintenance⟩, -⟩, -⟩, -⟩ := h
  exact ⟨hbalancing, hscaling, hbatching, hrouting, hmaintenance⟩

lemma scaling (h : s.IsValid) : s.scaling.problems = [] := h.parts.2.1

lemma batching (h : s.IsValid) : s.batching.problems = [] := h.parts.2.2.1

lemma sizes (h : s.IsValid) {name : String} {m : Batch.Model} (hm : s.batching.models.find? name = some m) :
    1 ≤ m.idealSize ∧ m.idealSize ≤ m.maxSize ∧ 1 ≤ m.concurrency :=
  Batch.Model.sizes_of_problems (Batch.Config.problems_of_model h.batching hm)

lemma routed (h : s.IsValid) : s.routingProblems = [] := h.parts.2.2.2.1

lemma routing (h : s.IsValid) {request type : String} (hr : s.routing.cacheTypes.find? request = some type) :
    ∃ config, s.cache.types.find? type = some config := by
  have hknown := List.filterMap_eq_nil_iff.1 (List.append_eq_nil_iff.1 h.routed).1 _ (Table.mem_of_find? hr)
  dsimp only at hknown
  split at hknown
  · rename_i hcontains
    exact Option.isSome_iff_exists.1 hcontains
  · cases hknown

lemma defaultModel (h : s.IsValid) : ∃ m, s.batching.models.find? s.routing.defaultModel = some m := by
  have hknown := (List.append_eq_nil_iff.1 h.routed).2
  split at hknown
  · rename_i hcontains
    exact Option.isSome_iff_exists.1 hcontains
  · cases hknown

end IsValid

end Settings

end Serving
