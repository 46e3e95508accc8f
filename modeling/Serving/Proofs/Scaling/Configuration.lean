import Serving.Proofs.Routine
import Serving.Proofs.Scaling.Bounds
import Serving.Proofs.Settings.Validity

/-! The settings of a scaler change when somebody replaces them and at no other time. Evaluations, the filling up of the
pool and what is done later all leave them as they are, and no replacement is taken over that anything is wrong with. -/

namespace Serving.Scaling.Fleet

open Routine

variable {α π : Type} {s : Fleet} {service : String} {now : Instant} {p : π}
  {answer : String → π → Instant → Except Error Instance × π × Instant}

/-- An operation ends with some settings. -/
def Settles (answer : String → π → Instant → Except Error Instance × π × Instant) (config : Config)
    (operation : Operation α) (p : π) (now : Instant) : Prop :=
  Ends answer operation p now fun _ s _ _ => s.config = config

lemma settles_evaluateAndScale (s : Fleet) (service : String) (start now : Instant) (p : π) :
    Settles answer s.config (s.evaluateAndScale service start) p now := by
  have hconducted := s.conducted service start
  generalize s.evaluateAndScale service start = operation at hconducted ⊢
  cases hconducted with
  | rests decided | retires decided | misses decided =>
    obtain ⟨records, rfl⟩ := (judged_of_decide decided).records
    exact rfl
  | asks decided =>
    obtain ⟨records, rfl⟩ := (judged_of_decide decided).records
    refine ends_call.2 ?_
    cases (answer service p now).1 <;> exact rfl

lemma settles_addInstances (count rounds made : Nat) (s : Fleet) (p : π) (now : Instant) :
    Settles answer s.config (addInstances service count rounds made s) p now := by
  induction rounds generalizing made s p now with
  | zero => exact rfl
  | succ rounds ih =>
    rw [addInstances]
    split
    · refine ends_call.2 ?_
      cases (answer service p now).1 with
      | error e => exact rfl
      | ok i =>
        exact ih (made + 1) { s with balancer := s.balancer.register { i with health := .healthy } } _ _
    · exact rfl

lemma settles_ensureAll (wanted : List (String × Nat)) (made : Nat) (s : Fleet) (p : π) (now : Instant) :
    Settles answer s.config (ensureAll wanted made s now) p now := by
  induction wanted generalizing made s p now with
  | nil => exact rfl
  | cons e rest ih =>
    rw [Settles, ensureAll, ends_andThen]
    have hfirst : Settles answer s.config (s.ensureInstances e.1 e.2) p now := settles_addInstances e.2 _ 0 s p now
    refine hfirst.mono fun r t p now ht => ?_
    cases r with
    | error e => exact ht
    | ok n =>
      rw [← ht]
      exact ih (made + n) t p now

lemma config_finishStart (s : Fleet) (id : String) : (s.finishStart id).config = s.config := by
  rw [finishStart]
  split
  · rfl
  · split <;> rfl

lemma config_finishRetirement (provisioner : Provisioner π) (s : Fleet) (p : π) (victim : Instance) :
    (s.finishRetirement provisioner p victim).1.config = s.config := by
  rw [finishRetirement]
  split <;> rfl

/-! ### Replacements -/

lemma problems_updatePolicy (h : s.config.problems = []) (service : String) (p : Policy) :
    (s.updatePolicy service p).2.config.problems = [] := by
  rw [updatePolicy]
  split
  · rename_i hp
    rw [Config.problems_eq_nil_iff, Config.policyProblems_eq_nil_iff] at h ⊢
    refine ⟨h.1, fun e he => ?_⟩
    rcases Table.mem_insert he with rfl | he
    · exact hp
    · exact h.2 e he
  · exact h

lemma problems_updateConfig (h : s.config.problems = []) {config : Config} (hc : config.problems = []) :
    (s.updateConfig config).2.config.problems = [] := by
  rw [updateConfig]
  split
  · exact hc
  · exact h

end Serving.Scaling.Fleet
