import Mathlib.Data.List.Count
import Mathlib.Logic.Function.Basic
import Serving.Proofs.Routine
import Serving.Proofs.Scaling.Roster

/-! How the pool is filled up. A loop asks for instances one by one, and counts the pool anew before each of them. If those
that come serve what they were asked for and are new to the pool, each brings the count one closer; so which calls there
will be can be told from the pool as it was, and the loop ends by itself, at the size that was wanted or at the first call
that fails. The same holds of several services one after the other, and then their order does not matter. -/

namespace Serving.Scaling

open Routine

variable {π : Type}

/-- What so many calls for instances are answered, made one after the other. -/
def replies (answer : String → π → Instant → Except Error Instance × π × Instant) :
    List String → π → Instant → List (Except Error Instance)
  | [], _, _ => []
  | service :: calls, p, now =>
    let (r, p, now) := answer service p now
    r :: replies answer calls p now

/-- Up to the first failure, what comes serves what it was asked for, under an id that none of `names` is and that
nothing else comes under. -/
def Fresh : (names calls : List String) → List (Except Error Instance) → Prop
  | names, service :: calls, .ok i :: replies =>
    i.service = service ∧ i.id ∉ names ∧ Fresh (names ++ [i.id]) calls replies
  | _, _, _ => True

instance Fresh.decidable : (names calls : List String) → (replies : List (Except Error Instance)) →
    Decidable (Fresh names calls replies)
  | names, _ :: calls, .ok i :: replies =>
    @instDecidableAnd _ _ _ (@instDecidableAnd _ _ _ (Fresh.decidable (names ++ [i.id]) calls replies))
  | _, _ :: _, .error _ :: _ => .isTrue trivial
  | _, [], _ => .isTrue trivial
  | _, _ :: _, [] => .isTrue trivial

namespace Fleet

def add (s : Fleet) (i : Instance) : Fleet :=
  { s with balancer := s.balancer.register { i with health := .healthy } }

/-- The pool with healthy instances behind all others. -/
def Gains (s : Fleet) (came : List Instance) (t : Fleet) : Prop :=
  t.balancer.instances.toList =
    s.balancer.instances.toList ++ came.map fun i => (i.id, { i with health := .healthy })

/-- The loop that asks for instances until `count` are active, however often that is. `made` have come before. -/
inductive Fills (answer : String → π → Instant → Except Error Instance × π × Instant) (service : String)
    (count : Nat) : Nat → Fleet → π → Instant → Except Error Nat → Fleet → π → Instant → Prop
  | enough {made : Nat} {s : Fleet} {p : π} {now : Instant} (reached : count ≤ s.activeCount service) :
    Fills answer service count made s p now (.ok made) s p now
  | fails {made : Nat} {s : Fleet} {p q : π} {now later : Instant} {e : Error}
    (short : s.activeCount service < count) (refused : answer service p now = (.error e, q, later)) :
    Fills answer service count made s p now (.error e) s q later
  | comes {made : Nat} {s t : Fleet} {p p' q : π} {now now' later : Instant} {i : Instance} {r : Except Error Nat}
    (short : s.activeCount service < count) (given : answer service p now = (.ok i, p', now'))
    (goesOn : Fills answer service count (made + 1) (s.add i) p' now' r t q later) :
    Fills answer service count made s p now r t q later

/-- Calls for instances, made one after the other until one fails. What comes is new and is taken into the pool. -/
inductive Gathers (answer : String → π → Instant → Except Error Instance × π × Instant) :
    List String → Fleet → π → Instant → Option Error → Fleet → π → Instant → Prop
  | all {s : Fleet} {p : π} {now : Instant} : Gathers answer [] s p now none s p now
  | fails {service : String} {calls : List String} {s : Fleet} {p q : π} {now later : Instant} {e : Error}
    (refused : answer service p now = (.error e, q, later)) :
    Gathers answer (service :: calls) s p now (some e) s q later
  | comes {calls : List String} {s t : Fleet} {p p' q : π} {now now' later : Instant} {i : Instance}
    {failure : Option Error} (given : answer i.service p now = (.ok i, p', now'))
    (new : i.id ∉ s.balancer.instances.names)
    (goesOn : Gathers answer calls (s.add i) p' now' failure t q later) :
    Gathers answer (i.service :: calls) s p now failure t q later

/-- Replies with which no more instances come, and the failure if there is one. -/
inductive Stops : List (Except Error Instance) → Option Error → Prop
  | all : Stops [] none
  | fails {e : Error} {rest : List (Except Error Instance)} : Stops (.error e :: rest) (some e)

variable {answer : String → π → Instant → Except Error Instance × π × Instant}
  {service : String} {count : Nat} {calls : List String} {s t : Fleet} {p q : π} {now later : Instant}
  {failure : Option Error} {wanted : List (String × Nat)}

/-- What is answered in the end, if all calls that were to be made are `count`. -/
def outcome (failure : Option Error) (count : Nat) : Except Error Nat := failure.elim (.ok count) .error

lemma length_replies (calls : List String) (p : π) (now : Instant) :
    (replies answer calls p now).length = calls.length := by
  induction calls generalizing p now with
  | nil => rfl
  | cons service calls ih => rw [replies, List.length_cons, ih, List.length_cons]

section Addition

variable {i : Instance} (hi : i.id ∉ s.balancer.instances.names)

include hi

lemma toList_add : (s.add i).balancer.instances.toList =
    s.balancer.instances.toList ++ [(i.id, { i with health := .healthy })] := Table.toList_insert hi _

lemma names_add : (s.add i).balancer.instances.names = s.balancer.instances.names ++ [i.id] := by
  rw [Table.names, toList_add hi, List.map_append]
  rfl

lemma activeCount_add (service : String) :
    (s.add i).activeCount service = s.activeCount service + if i.service = service then 1 else 0 := by
  have hroster : (s.add i).balancer.roster = s.balancer.roster.insert i.id ⟨i.id, i.service, false⟩ :=
    Balancer.roster_register ..
  rw [activeCount_of_insert hroster (by rwa [Balancer.names_roster])]
  simp [Member.counts]

lemma healthyCount_add (service : String) : (s.add i).balancer.healthyCount service =
    s.balancer.healthyCount service + if i.service = service then 1 else 0 := by
  rw [Balancer.healthyCount, Balancer.serving, Table.values, toList_add hi]
  by_cases hs : i.service = service <;>
    simp [Balancer.healthyCount, Balancer.serving, Table.values, Instance.isHealthy, hs]

end Addition

lemma exists_gathers (h : Fresh s.balancer.instances.names calls (replies answer calls p now)) :
    ∃ failure t q later, Gathers answer calls s p now failure t q later := by
  induction calls generalizing s p now with
  | nil => exact ⟨_, _, _, _, .all⟩
  | cons service calls ih =>
    rw [replies] at h
    rcases hr : answer service p now with ⟨e | i, p', now'⟩
    · exact ⟨_, _, _, _, .fails hr⟩
    · rw [hr] at h
      obtain ⟨rfl, hnew, hrest⟩ := h
      rw [← names_add hnew] at hrest
      obtain ⟨failure, t, q, later, hgathers⟩ := ih hrest
      exact ⟨failure, t, q, later, .comes hr hnew hgathers⟩

namespace Gathers

lemma config (h : Gathers answer calls s p now failure t q later) : t.config = s.config := by
  induction h with
  | all | fails => rfl
  | comes _ _ _ ih => exact ih

/-- A number to which each new instance of a service adds one. -/
lemma number (h : Gathers answer calls s p now none t q later) {f : Fleet → Nat}
    (hf : ∀ (s : Fleet) (i : Instance), i.id ∉ s.balancer.instances.names →
      f (s.add i) = f s + if i.service = service then 1 else 0) : f t = f s + calls.count service := by
  generalize hnone : (none : Option Error) = failure at h
  induction h with
  | all => rfl
  | fails => cases hnone
  | comes _ new _ ih =>
    rw [ih hnone, hf _ _ new, List.count_cons]
    simp only [beq_iff_eq]
    omega

lemma activeCount (h : Gathers answer calls s p now none t q later) (service : String) :
    t.activeCount service = s.activeCount service + calls.count service :=
  h.number (f := fun s => s.activeCount service) fun _ _ hi => activeCount_add hi service

lemma healthyCount (h : Gathers answer calls s p now none t q later) (service : String) :
    t.balancer.healthyCount service = s.balancer.healthyCount service + calls.count service :=
  h.number (f := fun s => s.balancer.healthyCount service) fun _ _ hi => healthyCount_add hi service

lemma ends (h : Gathers answer calls s p now failure t q later) {came : List Instance}
    {rest : List (Except Error Instance)} {failed : Option Error} (hs : Stops rest failed)
    (hr : replies answer calls p now = came.map .ok ++ rest) :
    failure = failed ∧ s.Gains came t ∧ came.map (·.service) <+: calls := by
  induction h generalizing came with
  | all =>
    obtain ⟨hcame, rfl⟩ := List.append_eq_nil_iff.1 hr.symm
    obtain rfl := List.map_eq_nil_iff.1 hcame
    cases hs
    exact ⟨rfl, (List.append_nil _).symm, List.nil_prefix⟩
  | fails refused =>
    rw [replies, refused] at hr
    cases came with
    | nil =>
      subst hr
      cases hs
      exact ⟨rfl, (List.append_nil _).symm, List.nil_prefix⟩
    | cons => cases hr
  | comes given new goesOn ih =>
    rw [replies, given] at hr
    cases came with
    | nil =>
      subst hr
      cases hs
    | cons i came =>
      obtain ⟨hi, hrest⟩ := List.cons.inj hr
      obtain rfl := Except.ok.inj hi
      obtain ⟨hfailed, hgains, hserved⟩ := ih hrest
      rw [Gains, toList_add new, List.append_assoc] at hgains
      exact ⟨hfailed, hgains, List.cons_prefix_cons.2 ⟨rfl, hserved⟩⟩

lemma split {more : List String} (h : Gathers answer (calls ++ more) s p now failure t q later) :
    (∃ e, failure = some e ∧ Gathers answer calls s p now (some e) t q later) ∨
    ∃ u p' now', Gathers answer calls s p now none u p' now' ∧ Gathers answer more u p' now' failure t q later := by
  induction calls generalizing s p now with
  | nil => exact .inr ⟨s, p, now, .all, h⟩
  | cons service calls ih =>
    cases h with
    | fails refused => exact .inl ⟨_, rfl, .fails refused⟩
    | comes given new goesOn =>
      rcases ih goesOn with ⟨e, he, hcalls⟩ | ⟨u, p', now', hcalls, hmore⟩
      · exact .inl ⟨e, he, .comes given new hcalls⟩
      · exact .inr ⟨u, p', now', .comes given new hcalls, hmore⟩

lemma run_addInstances {rounds : Nat} (made : Nat) (hr : count - s.activeCount service ≤ rounds)
    (h : Gathers answer (List.replicate (count - s.activeCount service) service) s p now failure t q later) :
    Routine.run answer (addInstances service count rounds made s) p now =
      (outcome failure (made + (count - s.activeCount service)), t, q, later) := by
  -- The pool is counted anew in each round, and what has come brings the count one closer.
  generalize hm : count - s.activeCount service = missing at h hr ⊢
  induction rounds generalizing missing made s p now with
  | zero =>
    obtain rfl := Nat.le_zero.1 hr
    cases h
    rfl
  | succ rounds ih =>
    rw [addInstances]
    cases missing with
    | zero =>
      rw [if_neg (by omega)]
      cases h
      rfl
    | succ missing =>
      rw [if_pos (by omega)]
      rw [List.replicate_succ] at h
      cases h with
      | fails refused =>
        rw [Routine.run, refused]
        rfl
      | @comes _ _ _ _ p' _ _ now' _ i _ given new goesOn =>
        have hless : count - (s.add i).activeCount i.service = missing := by
          rw [activeCount_add new, if_pos rfl]
          omega
        rw [Routine.run, given, Nat.add_comm missing, ← Nat.add_assoc]
        exact ih _ missing hless goesOn (Nat.le_of_succ_le_succ hr)

lemma run_ensureInstances
    (h : Gathers answer (List.replicate (count - s.activeCount service) service) s p now failure t q later) :
    Routine.run answer (s.ensureInstances service count) p now =
      (outcome failure (count - s.activeCount service), t, q, later) := by
  have hrun := h.run_addInstances 0 (Nat.le_add_right _ s.balancer.instances.size)
  rwa [Nat.zero_add] at hrun

end Gathers

/-- A loop that has failed, or has as many as it wants, did not end for want of rounds. -/
lemma fills_of_run (rounds made : Nat) (s : Fleet) (p : π) (now : Instant) {r : Except Error Nat}
    (hr : Routine.run answer (addInstances service count rounds made s) p now = (r, t, q, later))
    (hd : r.isOk = true → count ≤ t.activeCount service) : Fills answer service count made s p now r t q later := by
  induction rounds generalizing made s p now with
  | zero =>
    cases hr
    exact .enough (hd rfl)
  | succ rounds ih =>
    rw [addInstances] at hr
    split at hr
    · rename_i hshort
      rw [Routine.run] at hr
      rcases hanswer : answer service p now with ⟨e | i, p', now'⟩
      · rw [hanswer] at hr
        cases hr
        exact .fails hshort hanswer
      · rw [hanswer] at hr
        exact .comes hshort hanswer (ih _ _ _ _ hr)
    · rename_i hreached
      cases hr
      exact .enough (Nat.le_of_not_lt hreached)

/-! ### Several services -/

/-- How many instances are active when services have got what was wanted of them, one after the other. -/
def raised (wanted : List (String × Nat)) (active : String → Nat) : String → Nat :=
  wanted.foldl (fun active e => Function.update active e.1 (max (active e.1) e.2)) active

/-- The calls it takes until services have got what is wanted of them, if so many of their instances are active. -/
def missing : (wanted : List (String × Nat)) → (active : String → Nat) → List String
  | [], _ => []
  | e :: rest, active =>
    List.replicate (e.2 - active e.1) e.1 ++ missing rest (raised [e] active)

lemma missing_append (first rest : List (String × Nat)) (active : String → Nat) :
    missing (first ++ rest) active = missing first active ++ missing rest (raised first active) := by
  induction first generalizing active with
  | nil => rfl
  | cons e first ih => rw [List.cons_append, missing, missing, ih, List.append_assoc]; rfl

lemma count_missing (wanted : List (String × Nat)) (active : String → Nat) (service : String) :
    active service + (missing wanted active).count service = raised wanted active service := by
  induction wanted generalizing active with
  | nil => rfl
  | cons e rest ih =>
    have hraised : raised (e :: rest) active = raised rest (raised [e] active) := rfl
    rw [hraised, ← ih, missing, List.count_append, List.count_replicate, ← Nat.add_assoc]
    congr 1
    by_cases he : e.1 = service
    · subst he
      simp [raised]
      omega
    · simp [raised, he, Ne.symm he]

/-- A service ends up with the largest of its numbers, wherever they stand. -/
lemma raised_le_iff (wanted : List (String × Nat)) (active : String → Nat) (service : String) (n : Nat) :
    raised wanted active service ≤ n ↔ active service ≤ n ∧ ∀ m, (service, m) ∈ wanted → m ≤ n := by
  induction wanted generalizing active with
  | nil => simp [raised]
  | cons e rest ih =>
    have hraised : raised (e :: rest) active = raised rest (raised [e] active) := rfl
    rw [hraised, ih]
    obtain ⟨name, m⟩ := e
    by_cases he : name = service
    · subst he
      have hfirst : raised [(name, m)] active name = max (active name) m := Function.update_self ..
      rw [hfirst, Nat.max_le]
      simp [and_assoc]
    · simp [raised, Ne.symm he]

namespace Gathers

lemma raised (h : Gathers answer (missing wanted s.activeCount) s p now none t q later) :
    t.activeCount = Fleet.raised wanted s.activeCount :=
  funext fun service => (h.activeCount service).trans (count_missing ..)

lemma run_ensureAll (made : Nat) (h : Gathers answer (missing wanted s.activeCount) s p now failure t q later) :
    Routine.run answer (ensureAll wanted made s now) p now =
      (outcome failure (made + (missing wanted s.activeCount).length), t, q, later) := by
  induction wanted generalizing made s p now with
  | nil =>
    cases h
    rfl
  | cons e rest ih =>
    rw [missing] at h
    rw [ensureAll, Routine.run_andThen]
    rcases h.split with ⟨error, rfl, hfirst⟩ | ⟨u, p', now', hfirst, hrest⟩
    · rw [hfirst.run_ensureInstances]
      rfl
    · rw [hfirst.run_ensureInstances]
      have hone : Gathers answer (missing [e] s.activeCount) s p now none u p' now' := by
        rwa [missing, missing, List.append_nil]
      have hu : u.activeCount = Fleet.raised [e] s.activeCount := hone.raised
      rw [← hu] at hrest
      rw [missing, List.length_append, ← hu, List.length_replicate, ← Nat.add_assoc]
      exact ih _ hrest

end Gathers

/-- What comes of a service that is short of instances, if those that come are fresh: the loop ends by itself, and unless
a call fails, all that were missing are there. -/
theorem ensureInstances_of_fresh (s : Fleet) (service : String) (count : Nat) (p : π) (now : Instant)
    (hf : Fresh s.balancer.instances.names (List.replicate (count - s.activeCount service) service)
      (replies answer (List.replicate (count - s.activeCount service) service) p now)) :
    ∃ r t q later, Routine.run answer (s.ensureInstances service count) p now = (r, t, q, later) ∧
      Fills answer service count 0 s p now r t q later ∧
      ∀ came rest failed, Stops rest failed →
        replies answer (List.replicate (count - s.activeCount service) service) p now = came.map .ok ++ rest →
        r = outcome failed (count - s.activeCount service) ∧ s.Gains came t ∧ ∀ i ∈ came, i.service = service := by
  obtain ⟨failure, t, q, later, h⟩ := exists_gathers hf
  have hrun := h.run_ensureInstances
  refine ⟨_, t, q, later, hrun, fills_of_run _ _ _ _ _ hrun fun hok => ?_, fun came rest failed hs hr => ?_⟩
  · cases failure with
    | some e => cases hok
    | none =>
      rw [h.activeCount, List.count_replicate_self]
      omega
  · obtain ⟨rfl, hgains, hserved⟩ := h.ends hs hr
    exact ⟨rfl, hgains, fun i hi => List.eq_of_mem_replicate (hserved.subset (List.mem_map_of_mem hi))⟩

end Fleet

end Serving.Scaling
