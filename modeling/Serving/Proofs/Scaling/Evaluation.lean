import Mathlib.Tactic.Lemma
import Serving.Scaling.Scaler

/-! What an evaluation can come to: the pool stays as it is, or an instance is asked for while there is room for
one more, or one is retired of more than the least number. Beyond the least number, a step is decided only after
the cool-down of the last one of its kind. -/

namespace Serving.Scaling

lemma lt_of_cooled {last : Option Instant} {cooldown : Duration} {now t : Instant}
    (h : isCooling last cooldown now = false) (ht : last = some t) : t + cooldown < now := by
  rw [ht, isCooling, Option.any_some, decide_eq_false_iff_not] at h
  simp only [Instant, Duration] at *
  omega

/-- The times of the last steps. -/
def Record.times (r : Record) : Option Instant × Option Instant := (r.lastUp, r.lastDown)

namespace Policy

/-- What may be decided at a time for a service with so many instances that do not stop, given what is known of
it. -/
inductive Grants (p : Policy) (service : String) (active : Nat) (r : Record) (now : Instant) : Decision → Prop
  | none : Grants p service active r now .none
  | restore (reason : Reason) (short : active < p.minInstances) : Grants p service active r now (.up service reason)
  | grow (reason : Reason) (enough : p.minInstances ≤ active) (room : active < p.maxInstances)
      (cooled : isCooling r.lastUp p.upCooldown now = false) : Grants p service active r now (.up service reason)
  | shrink (reason : Reason) (spare : p.minInstances < active)
      (cooled : isCooling r.lastDown p.downCooldown now = false) :
      Grants p service active r now (.down service reason)

variable {p : Policy}

lemma min_le_max (h : p.problems = []) : p.minInstances ≤ p.maxInstances := by
  apply Nat.le_of_not_lt
  intro hlt
  simp [problems, hlt] at h

theorem grants_decision (p : Policy) (service : String) (active : Nat) (load : Option Load) (r : Record)
    (now : Instant) : p.Grants service active r now (p.decision service active load r now) := by
  unfold decision
  split
  · rename_i hmin
    exact .restore _ hmin
  · rename_i hmin
    cases load with
    | none => exact .none
    | some l =>
      dsimp only
      split
      · split
        · exact .none
        · rename_i hroom
          rw [Bool.or_eq_true, not_or, decide_eq_true_eq, Nat.not_le, Bool.not_eq_true] at hroom
          exact .grow _ (Nat.le_of_not_lt hmin) hroom.1 hroom.2
      · split
        · split
          · exact .none
          · rename_i hspare
            rw [Bool.or_eq_true, not_or, decide_eq_true_eq, Nat.not_le, Bool.not_eq_true] at hspare
            exact .shrink _ hspare.1 hspare.2
        · exact .none

end Policy

namespace Fleet

variable {s : Fleet} {service : String}

lemma updatePolicy_of_error {p : Policy} {e : Error} (h : (s.updatePolicy service p).1 = .error e) :
    (s.updatePolicy service p).2 = s := by
  rw [updatePolicy] at h ⊢
  split at h
  · cases h
  · rfl

lemma updateConfig_of_error {config : Config} {e : Error} (h : (s.updateConfig config).1 = .error e) :
    (s.updateConfig config).2 = s := by
  rw [updateConfig] at h ⊢
  split at h
  · cases h
  · rfl

/-- What comes of deciding for a service: without a policy nothing; with one, a decision that it grants, and a
record that keeps the time of a step if the decision is final. -/
inductive Judged (s : Fleet) (service : String) (now : Instant) (isFinal : Bool) : Decision × Fleet → Prop
  | unruled (policy : s.policy service = none) : Judged s service now isFinal (.none, s)
  | ruled {p : Policy} {d : Decision} {r : Record} (policy : s.policy service = some p)
      (grants : p.Grants service (s.activeCount service) (s.record service) now d)
      (times : r.times = (if isFinal then commit (s.record service) d now else s.record service).times) :
      Judged s service now isFinal (d, { s with records := s.records.insert service r })

lemma times_commit {r r' : Record} (h : r'.times = r.times) (d : Decision) (now : Instant) :
    (commit r' d now).times = (commit r d now).times := by
  obtain ⟨hup, hdown⟩ := Prod.mk.inj h
  cases d <;> simp [commit, Record.times, hup, hdown]

theorem judged (s : Fleet) (service : String) (now : Instant) (isFinal : Bool) :
    s.Judged service now isFinal (s.decide service now isFinal) := by
  rw [decide]
  cases hp : s.policy service with
  | none => exact .unruled hp
  | some p =>
    -- Pruning drops samples only, so that what is granted and the times are those of the record before.
    refine .ruled hp (p.grants_decision ..) ?_
    split
    · refine times_commit ?_ _ _
      rfl
    · rfl

lemma judged_of_decide {t : Fleet} {now : Instant} {isFinal : Bool} {d : Decision}
    (h : s.decide service now isFinal = (d, t)) : s.Judged service now isFinal (d, t) :=
  h ▸ s.judged service now isFinal

namespace Judged

variable {t : Fleet} {now : Instant} {isFinal : Bool} {d : Decision}

lemma records (h : s.Judged service now isFinal (d, t)) : ∃ records, t = { s with records } := by
  cases h with
  | unruled => exact ⟨s.records, rfl⟩
  | ruled => exact ⟨_, rfl⟩

lemma grants (h : s.Judged service now isFinal (d, t)) {p : Policy} (hp : s.policy service = some p) :
    p.Grants service (s.activeCount service) (s.record service) now d := by
  cases h with
  | unruled policy =>
    rw [policy] at hp
    cases hp
  | ruled policy grants times =>
    rw [policy] at hp
    exact Option.some.inj hp ▸ grants

lemma exists_policy (h : s.Judged service now isFinal (d, t)) (hd : d ≠ .none) :
    ∃ p, s.policy service = some p := by
  cases h with
  | unruled => exact absurd rfl hd
  | ruled policy grants times => exact ⟨_, policy⟩

lemma times (h : s.Judged service now isFinal (d, t)) (other : String) :
    (t.record other).times =
      (if isFinal ∧ other = service then commit (s.record other) d now else s.record other).times := by
  cases h with
  | unruled =>
    rw [commit, ite_self]
  | ruled policy grants times =>
    rw [record, Table.find?_insert]
    by_cases ho : other = service
    · subst ho
      simpa using times
    · simp [ho, record]

end Judged

lemma records_finishStart (s : Fleet) (id : String) : (s.finishStart id).records = s.records := by
  rw [finishStart]
  split
  · rfl
  · split <;> rfl

/-- What a call that asked for an instance does with the answer. -/
def takeIn (d : Decision) (service : String) (reason : Reason) (before : Nat) :
    Except Error Instance → Fleet → Instant → Operation Step
  | .error e, s, _ => .done ⟨.error e, none⟩ s
  | .ok i, s, _ =>
    .done ⟨.ok d, some (s.config.startupDelay, .started i.id)⟩
      ({ s with balancer := s.balancer.register { i with health := .starting } }.remember
        ⟨service, .up, i.id, reason.text, before⟩)

lemma scaleUp_eq (s : Fleet) (d : Decision) (service : String) (reason : Reason) :
    s.scaleUp d service reason = .call service s (takeIn d service reason (s.activeCount service)) := by
  rw [scaleUp]
  congr
  funext made t _
  cases made <;> rfl

lemma getLast?_remember (s : Fleet) (e : Event) : (s.remember e).history.getLast? = some e := by
  have hlt : s.history.length + 1 - max s.config.historyLimit 1 < s.history.length + 1 := by omega
  simp [remember, List.getLast?_drop, Nat.not_le.2 hlt]

lemma mem_of_victim? {v : Instance} (h : s.victim? service = some v) :
    v ∈ s.balancer.serving service ∧ v.isHealthy = true := by
  obtain ⟨place, _, hv⟩ := Option.bind_eq_some_iff.1 h
  exact List.mem_filter.1 (List.mem_of_getElem? hv)

lemma find?_of_victim? {v : Instance} (hn : s.balancer.instances.names.Nodup)
    (hk : ∀ id i, s.balancer.instances.find? id = some i → i.id = id) (h : s.victim? service = some v) :
    s.balancer.instances.find? v.id = some v ∧ v.service = service := by
  obtain ⟨hserving, _⟩ := mem_of_victim? h
  obtain ⟨hvalues, hservice⟩ := List.mem_filter.1 hserving
  obtain ⟨⟨id, w⟩, hmem, rfl⟩ := List.mem_map.1 hvalues
  have hfind := Table.find?_of_mem hn hmem
  have hid : w.id = id := hk _ _ hfind
  exact ⟨by rw [hid, hfind], beq_iff_eq.1 hservice⟩

def retire (s : Fleet) (service : String) (v : Instance) (reason : Reason) : Fleet :=
  { s with balancer := (s.balancer.setHealth v.id .stopping).2 }.remember
    ⟨service, .down, v.id, reason.text, s.activeCount service⟩

/-- What an evaluation does that is carried out: it is over at once, or it asks for an instance. -/
inductive Conducted (s : Fleet) (service : String) (now : Instant) : Operation Step → Prop
  | rests {t : Fleet} (decided : s.decide service now true = (.none, t)) :
    Conducted s service now (.done ⟨.ok .none, none⟩ t)
  | asks {reason : Reason} {t : Fleet} (decided : s.decide service now true = (.up service reason, t)) :
    Conducted s service now
      (.call service t (takeIn (.up service reason) service reason (s.activeCount service)))
  | retires {reason : Reason} {t : Fleet} {v : Instance}
      (decided : s.decide service now true = (.down service reason, t)) (victim : s.victim? service = some v) :
    Conducted s service now
      (.done ⟨.ok (.down service reason), some (s.config.gracePeriod, .retired v)⟩ (t.retire service v reason))
  | misses {reason : Reason} {t : Fleet} (decided : s.decide service now true = (.down service reason, t))
      (victim : s.victim? service = none) :
    Conducted s service now (.done ⟨.ok (.down service reason), none⟩ t)

theorem conducted (s : Fleet) (service : String) (now : Instant) :
    s.Conducted service now (s.evaluateAndScale service now) := by
  rw [evaluateAndScale]
  rcases hd : s.decide service now true with ⟨d, t⟩
  have hj := judged_of_decide hd
  obtain ⟨records, rfl⟩ := hj.records
  have hup {reason : Reason} (hd : s.decide service now true = (.up service reason, { s with records })) :
      s.Conducted service now ({ s with records }.scaleUp (.up service reason) service reason) := by
    rw [scaleUp_eq]
    exact .asks hd
  cases d with
  | none => exact .rests hd
  | up asked reason =>
    obtain ⟨p, hp⟩ := hj.exists_policy nofun
    cases hj.grants hp with
    | restore | grow => exact hup hd
  | down asked reason =>
    obtain ⟨p, hp⟩ := hj.exists_policy nofun
    cases hj.grants hp with
    | shrink =>
      dsimp only [scaleDown]
      cases hv : s.victim? service with
      | none =>
        have hv' : { s with records }.victim? service = none := hv
        rw [hv']
        exact .misses hd hv
      | some v =>
        have hv' : { s with records }.victim? service = some v := hv
        rw [hv']
        exact .retires hd hv

end Fleet

end Serving.Scaling
