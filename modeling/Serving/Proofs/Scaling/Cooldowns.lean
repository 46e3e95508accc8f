import Serving.Proofs.Scaling.Turns

/-! Cool-downs. The record of a service keeps the time of the last decision for a step of each kind, whatever came
of the step, and decisions for show leave it alone; so steps of one kind are decided further apart than the
cool-down in force at the later one. Only a service that is short of instances does not wait. -/

namespace Serving.Scaling

def Decision.isUp : Decision → Bool
  | .up _ _ => true
  | _ => false

def Decision.isDown : Decision → Bool
  | .down _ _ => true
  | _ => false

namespace Fleet

variable {s t : Fleet} {service : String} {now : Instant} {d : Decision}

lemma lastUp_of_decide (h : s.decide service now true = (d, t)) (other : String) :
    (t.record other).lastUp =
      if other = service ∧ d.isUp = true then some now else (s.record other).lastUp := by
  rw [(Prod.mk.inj ((judged_of_decide h).times other)).1]
  by_cases ho : other = service
  · cases d <;> simp [ho, commit, Decision.isUp]
  · simp [ho]

lemma lastDown_of_decide (h : s.decide service now true = (d, t)) (other : String) :
    (t.record other).lastDown =
      if other = service ∧ d.isDown = true then some now else (s.record other).lastDown := by
  rw [(Prod.mk.inj ((judged_of_decide h).times other)).2]
  by_cases ho : other = service
  · cases d <;> simp [ho, commit, Decision.isDown]
  · simp [ho]

end Fleet

/-- A decision that is carried out, the policy it was made under, and how many instances counted. -/
structure Decided where
  service : String
  time : Instant
  decision : Decision
  policy : Policy
  active : Nat

/-- The later of two decisions waited for the cool-down to be over that it was subject to. -/
structure Decided.Apart (e e' : Decided) : Prop where
  down : e.decision.isDown = true → e'.decision.isDown = true → e.time + e'.policy.downCooldown < e'.time
  up : e.decision.isUp = true → e'.decision.isUp = true → e'.policy.minInstances ≤ e'.active →
    e.time + e'.policy.upCooldown < e'.time

namespace History

variable {π : Type} {provisioner : Provisioner π} {s s' : History π} {m : Move}

def decided? (s : History π) : Move → Option Decided
  | .evaluateAndScale service => (s.fleet.policy service).map fun p =>
    ⟨service, s.now, (s.fleet.decide service s.now true).1, p, s.fleet.activeCount service⟩
  | _ => none

/-- The decisions that are carried out in a run, the earliest first. -/
def decisions (provisioner : Provisioner π) : History π → List Move → List Decided
  | _, [] => []
  | s, m :: moves => (s.decided? m).toList ++ decisions provisioner (s.step provisioner m) moves

/-- Of the decisions so far, all were made before, the records know one of each kind that is as late as any, and
those of one service keep apart. -/
structure Remembers (s : History π) (decisions : List Decided) : Prop where
  before : ∀ e ∈ decisions, e.time ≤ s.now
  ups : ∀ e ∈ decisions, e.decision.isUp = true →
    ∃ t, (s.fleet.record e.service).lastUp = some t ∧ e.time ≤ t
  downs : ∀ e ∈ decisions, e.decision.isDown = true →
    ∃ t, (s.fleet.record e.service).lastDown = some t ∧ e.time ≤ t
  apart : decisions.Pairwise fun e e' => e.service = e'.service → e.Apart e'

namespace Remembers

variable {earlier : List Decided}

lemma keep (h : s.Remembers earlier) (hn : s.now ≤ s'.now)
    (ht : ∀ service, (s'.fleet.record service).times = (s.fleet.record service).times) : s'.Remembers earlier where
  before e he := Nat.le_trans (h.before e he) hn
  ups e he hup := by
    rw [(Prod.mk.inj (ht e.service)).1]
    exact h.ups e he hup
  downs e he hdown := by
    rw [(Prod.mk.inj (ht e.service)).2]
    exact h.downs e he hdown
  apart := h.apart

lemma apart_new (h : s.Remembers earlier) {service : String} {p : Policy} {d : Decision} {active : Nat}
    (hg : p.Grants service active (s.fleet.record service) s.now d) {e : Decided} (he : e ∈ earlier)
    (hs : e.service = service) : e.Apart ⟨service, s.now, d, p, active⟩ := by
  subst hs
  constructor
  · intro hdown hdown'
    obtain ⟨t, ht, hle⟩ := h.downs e he hdown
    cases hg with
    | none | restore | grow => cases hdown'
    | shrink _ _ cooled => exact Nat.lt_of_le_of_lt (Nat.add_le_add_right hle _) (lt_of_cooled cooled ht)
  · intro hup hup' henough
    obtain ⟨t, ht, hle⟩ := h.ups e he hup
    cases hg with
    | none | shrink => cases hup'
    | restore _ short => exact absurd short (Nat.not_lt.2 henough)
    | grow _ _ _ cooled => exact Nat.lt_of_le_of_lt (Nat.add_le_add_right hle _) (lt_of_cooled cooled ht)

lemma exists_later {last last' : Option Instant} {now time : Instant} {P : Prop} [Decidable P]
    (h : last' = if P then some now else last) (hb : time ≤ now) (hl : ∃ t, last = some t ∧ time ≤ t) :
    ∃ t, last' = some t ∧ time ≤ t := by
  rw [h]
  split
  · exact ⟨now, rfl, hb⟩
  · exact hl

lemma decide (h : s.Remembers earlier) {service : String} {d : Decision} {fleet : Fleet}
    (hd : s.fleet.decide service s.now true = (d, fleet)) (hn : s'.now = s.now)
    (hr : s'.fleet.records = fleet.records) :
    s'.Remembers (earlier ++ (s.decided? (.evaluateAndScale service)).toList) := by
  have hj := Fleet.judged_of_decide hd
  have hrecord (other : String) : s'.fleet.record other = fleet.record other := by rw [Fleet.record, hr, Fleet.record]
  have hup (other : String) := (congrArg Record.lastUp (hrecord other)).trans (Fleet.lastUp_of_decide hd other)
  have hdown (other : String) :=
    (congrArg Record.lastDown (hrecord other)).trans (Fleet.lastDown_of_decide hd other)
  rw [decided?, hd]
  cases hp : s.fleet.policy service with
  | none =>
    -- Nothing is decided for a service without a policy, and no time is kept.
    obtain rfl : d = .none := by
      by_contra hne
      obtain ⟨p, hp'⟩ := hj.exists_policy hne
      rw [hp] at hp'
      cases hp'
    rw [Option.map_none, Option.toList_none, List.append_nil]
    refine h.keep (Nat.le_of_eq hn.symm) fun other => ?_
    rw [hrecord, hj.times, Fleet.commit, ite_self]
  | some p =>
    rw [Option.map_some, Option.toList_some]
    constructor
    case before =>
      intro e he
      rw [hn]
      obtain he | he := List.mem_append.1 he
      · exact h.before e he
      · obtain rfl := List.mem_singleton.1 he
        exact Nat.le_refl _
    case ups =>
      intro e he hu
      obtain he | he := List.mem_append.1 he
      · exact exists_later (hup _) (h.before e he) (h.ups e he hu)
      · obtain rfl := List.mem_singleton.1 he
        exact ⟨s.now, by rw [hup, if_pos ⟨rfl, hu⟩], Nat.le_refl _⟩
    case downs =>
      intro e he hu
      obtain he | he := List.mem_append.1 he
      · exact exists_later (hdown _) (h.before e he) (h.downs e he hu)
      · obtain rfl := List.mem_singleton.1 he
        exact ⟨s.now, by rw [hdown, if_pos ⟨rfl, hu⟩], Nat.le_refl _⟩
    case apart =>
      refine List.pairwise_append.2 ⟨h.apart, List.pairwise_singleton _ _, fun e he e' he' hs => ?_⟩
      obtain rfl := List.mem_singleton.1 he'
      exact h.apart_new (hj.grants hp) he hs

lemma pass (h : s.Remembers earlier) (hm : ∀ service, m ≠ .evaluateAndScale service) (hn : s.now ≤ s'.now)
    (ht : ∀ service, (s'.fleet.record service).times = (s.fleet.record service).times) :
    s'.Remembers (earlier ++ (s.decided? m).toList) := by
  have hnone : s.decided? m = none := by
    cases m with
    | evaluateAndScale service => exact absurd rfl (hm service)
    | evaluate | answer | finish | updatePolicy | updateConfig | probeAll | balance | stop => rfl
  rw [hnone, Option.toList_none, List.append_nil]
  exact h.keep hn ht

lemma turned (h : s.Remembers earlier) (ht : Turn provisioner s m s') :
    s'.Remembers (earlier ++ (s.decided? m).toList) := by
  cases ht with
  | nothing idle => exact h.pass idle (Nat.le_refl _) fun _ => rfl
  | rests decided | misses decided | retires decided | asks decided => exact h.decide decided rfl rfl
  | shows decided =>
    refine h.pass (by simp) (Nat.le_refl _) fun other => ?_
    simpa using (Fleet.judged_of_decide decided).times other
  | starts =>
    refine h.pass (by simp) (Nat.le_refl _) fun other => ?_
    rw [Fleet.record, Fleet.records_finishStart, Fleet.record]
  | balances => exact h.pass (by simp) (Nat.le_add_right _ _) fun _ => rfl
  | fails | joins | drops | removes | governs | replaces | probes | stops =>
    exact h.pass (by simp) (Nat.le_refl _) fun _ => rfl

lemma run (h : s.Remembers earlier) (hw : ∀ c ∈ s.calls, c.Waits) (moves : List Move) :
    (s.run provisioner moves).Remembers (earlier ++ decisions provisioner s moves) := by
  -- On the moves: the decisions so far become more at the end, whatever they were.
  induction moves generalizing s earlier with
  | nil =>
    rw [decisions, List.append_nil]
    exact h
  | cons m moves ih =>
    have ht : Turn provisioner s m (s.step provisioner m) := turn hw m
    rw [decisions, ← List.append_assoc]
    exact ih (h.turned ht) (ht.waits hw)

end Remembers

/-- In every run, whatever else goes on in it, a step down of a service is decided later than the cool-down in
force after every earlier decision for one; and so is a step up after every earlier decision for one, be it for
want of instances or for load, unless the service is short of instances. -/
theorem steps_keep_their_distance (provisioner : Provisioner π) (config : Config) (b : Balancer.History) (ports : π)
    (moves : List Move) :
    (decisions provisioner (start config b ports) moves).Pairwise fun e e' => e.service = e'.service → e.Apart e' := by
  have h₀ : (start config b ports).Remembers [] := ⟨nofun, nofun, nofun, .nil⟩
  have h : ((start config b ports).run provisioner moves).Remembers
      (decisions provisioner (start config b ports) moves) := h₀.run nofun moves
  exact h.apart

/-- Without a cool-down, too, no second step is decided at the same instant. -/
example :
    let policies := .ofList [("chat", { minInstances := 1, maxInstances := 3, downCooldown := 0 })]
    let pool := ["a", "b", "c"].map fun id =>
      .register { id, service := "chat", host := "localhost", port := 1, health := .healthy }
    let s := start { policies } (.run {} (fun _ => 0.0) pool) (.usual 1.0)
    (decisions Ports.provisioner s [.evaluateAndScale "chat", .evaluateAndScale "chat", .balance (.timePasses 1),
      .evaluateAndScale "chat"]).map (·.decision.isDown) = [true, false, true] := by
  decide +kernel

end History

end Serving.Scaling
