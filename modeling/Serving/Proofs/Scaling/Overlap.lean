import Serving.Proofs.Scaling.Bounds
import Serving.Proofs.Scaling.Cooldowns

/-! Evaluations that overlap. An instance that a call waits for is not counted yet, so two calls that wait at once
may both have found room for the last one. The cool-down keeps them apart only if the service is never short of
instances and the provisioner answers before it is over. -/

namespace Serving.Scaling.History

variable {π : Type} {provisioner : Provisioner π} {s s' : History π} {m : Move} {service : String} {p : Policy}

def awaited (s : History π) (service : String) : Nat := s.calls.countP (·.service == service)

/-- The policies stay, the provisioner delivers what it is asked for, and no operator interferes with the pool.
Evaluations may begin at any time. -/
def Undisturbed (provisioner : Provisioner π) (s : History π) : Move → Prop
  | .answer call =>
    ∀ c ∈ s.calls[call]?, Delivers c.service s.fleet.balancer (provisioner.provision c.service s.ports).1
  | .balance o => o.IsOrdinary
  | .updatePolicy _ _ | .updateConfig _ => False
  | _ => True

instance (s : History π) : DecidablePred (Undisturbed provisioner s)
  | .answer call => inferInstanceAs (Decidable (∀ c ∈ s.calls[call]?, _))
  | .balance o => inferInstanceAs (Decidable o.IsOrdinary)
  | .updatePolicy _ _ | .updateConfig _ => .isFalse not_false
  | .evaluate _ | .evaluateAndScale _ | .finish _ | .probeAll _ | .stop => .isTrue trivial

/-- While a call waits for an instance of a service, time passes only until the cool-down of the last step up is
over. -/
def Prompt (service : String) (s : History π) : Move → Prop
  | .balance o => 0 < s.awaited service → ∀ p ∈ s.fleet.policy service, ∀ t ∈ (s.fleet.record service).lastUp,
    s.now + o.duration ≤ t + p.upCooldown
  | _ => True

instance (service : String) (s : History π) : DecidablePred (Prompt service s)
  | .balance _ => inferInstanceAs (Decidable (0 < s.awaited service → ∀ p ∈ s.fleet.policy service, _))
  | .evaluate _ | .evaluateAndScale _ | .answer _ | .finish _ | .updatePolicy _ _ | .updateConfig _ | .probeAll _
  | .stop => .isTrue trivial

structure Settled (service : String) (p : Policy) (s : History π) : Prop where
  waits : ∀ c ∈ s.calls, c.Waits
  roster : Consistent s.fleet.balancer.roster s.leaving
  policy : s.fleet.policy service = some p

/-- What a move means for the instances of a service that count, for the calls that wait for one more, and for the
time of its last step up. -/
inductive Shift (service : String) (p : Policy) (s : History π) : Move → History π → Prop
  | still {m : Move} {s' : History π}
      (count : s'.fleet.activeCount service = s.fleet.activeCount service)
      (calls : s'.awaited service ≤ s.awaited service)
      (last : (s'.fleet.record service).lastUp = (s.fleet.record service).lastUp)
      (now : s'.now = s.now) : Shift service p s m s'
  | passes {o : Balancer.Operation} {s' : History π}
      (count : s'.fleet.activeCount service = s.fleet.activeCount service)
      (calls : s'.awaited service = s.awaited service)
      (last : (s'.fleet.record service).lastUp = (s.fleet.record service).lastUp)
      (now : s'.now = s.now + o.duration) : Shift service p s (.balance o) s'
  | asks {m : Move} {s' : History π} {reason : Reason}
      (grants : p.Grants service (s.fleet.activeCount service) (s.fleet.record service) s.now (.up service reason))
      (count : s'.fleet.activeCount service = s.fleet.activeCount service)
      (calls : s'.awaited service = s.awaited service + 1)
      (last : (s'.fleet.record service).lastUp = some s.now)
      (now : s'.now = s.now) : Shift service p s m s'
  | joins {m : Move} {s' : History π}
      (count : s'.fleet.activeCount service = s.fleet.activeCount service + 1)
      (calls : s.awaited service = s'.awaited service + 1)
      (last : (s'.fleet.record service).lastUp = (s.fleet.record service).lastUp)
      (now : s'.now = s.now) : Shift service p s m s'
  | retires {m : Move} {s' : History π}
      (spare : p.minInstances < s.fleet.activeCount service)
      (count : s.fleet.activeCount service = s'.fleet.activeCount service + 1)
      (calls : s'.awaited service = s.awaited service)
      (last : (s'.fleet.record service).lastUp = (s.fleet.record service).lastUp)
      (now : s'.now = s.now) : Shift service p s m s'

lemma awaited_eraseIdx {call : Nat} {c : Call} (h : s.calls[call]? = some c) (service : String) :
    s.awaited service =
      (s.calls.eraseIdx call).countP (·.service == service) + if c.service = service then 1 else 0 := by
  obtain ⟨hlt, rfl⟩ := List.getElem?_eq_some_iff.1 h
  rw [awaited, (List.getElem_cons_eraseIdx_perm hlt).symm.countP_eq, List.countP_cons]
  simp

namespace Settled

lemma turned (h : Settled service p s) (ho : Undisturbed provisioner s m) (ht : Turn provisioner s m s') :
    Settled service p s' := by
  refine ⟨ht.waits h.waits, ?_, ?_⟩
  · have hfewer (task : Nat) : ((s.pending.eraseIdx task).filterMap (·.2.leaver?)).Sublist s.leaving :=
      (List.eraseIdx_sublist ..).filterMap _
    cases ht with
    | nothing | fails | stops | governs | replaces => exact h.roster
    | shows decided | rests decided | misses decided | asks decided =>
      obtain ⟨records, rfl⟩ := (Fleet.judged_of_decide decided).records
      exact h.roster
    | retires decided victim =>
      obtain ⟨records, rfl⟩ := (Fleet.judged_of_decide decided).records
      exact consistent_retires h.roster victim _
    | @joins call c i ports reason before found made =>
      have hdelivers : Delivers c.service s.fleet.balancer (provisioner.provision c.service s.ports).1 := ho c found
      rw [made] at hdelivers
      obtain ⟨_, hfresh⟩ := hdelivers
      rw [← Balancer.names_roster] at hfresh
      exact consistent_joins (i := { i with health := .starting }) h.roster hfresh _
    | @starts task due id found =>
      obtain ⟨b, hb, hroster⟩ := Fleet.finishStart_eq h.roster.names id
      rw [hb, hroster]
      exact h.roster.sublist (hfewer task)
    | @drops task => exact h.roster.sublist (hfewer task)
    | removes found => exact consistent_removes h.roster found
    | probes probe =>
      rw [Balancer.roster_probeAll h.roster.names probe s.now]
      exact h.roster
    | balances o =>
      rw [Balancer.roster_perform h.roster.names s.now ho]
      exact h.roster
  · cases ht with
    | governs | replaces => exact ho.elim
    | shows decided | rests decided | misses decided | asks decided | retires decided =>
      obtain ⟨records, rfl⟩ := (Fleet.judged_of_decide decided).records
      exact h.policy
    | starts =>
      obtain ⟨b, hb, _⟩ := Fleet.finishStart_eq h.roster.names _
      rw [hb]
      exact h.policy
    | nothing | fails | joins | drops | removes | probes | balances | stops => exact h.policy

lemma shift (h : Settled service p s) (ho : Undisturbed provisioner s m) (ht : Turn provisioner s m s') :
    Shift service p s m s' := by
  cases ht with
  | nothing => exact .still rfl (Nat.le_refl _) rfl rfl
  | shows decided =>
    have htimes := (Fleet.judged_of_decide decided).times service
    rw [if_neg fun hf => Bool.false_ne_true hf.1] at htimes
    obtain ⟨records, rfl⟩ := (Fleet.judged_of_decide decided).records
    exact .still rfl (Nat.le_refl _) (Prod.mk.inj htimes).1 rfl
  | rests decided | misses decided =>
    have hlast := Fleet.lastUp_of_decide decided service
    obtain ⟨records, rfl⟩ := (Fleet.judged_of_decide decided).records
    exact .still rfl (Nat.le_refl _) (by simpa [Decision.isUp] using hlast) rfl
  | @retires asked reason fleet v decided victim =>
    have hlast := Fleet.lastUp_of_decide decided service
    have hj := Fleet.judged_of_decide decided
    obtain ⟨records, rfl⟩ := hj.records
    have hcount := activeCount_retires h.roster victim records reason service
    have hkept : (({ s.fleet with records } : Fleet).record service).lastUp = (s.fleet.record service).lastUp := by
      simpa [Decision.isUp] using hlast
    by_cases hs : asked = service
    · subst hs
      rw [if_pos rfl] at hcount
      cases hj.grants h.policy with
      | shrink _ spare _ => exact .retires spare hcount rfl hkept rfl
    · rw [if_neg hs] at hcount
      exact .still hcount.symm (Nat.le_refl _) hkept rfl
  | @asks asked reason fleet decided =>
    have hlast := Fleet.lastUp_of_decide decided service
    have hj := Fleet.judged_of_decide decided
    obtain ⟨records, rfl⟩ := hj.records
    by_cases hs : asked = service
    · subst hs
      rw [if_pos ⟨rfl, rfl⟩] at hlast
      refine .asks (hj.grants h.policy) rfl ?_ hlast rfl
      simp [awaited]
    · rw [if_neg fun he => hs he.1.symm] at hlast
      refine .still rfl (Nat.le_of_eq ?_) hlast rfl
      simp [awaited, hs]
  | @fails call c e ports found =>
    refine .still rfl ?_ rfl rfl
    rw [awaited_eraseIdx found service]
    exact Nat.le_add_right _ _
  | @joins call c i ports reason before found made =>
    have hdelivers : Delivers c.service s.fleet.balancer (provisioner.provision c.service s.ports).1 := ho c found
    rw [made] at hdelivers
    obtain ⟨hservice, hfresh⟩ := hdelivers
    rw [← Balancer.names_roster] at hfresh
    have hcount := activeCount_joins (i := { i with health := .starting }) hfresh hservice rfl
      ⟨c.service, .up, i.id, reason.text, before⟩ service
    have hcalls := awaited_eraseIdx found service
    by_cases hs : c.service = service
    · rw [if_pos hs] at hcount hcalls
      exact .joins hcount hcalls rfl rfl
    · rw [if_neg hs] at hcount hcalls
      exact .still hcount (Nat.le_of_eq hcalls.symm) rfl rfl
  | @starts task due id =>
    obtain ⟨b, hb, hroster⟩ := Fleet.finishStart_eq h.roster.names id
    rw [hb]
    exact .still (Fleet.activeCount_congr hroster service) (Nat.le_refl _) rfl rfl
  | drops => exact .still rfl (Nat.le_refl _) rfl rfl
  | removes found => exact .still (activeCount_removes h.roster found service) (Nat.le_refl _) rfl rfl
  | governs | replaces => exact ho.elim
  | probes probe =>
    have hroster := Balancer.roster_probeAll h.roster.names probe s.now
    exact .still (Fleet.activeCount_congr hroster service) (Nat.le_refl _) rfl rfl
  | balances o =>
    have hroster := Balancer.roster_perform h.roster.names s.now ho
    exact .passes (Fleet.activeCount_congr hroster service) rfl rfl rfl
  | stops => exact .still rfl (Nat.le_refl _) rfl rfl

end Settled

/-- With so many calls that may wait at once, the instances there are and the ones that are waited for together. -/
def Crowded (service : String) (p : Policy) (n : Nat) (s : History π) : Prop :=
  s.fleet.activeCount service + s.awaited service ≤ p.maxInstances + (n - 1)

lemma Shift.crowded (h : Shift service p s m s') (hp : p.minInstances ≤ p.maxInstances) {n : Nat}
    (hn : s'.awaited service ≤ n) (hs : s.Crowded service p n) : s'.Crowded service p n := by
  simp only [Crowded] at hs ⊢
  cases h with
  | still count calls => omega
  | passes count calls => omega
  | asks grants count calls =>
    cases grants with
    | restore _ short => omega
    | grow _ _ room => omega
  | joins count calls => omega
  | retires spare count calls => omega

/-- What holds while the cool-down keeps calls apart. -/
structure Calm (service : String) (p : Policy) (s : History π) : Prop where
  enough : p.minInstances ≤ s.fleet.activeCount service
  alone : s.awaited service ≤ 1
  room : s.fleet.activeCount service + s.awaited service ≤ p.maxInstances
  cooling : 0 < s.awaited service → ∃ t, (s.fleet.record service).lastUp = some t ∧ s.now ≤ t + p.upCooldown

lemma Shift.calm (h : Shift service p s m s') (hp : s.fleet.policy service = some p) (hm : s.Prompt service m)
    (hs : s.Calm service p) : s'.Calm service p := by
  have henough := hs.enough
  have halone := hs.alone
  have hroom := hs.room
  cases h with
  | still count calls last now =>
    refine ⟨by omega, by omega, by omega, fun hw => ?_⟩
    rw [last, now]
    exact hs.cooling (by omega)
  | passes count calls last now =>
    refine ⟨by omega, by omega, by omega, fun hw => ?_⟩
    rw [calls] at hw
    obtain ⟨t, ht, _⟩ := hs.cooling hw
    rw [last, now]
    exact ⟨t, ht, hm hw p hp t ht⟩
  | asks grants count calls last now =>
    cases grants with
    | restore _ short => exact absurd short (Nat.not_lt.2 henough)
    | grow _ _ room cooled =>
      -- Had a call waited, the service would still have been cooling.
      have hnone : s.awaited service = 0 := by
        by_contra hne
        obtain ⟨t, ht, hle⟩ := hs.cooling (Nat.pos_of_ne_zero hne)
        exact absurd (lt_of_cooled cooled ht) (Nat.not_lt.2 hle)
      refine ⟨by omega, by omega, by omega, fun _ => ⟨s.now, last, ?_⟩⟩
      rw [now]
      exact Nat.le_add_right _ _
  | joins count calls last now =>
    refine ⟨by omega, by omega, by omega, fun hw => ?_⟩
    rw [last, now]
    exact hs.cooling (by omega)
  | retires spare count calls last now =>
    refine ⟨by omega, by omega, by omega, fun hw => ?_⟩
    rw [last, now]
    exact hs.cooling (by omega)

lemma Throughout.and {C D : History π → Move → Prop} {moves : List Move} (hC : Throughout provisioner C s moves)
    (hD : Throughout provisioner D s moves) : Throughout provisioner (fun s m => C s m ∧ D s m) s moves := by
  induction moves generalizing s with
  | nil => trivial
  | cons m moves ih => exact ⟨⟨hC.1, hD.1⟩, ih hC.2 hD.2⟩

/-- With a valid policy that stays, a provisioner that delivers, and no operator in the way, evaluations that overlap
leave a pool that was within its greatest number at most so much above it as calls wait at once besides one. It stays
within if it was not short at first and every call has its answer before the cool-down of its step is over. -/
theorem overlapping_calls_stay_bounded (provisioner : Provisioner π) (config : Config) (settings : Balancer.Config)
    (dice : Nat → Float) (past : List Balancer.Operation) (ports : π) {moves : List Move}
    (hp : config.policies.find? service = some p) (hv : p.problems = [])
    (hsize : (start config (.run settings dice past) ports).fleet.activeCount service ≤ p.maxInstances)
    (hm : Throughout provisioner (Undisturbed provisioner) (start config (.run settings dice past) ports) moves) :
    let s₀ := start config (.run settings dice past) ports
    let s := s₀.run provisioner moves
    (∀ n, Throughout provisioner (fun s m => (s.step provisioner m).awaited service ≤ n) s₀ moves →
        s.fleet.activeCount service ≤ p.maxInstances + (n - 1)) ∧
      (p.minInstances ≤ s₀.fleet.activeCount service → Throughout provisioner (Prompt service) s₀ moves →
        s.fleet.activeCount service ≤ p.maxInstances) := by
  intro s₀ s
  have h₀ : Settled service p s₀ := ⟨nofun, consistent_start (.run settings dice past) ports, hp⟩
  have hturn {s : History π} {m : Move} (h : Settled service p s) : Turn provisioner s m (s.step provisioner m) :=
    turn h.waits m
  constructor
  · intro n hn
    have hs : Settled service p s ∧ Crowded service p n s := by
      refine run_induction (P := fun s => Settled service p s ∧ Crowded service p n s) (hm.and hn)
        ⟨h₀, Nat.le_add_right_of_le hsize⟩ fun s m hc h => ?_
      exact ⟨h.1.turned hc.1 (hturn h.1),
        (h.1.shift hc.1 (hturn h.1)).crowded (Policy.min_le_max hv) hc.2 h.2⟩
    exact Nat.le_trans (Nat.le_add_right _ _) hs.2
  · intro henough hprompt
    have hs : Settled service p s ∧ Calm service p s := by
      refine run_induction (P := fun s => Settled service p s ∧ Calm service p s) (hm.and hprompt)
        ⟨h₀, henough, Nat.zero_le _, hsize, nofun⟩ fun s m hc h => ?_
      exact ⟨h.1.turned hc.1 (hturn h.1), (h.1.shift hc.1 (hturn h.1)).calm h.1.policy hc.2 h.2⟩
    exact Nat.le_trans (Nat.le_add_right _ _) hs.2.room

def crowdConfig (maxInstances : Nat) : Config where
  startupDelay := 10
  policies := .ofList [("chat", { minInstances := 1, maxInstances, upCooldown := 5, window := 5 })]

def loaded : List Balancer.Operation :=
  [.register { id := "a", service := "chat", host := "localhost", port := 1, health := .healthy, cpu := 95.0 }]

/-- An evaluation begins, two more do so before it has its instance, and one after that. -/
def inTime : List Move :=
  [.evaluateAndScale "chat", .evaluateAndScale "chat", .balance (.timePasses 5), .evaluateAndScale "chat", .answer 0,
    .balance (.timePasses 1), .evaluateAndScale "chat"]

theorem overlapping_calls_stay_bounded_in_time :
    let s₀ := start (crowdConfig 2) (.run {} (fun _ => 0.0) loaded) (.usual 1.0)
    let s := s₀.run Ports.provisioner inTime
    s.fleet.history.map (·.direction) = [.up] ∧ s.fleet.activeCount "chat" ≤ 2 := by
  intro s₀ s
  have hfound : ((crowdConfig 2).policies.find? "chat").map (fun p => (p.minInstances, p.maxInstances)) =
      some (1, 2) := by decide +kernel
  obtain ⟨p, hp, hbounds⟩ := Option.map_eq_some_iff.1 hfound
  obtain ⟨hmin, hmax⟩ := Prod.mk.inj hbounds
  have hv : p.problems = [] := by
    have hall : ((crowdConfig 2).policies.find? "chat").all (·.problems.isEmpty) = true := by decide +kernel
    rw [hp, Option.all_some, List.isEmpty_iff] at hall
    exact hall
  have hsize : s₀.fleet.activeCount "chat" = 1 := by decide +kernel
  have hm : Throughout Ports.provisioner (Undisturbed Ports.provisioner) s₀ inTime := by decide +kernel
  have hprompt : Throughout Ports.provisioner (Prompt "chat") s₀ inTime := by decide +kernel
  have hlogged : s.fleet.history.map (·.direction) = [.up] := by decide +kernel
  have hs := (overlapping_calls_stay_bounded Ports.provisioner (crowdConfig 2) {} (fun _ => 0.0) loaded (.usual 1.0)
    hp hv (by rw [hmax]; exact Nat.le_trans (Nat.le_of_eq hsize) (by decide)) hm).2
    (by rw [hmin]; exact Nat.le_of_eq hsize.symm) hprompt
  exact ⟨hlogged, hmax ▸ hs⟩

/-- Two calls of a service that is short both wait for its only instance; and two calls of a loaded one for its
last, where the second began when the cool-down of the first was over. -/
theorem overlapping_calls_exceed :
    (let s₀ := start (crowdConfig 1) (.run {} (fun _ => 0.0) []) (.usual 1.0)
      let moves := [.evaluateAndScale "chat", .evaluateAndScale "chat", .answer 0, .answer 0]
      (crowdConfig 1).policyProblems = [] ∧ s₀.fleet.activeCount "chat" = 0 ∧
        Throughout Ports.provisioner (Undisturbed Ports.provisioner) s₀ moves ∧
        (s₀.run Ports.provisioner moves).fleet.activeCount "chat" = 2) ∧
      let s₀ := start (crowdConfig 2) (.run {} (fun _ => 0.0) loaded) (.usual 1.0)
      let moves := [.evaluateAndScale "chat", .balance (.timePasses 6), .evaluateAndScale "chat", .answer 0, .answer 0]
      (crowdConfig 2).policyProblems = [] ∧ s₀.fleet.activeCount "chat" = 1 ∧
        Throughout Ports.provisioner (Undisturbed Ports.provisioner) s₀ moves ∧
        (s₀.run Ports.provisioner moves).fleet.activeCount "chat" = 3 := by
  decide +kernel

end Serving.Scaling.History
