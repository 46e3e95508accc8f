import Serving.Proofs.Scaling.Roster
import Serving.Proofs.Scaling.Turns

/-! What a service is left with when one of its instances is retired. The least number of a policy bounds the
instances that do not stop, and the one that is retired is taken from the healthy ones alone; so the service may
be left without a healthy instance when too many of the others are not well. -/

namespace Serving

namespace Balancer

variable {b : Balancer} {id : String} {v : Instance}

/-- An instance that did not stop does so afterwards. -/
def Retires (b b' : Balancer) (id : String) : Prop :=
  (b.instance? id).any (·.health != .stopping) = true ∧ (b'.instance? id).any (·.health == .stopping) = true

instance (b b' : Balancer) (id : String) : Decidable (b.Retires b' id) :=
  inferInstanceAs (Decidable (_ ∧ _))

/-- The instances of a service that do not stop and are not healthy either. -/
def ailingCount (b : Balancer) (service : String) : Nat :=
  (b.serving service).countP fun i => i.health != .stopping && !i.isHealthy

lemma not_retires_self (b : Balancer) (id : String) : ¬b.Retires b id := by
  rintro ⟨hbefore, hafter⟩
  obtain ⟨i, hi, hne⟩ := (Option.any_eq_true ..).1 hbefore
  rw [hi, Option.any_some, beq_iff_eq] at hafter
  rw [bne_iff_ne] at hne
  exact hne hafter

lemma countP_serving_stopping (hn : b.instances.names.Nodup) (hv : b.instance? id = some v) (service : String)
    (p : Instance → Bool) (hp : p { v with health := .stopping } = false) :
    ((b.setHealth id .stopping).2.serving service).countP p + (if v.service == service && p v then 1 else 0) =
      (b.serving service).countP p := by
  simp only [serving, List.countP_filter, setHealth, modify]
  rw [Table.countP_modify hn hv, Table.countP_erase hn hv, hp]
  simp [Bool.and_comm]

lemma count_active (b : Balancer) (service : String) :
    ((b.serving service).countP fun i => i.health != .stopping) = b.healthyCount service + b.ailingCount service := by
  rw [healthyCount, ailingCount]
  induction b.serving service with
  | nil => rfl
  | cons i rest ih =>
    simp only [List.countP_cons, ih, Instance.isHealthy]
    cases i.health <;> simp <;> omega

end Balancer

namespace Scaling

/-- The fleet that results if a healthy instance is retired has one fewer in both counts. -/
lemma Fleet.counts_retire {s : Fleet} (hn : s.balancer.instances.names.Nodup) {service : String} {v : Instance}
    (hv : s.balancer.instance? v.id = some v) (hservice : v.service = service) (hhealthy : v.isHealthy = true)
    (reason : Reason) :
    (s.retire service v reason).balancer.healthyCount service + 1 = s.balancer.healthyCount service ∧
      (s.retire service v reason).activeCount service + 1 = s.activeCount service := by
  have hhealth : v.health = .healthy := by rwa [Instance.isHealthy, beq_iff_eq] at hhealthy
  constructor
  · have hcount := Balancer.countP_serving_stopping hn hv service Instance.isHealthy rfl
    rwa [hservice, hhealthy, beq_self_eq_true, Bool.and_self, if_pos rfl] at hcount
  · have hcount := Balancer.countP_serving_stopping hn hv service (fun i => i.health != .stopping) rfl
    rw [hservice, hhealth, beq_self_eq_true] at hcount
    exact hcount

namespace History

variable {π : Type} {provisioner : Provisioner π} {s : History π}

/-- In every run, an evaluation that retires an instance leaves its service with no fewer instances that do not
stop than the policy in force asks for and with one healthy instance fewer than before; so a healthy one is left
if there were two, in particular if fewer than the least number were not well. -/
theorem retirement_leaves_the_least (hs : Reachable provisioner s) (service id : String)
    (hr : s.fleet.balancer.Retires (s.step provisioner (.evaluateAndScale service)).fleet.balancer id) :
    let t := s.step provisioner (.evaluateAndScale service)
    ∃ p, s.fleet.policy service = some p ∧ p.minInstances ≤ t.fleet.activeCount service ∧
      t.fleet.balancer.healthyCount service + 1 = s.fleet.balancer.healthyCount service ∧
      (s.fleet.balancer.ailingCount service < p.minInstances → 0 < t.fleet.balancer.healthyCount service) := by
  intro t
  obtain ⟨settings, hc⟩ := hs.coherent
  have ht : Turn provisioner s (.evaluateAndScale service) t := turn hc.waits _
  replace hr : s.fleet.balancer.Retires t.fleet.balancer id := hr
  generalize t = t at ht hr
  -- Unless a victim was found, the balancer is as it was.
  cases ht with
  | nothing => exact absurd hr (Balancer.not_retires_self _ _)
  | rests decided | misses decided | asks decided =>
    obtain ⟨records, rfl⟩ := (Fleet.judged_of_decide decided).records
    exact absurd hr (Balancer.not_retires_self _ _)
  | @retires _ reason fleet v decided victim =>
    have hj := Fleet.judged_of_decide decided
    obtain ⟨records, rfl⟩ := hj.records
    obtain ⟨p, hp⟩ := hj.exists_policy nofun
    obtain ⟨hfound, hservice⟩ := hc.find?_victim victim
    obtain ⟨_, hhealthy⟩ := Fleet.mem_of_victim? victim
    obtain ⟨hwell, hactive⟩ := Fleet.counts_retire (s := { s.fleet with records }) hc.names hfound hservice hhealthy
      reason
    have hsplit : s.fleet.activeCount service =
        s.fleet.balancer.healthyCount service + s.fleet.balancer.ailingCount service :=
      Balancer.count_active ..
    cases hj.grants hp with
    | shrink _ spare _ =>
      refine ⟨p, hp, ?_, hwell, fun hfew => ?_⟩
      · exact Nat.le_of_lt_succ (Nat.lt_of_lt_of_eq spare hactive.symm)
      · dsimp only at *
        omega

def trioConfig (minInstances : Nat) : Config where
  policies := .ofList [("chat", { minInstances, maxInstances := 3 })]

/-- So many healthy instances and one that fails a probe. -/
def oneDown (healthy : List String) : List Balancer.Operation :=
  ((healthy ++ ["down"]).map fun id =>
      .register { id, service := "chat", host := "localhost", port := 1, health := .healthy }) ++
    [.recordProbe "down" false 5.0 5.0]

theorem retirement_leaves_the_least_of_two :
    let s := start (trioConfig 2) (.run {} (fun _ => 0.0) (oneDown ["a", "b"])) (.usual 1.0)
    let t := s.step Ports.provisioner (.evaluateAndScale "chat")
    s.fleet.balancer.Retires t.fleet.balancer "a" ∧ s.fleet.balancer.ailingCount "chat" = 1 ∧
      2 ≤ t.fleet.activeCount "chat" ∧ 0 < t.fleet.balancer.healthyCount "chat" := by
  intro s t
  have hs : Reachable Ports.provisioner s := ⟨_, _, _, _, _, [], rfl⟩
  have hr : s.fleet.balancer.Retires t.fleet.balancer "a" := by decide +kernel
  have hp : (s.fleet.policy "chat").map (·.minInstances) = some 2 := by decide +kernel
  have ha : s.fleet.balancer.ailingCount "chat" = 1 := by decide +kernel
  obtain ⟨p, hpolicy, hleast, _, hleft⟩ := retirement_leaves_the_least hs "chat" "a" hr
  rw [hpolicy, Option.map_some] at hp
  rw [Option.some.inj hp] at hleast hleft
  exact ⟨hr, ha, hleast, hleft (by rw [ha]; decide)⟩

/-- With one healthy instance and one that is down there is one more than the policy asks for, and the healthy
one goes. -/
theorem retirement_takes_the_last_healthy :
    let s := start (trioConfig 1) (.run {} (fun _ => 0.0) (oneDown ["a"])) (.usual 1.0)
    let t := s.step Ports.provisioner (.evaluateAndScale "chat")
    Reachable Ports.provisioner s ∧ (trioConfig 1).policyProblems = [] ∧
      (s.fleet.policy "chat").map (·.minInstances) = some 1 ∧ s.fleet.balancer.Retires t.fleet.balancer "a" ∧
      t.fleet.balancer.healthyCount "chat" = 0 :=
  ⟨⟨_, _, _, _, _, [], rfl⟩, by decide +kernel, by decide +kernel, by decide +kernel, by decide +kernel⟩

end History

end Scaling

end Serving
