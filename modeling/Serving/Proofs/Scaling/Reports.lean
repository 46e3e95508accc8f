import Serving.Proofs.Scaling.Bounds
import Serving.Proofs.Scaling.Capacity

/-! What a reported decision stands for. An evaluation that reports a step up has taken one new instance in, and
one that reports a step down has told one healthy instance to stop, if there was any; the step is in the history
with the number of instances that counted before it. -/

namespace Serving.Scaling

namespace Fleet

variable {s t : Fleet} {service : String}

structure Untouched (s t : Fleet) : Prop where
  pool : t.balancer = s.balancer
  history : t.history = s.history

/-- A step is entered behind the others, of which the oldest are forgotten if the history is full. -/
def Logs (s t : Fleet) (e : Event) : Prop :=
  ∃ kept, kept <:+ s.history ∧ t.history = kept ++ [e] ∧
    (kept = s.history ∨ t.history.length = max s.config.historyLimit 1)

/-- One instance has come in behind all others, and it starts. -/
structure Joined (s t : Fleet) (service : String) (i : Instance) : Prop where
  serves : i.service = service
  starting : i.health = .starting
  pool : t.balancer.instances.toList = s.balancer.instances.toList ++ [(i.id, i)]

/-- One healthy instance has been told to stop, and no healthy one had fewer requests in flight. -/
structure Retired (s t : Fleet) (service : String) (v : Instance) : Prop where
  serves : v.service = service
  healthy : v.isHealthy = true
  least : ∀ i ∈ s.balancer.serving service, i.isHealthy = true → v.active ≤ i.active
  found : s.balancer.instance? v.id = some v
  names : t.balancer.instances.names = s.balancer.instances.names
  pool : ∀ id, t.balancer.instance? id =
    if id = v.id then some { v with health := .stopping } else s.balancer.instance? id

/-- What an evaluation has done that ends with an outcome. It found the fleet `s` when it was last started or
answered, and it was begun when `before` instances counted. -/
inductive Means (service : String) (before : Nat) (s t : Fleet) : Except Error Decision → Prop
  | fails {e : Error} (still : Untouched s t) : Means service before s t (.error e)
  | rests (still : Untouched s t) (times : ∀ other, (t.record other).times = (s.record other).times) :
    Means service before s t (.ok .none)
  | grows {reason : Reason} (i : Instance) (joined : Joined s t service i)
      (logged : Logs s t ⟨service, .up, i.id, reason.text, before⟩) :
    Means service before s t (.ok (.up service reason))
  | shrinks {reason : Reason} (v : Instance) (retired : Retired s t service v)
      (logged : Logs s t ⟨service, .down, v.id, reason.text, before⟩) :
    Means service before s t (.ok (.down service reason))
  | misses {reason : Reason} (nobody : s.balancer.healthyCount service = 0) (still : Untouched s t) :
    Means service before s t (.ok (.down service reason))

/-- An evaluation of a service does what its outcome says. If it waits for an instance, it has touched nothing
before, and whatever the fleet has become when the answer comes, it ends then and does what it says. -/
def Accounts (s : Fleet) (service : String) : Operation Step → Prop
  | .done step t => Means service (s.activeCount service) s t step.outcome
  | .call asked t resume => asked = service ∧ Untouched s t ∧
    ∀ (made : Except Error Instance) (u : Fleet) (now : Instant), Delivers service u.balancer made →
      ∃ step t, resume made u now = .done step t ∧ Means service (s.activeCount service) u t step.outcome

/-- Whether an evaluation ends at once and reports a step down. -/
def reportsDown : Operation Step → Bool
  | .done ⟨.ok (.down _ _), _⟩ _ => true
  | _ => false

lemma logs_remember (s : Fleet) (e : Event) : Logs s (s.remember e) e := by
  let surplus := (s.history ++ [e]).length - max s.config.historyLimit 1
  have hlength : (s.history ++ [e]).length = s.history.length + 1 := List.length_append
  refine ⟨s.history.drop surplus, List.drop_suffix .., List.drop_append_of_le_length (by omega), ?_⟩
  rcases Nat.eq_zero_or_pos surplus with hnone | hfull
  · rw [hnone]
    exact .inl rfl
  · rw [remember, List.length_drop]
    omega

lemma healthyCount_of_victim? (h : s.victim? service = none) : s.balancer.healthyCount service = 0 := by
  rw [Balancer.healthyCount, List.countP_eq_length_filter, List.length_eq_zero_iff]
  by_contra hne
  obtain ⟨place, hplace, hlt⟩ := Strategy.placeOfLeast_lt (mt List.map_eq_nil_iff.1 hne)
  rw [List.length_map] at hlt
  rw [victim?, hplace, Option.bind_some, List.getElem?_eq_getElem hlt] at h
  cases h

lemma least_of_victim? {v : Instance} (h : s.victim? service = some v) {i : Instance}
    (hi : i ∈ s.balancer.serving service) (hw : i.isHealthy = true) : v.active ≤ i.active := by
  obtain ⟨place, hplace, hv⟩ := Option.bind_eq_some_iff.1 h
  obtain ⟨least, hat, hall⟩ := Strategy.getElem?_placeOfLeast hplace
  rw [List.getElem?_map, hv, Option.map_some] at hat
  rw [Option.some.inj hat]
  exact hall _ (List.mem_map_of_mem (List.mem_filter.2 ⟨hi, hw⟩))

lemma joined_register {i : Instance} (hi : i.service = service) (hf : i.id ∉ s.balancer.instances.names)
    (e : Event) :
    Joined s ({ s with balancer := s.balancer.register { i with health := .starting } }.remember e) service
      { i with health := .starting } where
  serves := hi
  starting := rfl
  pool := Table.toList_insert hf _

lemma retired_retire {v : Instance} (hfound : s.balancer.instance? v.id = some v) (hservice : v.service = service)
    (hv : s.victim? service = some v) (records : Table Record) (reason : Reason) :
    Retired s ({ s with records }.retire service v reason) service v where
  serves := hservice
  healthy := (mem_of_victim? hv).2
  least _ := least_of_victim? hv
  found := hfound
  names := Balancer.modify_names ..
  pool id := by
    refine (Table.find?_modify ..).trans ?_
    split
    · exact congrArg (Option.map _) hfound
    · rfl

end Fleet

namespace History

open Fleet

variable {π : Type} {provisioner : Provisioner π} {s : History π}

/-- In every run, an evaluation that reports no step has changed nothing but its samples; one that reports a step
up has taken in exactly one instance, which starts; one that reports a step down has told exactly one healthy
instance to stop, one with the fewest requests in flight, unless there was no healthy one, and then it has changed
nothing in the pool; and a step that was taken is the last in the history. -/
theorem reports_what_was_done (hs : Reachable provisioner s) (service : String) :
    s.fleet.Accounts service (s.fleet.evaluateAndScale service s.now) := by
  obtain ⟨settings, hc⟩ := hs.coherent
  have hd := s.fleet.conducted service s.now
  generalize s.fleet.evaluateAndScale service s.now = operation at hd ⊢
  cases hd with
  | rests decided =>
    have htimes := (Fleet.judged_of_decide decided).times
    obtain ⟨records, rfl⟩ := (Fleet.judged_of_decide decided).records
    refine .rests ⟨rfl, rfl⟩ fun other => (htimes other).trans ?_
    rw [commit, ite_self]
  | asks decided =>
    obtain ⟨records, rfl⟩ := (Fleet.judged_of_decide decided).records
    -- The call remembers how many instances counted; all else is read from the fleet that it finds then.
    refine ⟨rfl, ⟨rfl, rfl⟩, fun made u now hm => ?_⟩
    cases made with
    | error e => exact ⟨_, _, rfl, .fails ⟨rfl, rfl⟩⟩
    | ok i =>
      obtain ⟨hservice, hfresh⟩ := hm
      exact ⟨_, _, rfl, .grows _ (joined_register hservice hfresh _) (logs_remember ..)⟩
  | @retires reason t v decided victim =>
    obtain ⟨records, rfl⟩ := (Fleet.judged_of_decide decided).records
    obtain ⟨hfound, hservice⟩ := hc.find?_victim victim
    exact .shrinks v (retired_retire hfound hservice victim records reason) (logs_remember ..)
  | misses decided victim =>
    obtain ⟨records, rfl⟩ := (Fleet.judged_of_decide decided).records
    exact .misses (healthyCount_of_victim? victim) ⟨rfl, rfl⟩

theorem reports_what_was_done_of_two :
    let s := start (trioConfig 2) (.run {} (fun _ => 0.0) (oneDown ["a", "b"])) (.usual 1.0)
    Reachable Ports.provisioner s ∧ ∃ step t v reason, s.fleet.evaluateAndScale "chat" s.now = .done step t ∧
      step.outcome = .ok (.down "chat" reason) ∧ Retired s.fleet t "chat" v ∧
      Logs s.fleet t ⟨"chat", .down, v.id, reason.text, 3⟩ := by
  intro s
  have hs : Reachable Ports.provisioner s := ⟨_, _, _, _, _, [], rfl⟩
  have hdown : reportsDown (s.fleet.evaluateAndScale "chat" s.now) = true := by decide +kernel
  have hcount : s.fleet.activeCount "chat" = 3 := by decide +kernel
  have hwell : s.fleet.balancer.healthyCount "chat" = 2 := by decide +kernel
  have h := reports_what_was_done hs "chat"
  generalize s.fleet.evaluateAndScale "chat" s.now = operation at h hdown
  cases operation with
  | call => cases hdown
  | done step t =>
    obtain ⟨outcome, later⟩ := step
    rw [Accounts, hcount] at h
    cases h with
    | fails | rests | grows => cases hdown
    | shrinks v retired logged => exact ⟨hs, _, _, v, _, rfl, rfl, retired, logged⟩
    | misses nobody =>
      rw [hwell] at nobody
      cases nobody

/-- A sample is taken of the only instance, another one starts, and then the first is down. -/
def lostSinceSampled : List Move :=
  [.evaluateAndScale "chat",
    .balance (.register { id := "b", service := "chat", host := "localhost", port := 2 }),
    .balance (.recordProbe "a" false 5.0 5.0)]

/-- The sample is still there when the instance it was taken of can no longer be retired. -/
theorem reports_a_retirement_of_nobody :
    let s := (start (trioConfig 1) (.run {} (fun _ => 0.0)
      [.register { id := "a", service := "chat", host := "localhost", port := 1, health := .healthy }])
      (.usual 1.0)).run Ports.provisioner lostSinceSampled
    Reachable Ports.provisioner s ∧ ∃ reason t,
      s.fleet.evaluateAndScale "chat" s.now = .done ⟨.ok (.down "chat" reason), none⟩ t ∧ t.history = [] ∧
        ∀ i ∈ t.balancer.instances.values, i.health ≠ .stopping := by
  intro s
  have hs : Reachable Ports.provisioner s := ⟨_, _, _, _, _, _, rfl⟩
  have hdown : reportsDown (s.fleet.evaluateAndScale "chat" s.now) = true := by decide +kernel
  have hnobody : (s.fleet.victim? "chat").isNone = true := by decide +kernel
  have hempty : s.fleet.history.length = 0 := by decide +kernel
  have hstops : ∀ health ∈ s.fleet.balancer.instances.values.map (·.health), health ≠ .stopping := by
    decide +kernel
  clear_value s
  refine ⟨hs, ?_⟩
  have hc := s.fleet.conducted "chat" s.now
  generalize s.fleet.evaluateAndScale "chat" s.now = operation at hc hdown ⊢
  cases hc with
  | rests | asks => cases hdown
  | retires decided victim =>
    rw [victim] at hnobody
    cases hnobody
  | misses decided victim =>
    obtain ⟨records, rfl⟩ := (Fleet.judged_of_decide decided).records
    exact ⟨_, _, rfl, List.eq_nil_of_length_eq_zero hempty, fun i hi => hstops _ (List.mem_map_of_mem hi)⟩

end History

end Serving.Scaling
