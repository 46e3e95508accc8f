import Serving.Proofs.Gateway.Reliance
import Serving.Proofs.Scaling.Filling

/-! How a gateway comes by its first instances. Before any upkeep begins, the models are filled up to what they start
with, in some order, and then all services with a policy to the least of it. -/

namespace Serving.Gateway

open Scaling Fleet

variable {τ π : Type} {g : Gateway τ π} {order : List (String × Nat)}

/-- Fills the pool up, the models in a given order. -/
def bootstrapIn (order : List (String × Nat)) (g : Gateway τ π) : Scaling.Operation (Except Error Nat) :=
  (ensureAll order 0 g.fleet g.now).andThen g.now fun r fleet now =>
    match r with
    | .error e => .done (.error e) fleet
    | .ok made => (fleet.ensureMinimums now).map fun r => r.map (made + ·)

/-- Starts the gateway, with the models in a given order. -/
def startIn (order : List (String × Nat)) (g : Gateway τ π) : Except Error Unit × Gateway τ π :=
  if g.isStarted then (.ok (), g)
  else
    let (r, g) := { g with isStarted := true }.provide (bootstrapIn order g)
    match r with
    | .error e => (.error e, g)
    | .ok _ =>
      (.ok (), if g.isShutDown then g
        else g.upkeep.foldl (fun g (chore, period) => g.startLoop chore period) g)

lemma start_eq (g : Gateway τ π) : g.start = g.startIn (initialInstances g.settings) := rfl

def answer (g : Gateway τ π) (service : String) (p : π) (now : Instant) : Except Error Instance × π × Instant :=
  ((g.parties.provisioner.provision service p).1, (g.parties.provisioner.provision service p).2, now)

lemma fleet_startLoops (upkeep : List (Chore × Duration)) (g : Gateway τ π) :
    (upkeep.foldl (fun g (chore, period) => g.startLoop chore period) g).fleet = g.fleet := by
  induction upkeep generalizing g with
  | nil => rfl
  | cons part rest ih =>
    have hfirst : (g.startLoop part.1 part.2).fleet = g.fleet := by
      rw [startLoop]
      split <;> rfl
    rw [List.foldl_cons, ih, hfirst]

section

variable {failure : Option Error} {t : Fleet} {q : π} {later : Instant}

lemma run_bootstrapIn (h : Gathers g.answer (missing (order ++ g.fleet.minimums) g.fleet.activeCount) g.fleet
      g.provisioner g.now failure t q later) :
    Routine.run g.answer (bootstrapIn order g) g.provisioner g.now =
      (outcome failure (missing (order ++ g.fleet.minimums) g.fleet.activeCount).length, t, q, later) := by
  rw [missing_append] at h ⊢
  rw [bootstrapIn, Routine.run_andThen]
  rcases h.split with ⟨error, rfl, hmodels⟩ | ⟨u, p', now', hmodels, hrest⟩
  · rw [hmodels.run_ensureAll]
    rfl
  · rw [hmodels.run_ensureAll]
    rw [← hmodels.raised] at hrest ⊢
    have hminimums : u.minimums = g.fleet.minimums := by
      rw [minimums, minimums, services, services]
      simp only [policy, hmodels.config]
    rw [← hminimums] at hrest ⊢
    have hrun := hrest.run_ensureAll 0
    simp only [outcome, Option.elim_none]
    rw [Routine.run_map, ensureMinimums, hrun, Nat.zero_add, Nat.zero_add, List.length_append]
    cases failure <;> rfl

lemma provide_of_run {α : Type} {operation : Scaling.Operation α} {r : α}
    (h : Routine.run g.answer operation g.provisioner g.now = (r, t, q, later)) :
    g.provide operation = (r, { g with fleet := t, provisioner := q }) := by
  have hprovide : g.provide operation = ((Routine.run g.answer operation g.provisioner g.now).1, { g with
    fleet := (Routine.run g.answer operation g.provisioner g.now).2.1
    provisioner := (Routine.run g.answer operation g.provisioner g.now).2.2.1 }) := rfl
  rw [hprovide, h]

lemma startIn_of_gathers (hs : g.isStarted = false)
    (h : Gathers g.answer (missing (order ++ g.fleet.minimums) g.fleet.activeCount) g.fleet g.provisioner g.now
      failure t q later) :
    (g.startIn order).1 = failure.elim (.ok ()) .error ∧ (g.startIn order).2.fleet = t := by
  have hprovide : Gateway.provide { g with isStarted := true } (bootstrapIn order g) =
      (outcome failure _, { g with isStarted := true, fleet := t, provisioner := q }) :=
    provide_of_run (run_bootstrapIn h)
  rw [startIn, if_neg (by simp [hs]), hprovide]
  cases failure with
  | some e => exact ⟨rfl, rfl⟩
  | none =>
    refine ⟨rfl, ?_⟩
    dsimp only [outcome, Option.elim_none]
    split
    · rfl
    · exact fleet_startLoops _ _

end

section Sizes

lemma mem_of_perm (ho : order.Perm (initialInstances g.settings)) (hn : g.settings.batching.models.names.Nodup)
    {service : String} {n : Nat} : (service, n) ∈ order ↔
      ∃ m, g.settings.batching.models.find? service = some m ∧ m.initialInstances = n := by
  rw [ho.mem_iff, initialInstances, List.mem_map]
  constructor
  · rintro ⟨⟨name, m⟩, hm, he⟩
    obtain ⟨rfl, rfl⟩ := Prod.mk.inj he
    exact ⟨m, Table.find?_of_mem hn hm, rfl⟩
  · rintro ⟨m, hm, rfl⟩
    exact ⟨(service, m), Table.mem_of_find? hm, rfl⟩

lemma mem_minimums {s : Fleet} {service : String} {n : Nat} :
    (service, n) ∈ s.minimums ↔ ∃ p, s.policy service = some p ∧ p.minInstances = n := by
  rw [minimums, List.mem_filterMap]
  constructor
  · rintro ⟨name, -, he⟩
    obtain ⟨p, hp, he⟩ := Option.map_eq_some_iff.1 he
    obtain ⟨rfl, rfl⟩ := Prod.mk.inj he
    exact ⟨p, hp, rfl⟩
  · rintro ⟨p, hp, rfl⟩
    have hname : service ∈ s.services := Sorted.mem_sort.2 (Table.mem_names_of_find? hp)
    exact ⟨service, hname, by rw [hp]; rfl⟩

lemma raised_bootstrap (ho : order.Perm (initialInstances g.settings)) (hn : g.settings.batching.models.names.Nodup)
    (service : String) : raised (order ++ g.fleet.minimums) (fun _ => 0) service =
      max ((g.settings.batching.models.find? service).elim 0 (·.initialInstances))
        ((g.fleet.policy service).elim 0 (·.minInstances)) := by
  -- Two sizes with the same bounds: which of the tables comes first, and in what order, is not seen in them.
  refine eq_of_forall_ge_iff fun n => ?_
  rw [raised_le_iff, Nat.max_le]
  simp only [List.mem_append, mem_of_perm ho hn, mem_minimums]
  cases g.settings.batching.models.find? service <;> cases g.fleet.policy service <;> simp [or_imp, forall_and]

end Sizes

/-- What is wanted of a pool is reached, or the first failure is answered. A service that is short gets as many healthy
instances as it lacks and not one more, behind all that were there, by a loop that ends of itself; if a call fails, those
that came before are there. So a gateway that starts with an empty pool has of each service, in whatever order its models
come, what a model starts with or the least that a policy asks for, whichever is more, before any upkeep is done. -/
theorem bootstrap_ends_at_the_right_size {τ π : Type} :
    (∀ (answer : String → π → Instant → Except Error Instance × π × Instant) (s : Fleet) (service : String)
      (count : Nat) (p : π) (now : Instant),
      let lacking := count - s.activeCount service
      let given := replies answer (List.replicate lacking service) p now
      Fresh s.balancer.instances.names (List.replicate lacking service) given →
      ∃ r t q later, Routine.run answer (s.ensureInstances service count) p now = (r, t, q, later) ∧
        Fills answer service count 0 s p now r t q later ∧
        (∀ came : List Instance, given = came.map .ok →
          r = .ok lacking ∧ came.length = lacking ∧ s.Gains came t ∧ ∀ i ∈ came, i.service = service) ∧
        (∀ (came : List Instance) e rest, given = came.map .ok ++ .error e :: rest →
          r = .error e ∧ s.Gains came t ∧ ∀ i ∈ came, i.service = service)) ∧
    (∀ (g : Gateway τ π) (order : List (String × Nat)), order.Perm (initialInstances g.settings) →
      g.settings.batching.models.names.Nodup → g.isStarted = false → g.balancer.instances = ∅ →
      let calls := missing (order ++ g.fleet.minimums) fun _ => 0
      let given := replies g.answer calls g.provisioner g.now
      let started := (g.startIn order).2
      Fresh [] calls given →
      g.startIn (initialInstances g.settings) = g.start ∧
      (∀ came : List Instance, given = came.map .ok → (g.startIn order).1 = .ok () ∧ ∀ service,
        started.balancer.healthyCount service =
          max ((g.settings.batching.models.find? service).elim 0 (·.initialInstances))
            ((g.fleet.policy service).elim 0 (·.minInstances))) ∧
      (∀ (came : List Instance) e rest, given = came.map .ok ++ .error e :: rest →
        (g.startIn order).1 = .error e ∧ g.fleet.Gains came started.fleet)) := by
  constructor
  · intro answer s service count p now lacking given hf
    obtain ⟨r, t, q, later, hrun, hfills, hends⟩ := ensureInstances_of_fresh s service count p now hf
    refine ⟨r, t, q, later, hrun, hfills, fun came hcame => ?_, fun came e rest hfails => hends came _ _ .fails hfails⟩
    obtain ⟨hr, hgains, hserve⟩ := hends came [] none .all (hcame.trans (List.append_nil _).symm)
    have hlength : came.length = lacking := by
      rw [← List.length_map, ← hcame, length_replies, List.length_replicate]
    exact ⟨hr, hlength, hgains, hserve⟩
  · intro g order ho hn hs he calls given started hf
    have hempty : g.fleet.balancer.instances = ∅ := he
    have hactive : g.fleet.activeCount = fun _ => 0 := funext fun service => by
      rw [activeCount, Balancer.serving, hempty]
      rfl
    have hhealthy (service : String) : g.fleet.balancer.healthyCount service = 0 := by
      rw [Balancer.healthyCount, Balancer.serving, hempty]
      rfl
    have hfresh : Fresh g.fleet.balancer.instances.names calls given := by rwa [hempty]
    obtain ⟨failure, t, q, later, h⟩ := exists_gathers hfresh
    obtain ⟨hresult, hfleet⟩ := startIn_of_gathers hs (by rwa [hactive])
    refine ⟨(start_eq g).symm, fun came hcame => ?_, fun came e rest hfails => ?_⟩
    · obtain ⟨rfl, -, -⟩ := h.ends .all (hcame.trans (List.append_nil _).symm)
      refine ⟨hresult, fun service => ?_⟩
      calc started.balancer.healthyCount service
        _ = t.balancer.healthyCount service := by rw [← hfleet]; rfl
        _ = 0 + calls.count service := by rw [h.healthyCount, hhealthy]
        _ = raised (order ++ g.fleet.minimums) (fun _ => 0) service :=
          count_missing (order ++ g.fleet.minimums) (fun _ => 0) service
        _ = _ := raised_bootstrap ho hn service
    · obtain ⟨rfl, hgains, -⟩ := h.ends .fails hfails
      exact ⟨hresult, hfleet ▸ hgains⟩

/-- One instance of a service stops and another does not. -/
def halved : Fleet where
  config := {}
  balancer :=
    ((Balancer.new {}).register { id := "a", service := "chat", host := "h", port := 1, health := .stopping }).register
      { id := "b", service := "chat", host := "h", port := 2, health := .degraded }

/-- One port is left, and each answer takes its time. -/
def scarce (service : String) (p : Ports) (now : Instant) : Except Error Instance × Ports × Instant :=
  if p.made = 0 then (.ok (p.provision service).1, (p.provision service).2, now + 5)
  else (.error (.internal "no port is left"), p, now + 5)

/-- A model's policy asks for more than the model starts with, and there is a policy without a model. -/
def demanding : Settings :=
  { scaling := { policies := .ofList [("llm-large", usualPolicy 3 6), ("chat", usualPolicy 1 2)] } }

theorem bootstrap_ends_at_the_right_size_from_behind :
    let i : Instance := ((Ports.usual 1.0).provision "chat").1
    let e : Error := .internal "no port is left"
    let g : Gateway Cache.Memory Ports := assemble Life.simulated demanding true (.new 10) (.usual 1.0)
    let order := (initialInstances g.settings).reverse
    (∃ t q later, Routine.run scarce (halved.ensureInstances "chat" 3) (.usual 1.0) 0 = (.error e, t, q, later) ∧
      halved.Gains [i] t) ∧
    order = [("embedding", 2), ("llm-fast", 2), ("llm-large", 2)] ∧ (g.startIn order).1 = .ok () ∧
    ["llm-large", "llm-fast", "chat", "other"].map (g.startIn order).2.balancer.healthyCount = [3, 2, 1, 0] := by
  intro i e g order
  obtain ⟨hshort, hstart⟩ := @bootstrap_ends_at_the_right_size Cache.Memory Ports
  constructor
  · obtain ⟨r, t, q, later, hrun, -, -, hfails⟩ := hshort scarce halved "chat" 3 (.usual 1.0) 0 (by decide +kernel)
    obtain ⟨rfl, hgains, -⟩ := hfails [i] e [] rfl
    exact ⟨t, q, later, hrun, hgains⟩
  · let given := replies g.answer (missing (order ++ g.fleet.minimums) fun _ => 0) g.provisioner g.now
    have hnames : g.settings.batching.models.names.Nodup := by decide +kernel
    have hfresh : Fresh [] (missing (order ++ g.fleet.minimums) fun _ => 0) given := by decide +kernel
    obtain ⟨-, hall, -⟩ := hstart g order (List.reverse_perm _) hnames rfl rfl hfresh
    obtain ⟨hok, hsizes⟩ := hall (given.filterMap (·.toOption)) rfl
    refine ⟨rfl, hok, ?_⟩
    simp only [List.map_cons, List.map_nil, hsizes]
    decide +kernel

end Serving.Gateway
