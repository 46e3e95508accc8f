import Mathlib.Data.List.Nodup
import Serving.Proofs.Gateway.Course
import Serving.Rehearsal.Parties

/-! What a gateway may rely on that was built from valid settings, whatever is asked of it, in whatever order, and
however its parties behave: every name that it looks up itself is known, every batch and every pool has sizes that can
be met, and every loop of its upkeep has a period. -/

namespace Serving.Gateway

variable {τ π : Type}

/-- The parties that a gateway has if it is given no others. -/
structure Parties.Simulated (p : Parties τ π) (s : Settings) : Prop where
  executor : ∀ model target items, ∃ failureRate dice,
    p.executor model target items = Batch.simulated s.batching.models failureRate dice model target items
  database : ∃ latency, p.database = .simulated latency
  handler : p.handler = .echo

/-- A change that leaves alone what the gateway is doing, and its settings. -/
structure Apart (g g' : Gateway τ π) : Prop where
  settings : g'.settings = g.settings
  parties : g'.parties = g.parties
  cache : g'.desk.cache.config = g.desk.cache.config
  batcher : g'.batcher = g.batcher
  processor : g'.processor = g.processor
  scaling : g'.fleet.config = g.fleet.config
  feed : g'.feed = g.feed
  agenda : g'.agenda = g.agenda
  waiting : g'.waiting = g.waiting
  orders : g'.orders = g.orders
  reports : g'.reports = g.reports
  nextCaller : g'.nextCaller = g.nextCaller

namespace Life

inductive Move (τ π : Type)
  | start
  | shutDown
  | requests (rs : List Request)
  | submissions (rs : List Batch.Request)
  | order (model : String) (items : List Batch.Item)
  | flush
  | drain
  /-- Somebody uses the cache and waits for the end of that. -/
  | cache (r : Cache.Request)
  | listen (feed : Feed Settings)
  | announce (news : List Settings)
  | scale (service : String)
  | policy (service : String) (policy : Scaling.Policy)
  | time (d : Duration)
  | other (change : Gateway τ π → Gateway τ π)

/-- If it brings settings then valid ones, and if it is something else then nothing that the gateway is doing. -/
def Move.Proper : Move τ π → Prop
  | .listen feed => ∀ s ∈ feed.kept, s.IsValid
  | .announce news => ∀ s ∈ news, s.IsValid
  | .other change => ∀ g, Apart g (change g)
  | _ => True

end Life

/-- A gateway, and the requests that it has been asked so far, under the numbers of their callers. -/
structure Life (τ π : Type) where
  gateway : Gateway τ π
  asked : List (Nat × Request) := []

namespace Life

def step (l : Life τ π) : Move τ π → Life τ π
  | .start => { l with gateway := l.gateway.start.2 }
  | .shutDown => { l with gateway := l.gateway.shutDown }
  | .requests rs =>
    let (callers, gateway) := takeRequests rs l.gateway
    { gateway, asked := l.asked ++ callers.zip rs }
  | .submissions rs => { l with gateway := (takeSubmissions rs l.gateway).2 }
  | .order model items => { l with gateway := (l.gateway.takeOrder model items).2 }
  | .flush => { l with gateway := l.gateway.flush.2 }
  | .drain => { l with gateway := l.gateway.drainBatcher }
  | .cache r => { l with gateway := (l.gateway.perform (l.gateway.cache.perform l.gateway.now r)).2 }
  | .listen feed => { l with gateway := l.gateway.listen feed }
  | .announce news => { l with gateway := l.gateway.announce news }
  | .scale service => { l with gateway := (l.gateway.scale service).2 }
  | .policy service policy =>
    { l with gateway := { l.gateway with fleet := (l.gateway.fleet.updatePolicy service policy).2 } }
  | .time d => { l with gateway := l.gateway.advance d }
  | .other change => { l with gateway := change l.gateway }

def run (g : Gateway τ π) (moves : List (Move τ π)) : Life τ π := moves.foldl step { gateway := g }

end Life

variable {s : Settings} {p : Parties τ π} {asked : List (Nat × Request)} {g g' : Gateway τ π}

/-- Simulated parties do not tell of unknown names. -/
lemma Parties.Simulated.not_says (h : p.Simulated s) {e : Error} (he : e.TellsOfName) : ¬p.Says e := by
  rintro (⟨hanswered, hmem, hfailed⟩ | hfailed | hfailed | hfailed)
  · rename_i model target items outcomes outcome
    obtain ⟨failureRate, dice, hexecutor⟩ := h.executor model target items
    rw [hexecutor, Batch.simulated] at hanswered
    split at hanswered
    · cases hanswered
    · obtain rfl := Batch.Verdict.answered.inj hanswered
      obtain ⟨item, -, rfl⟩ := List.mem_map.1 hmem
      cases hfailed
  · rename_i model target items
    obtain ⟨failureRate, dice, hexecutor⟩ := h.executor model target items
    rw [hexecutor, Batch.simulated] at hfailed
    split at hfailed <;> cases hfailed
    exact he
  · obtain ⟨latency, hdatabase⟩ := h.database
    rw [hdatabase, Database.simulated] at hfailed
    split at hfailed <;> cases hfailed
    exact he
  · rw [h.handler] at hfailed
    cases hfailed

/-! ### A gateway in use -/

lemma intact_assemble (hs : s.IsValid) (p : Parties τ π) (isDistributed : Bool) (store : τ) (provisioner : π) :
    Intact s p [] (assemble p s isDistributed store provisioner) where
  valid := hs
  settings := rfl
  parties := rfl
  cache := rfl
  queues := Batcher.serves_new s.batching
  permits := Processor.admits_new s.batching.models
  scaling := hs.scaling
  feed := nofun
  events := List.forall_mem_nil _
  waiting := List.forall_mem_nil _
  orders := List.forall_mem_nil _
  reports := List.forall_mem_nil _
  numbers := List.forall_mem_nil _

lemma Intact.apart (h : Intact s p asked g) (ha : Apart g g') : Intact s p asked g' where
  valid := h.valid
  settings := ha.settings.trans h.settings
  parties := ha.parties.trans h.parties
  cache := ha.cache.trans h.cache
  queues := ha.batcher ▸ h.queues
  permits := ha.processor ▸ h.permits
  scaling := ha.scaling ▸ h.scaling
  feed := ha.feed ▸ h.feed
  events := ha.agenda ▸ h.events
  waiting := ha.waiting ▸ h.waiting
  orders := ha.orders ▸ h.orders
  reports := ha.reports ▸ h.reports
  numbers := ha.nextCaller ▸ h.numbers

lemma callers_takeRequests (rs : List Request) (g : Gateway τ π) :
    (takeRequests rs g).1 = List.range' g.nextCaller rs.length := by
  induction rs generalizing g with
  | nil => rfl
  | cons r rest ih => exact congrArg (g.nextCaller :: ·) (ih _)

namespace Intact

variable (h : Intact s p asked g)

include h

lemma bounds {service : String} {policy : Scaling.Policy} (hp : g.fleet.policy service = some policy) :
    policy.minInstances ≤ policy.maxInstances := by
  have hproblems := (Scaling.Config.problems_eq_nil_iff.1 h.scaling).2
  have hpolicy : policy.problems = [] :=
    Scaling.Config.policyProblems_eq_nil_iff.1 hproblems (service, policy) (Table.mem_of_find? hp)
  exact Scaling.Policy.min_le_max hpolicy

lemma periods {chore : Chore} {period : Duration} (hp : (chore, period) ∈ g.upkeep) : period ≠ 0 := by
  obtain ⟨hbalancing, -, hbatching, -, hmaintenance⟩ := h.valid.parts
  obtain ⟨hstats, hsweep, hcleanup⟩ := Settings.maintenance_ne_zero hmaintenance
  simp only [upkeep, h.settings, List.mem_cons, List.not_mem_nil, or_false, Prod.mk.injEq] at hp
  rcases hp with ⟨-, rfl⟩ | ⟨-, rfl⟩ | ⟨-, rfl⟩ | ⟨-, rfl⟩ | ⟨-, rfl⟩ | ⟨-, rfl⟩
  · exact Balancer.Config.healthInterval_ne_zero hbalancing
  · exact (Scaling.Config.problems_eq_nil_iff.1 h.scaling).1
  · exact Batch.Config.tickInterval_ne_zero hbatching
  · exact hstats
  · exact hsweep
  · exact hcleanup

end Intact

/-- What a loop does, and how often. -/
def Loop.part (l : Loop) : Chore × Duration := (l.chore, l.period)

lemma loops_startLoops (upkeep : List (Chore × Duration)) (hp : ∀ part ∈ upkeep, part.2 ≠ 0) (g : Gateway τ π) :
    (upkeep.foldl (fun g (chore, period) => g.startLoop chore period) g).loops.map Loop.part =
      g.loops.map Loop.part ++ upkeep := by
  induction upkeep generalizing g with
  | nil => rw [List.append_nil]; rfl
  | cons part rest ih =>
    rw [List.forall_mem_cons] at hp
    have hfirst : (g.startLoop part.1 part.2).loops.map Loop.part = g.loops.map Loop.part ++ [part] := by
      rw [startLoop, if_neg hp.1]
      exact List.map_append
    rw [List.foldl_cons, ih hp.2, hfirst, List.append_assoc, List.singleton_append]

/-- A start that succeeds leaves out no part of the upkeep. -/
lemma loops_start (h : Intact s p asked g) (hstarted : g.isStarted = false) (hopen : g.isShutDown = false)
    (hok : g.start.1 = .ok ()) : g.start.2.loops.map Loop.part = g.loops.map Loop.part ++ g.upkeep := by
  have hloops : (Gateway.provide { g with isStarted := true } g.bootstrap).2.loops = g.loops := rfl
  have hopen' : (Gateway.provide { g with isStarted := true } g.bootstrap).2.isShutDown = false := hopen
  have hupkeep : (Gateway.provide { g with isStarted := true } g.bootstrap).2.upkeep = g.upkeep := by
    have hconfig : (Gateway.provide { g with isStarted := true } g.bootstrap).2.fleet.config = g.fleet.config :=
      config_bootstrap { g with isStarted := true }
    rw [upkeep, upkeep, hconfig]
    rfl
  rw [start, if_neg (by simp [hstarted])] at hok ⊢
  rcases hprovide : Gateway.provide { g with isStarted := true } g.bootstrap with ⟨e | made, g'⟩
  · rw [hprovide] at hok
    cases hok
  · rw [hprovide] at hloops hopen' hupkeep
    dsimp only at hloops hopen' hupkeep ⊢
    have hperiods : ∀ part ∈ g'.upkeep, part.2 ≠ 0 := fun part hpart => h.periods (hupkeep ▸ hpart)
    rw [if_neg (by simp [hopen']), ← hloops, ← hupkeep]
    exact loops_startLoops g'.upkeep hperiods g'

namespace Life

variable {l : Life τ π}

lemma intact_step (h : Intact s p l.asked l.gateway) {m : Move τ π} (hm : m.Proper) :
    Intact s p (l.step m).asked (l.step m).gateway := by
  cases m with
  | start => exact h.start
  | shutDown => exact h.shutDown
  | requests rs => exact h.takeRequests rs
  | submissions rs => exact h.takeSubmissions rs
  | order model items => exact h.takeOrder model items
  | flush => exact h.flush
  | drain => exact h.drainBatcher
  | cache r =>
    have htidy := Cache.tidy_perform (Cache.lasting_config s.cache) h.cache l.gateway.now r
    exact h.operate (fun limit _ h => h.passTo limit) htidy
  | listen feed => exact h.listen hm
  | announce news => exact h.announce hm
  | scale service => exact h.scale service
  | policy service policy => exact h.updatePolicy service policy
  | time d => exact h.passTo _
  | other change => exact h.apart (hm l.gateway)

/-- No two requests have one number. -/
lemma distinct_step (h : Intact s p l.asked l.gateway) (hd : (l.asked.map (·.1)).Nodup) (m : Move τ π) :
    ((l.step m).asked.map (·.1)).Nodup := by
  cases m with
  | requests rs =>
    have hcallers : ((takeRequests rs l.gateway).1.zip rs).map (·.1) =
        List.range' l.gateway.nextCaller rs.length := by
      rw [callers_takeRequests]
      exact List.map_fst_zip (Nat.le_of_eq (List.length_range' ..))
    show ((l.asked ++ (takeRequests rs l.gateway).1.zip rs).map (·.1)).Nodup
    rw [List.map_append, hcallers]
    refine List.nodup_append.2 ⟨hd, List.nodup_range' .., ?_⟩
    rintro number hnumber _ hlater rfl
    obtain ⟨q, hq, rfl⟩ := List.mem_map.1 hnumber
    have hbefore := h.numbers q hq
    have hafter := (List.mem_range'_1.1 hlater).1
    omega
  | _ => exact hd

lemma sound_run (h : Intact s p [] g) {moves : List (Move τ π)} (hm : ∀ m ∈ moves, m.Proper) :
    Intact s p (run g moves).asked (run g moves).gateway ∧ ((run g moves).asked.map (·.1)).Nodup := by
  rw [run]
  induction moves using List.reverseRecOn with
  | nil => exact ⟨h, List.nodup_nil⟩
  | append_singleton moves m ih =>
    obtain ⟨hintact, hdistinct⟩ := ih fun m' hm' => hm m' (List.mem_append_left _ hm')
    rw [List.foldl_concat]
    exact ⟨intact_step hintact (hm m (by simp)), distinct_step hintact hdistinct m⟩

lemma of_build {isDistributed : Bool} {store : τ} {provisioner : π}
    (h : build p s isDistributed store provisioner = .ok g) : s.IsValid ∧ g = assemble p s isDistributed store provisioner := by
  rw [build] at h
  cases hv : s.validate with
  | error e =>
    rw [hv] at h
    cases h
  | ok u =>
    rw [hv] at h
    exact ⟨(Settings.validate_eq_ok_iff s).1 hv, (Except.ok.inj h).symm⟩

/-- A request that names no model asks for the model that is asked for by default, and that one has settings. -/
lemma find?_modelOf (hs : s.IsValid) {r : Request} (hmodel : r.model = none)
    (hpayload : (r.payload.field? "model").bind Json.text? = none) :
    ∃ m, s.batching.models.find? (modelOf s r) = some m := by
  rw [modelOf, hmodel, hpayload]
  exact hs.defaultModel

def simulated : Parties Cache.Memory Scaling.Ports where
  store := .ofMemory
  provisioner := Scaling.Ports.provisioner
  executor := Batch.simulated Batch.usualModels 0.0 0.0
  database := .simulated Database.usualLatency
  handler := .echo
  probe _ := ⟨true, 10, 10⟩

def built : Gateway Cache.Memory Scaling.Ports := assemble simulated {} true (.new 10) (.usual 1.0)

def hasty : Settings := { scaling := { interval := .ofSeconds 1 } }

abbrev plain : Request := { Request.ofModel .null with params := some [("k", .int 1)] }

/-- New settings arrive, a model is named that there is none of, and a policy is turned down. -/
def day : List (Move Cache.Memory Scaling.Ports) :=
  [.start, .listen { capacity := 2 }, .announce [hasty],
    .requests [plain, { plain with model := some "m" }, .ofQuery "q" .null],
    .policy "llm-fast" { minInstances := 3, maxInstances := 2 }, .time (.ofMillis 1300), .shutDown]

/-- Who was answered, the last first, and whether that was good. -/
def answered (g : Gateway τ π) : List (Nat × Bool) :=
  g.reports.filterMap fun
    | .responded number _ response => some (number, response.result.isOk)
    | _ => none

end Life

end Serving.Gateway
