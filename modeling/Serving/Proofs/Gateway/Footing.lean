import Serving.Proofs.Batcher.Models
import Serving.Proofs.Cache.Sharing
import Serving.Proofs.Gateway.Blame
import Serving.Proofs.Scaling.Configuration

/-! The footing of a gateway: what its parts find at all times if the gateway was built from valid settings. Nothing that
happens in a gateway takes the ground away from what happens next, so each part may rely on it. -/

namespace Serving.Gateway

open Routine (Abides)

variable {τ π : Type}

/-- What work for an owner ends in. The cache has its settings as before, and a response to a caller says how the
caller's request was answered. -/
def Owner.Ends (s : Settings) (asked : List (Nat × Request)) (o : Owner) (w : Work) (response : Option Response)
    (desk : Desk) : Prop :=
  desk.cache.config = s.cache ∧ ∀ number found, o = .caller number → response = some found →
    ∃ r, (number, r) ∈ asked ∧ Outcome s (requestId number) r w.answers found

/-- Work on its way to its end, with nothing but due answers so far. -/
def Progress (s : Settings) (p : Parties τ π) (asked : List (Nat × Request)) (o : Owner)
    (work : Service (Option Response)) : Prop :=
  ∃ w : Work, (∀ a ∈ w.answers, Due s p a.destination a.result) ∧ Abides (openTerms s) (o.Ends s asked) w work

/-- What stands behind an event: its request was asked, and its result goes back to one of the parties. -/
def Event.Grounded (p : Parties τ π) (asked : List (Nat × Request)) : Event → Prop
  | .arrival caller r => (caller, r) ∈ asked
  | .runEnds _ verdict => p.Passes verdict
  | .ticketAnswered _ result | .handlerEnds _ result => p.Backs result
  | .queryEnds _ _ _ run => p.Backs run.result
  | _ => True

lemma Event.Grounded.more {p : Parties τ π} {asked : List (Nat × Request)} {e : Event} (h : e.Grounded p asked)
    (later : List (Nat × Request)) : e.Grounded p (asked ++ later) := by
  cases e with
  | arrival caller r => exact List.mem_append_left later h
  | _ => exact h

/-- A batch is for a model that has settings. -/
def Order.Grounded (s : Settings) (o : Order) : Prop :=
  ∀ number, o.purpose = .batch number → ∃ m, s.batching.models.find? o.model = some m

def Report.Grounded (s : Settings) (p : Parties τ π) (asked : List (Nat × Request)) (report : Report) : Prop :=
  ∀ number time response, report = .responded number time response →
    ∃ r, (number, r) ∈ asked ∧ Excused s p r response.result

structure Intact (s : Settings) (p : Parties τ π) (asked : List (Nat × Request)) (g : Gateway τ π) : Prop where
  valid : s.IsValid
  settings : g.settings = s
  parties : g.parties = p
  cache : g.desk.cache.config = s.cache
  queues : g.batcher.Serves s.batching.models
  permits : g.processor.Admits s.batching.models
  scaling : g.fleet.config.problems = []
  feed : ∀ feed, g.feed = some feed → ∀ news ∈ feed.kept, news.IsValid
  events : ∀ entry ∈ g.agenda.entries, entry.2.Grounded p asked
  waiting : ∀ w ∈ g.waiting, ∃ desk, Progress s p asked w.owner (.call w.need desk w.resume)
  orders : ∀ o ∈ g.orders, o.Grounded s
  reports : ∀ r ∈ g.reports, r.Grounded s p asked
  numbers : ∀ q ∈ asked, q.1 < g.nextCaller

variable {s : Settings} {p : Parties τ π} {asked : List (Nat × Request)} {g : Gateway τ π} {o : Owner} {desk : Desk}

/-! ### Work -/

namespace Progress

lemma store {call : Cache.Call} {resume : Option call.Reply → Desk → Instant → Service (Option Response)}
    (h : Progress s p asked o (.call (.store call) desk resume)) (reply : Option call.Reply) {desk' : Desk}
    (hd : desk'.cache.config = s.cache) (now : Instant) : Progress s p asked o (resume reply desk' now) := by
  obtain ⟨w, hfair, -, -, hnext⟩ := h
  exact ⟨w, hfair, hnext reply w rfl desk' now hd⟩

lemma answer {d : Destination} {resume : Except Error Json → Desk → Instant → Service (Option Response)}
    (h : Progress s p asked o (.call (.answer d) desk resume)) {result : Except Error Json} (hr : Due s p d result)
    {desk' : Desk} (hd : desk'.cache.config = s.cache) (now : Instant) :
    Progress s p asked o (resume result desk' now) := by
  obtain ⟨w, hfair, -, -, hnext⟩ := h
  refine ⟨w.hear d result, fun a ha => ?_, hnext result (w.hear d result) rfl desk' now hd⟩
  rcases List.mem_append.1 ha with ha | ha
  · exact hfair a ha
  · obtain rfl := List.mem_singleton.1 ha
    exact hr

lemma more {work : Service (Option Response)} (h : Progress s p asked o work) (later : List (Nat × Request)) :
    Progress s p (asked ++ later) o work := by
  obtain ⟨w, hfair, hwork⟩ := h
  refine ⟨w, hfair, hwork.mono ?_⟩
  rintro w response desk ⟨hd, hends⟩
  refine ⟨hd, fun number found ho hfound => ?_⟩
  obtain ⟨r, hr, houtcome⟩ := hends number found ho hfound
  exact ⟨r, List.mem_append_left later hr, houtcome⟩

/-- A request that was asked is served. -/
lemma served (hs : s.IsValid) {number : Nat} {r : Request} (hr : (number, r) ∈ asked)
    (hd : desk.cache.config = s.cache) (now : Instant) :
    Progress s p asked (.caller number) ((serve s (requestId number) r desk now).map some) := by
  refine ⟨{ request := r }, List.forall_mem_nil _, Abides.map ((abides_served hs hd).mono ?_)⟩
  rintro w response desk ⟨hd, houtcome⟩
  refine ⟨hd, ?_⟩
  rintro _ _ ⟨⟩ ⟨⟩
  exact ⟨r, hr, houtcome⟩

/-- A loop may look at the cache. -/
lemma looks (hd : desk.cache.config = s.cache) (number : Nat) :
    Progress s p asked (.loop number) ((onCache desk.cache.statistics desk).map fun _ => none) := by
  have htidy : Cache.Tidy (·.config = s.cache) desk.cache.statistics :=
    Cache.tidy_perform (Cache.lasting_config s.cache) hd 0 .statistics
  refine ⟨{ request := .ofModel .null }, List.forall_mem_nil _, Abides.map ?_⟩
  refine htidy.embed ?_ ?_ ?_ ?_ ?_ hd
  · exact fun desk hd => hd
  · exact fun desk cache _ hc => hc
  · exact fun call _ => trivial
  · exact fun call reply w ht => ⟨ht, trivial⟩
  · exact fun desk a cache _ hc => ⟨hc, fun number found ho => nomatch ho⟩

end Progress

namespace Intact

/-! ### Putting things down -/

lemma more (h : Intact s p asked g) (later : List (Nat × Request)) (hn : ∀ q ∈ later, q.1 < g.nextCaller) :
    Intact s p (asked ++ later) g :=
  { h with
    events := fun entry hentry => (h.events entry hentry).more later
    waiting := fun w hw => (h.waiting w hw).imp fun _ hprogress => hprogress.more later
    reports := fun report hreport number time response heq =>
      let ⟨r, hr, hexcused⟩ := h.reports report hreport number time response heq
      ⟨r, List.mem_append_left later hr, hexcused⟩
    numbers := fun q hq => (List.mem_append.1 hq).elim (h.numbers q) (hn q) }

lemma post {e : Event} {due : Instant} (h : Intact s p asked g) (he : e.Grounded p asked) :
    Intact s p asked (g.post due e) :=
  { h with
    events := by
      intro entry hentry
      rcases Agenda.mem_place.1 hentry with rfl | hentry
      · exact he
      · exact h.events entry hentry }

lemma soon {e : Event} (h : Intact s p asked g) (he : e.Grounded p asked) : Intact s p asked (g.soon e) := h.post he

lemma after {e : Event} {d : Duration} (h : Intact s p asked g) (he : e.Grounded p asked) :
    Intact s p asked (g.after d e) := h.post he

lemma report {r : Report} (h : Intact s p asked g) (hr : r.Grounded s p asked) : Intact s p asked (g.report r) :=
  { h with reports := List.forall_mem_cons.2 ⟨hr, h.reports⟩ }

lemma setBalancer (h : Intact s p asked g) (b : Balancer) : Intact s p asked (g.setBalancer b) := { h with }

lemma wait (h : Intact s p asked g) {w : Waiting}
    (hw : ∃ desk, Progress s p asked w.owner (.call w.need desk w.resume)) : Intact s p asked (g.wait w) :=
  { h with
    waiting := by
      intro w' hw'
      rcases List.mem_append.1 hw' with hw' | hw'
      · exact h.waiting w' hw'
      · obtain rfl := List.mem_singleton.1 hw'
        exact hw }

lemma takeWaiting (h : Intact s p asked g) (o : Owner) : Intact s p asked (g.takeWaiting o).2 :=
  { h with waiting := fun w hw => h.waiting w (List.mem_filter.1 hw).1 }

lemma progress_of_takeWaiting (h : Intact s p asked g) {w : Waiting} (hw : (g.takeWaiting o).1 = some w) :
    ∃ desk, Progress s p asked o (.call w.need desk w.resume) := by
  have hfound : g.waiting.find? (·.owner == o) = some w := hw
  have howner := List.find?_some hfound
  obtain rfl : w.owner = o := beq_iff_eq.1 howner
  exact h.waiting w (List.mem_of_find?_eq_some hfound)

/-! ### Batches -/

lemma order (h : Intact s p asked g) {purpose : Purpose} {model : String} (items : List Batch.Item)
    (ho : ∀ number, purpose = .batch number → ∃ m, s.batching.models.find? model = some m) :
    Intact s p asked (g.order purpose model items) := by
  refine soon (g := { g with nextRun := _, orders := _ }) ?_ trivial
  exact
    { h with
      orders := by
        intro o ho'
        rcases List.mem_append.1 ho' with ho' | ho'
        · exact h.orders o ho'
        · obtain rfl := List.mem_singleton.1 ho'
          exact ho }

lemma enactAll (h : Intact s p asked g) {effects : List Batch.Effect}
    (hb : ∀ batch ∈ Batch.batchesIn effects, ∃ m, s.batching.models.find? batch.model = some m) :
    Intact s p asked (g.enactAll effects) := by
  rw [Gateway.enactAll]
  induction effects generalizing g with
  | nil => exact h
  | cons effect effects ih =>
    cases effect with
    | timerSet model timer => exact ih (h.soon trivial) hb
    | batchSent batch =>
      have hfirst := hb batch List.mem_cons_self
      exact ih (h.order _ fun _ _ => hfirst) fun b hmem => hb b (List.mem_cons_of_mem _ hmem)

/-- Whatever the batcher does to itself, and whatever comes of it, is all right. -/
lemma yields (h : Intact s p asked g) {outcome : List Batch.Effect × Batcher}
    (ho : Batcher.Yields s.batching.models outcome) :
    Intact s p asked ({ g with batcher := outcome.2 }.enactAll outcome.1) :=
  enactAll (g := { g with batcher := outcome.2 }) { h with queues := ho.serves } ho.batches

lemma deliver (h : Intact s p asked g) {deliveries : List Batch.Delivery} (hd : ∀ d ∈ deliveries, p.Backs d.result) :
    Intact s p asked (g.deliver deliveries) := by
  rw [Gateway.deliver]
  induction deliveries generalizing g with
  | nil => exact h
  | cons d deliveries ih =>
    rw [List.forall_mem_cons] at hd
    exact ih (h.soon hd.1) hd.2

lemma conclude (h : Intact s p asked g) {o : Order} {results : Option (List (Except Error Json))}
    (hr : ∀ number, o.purpose = .batch number → ∀ l, results = some l → ∀ r ∈ l, p.Backs r) :
    Intact s p asked (g.conclude o results) := by
  have hleft (b : Batcher) (hb : b.Serves s.batching.models) :
      Intact s p asked { g with orders := g.orders.filter (·.number != o.number), batcher := b } :=
    { h with
      queues := hb
      orders := fun o ho => h.orders o (List.mem_filter.1 ho).1 }
  rw [Gateway.conclude.eq_def]
  dsimp only
  split
  · rename_i number results hpurpose
    exact (hleft _ (Batcher.serves_complete h.queues g.now number results)).deliver fun d hd =>
      hr number hpurpose results rfl d.result (Batcher.result_mem_complete hd)
  · rename_i number _
    refine (hleft _ (Batcher.serves_breakOff h.queues number)).deliver fun d hd => ?_
    obtain ⟨r, hdropped⟩ := Batcher.result_of_mem_breakOff hd
    rw [hdropped]
    exact backs_error id
  · exact (hleft g.batcher h.queues).report nofun
  · exact hleft g.batcher h.queues

lemma passPermit (h : Intact s p asked g) (next : Option Nat) : Intact s p asked (g.passPermit next) := by
  cases next with
  | none => exact h
  | some number => exact h.soon trivial

lemma endRun (h : Intact s p asked g) (o : Order) (run : Batch.Run) {verdict : Batch.Verdict}
    (hv : p.Passes verdict) : Intact s p asked (g.endRun o run verdict) := by
  have hpermits : Intact s p asked { g with processor := (g.processor.finish g.balancer g.now run verdict).2.1 } :=
    { h with permits := h.permits.finish g.balancer g.now run verdict }
  exact ((hpermits.setBalancer _).passPermit _).conclude fun _ _ _ hresults =>
    backs_finish (b := g.balancer) hv hresults

lemma beginRun (h : Intact s p asked g) (o : Order) : Intact s p asked (g.beginRun o) := by
  have hpermits : Intact s p asked
      { g with processor := (g.processor.begin g.balancer g.now o.number o.model o.items).2.1 } :=
    { h with permits := h.permits.begin g.balancer g.now }
  rw [Gateway.beginRun]
  rcases hbegin : g.processor.begin g.balancer g.now o.number o.model o.items with ⟨⟨results, next⟩ | run, q, b⟩
  · rw [hbegin] at hpermits
    refine ((hpermits.setBalancer b).passPermit next).conclude ?_
    rintro _ _ _ ⟨⟩
    exact backs_begin hbegin
  · rw [hbegin] at hpermits
    have hpasses : p.Passes (g.parties.executor run.model run.target run.items).verdict := by
      rw [h.parties]
      exact ⟨_, _, _, rfl⟩
    have hrunning : Intact s p asked (({ g with processor := q }.setBalancer b).report (.executing run)) :=
      (hpermits.setBalancer b).report nofun
    dsimp only
    split
    · exact hrunning.endRun o run hpasses
    · exact hrunning.after hpasses

lemma askPermit (h : Intact s p asked g) {o : Order} (ho : o.Grounded s) : Intact s p asked (g.askPermit o) := by
  have hpermits : Intact s p asked
      { g with processor := (g.processor.requestPermit o.number o.model o.items).2 } :=
    { h with permits := h.permits.requestPermit }
  rw [Gateway.askPermit]
  rcases hask : g.processor.requestPermit o.number o.model o.items with ⟨_ | _ | _, q⟩
  · rename_i results
    rw [hask] at hpermits
    refine hpermits.conclude ?_
    rintro number hpurpose _ ⟨⟩
    -- a batch is for a model that there are permits for, so it is not refused for its name
    obtain ⟨m, hm⟩ := ho number hpurpose
    rw [h.permits.results_eq_nil hm hask]
    exact List.forall_mem_nil _
  · rw [hask] at hpermits
    exact hpermits.beginRun o
  · rw [hask] at hpermits
    exact hpermits

lemma order? (h : Intact s p asked g) {number : Nat} {o : Order} (ho : g.order? number = some o) : o.Grounded s :=
  h.orders o (List.mem_of_find?_eq_some ho)

lemma finishRun (h : Intact s p asked g) (number : Nat) {verdict : Batch.Verdict} (hv : p.Passes verdict) :
    Intact s p asked (g.finishRun number verdict) := by
  rw [Gateway.finishRun]
  split
  · exact h.endRun _ _ hv
  · exact h

lemma ringTimer (h : Intact s p asked g) (model : String) (generation : Nat) :
    Intact s p asked (g.ringTimer model generation) :=
  h.yields (Batcher.yields_timerFires h.queues g.now model generation)

lemma startTimer (h : Intact s p asked g) (model : String) (timer : Batch.Timer) :
    Intact s p asked (g.startTimer model timer) := by
  rw [Gateway.startTimer]
  split
  · exact h.ringTimer model _
  · exact h.post trivial

lemma flush (h : Intact s p asked g) : Intact s p asked g.flush.2 := h.yields (Batcher.yields_flush h.queues g.now)

lemma giveUp (h : Intact s p asked g) (ticket : Nat) : Intact s p asked (g.giveUp ticket).2 := by
  rw [Gateway.giveUp]
  split
  · split
    · exact { h with queues := Batcher.serves_giveUp h.queues ticket _ }
    · exact h
  · exact h

lemma error_of_giveUp {ticket : Nat} {client : Client} {e : Error} (h : (g.giveUp ticket).1 = some (client, e)) :
    ¬e.TellsOfName := by
  rw [Gateway.giveUp] at h
  split at h
  · split at h
    · cases h
      exact id
    · cases h
  · cases h

lemma submit (h : Intact s p asked g) (o : Owner) (r : Batch.Request) :
    Intact s p asked (g.submit o r).2 ∧ ∀ result, (g.submit o r).1 = some result → Due s p (.model r) result := by
  obtain ⟨hserves, hyields⟩ := Batcher.yields_submit h.queues g.now r
  rw [Gateway.submit]
  rcases hsubmit : g.batcher.submit g.now r with ⟨e | accepted, b⟩
  · rw [hsubmit] at hserves
    refine ⟨{ h with queues := hserves }, ?_⟩
    rintro _ ⟨⟩ _ ⟨⟩ ht
    have hrefused := Batcher.submit_error (congrArg Prod.fst hsubmit)
    rcases hrefused.2 with ⟨-, rfl⟩ | ⟨-, hnone, rfl⟩
    · exact ht.elim
    · refine .inr ⟨r, rfl, rfl, ?_⟩
      rw [← h.queues r.model, hnone, Option.map_none]
  · rw [hsubmit] at hyields
    have henacted : Intact s p asked ({ g with batcher := b }.enactAll accepted.effects) :=
      h.yields (hyields accepted rfl)
    have hclient (clients : List Client) :
        Intact s p asked { { g with batcher := b }.enactAll accepted.effects with clients } := { henacted with }
    dsimp only
    split
    · refine ⟨(hclient _).giveUp accepted.ticket, ?_⟩
      intro result hresult
      obtain ⟨⟨client, e⟩, hgave, rfl⟩ := Option.map_eq_some_iff.1 hresult
      exact (backs_error (error_of_giveUp hgave)).due
    · exact ⟨(hclient _).after trivial, nofun⟩

/-! ### Work at the desk -/

lemma arm (h : Intact s p asked g) (number : Nat) : Intact s p asked (g.arm number) := by
  rw [Gateway.arm]
  split
  · exact h.post trivial
  · exact h

lemma close (h : Intact s p asked g) {response : Option Response} {w : Work}
    (hw : ∀ a ∈ w.answers, Due s p a.destination a.result) (hends : o.Ends s asked w response desk) :
    Intact s p asked (g.close o response) := by
  cases o with
  | loop number => exact h.arm number
  | caller number =>
    cases response with
    | none => exact h
    | some response =>
      refine h.report ?_
      rintro _ _ _ ⟨⟩
      obtain ⟨r, hr, houtcome⟩ := hends.2 number response rfl rfl
      exact ⟨r, hr, excused_of_outcome houtcome hw⟩

lemma callStore (h : Intact s p asked g) (call : Cache.Call) : Intact s p asked (g.callStore call).2 := { h with }

lemma storeReply (h : Intact s p asked g) (call : Cache.Call) (isAnswered : Bool) :
    Intact s p asked (g.storeReply call isAnswered).2 := by
  rw [Gateway.storeReply]
  split
  · exact { h with }
  · exact h

lemma noteQuery (h : Intact s p asked g) (query : String) (started : Instant) (run : QueryRun) :
    Intact s p asked (g.noteQuery query started run) := { h with }

lemma send (h : Intact s p asked g) (o : Owner) (d : Destination) :
    Intact s p asked (g.send o d).2 ∧ ∀ result, (g.send o d).1 = some result → Due s p d result := by
  cases d with
  | model r => exact h.submit o r
  | database query params =>
    have hbacks : p.Backs (g.parties.database query params).result := by
      rw [h.parties]
      exact fun e he _ => .query he
    rw [Gateway.send]
    split
    · refine ⟨h.noteQuery _ _ _, ?_⟩
      rintro _ ⟨⟩
      exact hbacks.due
    · exact ⟨h.after hbacks, nofun⟩
  | handler type payload =>
    have hbacks : p.Backs (g.parties.handler type payload).result := by
      rw [h.parties]
      exact fun e he _ => .handler he
    rw [Gateway.send]
    split
    · refine ⟨h, ?_⟩
      rintro _ ⟨⟩
      exact hbacks.due
    · exact ⟨h.after hbacks, nofun⟩

end Intact

end Serving.Gateway
