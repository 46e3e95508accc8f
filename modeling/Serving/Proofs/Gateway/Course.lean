import Serving.Proofs.Gateway.Footing

/-! The course of events in a gateway. Whatever happens in it, and whatever is called from outside, leaves it intact: one
lemma for each kind of event and of call, and the passing of time as an induction over events. -/

namespace Serving.Gateway

variable {τ π : Type} {s : Settings} {p : Parties τ π} {asked : List (Nat × Request)} {g : Gateway τ π} {o : Owner}

/-- The pool is filled up by the settings that the scaler has and goes on to have. -/
lemma config_bootstrap (g : Gateway τ π) : (g.provide g.bootstrap).2.fleet.config = g.fleet.config := by
  suffices hsettles : Scaling.Fleet.Settles
      (fun service ports now =>
        ((g.parties.provisioner.provision service ports).1, (g.parties.provisioner.provision service ports).2, now))
      g.fleet.config g.bootstrap g.provisioner g.now from hsettles
  rw [Scaling.Fleet.Settles, bootstrap, Routine.ends_andThen]
  refine (Scaling.Fleet.settles_ensureAll _ 0 g.fleet g.provisioner g.now).mono fun r fleet ports now hfleet => ?_
  cases r with
  | error e => exact hfleet
  | ok made =>
    rw [← hfleet]
    exact Routine.ends_map.2 (Scaling.Fleet.settles_ensureAll fleet.minimums 0 fleet ports now)

namespace Intact

/-! ### Work -/

lemma ask_store (h : Intact s p asked g) (o : Owner) (call : Cache.Call) :
    Intact s p asked (g.ask o (.store call)).2 := by
  rw [Gateway.ask]
  dsimp only
  split
  · exact (h.callStore call).storeReply call _
  · exact (h.callStore call).post trivial

lemma proceed (h : Intact s p asked g) {work : Service (Option Response)} (hw : Progress s p asked o work) :
    Intact s p asked (g.proceed o work) := by
  induction work generalizing g with
  | done response desk =>
    obtain ⟨w, hfair, hends⟩ := hw
    exact close (g := { g with desk }) { h with cache := hends.1 } hfair hends
  | call need desk resume ih =>
    have hdesk : Intact s p asked { g with desk } := by
      obtain ⟨w, -, hd, -⟩ := hw
      exact { h with cache := hd }
    rw [Gateway.proceed]
    cases need with
    | store call =>
      have hasked := hdesk.ask_store o call
      split
      · rename_i reply g' heq
        rw [heq] at hasked
        exact ih reply g'.desk g'.now hasked (hw.store reply hasked.cache g'.now)
      · rename_i g' heq
        rw [heq] at hasked
        exact hasked.wait ⟨desk, hw⟩
    | answer d =>
      obtain ⟨hasked, hdue⟩ := hdesk.send o d
      split
      · rename_i reply g' heq
        have hsent : Gateway.send { g with desk } o d = (some reply, g') := heq
        rw [hsent] at hasked hdue
        exact ih reply g'.desk g'.now hasked (hw.answer (hdue reply rfl) hasked.cache g'.now)
      · rename_i g' heq
        have hsent : Gateway.send { g with desk } o d = (none, g') := heq
        rw [hsent] at hasked
        exact hasked.wait ⟨desk, hw⟩

lemma hearStore (h : Intact s p asked g) (o : Owner) (isAnswered : Bool) :
    Intact s p asked (g.hearStore o isAnswered) := by
  rw [Gateway.hearStore]
  split
  · rename_i call resume g' heq
    have hleft := h.takeWaiting o
    have hwork := h.progress_of_takeWaiting (o := o) (w := ⟨_, .store call, resume⟩) (by rw [heq])
    rw [heq] at hleft
    obtain ⟨desk, hwork⟩ := hwork
    have hreplied := hleft.storeReply call isAnswered
    exact hreplied.proceed (hwork.store _ hreplied.cache _)
  · exact h

lemma hearAnswer (h : Intact s p asked g) (o : Owner) {result : Except Error Json} (hr : p.Backs result) :
    Intact s p asked (g.hearAnswer o result) := by
  rw [Gateway.hearAnswer.eq_def]
  split
  · rename_i d resume g' heq
    have hleft := h.takeWaiting o
    have hwork := h.progress_of_takeWaiting (o := o) (w := ⟨_, .answer d, resume⟩) (by rw [heq])
    rw [heq] at hleft
    obtain ⟨desk, hwork⟩ := hwork
    exact hleft.proceed (hwork.answer hr.due hleft.cache _)
  · cases o with
    | caller number => exact h.report nofun
    | loop number => exact h

lemma acceptSubmission (h : Intact s p asked g) (caller : Nat) (r : Batch.Request) :
    Intact s p asked (g.acceptSubmission caller r) := by
  have hsubmitted := (h.submit (.caller caller) r).1
  rw [Gateway.acceptSubmission]
  split
  · rename_i result g' heq
    rw [heq] at hsubmitted
    exact hsubmitted.report nofun
  · rename_i g' heq
    rw [heq] at hsubmitted
    exact hsubmitted

lemma acceptRequest (h : Intact s p asked g) {caller : Nat} {r : Request} (hr : (caller, r) ∈ asked) :
    Intact s p asked (g.acceptRequest caller r) := by
  rw [Gateway.acceptRequest, h.settings]
  exact h.proceed (.served h.valid hr h.cache g.now)

/-- Somebody uses the cache, while everything else goes on. -/
lemma operate (h : Intact s p asked g) {α : Type} {operation : Cache.Operation α}
    {pass : Instant → Gateway τ π → Gateway τ π}
    (hpass : ∀ limit g, Intact s p asked g → Intact s p asked (pass limit g))
    (ho : Cache.Tidy (·.config = s.cache) operation) : Intact s p asked (g.operate pass operation).2 := by
  induction operation generalizing g with
  | done a cache => exact { h with cache := ho }
  | call call cache resume ih =>
    obtain ⟨hcache, -, hnext⟩ := ho
    have hcalled := callStore (g := g.setCache cache) { h with cache := hcache } call
    rw [Gateway.operate]
    rcases hcall : (g.setCache cache).callStore call with ⟨⟨ends, isAnswered⟩, g'⟩
    rw [hcall] at hcalled
    have hpassed : Intact s p asked (if ends ≤ g'.now then g' else pass ends g') := by
      split
      · exact hcalled
      · exact hpass ends g' hcalled
    have hreplied := hpassed.storeReply call isAnswered
    exact ih _ _ _ hreplied (hnext _ () trivial _ _ hreplied.cache)

/-! ### Upkeep -/

lemma startLoop (h : Intact s p asked g) (chore : Chore) (period : Duration) :
    Intact s p asked (g.startLoop chore period) := by
  rw [Gateway.startLoop]
  split
  · exact h
  · exact soon (g := { g with loops := _, nextLoop := _ }) { h with } trivial

lemma setDue (h : Intact s p asked g) (number : Nat) (due : Instant) : Intact s p asked (g.setDue number due) :=
  { h with }

lemma scale (h : Intact s p asked g) (service : String) : Intact s p asked (g.scale service).2 := by
  have hconfig : Scaling.Fleet.Settles
      (fun service ports now =>
        ((g.parties.provisioner.provision service ports).1, (g.parties.provisioner.provision service ports).2, now))
      g.fleet.config (g.fleet.evaluateAndScale service g.now) g.provisioner g.now :=
    Scaling.Fleet.settles_evaluateAndScale ..
  rw [Gateway.scale]
  dsimp only
  split
  · exact soon { h with scaling := (congrArg Scaling.Config.problems hconfig).trans h.scaling } trivial
  · exact { h with scaling := (congrArg Scaling.Config.problems hconfig).trans h.scaling }

lemma carryOut (h : Intact s p asked g) (later : Scaling.Later) : Intact s p asked (g.carryOut later) := by
  cases later with
  | started id =>
    have hconfig := g.fleet.config_finishStart id
    exact { h with scaling := (congrArg Scaling.Config.problems hconfig).trans h.scaling }
  | retired victim =>
    have hconfig := g.fleet.config_finishRetirement g.parties.provisioner g.provisioner victim
    exact { h with scaling := (congrArg Scaling.Config.problems hconfig).trans h.scaling }

lemma startLater (h : Intact s p asked g) (wait : Duration) (later : Scaling.Later) :
    Intact s p asked (g.startLater wait later) := by
  rw [Gateway.startLater]
  split
  · exact h.carryOut later
  · exact h.after trivial

lemma doChore (h : Intact s p asked g) (chore : Chore) : Intact s p asked (g.doChore chore) := by
  cases chore with
  | probing probe => exact h.setBalancer _
  | scaling =>
    rw [Gateway.doChore]
    generalize g.fleet.services = services
    induction services generalizing g with
    | nil => exact h
    | cons service services ih => exact ih (h.scale service)
  | flushing => exact h.flush
  | counting => exact h
  | sweeping => exact { h with cache := h.cache }
  | pruning => exact { h with }

lemma work (h : Intact s p asked g) (l : Loop) : Intact s p asked (g.work l) := by
  rw [Gateway.work]
  split
  · exact h.proceed (.looks h.cache l.number)
  · exact (h.doChore _).arm l.number

lemma tick (h : Intact s p asked g) (number : Nat) : Intact s p asked (g.tick number) := by
  rw [Gateway.tick]
  split
  · exact (h.setDue number _).work _
  · exact h

lemma beginLoop (h : Intact s p asked g) (number : Nat) : Intact s p asked (g.beginLoop number) := by
  rw [Gateway.beginLoop]
  split
  · split
    · exact (h.setDue number g.now).tick number
    · exact (h.setDue number _).arm number
  · exact h

lemma adopt (h : Intact s p asked g) {news : Settings} (hn : news.IsValid) : Intact s p asked (g.adopt news) :=
  { h with scaling := Scaling.Fleet.problems_updateConfig h.scaling hn.scaling }

lemma readFeed (h : Intact s p asked g) : Intact s p asked g.readFeed := by
  rw [Gateway.readFeed]
  split
  · rename_i feed hfeed
    have hvalid := h.feed feed hfeed
    have hdrained : Intact s p asked { g with feed := some feed.drain.2 } :=
      { h with
        feed := by
          rintro _ ⟨⟩
          exact List.forall_mem_nil _ }
    show Intact s p asked (feed.kept.foldl Gateway.adopt { g with feed := some feed.drain.2 })
    generalize { g with feed := some feed.drain.2 } = g at hdrained
    generalize feed.kept = kept at hvalid
    induction kept generalizing g with
    | nil => exact hdrained
    | cons news rest ih =>
      rw [List.forall_mem_cons] at hvalid
      exact ih _ (hdrained.adopt hvalid.1) hvalid.2
  · exact h

/-! ### Time -/

theorem handle (h : Intact s p asked g) {e : Event} (he : e.Grounded p asked) : Intact s p asked (g.handle e) := by
  cases e with
  | submission caller r => exact h.acceptSubmission caller r
  | arrival caller r => exact h.acceptRequest he
  | timerStarts model timer => exact h.startTimer model timer
  | timerEnds model generation => exact h.ringTimer model generation
  | runAsks number =>
    rw [Gateway.handle]
    cases ho : g.order? number with
    | none => exact h
    | some o => exact h.askPermit (h.order? ho)
  | runBegins number =>
    rw [Gateway.handle]
    cases ho : g.order? number with
    | none => exact h
    | some o => exact h.beginRun o
  | runEnds number verdict => exact h.finishRun number he
  | patienceEnds ticket =>
    have hgave := h.giveUp ticket
    rw [Gateway.handle]
    split
    · rename_i client e g' heq
      have herror : ¬e.TellsOfName := error_of_giveUp (congrArg Prod.fst heq)
      rw [heq] at hgave
      exact hgave.hearAnswer client.owner (backs_error herror)
    · rename_i g' heq
      rw [heq] at hgave
      exact hgave
  | ticketAnswered ticket result =>
    have htaken : Intact s p asked (g.takeClient ticket).2 := { h with }
    rw [Gateway.handle]
    split
    · rename_i client g' heq
      rw [heq] at htaken
      exact htaken.hearAnswer client.owner he
    · rename_i g' heq
      rw [heq] at htaken
      exact htaken
  | storeAnswers o isAnswered => exact h.hearStore o isAnswered
  | queryEnds o query started run => exact (h.noteQuery query started run).hearAnswer o he
  | handlerEnds o result => exact h.hearAnswer o he
  | laterStarts wait later => exact h.startLater wait later
  | laterComes later => exact h.carryOut later
  | loopStarts number => exact h.beginLoop number
  | loopTicks number => exact h.tick number
  | feedArrives => exact h.readFeed

/-- The first event takes place. -/
lemma first (h : Intact s p asked g) {due : Instant} {e : Event} {rest : List (Instant × Event)}
    (hentries : g.agenda.entries = (due, e) :: rest) (now : Instant) :
    Intact s p asked ({ g with now, agenda := ⟨rest⟩ }.handle e) := by
  have hevents := h.events
  rw [hentries, List.forall_mem_cons] at hevents
  exact handle (g := { g with now, agenda := ⟨rest⟩ }) { h with events := hevents.2 } hevents.1

lemma workOff (h : Intact s p asked g) (limit : Instant) (steps : Nat) :
    Intact s p asked (Gateway.workOff limit steps g) := by
  induction steps generalizing g with
  | zero => exact h
  | succ steps ih =>
    rw [Gateway.workOff, Gateway.step?, Agenda.next?]
    cases hentries : g.agenda.entries with
    | nil => exact h
    | cons entry rest =>
      obtain ⟨due, e⟩ := entry
      dsimp only
      split
      · rename_i g' heq
        split at heq
        · cases heq
          exact ih (h.first hentries _)
        · cases heq
      · exact h

lemma passTo (h : Intact s p asked g) (limit : Instant) : Intact s p asked (g.passTo limit) :=
  { h.workOff limit manySteps with }

lemma passUntil (h : Intact s p asked g) (stop : Gateway τ π → Bool) (steps : Nat) :
    Intact s p asked (Gateway.passUntil stop steps g) := by
  induction steps generalizing g with
  | zero => exact h
  | succ steps ih =>
    rw [Gateway.passUntil, Agenda.first?]
    split
    · exact h
    · cases hentries : g.agenda.entries with
      | nil => exact h
      | cons entry rest => exact ih (h.first hentries _)

/-! ### Calls from outside -/

lemma bootstrap (h : Intact s p asked g) : Intact s p asked (g.provide g.bootstrap).2 :=
  { h with scaling := (congrArg Scaling.Config.problems g.config_bootstrap).trans h.scaling }

lemma startLoops (h : Intact s p asked g) (upkeep : List (Chore × Duration)) :
    Intact s p asked (upkeep.foldl (fun g (chore, period) => g.startLoop chore period) g) := by
  induction upkeep generalizing g with
  | nil => exact h
  | cons part rest ih => exact ih (h.startLoop part.1 part.2)

lemma start (h : Intact s p asked g) : Intact s p asked g.start.2 := by
  have hfilled := bootstrap (g := { g with isStarted := true }) { h with }
  rw [Gateway.start]
  split
  · exact h
  · dsimp only
    split
    · exact hfilled
    · split
      · exact hfilled
      · exact hfilled.startLoops _

lemma drainBatcher (h : Intact s p asked g) : Intact s p asked g.drainBatcher := by
  rw [Gateway.drainBatcher]
  split
  · exact h
  · exact (h.yields (Batcher.yields_shutDown h.queues g.now)).passUntil _ _

lemma shutDown (h : Intact s p asked g) : Intact s p asked g.shutDown := by
  have hstopped : Intact s p asked { g.stopLoops with isShutDown := true, feed := none } :=
    { h with feed := nofun }
  have hdrained := hstopped.drainBatcher
  exact passUntil (g := Gateway.stopScaler _) { hdrained with scaling := hdrained.scaling } _ _

lemma listen (h : Intact s p asked g) {feed : Feed Settings} (hf : ∀ news ∈ feed.kept, news.IsValid) :
    Intact s p asked (g.listen feed) := by
  rw [Gateway.listen]
  split
  · exact h
  · refine soon (g := { g with feed := some feed }) { h with feed := ?_ } trivial
    rintro _ ⟨⟩
    exact hf

lemma announce (h : Intact s p asked g) {news : List Settings} (hn : ∀ s ∈ news, s.IsValid) :
    Intact s p asked (g.announce news) := by
  rw [Gateway.announce]
  split
  · rename_i feed hfeed
    refine soon (g := { g with feed := some (news.foldl .publish feed) }) { h with feed := ?_ } trivial
    rintro _ ⟨⟩
    have hkept := h.feed feed hfeed
    clear hfeed
    induction news generalizing feed with
    | nil => exact hkept
    | cons given rest ih =>
      rw [List.forall_mem_cons] at hn
      refine ih hn.2 (feed.publish given) fun a ha => ?_
      rcases List.mem_append.1 (List.mem_of_mem_drop ha) with ha | ha
      · exact hkept a ha
      · obtain rfl := List.mem_singleton.1 ha
        exact hn.1
  · exact h

lemma admitCaller (h : Intact s p asked g) : Intact s p asked g.admitCaller.2 :=
  { h with numbers := fun q hq => Nat.lt_succ_of_lt (h.numbers q hq) }

lemma takeRequests (h : Intact s p asked g) (rs : List Request) :
    Intact s p (asked ++ (Gateway.takeRequests rs g).1.zip rs) (Gateway.takeRequests rs g).2 := by
  induction rs generalizing asked g with
  | nil =>
    rw [List.zip_nil_right, List.append_nil]
    exact h
  | cons r rest ih =>
    have hadmitted : Intact s p (asked ++ [(g.nextCaller, r)]) g.admitCaller.2 := by
      refine h.admitCaller.more _ fun q hq => ?_
      obtain rfl := List.mem_singleton.1 hq
      exact Nat.lt_succ_self _
    have harrival : Event.Grounded p (asked ++ [(g.nextCaller, r)]) (.arrival g.nextCaller r) :=
      List.mem_append_right asked (List.mem_singleton_self _)
    have hrest := ih (hadmitted.soon harrival)
    rwa [List.append_assoc] at hrest

lemma takeSubmissions (h : Intact s p asked g) (rs : List Batch.Request) :
    Intact s p asked (Gateway.takeSubmissions rs g).2 := by
  induction rs generalizing g with
  | nil => exact h
  | cons r rest ih => exact ih (h.admitCaller.soon trivial)

lemma takeOrder (h : Intact s p asked g) (model : String) (items : List Batch.Item) :
    Intact s p asked (g.takeOrder model items).2 := h.admitCaller.order items nofun

lemma updatePolicy (h : Intact s p asked g) (service : String) (policy : Scaling.Policy) :
    Intact s p asked { g with fleet := (g.fleet.updatePolicy service policy).2 } :=
  { h with scaling := Scaling.Fleet.problems_updatePolicy h.scaling service policy }

end Intact

end Serving.Gateway
