import Serving.Proofs.Batcher.History

/-! What flushes, timers and the shutdown have in common: they take batches out of queues and send them,
and touch nothing else. -/

namespace Serving.Batcher.History

open Batch

/-- A history without its queues, timers and batches. -/
def rest (s : History) : History :=
  { s with
    batcher := { s.batcher with queues := ∅, inFlight := [], nextBatch := 0, isShutDown := false }
    timers := []
    sent := [] }

/-- Between `s` and `s'` the batches `new` went out, and `R` relates each queue, its batches among them
and what is left of it. -/
structure Dispatched (R : Queue → List (List Queued) → Queue → Prop) (s : History) (new : List Sent)
    (s' : History) : Prop where
  rest : s'.rest = s.rest
  sent : s'.sent = s.sent ++ new
  inFlight : s'.batcher.inFlight = s.batcher.inFlight ++ new
  nextBatch : s'.batcher.nextBatch = s.batcher.nextBatch + new.length
  numbers : new.map (·.number) = List.range' s.batcher.nextBatch new.length
  absent : ∀ model, s.queue? model = none → s'.queue? model = none ∧ batchesOf model new = []
  queue : ∀ model q, s.queue? model = some q →
    ∃ q', s'.queue? model = some q' ∧ R q (batchesOf model new) q'

variable {R : Queue → List (List Queued) → Queue → Prop} {s s' s'' : History} {new more : List Sent}

namespace Dispatched

lemma keeps {α : Type} (h : Dispatched R s new s') (f : History → α) (hf : ∀ u, f u.rest = f u) :
    f s' = f s := by
  rw [← hf s', h.rest, hf s]

lemma isOpen (h : Dispatched R s new s') : s'.batcher.isOpen = s.batcher.isOpen :=
  h.keeps (·.batcher.isOpen) fun _ => rfl

lemma arrivals (h : Dispatched R s new s') : s'.arrivals = s.arrivals :=
  h.keeps History.arrivals fun _ => rfl

lemma queue_before (h : Dispatched R s new s') {model : String} {q' : Queue}
    (hq' : s'.queue? model = some q') :
    ∃ q, s.queue? model = some q ∧ R q (batchesOf model new) q' := by
  cases hq : s.queue? model with
  | none =>
    rw [(h.absent model hq).1] at hq'
    cases hq'
  | some q =>
    obtain ⟨u, hu, hR⟩ := h.queue model q hq
    obtain rfl : u = q' := Option.some.inj (hu.symm.trans hq')
    exact ⟨q, rfl, hR⟩

lemma refl (hr : ∀ q, R q [] q) (s : History) : Dispatched R s [] s where
  rest := rfl
  sent := (List.append_nil _).symm
  inFlight := (List.append_nil _).symm
  nextBatch := rfl
  numbers := rfl
  absent _ h := ⟨h, rfl⟩
  queue _ q h := ⟨q, h, hr q⟩

lemma trans (ht : ∀ q q' q'' l l', R q l q' → R q' l' q'' → R q (l ++ l') q'')
    (h : Dispatched R s new s') (h' : Dispatched R s' more s'') : Dispatched R s (new ++ more) s'' where
  rest := h'.rest.trans h.rest
  sent := by rw [h'.sent, h.sent, List.append_assoc]
  inFlight := by rw [h'.inFlight, h.inFlight, List.append_assoc]
  nextBatch := by rw [h'.nextBatch, h.nextBatch, List.length_append, Nat.add_assoc]
  numbers := by
    rw [List.map_append, h.numbers, h'.numbers, h.nextBatch, List.length_append, ← List.range'_append]
    simp
  absent model hq := by
    obtain ⟨hq', hl⟩ := h.absent model hq
    obtain ⟨hq'', hl'⟩ := h'.absent model hq'
    exact ⟨hq'', by rw [batchesOf_append, hl, hl', List.append_nil]⟩
  queue model q hq := by
    obtain ⟨q', hq', hR⟩ := h.queue model q hq
    obtain ⟨q'', hq'', hR'⟩ := h'.queue model q' hq'
    exact ⟨q'', hq'', by rw [batchesOf_append]; exact ht _ _ _ _ _ hR hR'⟩

lemma single (hr : ∀ q, R q [] q) {model : String} {q q' : Queue} {l : List (Reason × List Queued)}
    (timers : List (String × Timer)) (hq : s.queue? model = some q) (hR : R q (l.map (·.2)) q') :
    Dispatched R s (numbered s.now s.batcher.nextBatch (l.map (model, ·)))
      { s with
        batcher := (s.batcher.setQueue model q').sendOut
          (numbered s.now s.batcher.nextBatch (l.map (model, ·)))
        timers := timers
        sent := s.sent ++ numbered s.now s.batcher.nextBatch (l.map (model, ·)) } where
  rest := rfl
  sent := rfl
  inFlight := rfl
  nextBatch := rfl
  numbers := by rw [map_number_numbered, length_numbered]
  absent other ho := by
    have hne : other ≠ model := by
      rintro rfl
      rw [hq] at ho
      cases ho
    have hne' : (model == other) = false := by simpa using Ne.symm hne
    exact ⟨(find?_setQueue ..).trans (by rwa [if_neg hne]),
      by simp [batchesOf_numbered, List.filter_map, Function.comp_def, hne']⟩
  queue other u hu := by
    by_cases hm : other = model
    · subst hm
      obtain rfl : u = q := Option.some.inj (hu.symm.trans hq)
      refine ⟨q', (find?_setQueue ..).trans (if_pos rfl), ?_⟩
      simpa [batchesOf_numbered, List.filter_map, Function.comp_def] using hR
    · refine ⟨u, (find?_setQueue ..).trans (by rwa [if_neg hm]), ?_⟩
      have hm' : (model == other) = false := by simpa using Ne.symm hm
      simpa [batchesOf_numbered, List.filter_map, Function.comp_def, hm'] using hr u

end Dispatched

lemma flush_eq (s : History) (model : String) (q : Queue) :
    s.flush model q =
      { s with
        batcher := (s.batcher.setQueue model (s.batcher.flushed s.now q)).sendOut
          (numbered s.now s.batcher.nextBatch ((s.batcher.ready q).map (model, ·)))
        timers := s.timers ++ (s.batcher.flushTimers s.now q).map (model, ·)
        sent := s.sent ++ numbered s.now s.batcher.nextBatch ((s.batcher.ready q).map (model, ·)) } := by
  simp [flush, absorb, flushQueue_eq]

lemma queue?_flush (s : History) (model : String) (q : Queue) (other : String) :
    (s.flush model q).queue? other =
      if other = model then some (s.batcher.flushed s.now q) else s.queue? other := by
  rw [flush_eq]
  exact find?_setQueue ..

lemma ring_eq {model : String} {q : Queue} {timer : Timer} (hq : s.queue? model = some q)
    (hg : timer.generation = q.generation) :
    s.ring model timer =
      { s with
        batcher := (s.batcher.setQueue model (s.batcher.rung s.now q)).sendOut
          (s.batcher.rungBatches s.now model q)
        timers := s.timers.erase (model, timer) ++ (s.batcher.rung s.now q).timer.toList.map (model, ·)
        sent := s.sent ++ s.batcher.rungBatches s.now model q } := by
  simp [ring, absorb, forget, hg, timerFires_eq s.now hq]

lemma ring_stale {model : String} {timer : Timer}
    (h : ∀ q, s.queue? model = some q → q.generation ≠ timer.generation) :
    s.ring model timer = s.forget model timer := by
  rw [ring, timerFires_stale s.now h]
  exact absorb_nil (s.forget model timer)

lemma dispatched_flush (hr : ∀ q, R q [] q) {model : String} {q : Queue} (hq : s.queue? model = some q)
    (hR : R q ((s.batcher.ready q).map (·.2)) (s.batcher.flushed s.now q)) :
    ∃ new, Dispatched R s new (s.flush model q) := by
  rw [flush_eq]
  exact ⟨_, .single hr _ hq hR⟩

lemma dispatched_sweep (hr : ∀ q, R q [] q)
    (ht : ∀ q q' q'' l l', R q l q' → R q' l' q'' → R q (l ++ l') q'')
    (hR : ∀ u : History, u.rest = s.rest → ∀ q,
      R q ((u.batcher.ready q).map (·.2)) (u.batcher.flushed u.now q))
    (names : List String) (u : History) (hu : u.rest = s.rest) :
    ∃ new, Dispatched R u new (names.foldl sweep u) := by
  induction names generalizing u with
  | nil => exact ⟨[], .refl hr u⟩
  | cons name names ih =>
    rw [List.foldl_cons, sweep]
    cases hq : u.queue? name with
    | none => exact ih u hu
    | some q =>
      obtain ⟨new, hnew⟩ := dispatched_flush hr hq (hR u hu q)
      obtain ⟨more, hmore⟩ := ih (u.flush name q) (hnew.rest.trans hu)
      exact ⟨new ++ more, hnew.trans ht hmore⟩

lemma taken_sweep (names : List String) (s : History) :
    ∃ new, Dispatched (Taken s.batcher.isOpen) s new (names.foldl sweep s) := by
  refine dispatched_sweep (fun _ => .refl) (fun _ _ _ _ _ => .trans) (fun u hu q => ?_) names s rfl
  have ho : u.batcher.isOpen = s.batcher.isOpen :=
    (congrArg (fun s : History => s.batcher.isOpen) hu :)
  rw [← ho]
  exact taken_flushed ..

lemma dispatched_ring (hr : ∀ q, R q [] q) (s : History) (model : String) (timer : Timer)
    (hR : ∀ q, s.queue? model = some q → timer.generation = q.generation →
      R q (if q.firstBatch s.batcher.isOpen = [] then [] else [q.firstBatch s.batcher.isOpen])
        (s.batcher.rung s.now q)) :
    ∃ new, Dispatched R s new (s.ring model timer) := by
  by_cases h : ∃ q, s.queue? model = some q ∧ timer.generation = q.generation
  · obtain ⟨q, hq, hg⟩ := h
    have hl : s.batcher.rungBatches s.now model q = numbered s.now s.batcher.nextBatch
        (((if q.firstBatch s.batcher.isOpen = [] then [] else [q.firstBatch s.batcher.isOpen]).map
          (Reason.timer, ·)).map (model, ·)) := by
      rw [rungBatches]
      split <;> rfl
    rw [ring_eq hq hg, hl]
    refine ⟨_, .single hr _ hq ?_⟩
    simpa [List.map_map, Function.comp_def] using hR q hq hg
  · rw [ring_stale fun q hq hg => h ⟨q, hq, hg.symm⟩]
    exact ⟨[], { Dispatched.refl hr s with }⟩

/-- Taking all queues apart is a dispatch once the batches are sent, and leaves nothing in a queue. -/
lemma dispatched_emptied {new : List Sent}
    (hnew : new.map (fun b => (b.model, b.requests)) = (emptyQueues s.batcher.queues.names s.batcher).1)
    (hnumbers : new.map (·.number) = List.range' s.batcher.nextBatch new.length)
    (hs' : s' = { s with
      batcher := (emptyQueues s.batcher.queues.names s.batcher).2.sendOut new
      sent := s.sent ++ new }) :
    Dispatched (Taken s.batcher.isOpen) s new s' ∧ ∀ model q, s'.queue? model = some q → q.waiting = [] := by
  obtain ⟨hframe, hmodels⟩ := emptyQueues_spec s.batcher.queues.names s.batcher
  rw [← hnew] at hmodels
  generalize (emptyQueues s.batcher.queues.names s.batcher).2 = b at hframe hmodels hs'
  obtain ⟨queues, rfl⟩ : ∃ queues, b = { s.batcher with queues } := ⟨_, hframe⟩
  subst hs'
  have hl (model : String) : batchesOf model new =
      ((new.map fun b => (b.model, b.requests)).filter (·.1 == model)).map (·.2) := by
    simp [batchesOf, List.filter_map, Function.comp_def]
  refine ⟨⟨rfl, rfl, rfl, rfl, hnumbers, fun model hq => ?_, fun model q hq => ?_⟩, fun model q hq => ?_⟩
  · have hm := hmodels model
    simp only [show s.batcher.queues.find? model = none from hq] at hm
    exact ⟨hm.1, by rw [hl, hm.2, List.map_nil]⟩
  · have hm := hmodels model
    simp only [show s.batcher.queues.find? model = some q from hq] at hm
    obtain ⟨q', hq', ht, _⟩ := hm
    exact ⟨q', hq', hl model ▸ ht⟩
  · have hm := hmodels model
    cases hs : s.batcher.queues.find? model with
    | none =>
      simp only [hs] at hm
      cases hm.1.symm.trans hq
    | some u =>
      simp only [hs] at hm
      obtain ⟨q', hq', _, he⟩ := hm
      obtain rfl : q' = q := Option.some.inj (hq'.symm.trans hq)
      exact he (Or.inl (Table.mem_names_of_find? hs))

lemma dispatched_shutDown (ho : s.batcher.isShutDown = false) :
    (∃ new, Dispatched (Taken s.batcher.isOpen) s new (s.absorb (s.batcher.shutDown s.now))) ∧
    ∀ model q, (s.absorb (s.batcher.shutDown s.now)).queue? model = some q → q.waiting = [] := by
  let flagged : History := { s with batcher := { s.batcher with isShutDown := true } }
  let held := (emptyQueues s.batcher.queues.names flagged.batcher).1
  have hnext : (emptyQueues s.batcher.queues.names flagged.batcher).2.nextBatch = s.batcher.nextBatch := by
    rw [(emptyQueues_spec s.batcher.queues.names flagged.batcher).1]
  have hs' : s.absorb (s.batcher.shutDown s.now) = { flagged with
      batcher := (emptyQueues s.batcher.queues.names flagged.batcher).2.sendOut
        (numbered s.now s.batcher.nextBatch (held.map fun e => (e.1, .shutdown, e.2)))
      sent := s.sent ++ numbered s.now s.batcher.nextBatch (held.map fun e => (e.1, .shutdown, e.2)) } := by
    simp only [Batcher.shutDown, ho, Bool.false_eq_true, if_false, sendLast_eq, absorb]
    simp [flagged, held, sendOut, hnext]
  have hpairs : (numbered s.now s.batcher.nextBatch (held.map fun e => (e.1, .shutdown, e.2))).map
      (fun b => (b.model, b.requests)) = held := by
    rw [map_requests_numbered, List.map_map]
    exact List.map_id held
  obtain ⟨hd, hempty⟩ := dispatched_emptied (s := flagged) hpairs
    (by rw [map_number_numbered, length_numbered]) hs'
  exact ⟨⟨_, { hd with }⟩, hempty⟩

structure Alike (q q' : Queue) : Prop where
  model : q'.model = q.model
  waiting : q'.waiting = q.waiting
  timer : q'.timer = q.timer
  generation : q'.generation = q.generation

/-- What stays the same while batches end, callers give up and time passes. -/
structure Still (s s' : History) : Prop where
  config : s'.batcher.config = s.batcher.config
  isShutDown : s'.batcher.isShutDown = s.batcher.isShutDown
  nextTicket : s'.batcher.nextTicket = s.batcher.nextTicket
  nextBatch : s'.batcher.nextBatch = s.batcher.nextBatch
  now : s.now ≤ s'.now
  timers : s'.timers = s.timers
  arrivals : s'.arrivals = s.arrivals
  sent : s'.sent = s.sent
  absent : ∀ model, s.queue? model = none → s'.queue? model = none
  queue : ∀ model q, s.queue? model = some q → ∃ q', s'.queue? model = some q' ∧ Alike q q'

namespace Still

lemma queue_before (h : Still s s') {model : String} {q' : Queue} (hq' : s'.queue? model = some q') :
    ∃ q, s.queue? model = some q ∧ Alike q q' := by
  cases hq : s.queue? model with
  | none =>
    rw [h.absent model hq] at hq'
    cases hq'
  | some q =>
    obtain ⟨u, hu, ha⟩ := h.queue model q hq
    obtain rfl : u = q' := Option.some.inj (hu.symm.trans hq')
    exact ⟨q, rfl, ha⟩

lemma passes (s : History) (d : Duration) : Still s { s with now := s.now + d } where
  config := rfl
  isShutDown := rfl
  nextTicket := rfl
  nextBatch := rfl
  now := Nat.le_add_right ..
  timers := rfl
  arrivals := rfl
  sent := rfl
  absent _ hq := hq
  queue _ q hq := ⟨q, hq, rfl, rfl, rfl, rfl⟩

/-- Only numbers change in one of the queues, and others learn what became of batches and callers. -/
lemma modify {model : String} {f : Queue → Queue} {inFlight : List Sent} {callers gaveUp : List Nat}
    {ended broken : List Finish} (hf : ∀ q, Alike q (f q)) :
    Still s { s with
      batcher := { s.batcher with queues := s.batcher.queues.modify model f, inFlight, callers }
      ended, broken, gaveUp } := by
  refine ⟨rfl, rfl, rfl, rfl, Nat.le_refl _, rfl, rfl, rfl, fun name hn => ?_, fun name q hn => ?_⟩
  · refine (Table.find?_modify ..).trans ?_
    split
    · rename_i hm
      subst hm
      rw [show s.batcher.queues.find? name = none from hn, Option.map_none]
    · exact hn
  · by_cases hm : name = model
    · subst hm
      refine ⟨f q, (Table.find?_modify ..).trans ?_, hf q⟩
      rw [if_pos rfl, show s.batcher.queues.find? name = some q from hn, Option.map_some]
    · exact ⟨q, (Table.find?_modify ..).trans (by rwa [if_neg hm]), rfl, rfl, rfl, rfl⟩

end Still

lemma finish_of_results {batch : Sent} {ending : Ending} {results : List (Except Error Json)}
    (hr : batch.results ending = some results)
    (hb : s.batcher.inFlight.find? (·.number == batch.number) = some batch) :
    s.finish batch ending =
      let answers := s.batcher.deliveries (batch.requests.zip results)
      { s with
        batcher := { s.batcher with
          inFlight := s.batcher.inFlight.filter (·.number != batch.number)
          callers := s.batcher.callersAfter answers
          queues := s.batcher.queues.modify batch.model (s.batcher.counted s.now batch answers) }
        ended := s.ended ++ [⟨batch, ending, answers⟩] } := by
  simp only [finish, hr, complete_eq s.now results hb (Sent.length_results hr)]

lemma finish_of_broken {batch : Sent} {ending : Ending} (hr : batch.results ending = none)
    (hb : s.batcher.inFlight.find? (·.number == batch.number) = some batch) :
    s.finish batch ending =
      let answers := s.batcher.deliveries
        (batch.requests.map fun r => (r, .error (droppedError r.request)))
      { s with
        batcher := { s.batcher with
          inFlight := s.batcher.inFlight.filter (·.number != batch.number)
          callers := s.batcher.callersAfter answers }
        broken := s.broken ++ [⟨batch, ending, answers⟩] } := by
  simp only [finish, hr, breakOff_eq hb]

lemma still_finish {batch : Sent} (ending : Ending)
    (hb : s.batcher.inFlight.find? (·.number == batch.number) = some batch) :
    Still s (s.finish batch ending) := by
  cases hr : batch.results ending with
  | none =>
    rw [finish_of_broken hr hb]
    exact ⟨rfl, rfl, rfl, rfl, Nat.le_refl _, rfl, rfl, rfl, fun _ hq => hq,
      fun _ q hq => ⟨q, hq, rfl, rfl, rfl, rfl⟩⟩
  | some results =>
    rw [finish_of_results hr hb]
    refine .modify ?_
    exact fun _ => ⟨rfl, rfl, rfl, rfl⟩

lemma giveUp_of_isOpen {r : Queued} (ho : s.batcher.isOpen r.ticket = true) :
    s.giveUp r =
      { s with
        batcher := { s.batcher with
          callers := s.batcher.callers.filter (· != r.ticket)
          queues := s.batcher.queues.modify r.request.model fun q =>
            { q with counts := { q.counts with timedOut := q.counts.timedOut + 1 } } }
        gaveUp := s.gaveUp ++ [r.ticket] } := by
  simp only [giveUp, Batcher.giveUp, ho, if_true]

lemma still_giveUp {r : Queued} (ho : s.batcher.isOpen r.ticket = true) : Still s (s.giveUp r) := by
  rw [giveUp_of_isOpen ho]
  refine .modify ?_
  exact fun _ => ⟨rfl, rfl, rfl, rfl⟩

theorem Move.effect (h : Move s s') :
    (∃ r q, s.batcher.isShutDown = false ∧ s.queue? r.model = some q ∧ s' = s.accept r q) ∨
    (∃ new, Dispatched (Taken s.batcher.isOpen) s new s') ∨
    (∃ batch ending, s.batcher.inFlight.find? (·.number == batch.number) = some batch ∧
      s' = s.finish batch ending) ∨
    (∃ a ∈ s.arrivals, s.batcher.isOpen a.request.ticket = true ∧ s' = s.giveUp a.request) ∨
    ∃ d, s' = { s with now := s.now + d } := by
  cases h with
  | accept ho hq => exact Or.inl ⟨_, _, ho, hq, rfl⟩
  | flush hq => exact Or.inr (Or.inl (dispatched_flush (fun _ => .refl) hq (taken_flushed ..)))
  | ring => exact Or.inr (Or.inl (dispatched_ring (fun _ => .refl) _ _ _ fun q _ _ => taken_rung _ _ q))
  | finish ending hb => exact Or.inr (Or.inr (Or.inl ⟨_, ending, hb, rfl⟩))
  | giveUp ha ho => exact Or.inr (Or.inr (Or.inr (Or.inl ⟨_, ha, ho, rfl⟩)))
  | shutDown ho => exact Or.inr (Or.inl (dispatched_shutDown ho).1)
  | time d => exact Or.inr (Or.inr (Or.inr (Or.inr ⟨d, rfl⟩)))

theorem Move.kinds (h : Move s s') :
    (∃ r q, s.batcher.isShutDown = false ∧ s.queue? r.model = some q ∧ s' = s.accept r q) ∨
    (∃ new, Dispatched (Taken s.batcher.isOpen) s new s') ∨ Still s s' := by
  rcases h.effect with ha | hd | ⟨batch, ending, hb, rfl⟩ | ⟨a, _, ho, rfl⟩ | ⟨d, rfl⟩
  · exact Or.inl ha
  · exact Or.inr (Or.inl hd)
  · exact Or.inr (Or.inr (still_finish ending hb))
  · exact Or.inr (Or.inr (still_giveUp ho))
  · exact Or.inr (Or.inr (.passes s d))

structure Configured (config : Batch.Config) (s : History) : Prop where
  kept : s.batcher.config = config
  models : ∀ model, (s.queue? model).map (·.model) = config.models.find? model

namespace Configured

variable {config : Batch.Config}

lemma start (config : Batch.Config) : Configured config (start config) where
  kept := rfl
  models model := by
    rw [queue?_start]
    cases config.models.find? model <;> rfl

lemma accept (h : Configured config s) {r : Request} {q : Queue} (hq : s.queue? r.model = some q) :
    Configured config (s.accept r q) where
  kept := h.kept
  models model := by
    rw [queue?_accept, ← h.models model]
    split
    · rename_i hm
      rw [hm, hq, Option.map_some, Option.map_some, Queue.model_accept]
    · rfl

lemma dispatched {isOpen : Nat → Bool} (h : Configured config s)
    (hd : Dispatched (Taken isOpen) s new s') : Configured config s' where
  kept := (hd.keeps (·.batcher.config) fun _ => rfl).trans h.kept
  models model := by
    rw [← h.models model]
    cases hq : s.queue? model with
    | none => rw [(hd.absent model hq).1]
    | some q =>
      obtain ⟨q', hq', ht⟩ := hd.queue model q hq
      rw [hq', Option.map_some, Option.map_some, ht.model]

lemma still (h : Configured config s) (hs : Still s s') : Configured config s' where
  kept := hs.config.trans h.kept
  models model := by
    rw [← h.models model]
    cases hq : s.queue? model with
    | none => rw [hs.absent model hq]
    | some q =>
      obtain ⟨q', hq', ha⟩ := hs.queue model q hq
      rw [hq', Option.map_some, Option.map_some, ha.model]

lemma move (hm : Move s s') (h : Configured config s) : Configured config s' := by
  rcases hm.kinds with ⟨r, q, _, hq, rfl⟩ | ⟨new, hd⟩ | hs
  · exact h.accept hq
  · exact h.dispatched hd
  · exact h.still hs

theorem run (config : Batch.Config) (events : List Event) : Configured config (run config events) :=
  run_induction (start config) (fun _ _ => move) events

lemma find?_model (h : Configured config s) {model : String} {q : Queue} (hq : s.queue? model = some q) :
    config.models.find? model = some q.model := by
  rw [← h.models model, hq, Option.map_some]

end Configured

end Serving.Batcher.History
