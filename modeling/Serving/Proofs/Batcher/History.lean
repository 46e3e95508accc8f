import Mathlib.Logic.Relation
import Serving.Batch.Processor
import Serving.Proofs.Batcher.Operations

/-! Runs of a batcher. Callers come and give up, timers run out, batches end, somebody looks at the queues
or shuts the batcher down, and time passes, in any order. A history is a batcher with its past. -/

namespace Serving

namespace Batch

/-- How the run of a batch ends: it was refused before it began, or the executor gave a verdict. -/
inductive Ending
  | refused (e : Error)
  | executed (target : Instance) (verdict : Verdict)

/-- The results of a batch, unless its run broke off. -/
def Sent.results (s : Sent) : Ending → Option (List (Except Error Json))
  | .refused e => some (Processor.fanOut e s.items)
  | .executed target verdict =>
    (Processor.resultOf ⟨s.number, s.model, s.items, target, s.started⟩ verdict).map fun
      | .ok results => results
      | .error e => Processor.fanOut e s.items

@[simp] lemma Sent.length_items (s : Sent) : s.items.length = s.requests.length := List.length_map ..

lemma Sent.length_results {s : Sent} {ending : Ending} {results : List (Except Error Json)}
    (h : s.results ending = some results) : results.length = s.requests.length := by
  cases ending with
  | refused e =>
    obtain rfl := Option.some.inj h
    simp [Processor.length_fanOut]
  | executed target verdict =>
    obtain ⟨r, hr, hl⟩ := Option.map_eq_some_iff.1 h
    cases r with
    | error e => simp [← hl, Processor.length_fanOut]
    | ok l =>
      cases verdict with
      | failed e => simp [Processor.resultOf] at hr
      | crashed => simp [Processor.resultOf] at hr
      | answered outcomes =>
        have hj := Processor.length_of_judge_ok (Option.some.inj hr)
        simpa [← hl] using hj

theorem refused_of_over {p p' : Processor} {number : Nat} {s : Sent} {results : List (Except Error Json)}
    (h : p.requestPermit number s.model s.items = (.over results, p')) :
    ∃ e, s.results (.refused e) = some results := by
  simp only [Processor.requestPermit] at h
  split at h
  · rename_i hi
    obtain ⟨hr, _⟩ := Prod.mk.inj h
    refine ⟨.shuttingDown, ?_⟩
    cases hr
    simp [Sent.results, Processor.fanOut, List.isEmpty_iff.1 hi]
  · split at h
    · obtain ⟨hr, _⟩ := Prod.mk.inj h
      cases hr
      exact ⟨_, rfl⟩
    · split at h <;> simp at h

theorem refused_of_noCapacity {p : Processor} {b : Balancer} {now : Instant} {number : Nat} {s : Sent}
    {results : List (Except Error Json)} {next : Option Nat}
    (h : (p.begin b now number s.model s.items).1 = .noCapacity results next) :
    s.results (.refused (.noCapacity s.model)) = some results := by
  simp only [Processor.begin] at h
  split at h
  · cases h
    rfl
  · cases h

theorem results_of_finish (p : Processor) (b : Balancer) (now : Instant) (run : Run) (verdict : Verdict)
    {s : Sent} (hi : run.items = s.items) (hm : run.model = s.model) :
    (p.finish b now run verdict).1.results = s.results (.executed run.target verdict) := by
  simp only [Processor.finish, Sent.results, ← hi, ← hm]
  cases verdict <;> rfl

end Batch

namespace Batcher

open Batch

structure Arrival where
  request : Queued
  time : Instant

structure Finish where
  batch : Sent
  ending : Ending
  answers : List Delivery

structure History where
  batcher : Batcher
  now : Instant := 0
  /-- Timers that were set and have not run out. -/
  timers : List (String × Timer) := []
  arrivals : List Arrival := []
  sent : List Sent := []
  ended : List Finish := []
  /-- Batches whose run broke off. They never come to their end. -/
  broken : List Finish := []
  gaveUp : List Nat := []

inductive Event
  | submission (r : Request)
  | tick
  | timerEnds (model : String) (timer : Timer)
  | runEnds (number : Nat) (ending : Ending)
  | patienceEnds (ticket : Nat)
  | shutDown
  | timePasses (d : Duration)

namespace History

def queue? (s : History) (model : String) : Option Queue := s.batcher.queues.find? model

def absorb (s : History) (outcome : List Effect × Batcher) : History :=
  { s with
    batcher := outcome.2
    timers := s.timers ++ timersIn outcome.1
    sent := s.sent ++ batchesIn outcome.1 }

def arrive (s : History) (r : Queued) : History := { s with arrivals := s.arrivals ++ [⟨r, s.now⟩] }

def forget (s : History) (model : String) (timer : Timer) : History :=
  { s with timers := s.timers.erase (model, timer) }

def finish (s : History) (batch : Sent) (ending : Ending) : History :=
  match batch.results ending with
  | some results =>
    let (answers, b) := s.batcher.complete s.now batch.number results
    { s with batcher := b, ended := s.ended ++ [⟨batch, ending, answers⟩] }
  | none =>
    let (answers, b) := s.batcher.breakOff batch.number
    { s with batcher := b, broken := s.broken ++ [⟨batch, ending, answers⟩] }

/-- An event that cannot take place leaves all as it is: a timer that was not set or is not due, the end of
a run that is not on its way, or impatience of somebody who does not wait. -/
def step (s : History) : Event → History
  | .submission r =>
    match s.batcher.submit s.now r with
    | (.ok accepted, b) => (s.arrive ⟨accepted.ticket, r⟩).absorb (accepted.effects, b)
    | (.error _, b) => { s with batcher := b }
  | .tick => s.absorb (s.batcher.flush s.now)
  | .timerEnds model timer =>
    if (model, timer) ∈ s.timers ∧ timer.due ≤ s.now then
      (s.forget model timer).absorb (s.batcher.timerFires s.now model timer.generation)
    else s
  | .runEnds number ending =>
    match s.batcher.inFlight.find? (·.number == number) with
    | some batch => s.finish batch ending
    | none => s
  | .patienceEnds ticket =>
    match s.arrivals.find? (·.request.ticket == ticket) with
    | some a =>
      if s.batcher.isOpen ticket then
        { s with
          batcher := s.batcher.giveUp ticket a.request.request.model
          gaveUp := s.gaveUp ++ [ticket] }
      else s
    | none => s
  | .shutDown => s.absorb (s.batcher.shutDown s.now)
  | .timePasses d => { s with now := s.now + d }

def start (config : Batch.Config) : History := { batcher := .new config }

def run (config : Batch.Config) (events : List Event) : History := events.foldl step (start config)

/-- One model, whose batches go out in pairs. -/
def inPairs : Batch.Config where
  strategy := .sizeBased
  models := ⟨[("m", { maxSize := 2, idealSize := 1 })]⟩

def plea (p : Priority) : Event := .submission ⟨"r", "m", .null, p, none⟩

/-- The history with one more accepted request, before the batcher looks whether its queue goes out. -/
def accept (s : History) (r : Request) (q : Queue) : History :=
  { s.arrive ⟨s.batcher.nextTicket, r⟩ with
    batcher := s.batcher.enqueue s.now r q
    timers := s.timers ++ (q.acceptTimers s.now).map (r.model, ·) }

def flush (s : History) (model : String) (q : Queue) : History :=
  s.absorb (s.batcher.flushQueue s.now model q)

def ring (s : History) (model : String) (timer : Timer) : History :=
  (s.forget model timer).absorb (s.batcher.timerFires s.now model timer.generation)

def giveUp (s : History) (r : Queued) : History :=
  { s with
    batcher := s.batcher.giveUp r.ticket r.request.model
    gaveUp := s.gaveUp ++ [r.ticket] }

inductive Move : History → History → Prop
  | accept {s : History} {r : Request} {q : Queue} : s.batcher.isShutDown = false →
      s.queue? r.model = some q → Move s (s.accept r q)
  | flush {s : History} {model : String} {q : Queue} : s.queue? model = some q →
      Move s (s.flush model q)
  | ring {s : History} {model : String} {timer : Timer} : (model, timer) ∈ s.timers →
      Move s (s.ring model timer)
  | finish {s : History} {batch : Sent} (ending : Ending) :
      s.batcher.inFlight.find? (·.number == batch.number) = some batch → Move s (s.finish batch ending)
  | giveUp {s : History} {a : Arrival} : a ∈ s.arrivals → s.batcher.isOpen a.request.ticket = true →
      Move s (s.giveUp a.request)
  | shutDown {s : History} : s.batcher.isShutDown = false →
      Move s (s.absorb (s.batcher.shutDown s.now))
  | time {s : History} (d : Duration) : Move s { s with now := s.now + d }

@[simp] lemma absorb_nil (s : History) : s.absorb ([], s.batcher) = s := by
  simp [absorb, timersIn, batchesIn]

lemma absorb_append (s : History) (l l' : List Effect) (b b' : Batcher) :
    s.absorb (l ++ l', b') = (s.absorb (l, b)).absorb (l', b') := by
  simp [absorb]

lemma queue?_accept (s : History) (r : Request) (q : Queue) (model : String) :
    (s.accept r q).queue? model =
      if model = r.model then some (q.accept s.now ⟨s.batcher.nextTicket, r⟩) else s.queue? model :=
  find?_setQueue ..

lemma queue?_start (config : Batch.Config) (model : String) :
    (start config).queue? model = (config.models.find? model).map fun m => { model := m } :=
  Table.find?_map ..

lemma eq_of_queue?_start {config : Batch.Config} {model : String} {q : Queue}
    (hq : (start config).queue? model = some q) : ∃ m, q = { model := m } := by
  rw [queue?_start] at hq
  obtain ⟨m, _, rfl⟩ := Option.map_eq_some_iff.1 hq
  exact ⟨m, rfl⟩

lemma step_rejected {s : History} {r : Request}
    (h : s.batcher.isShutDown = true ∨ s.queue? r.model = none) : s.step (.submission r) = s := by
  cases ho : s.batcher.isShutDown with
  | true => simp [step, submit, ho]
  | false =>
    have hq : s.batcher.queues.find? r.model = none := h.resolve_left (by simp [ho])
    simp [step, submit, ho, hq]

lemma step_accepted {s : History} {r : Request} {q : Queue} (ho : s.batcher.isShutDown = false)
    (hq : s.queue? r.model = some q) :
    s.step (.submission r) =
      (s.accept r q).flush r.model (q.accept s.now ⟨s.batcher.nextTicket, r⟩) := by
  simp [step, submit_eq s.now ho hq, flush, absorb, accept, arrive]

def sweep (s : History) (model : String) : History :=
  match s.queue? model with
  | some q => s.flush model q
  | none => s

lemma absorb_flushModels (names : List String) (s : History) :
    s.absorb (flushModels s.now names s.batcher) = names.foldl sweep s := by
  induction names generalizing s with
  | nil => exact absorb_nil s
  | cons name names ih =>
    rw [List.foldl_cons, ← ih, flushModels]
    cases hq : s.batcher.queues.find? name with
    | none => simp [sweep, queue?, hq]
    | some q =>
      simp only [sweep, queue?, hq]
      exact absorb_append ..

lemma step_tick (s : History) : s.step .tick = s.batcher.queues.names.foldl sweep s :=
  absorb_flushModels ..

inductive Outcome (s : History) : Event → History → Prop
  | idle {e : Event} : Outcome s e s
  | submission {r : Request} {q : Queue} : s.batcher.isShutDown = false → s.queue? r.model = some q →
      Outcome s (.submission r) ((s.accept r q).flush r.model (q.accept s.now ⟨s.batcher.nextTicket, r⟩))
  | tick : Outcome s .tick (s.batcher.queues.names.foldl sweep s)
  | timerEnds {model : String} {timer : Timer} : (model, timer) ∈ s.timers → timer.due ≤ s.now →
      Outcome s (.timerEnds model timer) (s.ring model timer)
  | runEnds {batch : Sent} (ending : Ending) :
      s.batcher.inFlight.find? (·.number == batch.number) = some batch →
      Outcome s (.runEnds batch.number ending) (s.finish batch ending)
  | patienceEnds {a : Arrival} : a ∈ s.arrivals → s.batcher.isOpen a.request.ticket = true →
      Outcome s (.patienceEnds a.request.ticket) (s.giveUp a.request)
  | shutDown : s.batcher.isShutDown = false → Outcome s .shutDown (s.absorb (s.batcher.shutDown s.now))
  | timePasses (d : Duration) : Outcome s (.timePasses d) { s with now := s.now + d }

theorem step_outcome (s : History) (e : Event) : Outcome s e (s.step e) := by
  cases e with
  | submission r =>
    cases ho : s.batcher.isShutDown with
    | true =>
      rw [step_rejected (Or.inl ho)]
      exact .idle
    | false =>
      cases hq : s.queue? r.model with
      | none =>
        rw [step_rejected (Or.inr hq)]
        exact .idle
      | some q =>
        rw [step_accepted ho hq]
        exact .submission ho hq
  | tick =>
    rw [step_tick]
    exact .tick
  | timerEnds model timer =>
    simp only [step]
    split
    · rename_i h
      exact .timerEnds h.1 h.2
    · exact .idle
  | runEnds number ending =>
    simp only [step]
    split
    · rename_i batch h
      have hn : batch.number = number := by simpa using List.find?_some h
      subst hn
      exact .runEnds ending h
    · exact .idle
  | patienceEnds ticket =>
    simp only [step]
    split
    · rename_i a h
      have ht : a.request.ticket = ticket := by simpa using List.find?_some h
      subst ht
      split
      · rename_i ho
        exact .patienceEnds (List.mem_of_find?_eq_some h) ho
      · exact .idle
    · exact .idle
  | shutDown =>
    cases ho : s.batcher.isShutDown with
    | true =>
      have hs : s.step .shutDown = s := by simp [step, Batcher.shutDown, ho]
      rw [hs]
      exact .idle
    | false => exact .shutDown ho
  | timePasses d => exact .timePasses d

lemma moves_sweep (names : List String) (s : History) :
    Relation.ReflTransGen Move s (names.foldl sweep s) := by
  induction names generalizing s with
  | nil => exact .refl
  | cons name names ih =>
    refine Relation.ReflTransGen.trans ?_ (ih (s.sweep name))
    cases hq : s.queue? name with
    | none => simpa only [sweep, hq] using .refl
    | some q => simpa only [sweep, hq] using .single (.flush hq)

theorem step_moves (s : History) (e : Event) : Relation.ReflTransGen Move s (s.step e) := by
  have h := step_outcome s e
  generalize s.step e = s' at h
  cases h with
  | idle => exact .refl
  | submission ho hq =>
    refine Relation.ReflTransGen.tail (.single (.accept ho hq)) (.flush ?_)
    rw [queue?_accept, if_pos rfl]
  | tick => exact moves_sweep ..
  | timerEnds hm _ => exact .single (.ring hm)
  | runEnds ending hb => exact .single (.finish ending hb)
  | patienceEnds ha ho => exact .single (.giveUp ha ho)
  | shutDown ho => exact .single (.shutDown ho)
  | timePasses d => exact .single (.time d)

lemma step_preserves {P : History → Prop} (hm : ∀ s s', Move s s' → P s → P s') (s : History) (e : Event)
    (h : P s) : P (s.step e) := by
  have hmoves := step_moves s e
  generalize s.step e = s' at hmoves
  induction hmoves with
  | refl => exact h
  | tail _ hmove ih => exact hm _ _ hmove ih

/-- What holds of a fresh batcher and survives every move holds of every run. -/
theorem run_induction {P : History → Prop} {config : Batch.Config} (h₀ : P (start config))
    (hm : ∀ s s', Move s s' → P s → P s') (events : List Event) : P (run config events) := by
  rw [run]
  generalize start config = s at h₀
  induction events generalizing s with
  | nil => exact h₀
  | cons e events ih => exact ih _ (step_preserves hm s e h₀)

end History

end Batcher

end Serving
