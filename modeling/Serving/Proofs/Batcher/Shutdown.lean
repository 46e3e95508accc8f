import Mathlib.Data.List.Induction
import Serving.Proofs.Batcher.Conservation

/-! The first call of the shutdown, one critical section after another, among everything else that goes on.
It raises the flag, takes the queues apart, sends what it holds batch by batch, and waits until no batch is on
its way. Callers, timers, ticks and ends of batches may come between any two of these. -/

namespace Serving.Batcher.History

open Batch

variable {config : Batch.Config} {s s' : History} {new : List Sent}

lemma isShutDown_flush (s : History) (model : String) (q : Queue) :
    (s.flush model q).batcher.isShutDown = s.batcher.isShutDown := by
  rw [flush_eq]
  rfl

lemma isShutDown_sweep (names : List String) (s : History) :
    (names.foldl sweep s).batcher.isShutDown = s.batcher.isShutDown := by
  induction names generalizing s with
  | nil => rfl
  | cons name names ih =>
    rw [List.foldl_cons, ih, sweep]
    split
    · exact isShutDown_flush ..
    · rfl

lemma isShutDown_ring (s : History) (model : String) (timer : Timer) :
    (s.ring model timer).batcher.isShutDown = s.batcher.isShutDown := by
  by_cases h : ∃ q, s.queue? model = some q ∧ timer.generation = q.generation
  · obtain ⟨q, hq, hg⟩ := h
    rw [ring_eq hq hg]
    rfl
  · rw [ring_stale fun q hq hg => h ⟨q, hq, hg.symm⟩]
    rfl

lemma step_isShutDown (s : History) {e : Event} (he : e ≠ .shutDown) :
    (s.step e).batcher.isShutDown = s.batcher.isShutDown := by
  have ho := step_outcome s e
  generalize s.step e = s' at ho
  cases ho with
  | idle => rfl
  | submission _ _ => exact isShutDown_flush ..
  | tick => exact isShutDown_sweep ..
  | timerEnds _ _ => exact isShutDown_ring ..
  | runEnds ending hb => exact (still_finish ending hb).isShutDown
  | patienceEnds _ ho => exact (still_giveUp ho).isShutDown
  | shutDown _ => exact absurd rfl he
  | timePasses d => rfl

lemma run_isShutDown (config : Batch.Config) {events : List Event} (h : .shutDown ∉ events) :
    (run config events).batcher.isShutDown = false := by
  induction events using List.reverseRecOn with
  | nil => rfl
  | append_singleton events e ih =>
    have hr : run config (events ++ [e]) = (run config events).step e := by
      rw [run, List.foldl_append]
      rfl
    rw [hr, step_isShutDown]
    · exact ih fun hm => h (List.mem_append_left _ hm)
    · rintro rfl
      exact h (by simp)

lemma Move.isShutDown (hm : Move s s') (hf : s.batcher.isShutDown = true) :
    s'.batcher.isShutDown = true := by
  cases hm with
  | accept ho _ => exact absurd hf (by simp [ho])
  | flush _ => rw [isShutDown_flush, hf]
  | ring _ => rw [isShutDown_ring, hf]
  | finish ending hb => rw [(still_finish ending hb).isShutDown, hf]
  | giveUp _ ho => rw [(still_giveUp ho).isShutDown, hf]
  | shutDown ho => exact absurd hf (by simp [ho])
  | time _ => exact hf

/-- The history as it will be once these batches are sent. -/
def withSent (s : History) (new : List Sent) : History :=
  { s with batcher := s.batcher.sendOut new, sent := s.sent ++ new }

lemma withSent_nil (s : History) : s.withSent [] = s := by
  simp [withSent, sendOut]

lemma Dispatched.withSent {R : Queue → List (List Queued) → Queue → Prop} (hd : Dispatched R s [] s')
    (new : List Sent) : Dispatched R (s.withSent new) [] (s'.withSent new) where
  rest := hd.rest
  sent := by simp only [History.withSent, hd.sent, List.append_nil]
  inFlight := by simp only [History.withSent, sendOut, hd.inFlight, List.append_nil]
  nextBatch := by simp only [History.withSent, sendOut, hd.nextBatch, List.length_nil, Nat.add_zero]
  numbers := rfl
  absent := hd.absent
  queue := hd.queue

lemma finish_withSent {batch : Sent} (ending : Ending)
    (hb : s.batcher.inFlight.find? (·.number == batch.number) = some batch)
    (hn : ∀ b ∈ new, b.number ≠ batch.number) :
    (s.finish batch ending).withSent new = (s.withSent new).finish batch ending := by
  have hb' : (s.withSent new).batcher.inFlight.find? (·.number == batch.number) = some batch := by
    rw [withSent, sendOut, List.find?_append, hb, Option.some_or]
  have hf : (s.withSent new).batcher.inFlight.filter (·.number != batch.number) =
      s.batcher.inFlight.filter (·.number != batch.number) ++ new := by
    rw [withSent, sendOut, List.filter_append]
    congr 1
    exact List.filter_eq_self.2 fun b hb => bne_iff_ne.2 (hn b hb)
  cases hr : batch.results ending with
  | none =>
    rw [finish_of_broken hr hb, finish_of_broken hr hb', hf]
    rfl
  | some results =>
    rw [finish_of_results hr hb, finish_of_results hr hb', hf]
    rfl

lemma giveUp_withSent {r : Queued} (ho : s.batcher.isOpen r.ticket = true) :
    (s.giveUp r).withSent new = (s.withSent new).giveUp r := by
  have ho' : (s.withSent new).batcher.isOpen r.ticket = true := ho
  rw [giveUp_of_isOpen ho, giveUp_of_isOpen ho']
  rfl

/-- The flag is up and nothing waits. -/
structure Shut (s : History) : Prop where
  flag : s.batcher.isShutDown = true
  empty : ∀ model q, s.queue? model = some q → q.waiting = []

namespace Shut

lemma of_still (h : Shut s) (hs : Still s s') : Shut s' where
  flag := hs.isShutDown.trans h.flag
  empty model q' hq' := by
    obtain ⟨q, hq, ha⟩ := hs.queue_before hq'
    rw [ha.waiting]
    exact h.empty model q hq

lemma nothing_new (h : Shut s) (hd : Dispatched (Taken s.batcher.isOpen) s new s') : new = [] := by
  rw [List.eq_nil_iff_forall_not_mem]
  intro batch hb
  have hmem := mem_batchesOf hb
  cases hq : s.queue? batch.model with
  | none =>
    rw [(hd.absent batch.model hq).2] at hmem
    cases hmem
  | some q =>
    obtain ⟨q', _, ht⟩ := hd.queue batch.model q hq
    obtain ⟨orphans, hp, _⟩ := ht.perm
    rw [h.empty batch.model q hq] at hp
    have hnil := List.nil_perm.1 hp
    simp only [List.append_eq_nil_iff, List.flatten_eq_nil_iff] at hnil
    exact ht.ne_nil _ hmem (hnil.1.1 _ hmem)

lemma dispatched (h : Shut s) (hd : Dispatched (Taken s.batcher.isOpen) s [] s')
    (hf : s'.batcher.isShutDown = true) : Shut s' where
  flag := hf
  empty model q' hq' := by
    obtain ⟨q, hq, ht⟩ := hd.queue_before hq'
    obtain ⟨orphans, hp, _⟩ := ht.perm
    rw [h.empty model q hq] at hp
    have hnil := List.nil_perm.1 hp
    simp only [List.append_eq_nil_iff] at hnil
    exact hnil.2

/-- What is still to be sent may be counted as sent: what happens meanwhile does not tell the difference. -/
lemma move_withSent (h : Shut s) (hm : Move s s') (hd : Divided (s.withSent new)) :
    Divided (s'.withSent new) := by
  rcases hm.effect with ⟨_, _, ho, _⟩ | ⟨more, hmore⟩ | ⟨batch, ending, hb, rfl⟩ | ⟨a, ha, ho, rfl⟩ | ⟨d, rfl⟩
  · exact absurd h.flag (by simp [ho])
  · obtain rfl := h.nothing_new hmore
    exact hd.dispatched (hmore.withSent new)
  · have hn : ∀ b ∈ new, b.number ≠ batch.number := by
      have hnodup : ((s.batcher.inFlight ++ new).map (·.number)).Nodup := List.nodup_range.sublist hd.numbers
      rw [List.map_append] at hnodup
      intro b hnew he
      refine List.disjoint_of_nodup_append hnodup ?_ (List.mem_map.2 ⟨b, hnew, he⟩)
      exact List.mem_map.2 ⟨batch, List.mem_of_find?_eq_some hb, rfl⟩
    have hb' : (s.withSent new).batcher.inFlight.find? (·.number == batch.number) = some batch := by
      rw [withSent, sendOut, List.find?_append, hb, Option.some_or]
    rw [finish_withSent ending hb hn]
    exact hd.move (.finish ending hb')
  · have ho' : (s.withSent new).batcher.isOpen a.request.ticket = true := ho
    rw [giveUp_withSent ho]
    exact hd.giveUp ho'
  · exact hd.move (.time d)

/-- Nothing goes out any more. -/
lemma move (h : Shut s) (hm : Move s s') : Shut s' ∧ s'.sent = s.sent ∧
    s'.batcher.nextBatch = s.batcher.nextBatch ∧ s'.batcher.inFlight.Sublist s.batcher.inFlight := by
  have hf := hm.isShutDown h.flag
  rcases hm.effect with ⟨_, _, ho, _⟩ | ⟨more, hmore⟩ | ⟨batch, ending, hb, rfl⟩ | ⟨a, ha, ho, rfl⟩ | ⟨d, rfl⟩
  · exact absurd h.flag (by simp [ho])
  · obtain rfl := h.nothing_new hmore
    refine ⟨h.dispatched hmore hf, hmore.sent.trans (List.append_nil _), hmore.nextBatch, ?_⟩
    rw [hmore.inFlight, List.append_nil]
  · have hstill := still_finish ending hb
    refine ⟨h.of_still hstill, hstill.sent, hstill.nextBatch, ?_⟩
    cases hr : batch.results ending with
    | none =>
      rw [finish_of_broken hr hb]
      exact List.filter_sublist
    | some results =>
      rw [finish_of_results hr hb]
      exact List.filter_sublist
  · have hstill := still_giveUp ho
    refine ⟨h.of_still hstill, hstill.sent, hstill.nextBatch, ?_⟩
    rw [giveUp_of_isOpen ho]
  · exact ⟨h.of_still (.passes s d), rfl, rfl, List.Sublist.refl _⟩

lemma step (h : Shut s) (e : Event) : Shut (s.step e) ∧ (s.step e).sent = s.sent ∧
    (s.step e).batcher.nextBatch = s.batcher.nextBatch ∧
    (s.step e).batcher.inFlight.Sublist s.batcher.inFlight ∧
    ∀ new, Divided (s.withSent new) → Divided ((s.step e).withSent new) := by
  let P (u : History) : Prop := Shut u ∧ u.sent = s.sent ∧ u.batcher.nextBatch = s.batcher.nextBatch ∧
    u.batcher.inFlight.Sublist s.batcher.inFlight ∧
    ∀ new, Divided (s.withSent new) → Divided (u.withSent new)
  have hP : P s := ⟨h, rfl, rfl, List.Sublist.refl _, fun _ hd => hd⟩
  refine step_preserves (P := P) (fun u v hm hu => ?_) s e hP
  obtain ⟨hu, hsent, hnext, hsub, hd⟩ := hu
  obtain ⟨hv, hsent', hnext', hsub'⟩ := hu.move hm
  exact ⟨hv, hsent'.trans hsent, hnext'.trans hnext, hsub'.trans hsub,
    fun new hs => hu.move_withSent hm (hd new hs)⟩

lemma steps (h : Shut s) (events : List Event) : Shut (events.foldl History.step s) ∧
    (events.foldl History.step s).sent = s.sent := by
  induction events generalizing s with
  | nil => exact ⟨h, rfl⟩
  | cons e events ih =>
    obtain ⟨hs, hsent, _⟩ := h.step e
    obtain ⟨hs', hsent'⟩ := ih hs
    exact ⟨hs', hsent'.trans hsent⟩

end Shut

inductive Stage
  | called
  | flagged
  /-- The queues are taken apart; these batches are still to be sent. -/
  | sending (held : List (String × List Queued))
  | waiting
  | returned

def Stage.held : Stage → List (String × List Queued)
  | sending held => held
  | _ => []

/-- Whether the queues have been taken apart. -/
def Stage.isLate : Stage → Bool
  | called | flagged => false
  | sending _ | waiting | returned => true

structure Closing where
  history : History
  stage : Stage := .called

inductive Turn
  | own
  | outside (e : Event) (h : e ≠ .shutDown)

namespace Closing

def proceed (c : Closing) : Closing :=
  let s := c.history
  match c.stage with
  | .called =>
    if s.batcher.isShutDown then { c with stage := .returned }
    else { history := { s with batcher := { s.batcher with isShutDown := true } }, stage := .flagged }
  | .flagged =>
    let (held, b) := emptyQueues s.batcher.queues.names s.batcher
    { history := { s with batcher := b }, stage := .sending held }
  | .sending ((model, requests) :: held) =>
    let (effect, b) := s.batcher.send s.now model .shutdown requests
    { history := s.absorb ([effect], b), stage := .sending held }
  | .sending [] => { c with stage := .waiting }
  | .waiting => if s.batcher.isDrained then { c with stage := .returned } else c
  | .returned => c

def turn (c : Closing) : Turn → Closing
  | .own => c.proceed
  | .outside e _ => { c with history := c.history.step e }

def run (s : History) (turns : List Turn) : Closing := turns.foldl turn { history := s }

lemma proceed_sending (s : History) (held : List (String × List Queued)) :
    (List.replicate (held.length + 1) .own).foldl turn ⟨s, .sending held⟩ =
      ⟨s.absorb (sendLast s.now held s.batcher), .waiting⟩ := by
  induction held generalizing s with
  | nil =>
    rw [sendLast, absorb_nil]
    rfl
  | cons e held ih =>
    rw [List.length_cons, List.replicate_succ, List.foldl_cons]
    refine (ih _).trans ?_
    congr 1
    exact (absorb_append ..).symm

/-- With nothing in between, the call does in its turns what a shutdown does at once. -/
theorem run_alone (s : History) (ho : s.batcher.isShutDown = false) :
    ∃ n, run s (List.replicate n .own) = ⟨s.step .shutDown, .waiting⟩ := by
  let b := { s.batcher with isShutDown := true }
  refine ⟨2 + ((emptyQueues s.batcher.queues.names b).1.length + 1), ?_⟩
  have hstep : s.step .shutDown = ({ s with batcher := (emptyQueues s.batcher.queues.names b).2 }).absorb
      (sendLast s.now (emptyQueues s.batcher.queues.names b).1 (emptyQueues s.batcher.queues.names b).2) := by
    simp only [step, Batcher.shutDown, ho, Bool.false_eq_true, if_false]
    rfl
  have hdrained : (List.replicate 2 .own).foldl turn ⟨s, .called⟩ =
      ⟨{ s with batcher := (emptyQueues s.batcher.queues.names b).2 },
        .sending (emptyQueues s.batcher.queues.names b).1⟩ := by
    simp only [List.replicate_succ, List.replicate_zero, List.foldl_cons, List.foldl_nil, turn, proceed, ho,
      Bool.false_eq_true, if_false]
    rfl
  rw [run, ← List.replicate_append_replicate, List.foldl_append, hdrained, proceed_sending, hstep]

/-- Batches that have these requests, numbered as they will be when they are sent. -/
structure Carries (s : History) (held : List (String × List Queued)) (new : List Sent) : Prop where
  requests : new.map (fun b => (b.model, b.requests)) = held
  numbers : new.map (·.number) = List.range' s.batcher.nextBatch new.length

lemma exists_carries (s : History) (held : List (String × List Queued)) : ∃ new, Carries s held new := by
  refine ⟨numbered s.now s.batcher.nextBatch (held.map fun e => (e.1, .shutdown, e.2)), ?_, ?_⟩
  · rw [map_requests_numbered, List.map_map]
    exact List.map_id held
  · rw [map_number_numbered, length_numbered]

lemma Carries.of_nil {s : History} (h : Carries s [] new) : new = [] := List.map_eq_nil_iff.1 h.requests

/-- The invariant of the call. In it the batches that the call holds count as sent. -/
structure Sound (config : Batch.Config) (c : Closing) : Prop where
  configured : Configured config c.history
  divided : ∀ new, Carries c.history c.stage.held new → Divided (c.history.withSent new)
  lowered : c.stage = .called → c.history.batcher.isShutDown = false
  raised : c.stage ≠ .called → c.history.batcher.isShutDown = true
  shut : c.stage.isLate = true → Shut c.history
  drained : c.stage = .returned → c.history.batcher.inFlight = []

namespace Sound

variable {c : Closing}

lemma start (hc : Configured config s) (hd : Divided s) (ho : s.batcher.isShutDown = false) :
    Sound config { history := s } where
  configured := hc
  divided new hnew := by
    rw [hnew.of_nil, withSent_nil]
    exact hd
  lowered _ := ho
  raised hne := absurd rfl hne
  shut hl := by cases hl
  drained hr := by cases hr

lemma divided_of_nil (h : Sound config c) (hn : c.stage.held = []) : Divided c.history := by
  have hnil := h.divided [] ⟨hn.symm, rfl⟩
  rwa [withSent_nil] at hnil

lemma flags (h : Sound config ⟨s, .called⟩) : Sound config (proceed ⟨s, .called⟩) := by
  have ho : s.batcher.isShutDown = false := h.lowered rfl
  let flagged : History := { s with batcher := { s.batcher with isShutDown := true } }
  have hd := h.divided_of_nil rfl
  have hraised : Dispatched (Taken s.batcher.isOpen) s [] flagged :=
    { Dispatched.refl (fun _ => .refl) s with }
  have he : proceed ⟨s, .called⟩ = ⟨flagged, .flagged⟩ := by simp [proceed, ho, flagged]
  rw [he]
  exact
    { configured := h.configured.dispatched hraised
      divided := fun new hnew => by
        rw [hnew.of_nil, withSent_nil]
        exact hd.dispatched hraised
      lowered := by simp
      raised := fun _ => rfl
      shut := by simp [Stage.isLate]
      drained := by simp }

lemma takes_apart (h : Sound config ⟨s, .flagged⟩) : Sound config (proceed ⟨s, .flagged⟩) := by
  let held := (emptyQueues s.batcher.queues.names s.batcher).1
  let emptied : History := { s with batcher := (emptyQueues s.batcher.queues.names s.batcher).2 }
  have he : proceed ⟨s, .flagged⟩ = ⟨emptied, .sending held⟩ := rfl
  have hframe := (emptyQueues_spec s.batcher.queues.names s.batcher).1
  have hnext : emptied.batcher.nextBatch = s.batcher.nextBatch := (congrArg Batcher.nextBatch hframe :)
  have hflag : emptied.batcher.isShutDown = true :=
    (congrArg Batcher.isShutDown hframe :).trans (h.raised (by simp))
  have hsent (new : List Sent) (hnew : Carries emptied held new) :
      Dispatched (Taken s.batcher.isOpen) s new (emptied.withSent new) ∧
        ∀ model q, emptied.queue? model = some q → q.waiting = [] :=
    dispatched_emptied hnew.requests (hnext ▸ hnew.numbers) rfl
  obtain ⟨some, hsome⟩ := exists_carries emptied held
  obtain ⟨hd, hempty⟩ := hsent some hsome
  have hc := h.configured.dispatched hd
  rw [he]
  exact
    { configured := ⟨hc.kept, hc.models⟩
      divided := fun new hnew => (h.divided_of_nil rfl).dispatched (hsent new hnew).1
      lowered := by simp
      raised := fun _ => hflag
      shut := fun _ => ⟨hflag, hempty⟩
      drained := by simp }

lemma sends {e : String × List Queued} {held : List (String × List Queued)}
    (h : Sound config ⟨s, .sending (e :: held)⟩) : Sound config (proceed ⟨s, .sending (e :: held)⟩) := by
  let batch : Sent := ⟨s.batcher.nextBatch, e.1, .shutdown, e.2, s.now⟩
  have hp : proceed ⟨s, .sending (e :: held)⟩ = ⟨s.withSent [batch], .sending held⟩ := by
    simp [proceed, send, absorb, withSent, sendOut, timersIn, batchesIn, batch]
  have hs := h.shut rfl
  rw [hp]
  refine
    { configured := ⟨h.configured.kept, h.configured.models⟩
      divided := fun new hnew => ?_
      lowered := by simp
      raised := fun _ => hs.flag
      shut := fun _ => ⟨hs.flag, hs.empty⟩
      drained := by simp }
  -- One batch more is sent, one batch less is held.
  have hcarries : Carries s (e :: held) (batch :: new) := by
    refine ⟨congrArg (e :: ·) hnew.requests, ?_⟩
    rw [List.map_cons, hnew.numbers, List.length_cons, List.range'_succ]
    rfl
  have hboth : s.withSent (batch :: new) = (s.withSent [batch]).withSent new := by
    simp [withSent, sendOut, Nat.add_assoc, Nat.add_comm 1]
  rw [← hboth]
  exact h.divided _ hcarries

lemma own (h : Sound config c) : Sound config c.proceed := by
  obtain ⟨s, stage⟩ := c
  cases stage with
  | called => exact h.flags
  | flagged => exact h.takes_apart
  | sending held =>
    cases held with
    | cons e held => exact h.sends
    | nil =>
      exact ⟨h.configured, h.divided, by simp [proceed], fun _ => h.raised (by simp), fun _ => h.shut rfl,
        by simp [proceed]⟩
  | waiting =>
    by_cases hd : s.batcher.isDrained = true
    · have hp : proceed ⟨s, .waiting⟩ = ⟨s, .returned⟩ := by simp [proceed, hd]
      rw [hp]
      exact ⟨h.configured, h.divided, by simp, fun _ => h.raised (by simp), fun _ => h.shut rfl,
        fun _ => List.isEmpty_iff.1 hd⟩
    · have hp : proceed ⟨s, .waiting⟩ = ⟨s, .waiting⟩ := by simp [proceed, hd]
      rw [hp]
      exact h
  | returned => exact h

lemma outside_early (h : Sound config c) (hl : c.stage.isLate = false) {e : Event} (he : e ≠ .shutDown) :
    Sound config { c with history := c.history.step e } := by
  have hflag := step_isShutDown c.history he
  have hheld : c.stage.held = [] := by
    cases hs : c.stage with
    | sending held => simp [hs, Stage.isLate] at hl
    | called | flagged | waiting | returned => rfl
  refine ⟨step_preserves (fun _ _ => Configured.move) c.history e h.configured, fun new hnew => ?_,
    fun hs => hflag.trans (h.lowered hs), fun hs => hflag.trans (h.raised hs), fun hs => ?_, fun hs => ?_⟩
  · rw [hheld] at hnew
    rw [hnew.of_nil, withSent_nil]
    exact step_preserves (fun _ _ => Divided.move) c.history e (h.divided_of_nil hheld)
  · exact absurd hs (by simp [hl])
  · have hs' : c.stage = .returned := hs
    simp [hs', Stage.isLate] at hl

lemma outside_late (h : Sound config c) (hl : c.stage.isLate = true) (e : Event) :
    Sound config { c with history := c.history.step e } := by
  obtain ⟨hshut, _, hnext, hsub, hdivided⟩ := (h.shut hl).step e
  refine ⟨step_preserves (fun _ _ => Configured.move) c.history e h.configured, fun new hnew => ?_,
    fun hs => ?_, fun _ => hshut.flag, fun _ => hshut, fun hs => ?_⟩
  · exact hdivided new (h.divided new ⟨hnew.requests, hnext ▸ hnew.numbers⟩)
  · have hs' : c.stage = .called := hs
    simp [hs', Stage.isLate] at hl
  · have hnone := h.drained hs
    rw [hnone] at hsub
    exact List.sublist_nil.1 hsub

lemma turn (h : Sound config c) (t : Turn) : Sound config (c.turn t) := by
  cases t with
  | own => exact h.own
  | outside e he =>
    cases hl : c.stage.isLate with
    | false => exact h.outside_early hl he
    | true => exact h.outside_late hl e

lemma run (h : Sound config { history := s }) (turns : List Turn) : Sound config (run s turns) := by
  rw [Closing.run]
  generalize ({ history := s } : Closing) = c at h
  induction turns generalizing c with
  | nil => exact h
  | cons t turns ih => exact ih _ (h.turn t)

end Sound

end Closing

lemma Divided.settled (h : Divided s) (hw : ∀ model, s.waiting model = []) (hi : s.batcher.inFlight = [])
    {a : Arrival} (ha : a ∈ s.arrivals) :
    a.request.ticket ∈ s.answered ∨ a.request.ticket ∈ s.gaveUp := by
  obtain ⟨dropped, hp, hdropped, _⟩ := h.requests a.request.request.model
  have hr : a.request ∈ s.accepted a.request.request.model :=
    List.mem_filter.2 ⟨List.mem_map.2 ⟨a, ha, rfl⟩, beq_self_eq_true _⟩
  rw [hp.mem_iff, hw, List.nil_append, List.mem_append] at hr
  rcases hr with hr | hr
  · obtain ⟨requests, hof, hr⟩ := List.mem_flatten.1 hr
    obtain ⟨batch, hb, rfl⟩ := List.mem_map.1 hof
    have hsent := h.batches.mem_iff.1 (List.mem_filter.1 hb).1
    rw [hi, List.nil_append] at hsent
    obtain ⟨f, hf, rfl⟩ := List.mem_map.1 hsent
    obtain ⟨abandoned, hshare, hgave⟩ := h.shares f hf
    rcases List.mem_append.1 (hshare.mem_iff.1 (List.mem_map.2 ⟨_, hr, rfl⟩)) with ht | ht
    · exact Or.inl (List.mem_flatMap.2 ⟨f, hf, ht⟩)
    · exact Or.inr (hgave _ ht)
  · exact Or.inr (hdropped _ hr)

/-- When the first call of the shutdown returns, whatever came between its turns, every lane is empty, no batch
is on its way, every accepted request has its answer or was abandoned, and each model completed, failed or
orphaned all it ever took in, but for batches that broke off, which are not counted. From then on every request
is turned away and no batch goes out. -/
theorem returns_drained (config : Batch.Config) (before : List Event) (hb : .shutDown ∉ before)
    (turns : List Turn) (hr : (Closing.run (run config before) turns).stage = .returned) :
    let s := (Closing.run (run config before) turns).history
    (∀ model m, config.models.find? model = some m → ∃ q, s.queue? model = some q ∧ (∀ p, q.lane p = []) ∧
      q.counts.submitted = q.counts.completed + q.counts.failed + q.counts.orphaned +
        (batchesOf model (s.broken.map (·.batch))).flatten.length ∧
      (s.broken = [] → q.counts.submitted = q.counts.completed + q.counts.failed + q.counts.orphaned)) ∧
    s.batcher.inFlight = [] ∧
    (∀ a ∈ s.arrivals, a.request.ticket ∈ s.answered ∨ a.request.ticket ∈ s.gaveUp) ∧
    ∀ events : List Event, (events.foldl step s).sent = s.sent ∧
      ∀ r, (events.foldl step s).batcher.submit (events.foldl step s).now r =
        (.error .shuttingDown, (events.foldl step s).batcher) := by
  intro s
  have h : Closing.Sound config (Closing.run (run config before) turns) :=
    .run (.start (.run config before) (.run config before) (run_isShutDown config hb)) turns
  have hshut : Shut s := h.shut (by rw [hr]; rfl)
  have hdivided : Divided s := h.divided_of_nil (by rw [hr]; rfl)
  have hi : s.batcher.inFlight = [] := h.drained hr
  refine ⟨fun model m hm => ?_, hi, fun a ha => hdivided.settled (fun model => ?_) hi ha, fun events => ?_⟩
  · rw [← h.configured.models model] at hm
    obtain ⟨q, hq, _⟩ := Option.map_eq_some_iff.1 hm
    have hlane (p : Priority) : q.lane p = [] := by rw [Queue.lane, hshut.empty model q hq, List.filter_nil]
    have hsum := (hdivided.conserved hq).sum
    rw [underway, hi, List.nil_append] at hsum
    simp only [hlane, List.length_nil] at hsum
    refine ⟨q, hq, hlane, by omega, fun hbroken => ?_⟩
    simp only [hbroken, List.map_nil, batchesOf_nil, List.flatten_nil, List.length_nil] at hsum
    omega
  · rw [waiting]
    cases hq : s.queue? model with
    | none => rfl
    | some q => exact hshut.empty model q hq
  · obtain ⟨hshut', hsent⟩ := hshut.steps events
    refine ⟨hsent, fun r => ?_⟩
    rw [submit, if_pos hshut'.flag]

/-- A request comes while the flag goes up, and the batch ends after the call began to wait. -/
def interrupted : List Turn :=
  [.own, .outside (plea .low) nofun, .own, .outside .tick nofun, .own, .own, .own,
    .outside (.runEnds 0 (.executed { id := "a", service := "m", host := "localhost", port := 1 }
      (.answered [⟨"r", .ok .null⟩]))) nofun,
    .own]

theorem returns_drained_interrupted :
    let s := (Closing.run (run inPairs [plea .low]) interrupted).history
    s.batcher.inFlight = [] ∧ (s.step .tick).sent = s.sent ∧
      ∃ q, s.queue? "m" = some q ∧ q.counts = { submitted := 1, completed := 1, batches := 1 } ∧
        q.counts.submitted = q.counts.completed + q.counts.failed + q.counts.orphaned := by
  intro s
  have hr : (Closing.run (run inPairs [plea .low]) interrupted).stage = .returned := by rfl
  obtain ⟨hmodels, hi, _, hlater⟩ := returns_drained inPairs [plea .low] (by simp [plea]) interrupted hr
  obtain ⟨q, hq, _, _, hsum⟩ := hmodels "m" _ rfl
  have hcounts : (s.queue? "m").map (·.counts) = some { submitted := 1, completed := 1, batches := 1 } := by
    decide +kernel
  have hbroken : s.broken = [] := by rfl
  refine ⟨hi, (hlater [.tick]).1, q, hq, ?_, hsum hbroken⟩
  rw [hq] at hcounts
  exact Option.some.inj hcounts

end Serving.Batcher.History
