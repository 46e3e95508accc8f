import Serving.Proofs.Batcher.Absence
import Serving.Proofs.Batcher.Answers

/-! A caller who gives up after the request went out changes nothing for anybody else: what the others see of
the run is the same as if that caller had waited on. -/

namespace Serving.Batcher

open Batch

def Finish.without (t : Nat) (f : Finish) : Finish := { f with answers := others t f.answers }

namespace History

variable {s s' : History} {t : Nat}

/-- The history as the others see it. -/
def without (t : Nat) (s : History) : History :=
  { s with
    batcher := s.batcher.without t
    ended := s.ended.map (Finish.without t)
    broken := s.broken.map (Finish.without t)
    gaveUp := s.gaveUp.filter (· != t) }

lemma absorb_congr (h : s'.without t = s.without t) {x' x : List Effect × Batcher}
    (hx : Agree t x' x) : (s'.absorb x').without t = (s.absorb x).without t := by
  have hw (s : History) (x : List Effect × Batcher) :
      (s.absorb x).without t = (s.without t).absorb (x.1, x.2.without t) := rfl
  rw [hw, hw, h, hx.answer, hx.left]

lemma without_finish (t : Nat) (s : History) (batch : Sent) (ending : Ending) :
    (s.finish batch ending).without t =
      match batch.results ending with
      | some results =>
        let x := s.batcher.complete s.now batch.number results
        { s.without t with
          batcher := x.2.without t
          ended := (s.without t).ended ++ [⟨batch, ending, others t x.1⟩] }
      | none =>
        let x := s.batcher.breakOff batch.number
        { s.without t with
          batcher := x.2.without t
          broken := (s.without t).broken ++ [⟨batch, ending, others t x.1⟩] } := by
  cases hr : batch.results ending <;> simp [finish, hr, without, Finish.without]

lemma finish_congr {batch : Sent} (ending : Ending) (h : s'.without t = s.without t)
    (hb : s.batcher.inFlight.find? (·.number == batch.number) = some batch) :
    (s'.finish batch ending).without t = (s.finish batch ending).without t := by
  have hbatcher : s'.batcher.without t = s.batcher.without t := congrArg (·.batcher) h
  have hnow : s'.now = s.now := congrArg (·.now) h
  rw [without_finish, without_finish]
  cases hr : batch.results ending with
  | some results =>
    obtain ⟨ha, hw⟩ := complete_congr hbatcher hb s.now (Sent.length_results hr)
    simp only [h, hnow, ha, hw]
  | none =>
    obtain ⟨ha, hw⟩ := breakOff_congr hbatcher hb
    simp only [h, ha, hw]

lemma without_giveUp (t : Nat) (s : History) (r : Queued) :
    (s.giveUp r).without t =
      { s.without t with
        batcher := { s.batcher.without t with
          callers := (s.batcher.without t).callers.filter (· != r.ticket) }
        gaveUp := (s.without t).gaveUp ++ [r.ticket].filter (· != t) } := by
  simp only [giveUp, without, Batcher.without_giveUp, List.filter_append]

lemma without_patienceEnds (t : Nat) (s : History) : (s.step (.patienceEnds t)).without t = s.without t := by
  simp only [step]
  split
  · rename_i a hf
    obtain rfl : a.request.ticket = t := by simpa using List.find?_some hf
    split
    · refine (without_giveUp a.request.ticket s a.request).trans ?_
      simp [without, Batcher.without]
    · rfl
  · rfl

lemma patienceEnds_congr (u : Nat) (h : s'.without t = s.without t) :
    (s'.step (.patienceEnds u)).without t = (s.step (.patienceEnds u)).without t := by
  by_cases hu : u = t
  · rw [hu, without_patienceEnds, without_patienceEnds, h]
  · have hbatcher : s'.batcher.without t = s.batcher.without t := congrArg (·.batcher) h
    have hf : s'.arrivals.find? (·.request.ticket == u) = s.arrivals.find? (·.request.ticket == u) :=
      congrArg (·.arrivals.find? (·.request.ticket == u)) h
    simp only [step, hf, isOpen_congr hbatcher hu]
    split
    · rename_i a hf
      obtain rfl : a.request.ticket = u := by simpa using List.find?_some hf
      split
      · have hg := without_giveUp t s' a.request
        rw [h, hbatcher, ← without_giveUp] at hg
        exact hg
      · exact h
    · exact h

/-- The request of the caller went out in a batch. -/
structure Departed (t : Nat) (s : History) : Prop where
  divided : Divided s
  sent : ∃ batch ∈ s.sent, t ∈ tickets batch.requests

namespace Departed

lemma move (hm : Move s s') (h : Departed t s) : Departed t s' where
  divided := h.divided.move hm
  sent := by
    obtain ⟨batch, hb, ht⟩ := h.sent
    refine ⟨batch, ?_, ht⟩
    rcases hm.kinds with ⟨r, q, _, _, rfl⟩ | ⟨new, hd⟩ | hs
    · exact hb
    · rw [hd.sent]
      exact List.mem_append_left _ hb
    · rwa [hs.sent]

lemma lacks (h : Departed t s) : s.batcher.Lacks t := by
  intro model q hq ht
  obtain ⟨batch, hb, hbt⟩ := h.sent
  obtain ⟨r, hr, rfl⟩ := List.mem_map.1 ht
  have hw : r ∈ s.waiting model := by rwa [waiting_of_queue? hq]
  exact h.divided.waiting_unsent hw hb hbt

lemma ne_nextTicket (h : Departed t s) : t ≠ s.batcher.nextTicket := by
  obtain ⟨batch, hb, ht⟩ := h.sent
  obtain ⟨r, hr, rfl⟩ := List.mem_map.1 ht
  obtain ⟨a, ha, har⟩ := List.mem_map.1 (h.divided.ordered.mem_arrivals hb hr)
  have hlt : r.ticket ∈ List.range s.batcher.nextTicket := by
    rw [← h.divided.ordered.serial, ← har]
    exact List.mem_map.2 ⟨a, ha, rfl⟩
  exact Nat.ne_of_lt (List.mem_range.1 hlt)

end Departed

/-- One step keeps two histories alike that differ only in the caller. -/
theorem step_congr (e : Event) (h : s'.without t = s.without t) (hd : Departed t s) :
    (s'.step e).without t = (s.step e).without t := by
  have hbatcher : s'.batcher.without t = s.batcher.without t := congrArg (·.batcher) h
  have hnow : s'.now = s.now := congrArg (·.now) h
  cases e with
  | submission r =>
    -- Both hand out the same ticket, so the request arrives as the same one.
    obtain ⟨hanswer, hw⟩ := submit_congr hbatcher hd.lacks s.now r hd.ne_nextTicket
    have hs : s'.batcher.submit s'.now r = s'.batcher.submit s.now r := by rw [hnow]
    rw [← hs] at hanswer hw
    simp only [step]
    generalize s'.batcher.submit s'.now r = x' at hanswer hw ⊢
    generalize s.batcher.submit s.now r = x at hanswer hw ⊢
    obtain ⟨answer', b'⟩ := x'
    obtain ⟨answer, b⟩ := x
    obtain rfl : answer' = answer := hanswer
    cases answer' with
    | error e => exact congrArg₂ (fun (s : History) b => { s with batcher := b }) h hw
    | ok accepted =>
      exact absorb_congr (congrArg (·.arrive ⟨accepted.ticket, r⟩) h) ⟨rfl, hw⟩
  | tick =>
    simp only [step, hnow]
    exact absorb_congr h (flush_congr hbatcher hd.lacks s.now)
  | timerEnds model timer =>
    have htimers : s'.timers = s.timers := congrArg (·.timers) h
    simp only [step, hnow, htimers]
    split
    · exact absorb_congr (congrArg (·.forget model timer) h)
        (timerFires_congr hbatcher hd.lacks s.now model timer.generation)
    · exact h
  | runEnds number ending =>
    have hf : s'.batcher.inFlight = s.batcher.inFlight := congrArg (·.batcher.inFlight) h
    simp only [step, hf]
    split
    · rename_i batch hb
      obtain rfl : batch.number = number := by simpa using List.find?_some hb
      exact finish_congr ending h hb
    · exact h
  | patienceEnds u => exact patienceEnds_congr u h
  | shutDown =>
    simp only [step, hnow]
    exact absorb_congr h (shutDown_congr hbatcher hd.lacks s.now)
  | timePasses d => exact congrArg (fun s : History => { s with now := s.now + d }) h

theorem foldl_step_congr (events : List Event) (h : s'.without t = s.without t) (hd : Departed t s) :
    (events.foldl step s').without t = (events.foldl step s).without t := by
  induction events generalizing s s' with
  | nil => exact h
  | cons e events ih =>
    exact ih (step_congr e h hd) (step_preserves (fun _ _ => Departed.move) s e hd)

def answersTo (s : History) (u : Nat) : List Delivery :=
  ((s.ended ++ s.broken).flatMap (·.answers)).filter (·.ticket == u)

lemma answersTo_without {u : Nat} (hu : u ≠ t) (s : History) : (s.without t).answersTo u = s.answersTo u := by
  have hf : (s.without t).ended ++ (s.without t).broken = (s.ended ++ s.broken).map (Finish.without t) :=
    List.map_append.symm
  rw [answersTo, answersTo, hf, List.flatMap_map, List.filter_flatMap, List.filter_flatMap]
  refine List.flatMap_congr fun f _ => ?_
  rw [Finish.without, others, List.filter_filter]
  refine List.filter_congr fun d _ => ?_
  by_cases hd : d.ticket = u
  · simp [hd, hu]
  · simp [hd]

/-- Whoever has an answer has the one that was due: the outcome at the place of the request in its batch, or
what the whole batch got. Whether others waited for theirs made no difference. -/
theorem right_answer_to_the_right_caller (config : Batch.Config) (events : List Event) :
    let s := run config events
    (∀ a ∈ s.arrivals, s.batcher.isOpen a.request.ticket = false → a.request.ticket ∉ s.gaveUp →
      ∃ f d, Served s a.request f d) ∧
    ∀ batch ∈ s.sent, ∀ r ∈ batch.requests, ∀ later : List Event,
      let waits := later.foldl step s
      let leaves := later.foldl step (s.step (.patienceEnds r.ticket))
      leaves.sent = waits.sent ∧ ∀ u ≠ r.ticket, leaves.answersTo u = waits.answersTo u := by
  have hdivided := Divided.run config events
  have hpaid := Paid.run config events
  generalize run config events = s at hdivided hpaid ⊢
  refine ⟨fun a ha hc hg => exists_served hdivided hpaid ha hc hg, fun batch hb r hr later => ?_⟩
  have hd : Departed r.ticket s := ⟨hdivided, batch, hb, List.mem_map.2 ⟨r, hr, rfl⟩⟩
  have h := foldl_step_congr later (without_patienceEnds r.ticket s) hd
  refine ⟨(congrArg History.sent h :), fun u hu => ?_⟩
  rw [← answersTo_without hu, h, answersTo_without hu]

def couple : List Event :=
  [.submission ⟨"x", "m", .null, .normal, none⟩, .submission ⟨"y", "m", .null, .normal, none⟩]

def bothServed : Event :=
  .runEnds 0 (.executed { id := "i", service := "m", host := "h", port := 80 }
    (.answered [⟨"x", .ok (.bool false)⟩, ⟨"y", .ok (.bool true)⟩]))

theorem right_answer_to_the_one_who_waits :
    let s := run inPairs (couple ++ [.patienceEnds 0, bothServed])
    (∃ f d, Served s ⟨1, "y", "m", .null, .normal, none⟩ f d) ∧ s.answersTo 0 = [] ∧
    s.answersTo 1 = [⟨1, .ok (.bool true)⟩] ∧
    s.answersTo 1 = (run inPairs (couple ++ [bothServed])).answersTo 1 := by
  refine ⟨?_, rfl, rfl, ?_⟩
  · exact (right_answer_to_the_right_caller inPairs (couple ++ [.patienceEnds 0, bothServed])).1
      ⟨⟨1, "y", "m", .null, .normal, none⟩, 0⟩ (.tail _ (.head _)) (by decide) (by decide)
  · exact ((right_answer_to_the_right_caller inPairs couple).2 _ (.head _) _ (.head _) [bothServed]).2 1
      (by decide)

end History

end Serving.Batcher
