import Serving.Proofs.Batcher.Dispatch

/-! A queue in which somebody waits has one timer that counts. Timers of earlier generations may still run
out, to no effect. -/

namespace Serving

namespace Batch

def timersOf (model : String) (l : List (String × Timer)) : List Timer :=
  (l.filter (·.1 == model)).map (·.2)

lemma timersOf_append (model name : String) (l : List (String × Timer)) (new : List Timer) :
    timersOf model (l ++ new.map (name, ·)) = timersOf model l ++ if model = name then new else [] := by
  by_cases h : model = name
  · subst h
    simp [timersOf, List.filter_map, Function.comp_def]
  · simp [timersOf, List.filter_map, Function.comp_def, h, Ne.symm h]

lemma timersOf_erase (model name : String) (timer : Timer) (l : List (String × Timer)) :
    timersOf model (l.erase (name, timer)) =
      if model = name then (timersOf model l).erase timer else timersOf model l := by
  induction l with
  | nil => simp [timersOf]
  | cons e l ih =>
    obtain ⟨n, t⟩ := e
    by_cases he : (n, t) = (name, timer)
    · obtain ⟨rfl, rfl⟩ := Prod.mk.inj he
      rw [List.erase_cons_head]
      split
      · rename_i hm
        subst hm
        simp [timersOf]
      · rename_i hm
        simp [timersOf, Ne.symm hm]
    · rw [List.erase_cons_tail (by simpa using he)]
      by_cases hn : n = model
      · subst hn
        simp only [timersOf, List.filter_cons, beq_self_eq_true, if_true, List.map_cons] at ih ⊢
        rw [ih]
        split
        · rename_i hm
          subst hm
          have ht : t ≠ timer := fun h => he (by rw [h])
          rw [List.erase_cons_tail (by simpa using ht)]
        · rfl
      · have hn' : (n == model) = false := beq_eq_false_iff_ne.2 hn
        simpa [timersOf, List.filter_cons, hn'] using ih

/-- The timers of a queue at some time: none is of a later generation, and one is of the latest if
somebody waits. -/
structure Wakes (now : Instant) (timers : List Timer) (q : Queue) : Prop where
  past : ∀ t ∈ timers, t.generation ≤ q.generation
  armed : q.waiting ≠ [] → ∃ t, q.timer = some t ∧ t.due ≤ now + q.model.timeout ∧
    timers.filter (·.generation == q.generation) = [t]

namespace Wakes

variable {now : Instant} {timers : List Timer} {q : Queue}

lemma setTimer (h : ∀ t ∈ timers, t.generation ≤ q.generation) :
    Wakes now (timers ++ [⟨q.generation + 1, now + q.model.timeout⟩]) (q.setTimer now) where
  past := by
    intro t ht
    rcases List.mem_append.1 ht with ht | ht
    · exact Nat.le_succ_of_le (h t ht)
    · obtain rfl := List.mem_singleton.1 ht
      exact Nat.le_refl _
  armed _ := by
    refine ⟨_, rfl, Nat.le_refl _, ?_⟩
    have ho : timers.filter (·.generation == (q.setTimer now).generation) = [] := by
      refine List.filter_eq_nil_iff.2 fun t ht hg => ?_
      have hle := h t ht
      have heq : t.generation = q.generation + 1 := beq_iff_eq.1 hg
      omega
    rw [List.filter_append, ho]
    simp [Queue.setTimer, Queue.cancelTimer]

lemma restarted (h : ∀ t ∈ timers, t.generation ≤ q.generation) :
    Wakes now (timers ++ (q.restarted now).timer.toList) (q.restarted now) := by
  rw [Queue.restarted]
  split
  · rename_i hw
    have hn : q.cancelTimer.timer.toList = [] := rfl
    rw [hn, List.append_nil]
    exact ⟨fun t ht => Nat.le_succ_of_le (h t ht), fun hne => absurd hw hne⟩
  · exact setTimer (q := q.cancelTimer) fun t ht => Nat.le_succ_of_le (h t ht)

lemma accept (h : Wakes now timers q) (r : Queued) :
    Wakes now (timers ++ q.acceptTimers now) (q.accept now r) := by
  rw [Queue.accept, Queue.acceptTimers]
  split
  · exact setTimer (q := q.push r) h.past
  · rename_i hw
    rw [List.append_nil]
    exact ⟨h.past, fun _ => h.armed hw⟩

lemma shrink (h : Wakes now timers q) {q' : Queue} (hm : q'.model = q.model) (ht : q'.timer = q.timer)
    (hg : q'.generation = q.generation) (hw : q.waiting = [] → q'.waiting = []) :
    Wakes now timers q' where
  past := by
    rw [hg]
    exact h.past
  armed hne := by
    rw [ht, hm, hg]
    exact h.armed fun he => hne (hw he)

lemma flushed (h : Wakes now timers q) (b : Batcher) :
    Wakes now (timers ++ b.flushTimers now q) (b.flushed now q) := by
  obtain ⟨hm, ht, hg, hw⟩ := b.readyBatches_frame q.pending q
  rw [Batcher.flushTimers, Batcher.flushed]
  split
  · rw [List.append_nil]
    exact h.shrink hm ht hg hw
  · refine restarted ?_
    rw [hg]
    exact h.past

lemma rung (h : Wakes now timers q) (b : Batcher) (t : Timer) :
    Wakes now (timers.erase t ++ (b.rung now q).timer.toList) (b.rung now q) :=
  restarted fun t ht => h.past t (List.mem_of_mem_erase ht)

lemma erase (h : Wakes now timers q) {t : Timer} (ht : t.generation ≠ q.generation) :
    Wakes now (timers.erase t) q where
  past u hu := h.past u (List.mem_of_mem_erase hu)
  armed hw := by
    obtain ⟨u, hu, hd, hf⟩ := h.armed hw
    refine ⟨u, hu, hd, ?_⟩
    have hu' : u.generation = q.generation := by
      have hm : u ∈ timers.filter (·.generation == q.generation) := hf ▸ List.mem_singleton_self u
      exact beq_iff_eq.1 (List.mem_filter.1 hm).2
    have hne : u ≠ t := by
      rintro rfl
      exact ht hu'
    rw [← List.erase_filter, hf]
    exact List.erase_of_not_mem fun h => hne (List.mem_singleton.1 h).symm

lemma later (h : Wakes now timers q) {now' : Instant} (hle : now ≤ now') : Wakes now' timers q where
  past := h.past
  armed hw := by
    obtain ⟨t, ht, hd, hf⟩ := h.armed hw
    exact ⟨t, ht, Nat.le_trans hd (Nat.add_le_add_right hle _), hf⟩

end Wakes

end Batch

namespace Batcher.History

open Batch

variable {s s' : History}

/-- While the batcher is open its queues wake up in time, and once it is shut down they are empty. -/
structure Awake (s : History) : Prop where
  opened : s.batcher.isShutDown = false → ∀ model q, s.queue? model = some q →
    Wakes s.now (timersOf model s.timers) q
  closed : s.batcher.isShutDown = true → ∀ model q, s.queue? model = some q → q.waiting = []

namespace Awake

lemma start (config : Batch.Config) : Awake (start config) where
  opened _ model q hq := by
    obtain ⟨m, rfl⟩ := eq_of_queue?_start hq
    exact ⟨fun t ht => absurd ht List.not_mem_nil, fun hw => absurd rfl hw⟩
  closed h := by cases h

/-- One queue changes, and its timers with it. -/
lemma update (h : Awake s) {model : String} {q : Queue}
    (ho : s'.batcher.isShutDown = s.batcher.isShutDown) (hn : s'.now = s.now)
    (hq : ∀ other, s'.queue? other = if other = model then some q else s.queue? other)
    (ht : ∀ other, other ≠ model → timersOf other s'.timers = timersOf other s.timers)
    (hw : s.batcher.isShutDown = false → Wakes s.now (timersOf model s'.timers) q)
    (he : s.batcher.isShutDown = true → q.waiting = []) : Awake s' where
  opened hs other u hu := by
    rw [ho] at hs
    rw [hq] at hu
    rw [hn]
    by_cases hm : other = model
    · rw [if_pos hm] at hu
      obtain rfl := Option.some.inj hu
      rw [hm]
      exact hw hs
    · rw [if_neg hm] at hu
      rw [ht other hm]
      exact h.opened hs other u hu
  closed hs other u hu := by
    rw [ho] at hs
    rw [hq] at hu
    by_cases hm : other = model
    · rw [if_pos hm] at hu
      obtain rfl := Option.some.inj hu
      exact he hs
    · rw [if_neg hm] at hu
      exact h.closed hs other u hu

lemma accept (h : Awake s) {r : Request} {q : Queue} (ho : s.batcher.isShutDown = false)
    (hq : s.queue? r.model = some q) : Awake (s.accept r q) := by
  have ht (other : String) : timersOf other (s.accept r q).timers =
      timersOf other s.timers ++ if other = r.model then q.acceptTimers s.now else [] :=
    timersOf_append ..
  refine h.update rfl rfl (queue?_accept s r q) (fun other hm => ?_) (fun hs => ?_) (fun hs => ?_)
  · rw [ht, if_neg hm, List.append_nil]
  · rw [ht, if_pos rfl]
    exact (h.opened hs r.model q hq).accept _
  · rw [ho] at hs
    cases hs

lemma flush (h : Awake s) {model : String} {q : Queue} (hq : s.queue? model = some q) :
    Awake (s.flush model q) := by
  rw [flush_eq]
  refine h.update rfl rfl (fun _ => find?_setQueue ..) (fun other hm => ?_) (fun hs => ?_) (fun hs => ?_)
  · rw [timersOf_append, if_neg hm, List.append_nil]
  · rw [timersOf_append, if_pos rfl]
    exact (h.opened hs model q hq).flushed s.batcher
  · exact flushed_waiting (h.closed hs model q hq)

lemma ring (h : Awake s) (model : String) (timer : Timer) : Awake (s.ring model timer) := by
  by_cases hg : ∃ q, s.queue? model = some q ∧ timer.generation = q.generation
  · obtain ⟨q, hq, hg⟩ := hg
    rw [ring_eq hq hg]
    refine h.update rfl rfl (fun _ => find?_setQueue ..) (fun other hm => ?_) (fun hs => ?_) (fun hs => ?_)
    · rw [timersOf_append, timersOf_erase, if_neg hm, if_neg hm, List.append_nil]
    · rw [timersOf_append, timersOf_erase, if_pos rfl, if_pos rfl]
      exact (h.opened hs model q hq).rung s.batcher timer
    · exact rung_waiting (h.closed hs model q hq)
  · rw [ring_stale fun q hq he => hg ⟨q, hq, he.symm⟩]
    refine ⟨fun hs other u hu => ?_, h.closed⟩
    have hw := h.opened hs other u hu
    have ht : timersOf other (s.forget model timer).timers = if other = model then
        (timersOf other s.timers).erase timer else timersOf other s.timers := timersOf_erase ..
    rw [ht]
    split
    · rename_i hm
      subst hm
      exact hw.erase fun he => hg ⟨u, hu, he⟩
    · exact hw

lemma still (h : Awake s) (hs : Still s s') : Awake s' where
  opened ho model q' hq' := by
    obtain ⟨q, hq, ha⟩ := hs.queue_before hq'
    rw [hs.isShutDown] at ho
    rw [hs.timers]
    have hw : q.waiting = [] → q'.waiting = [] := fun hw => by rw [ha.waiting, hw]
    exact ((h.opened ho model q hq).shrink ha.model ha.timer ha.generation hw).later hs.now
  closed ho model q' hq' := by
    obtain ⟨q, hq, ha⟩ := hs.queue_before hq'
    rw [hs.isShutDown] at ho
    rw [ha.waiting]
    exact h.closed ho model q hq

lemma move (hm : Move s s') (h : Awake s) : Awake s' := by
  cases hm with
  | accept ho hq => exact h.accept ho hq
  | flush hq => exact h.flush hq
  | ring _ => exact h.ring _ _
  | finish ending hb => exact h.still (still_finish ending hb)
  | giveUp _ ho => exact h.still (still_giveUp ho)
  | shutDown ho =>
    have hs : (s.absorb (s.batcher.shutDown s.now)).batcher.isShutDown = true :=
      isShutDown_shutDown ..
    refine ⟨fun hf => ?_, fun _ => (dispatched_shutDown ho).2⟩
    rw [hs] at hf
    cases hf
  | time d => exact h.still (.passes s d)

theorem run (config : Batch.Config) (events : List Event) : Awake (run config events) :=
  run_induction (start config) (fun _ _ => move) events

lemma wakes (h : Awake s) {model : String} {q : Queue} (hq : s.queue? model = some q)
    (hw : q.waiting ≠ []) : Wakes s.now (timersOf model s.timers) q := by
  cases ho : s.batcher.isShutDown with
  | false => exact h.opened ho model q hq
  | true => exact absurd (h.closed ho model q hq) hw

end Awake

lemma step_stale {model : String} {timer : Timer}
    (h : ∀ q, s.queue? model = some q → q.generation ≠ timer.generation) :
    s.step (.timerEnds model timer) = s ∨ s.step (.timerEnds model timer) = s.forget model timer := by
  by_cases hd : (model, timer) ∈ s.timers ∧ timer.due ≤ s.now
  · refine Or.inr ?_
    have hs : s.step (.timerEnds model timer) = s.ring model timer := if_pos hd
    rw [hs, ring_stale h]
  · exact Or.inl (if_neg hd)

/-- In every run, a queue in which somebody waits has exactly one timer of its generation on its way, due
within the queue's timeout. A timer of another generation does nothing. -/
theorem one_timer_counts (config : Batch.Config) (events : List Event) :
    (∀ model q, (run config events).queue? model = some q → q.waiting ≠ [] →
      ∃ timer, (timersOf model (run config events).timers).filter (·.generation == q.generation) = [timer] ∧
        q.timer = some timer ∧ timer.due ≤ (run config events).now + q.model.timeout) ∧
    ∀ (model : String) (timer : Timer),
      (∀ q, (run config events).queue? model = some q → q.generation ≠ timer.generation) →
      (run config events).batcher.timerFires (run config events).now model timer.generation =
        ([], (run config events).batcher) ∧
      ((run config events).step (.timerEnds model timer) = run config events ∨
        (run config events).step (.timerEnds model timer) = (run config events).forget model timer) := by
  have hawake := Awake.run config events
  generalize run config events = s at hawake ⊢
  constructor
  · intro model q hq hw
    obtain ⟨timer, ht, hd, hf⟩ := (hawake.wakes hq hw).armed hw
    exact ⟨timer, hf, ht, hd⟩
  · intro model timer hg
    exact ⟨timerFires_stale s.now hg, step_stale hg⟩

theorem one_timer_counts_in_pairs :
    (∃ q timer, (run inPairs [plea .low, .patienceEnds 0]).queue? "m" = some q ∧ q.waiting ≠ [] ∧
      (timersOf "m" (run inPairs [plea .low, .patienceEnds 0]).timers).filter
        (·.generation == q.generation) = [timer] ∧
      q.timer = some timer ∧ timer.due ≤ 0 + q.model.timeout) ∧
    ((run inPairs [plea .low, plea .low, plea .low]).batcher.timerFires 0 "m" 1).1 = [] := by
  constructor
  · obtain ⟨timer, ht⟩ := (one_timer_counts inPairs [plea .low, .patienceEnds 0]).1 "m" _ rfl (by decide)
    exact ⟨_, timer, rfl, by decide, ht⟩
  · have hs := (one_timer_counts inPairs [plea .low, plea .low, plea .low]).2 "m" ⟨1, 1000⟩ (by
      intro q hq
      cases hq
      decide)
    exact congrArg Prod.fst hs.1

end Batcher.History

end Serving
