import Serving.Proofs.Batcher.Operations

/-! A batcher as it looks to the other callers when one of them is left out. Where the request of that caller
does not wait in a queue, no operation can tell two batchers apart that look the same then. -/

namespace Serving

namespace Batch

variable {q q' : Queue} {isOpen isOpen' : Nat → Bool} {t : Nat}

namespace Queue

/-- No decision looks at the counts. -/
def uncounted (q : Queue) : Queue := { q with counts := {} }

lemma exists_counts (h : q'.uncounted = q.uncounted) : ∃ counts, q' = { q with counts } := by
  refine ⟨q'.counts, ?_⟩
  have hq' : q' = { q'.uncounted with counts := q'.counts } := rfl
  rw [hq', h]
  rfl

lemma restarted_congr (h : q'.uncounted = q.uncounted) (now : Instant) :
    (q'.restarted now).uncounted = (q.restarted now).uncounted := by
  obtain ⟨counts, rfl⟩ := exists_counts h
  by_cases hw : q.waiting = [] <;> simp [restarted, cancelTimer, setTimer, uncounted, hw]

lemma accept_congr (h : q'.uncounted = q.uncounted) (now : Instant) (r : Queued) :
    (q'.accept now r).uncounted = (q.accept now r).uncounted := by
  obtain ⟨counts, rfl⟩ := exists_counts h
  by_cases hw : q.waiting = [] <;> simp [accept, push, cancelTimer, setTimer, uncounted, hw]

end Queue

lemma drain_congr {l : List Queued} (limit : Nat) (h : ∀ r ∈ l, isOpen' r.ticket = isOpen r.ticket) :
    drain isOpen' limit l = drain isOpen limit l := by
  induction l generalizing limit with
  | nil => cases limit <;> rfl
  | cons r l ih =>
    obtain ⟨hr, hl⟩ := List.forall_mem_cons.1 h
    cases limit with
    | zero => rfl
    | succ n => simp only [drain, hr, ih _ hl]

lemma Taken.not_mem {batches : List (List Queued)} (h : Taken isOpen q batches q')
    (ht : t ∉ tickets q.waiting) : t ∉ tickets q'.waiting := by
  obtain ⟨_, hp, _⟩ := h.perm
  intro hm
  obtain ⟨r, hr, rfl⟩ := List.mem_map.1 hm
  exact ht (List.mem_map.2 ⟨r, hp.mem_iff.2 (List.mem_append_right _ hr), rfl⟩)

end Batch

namespace Batcher

open Batch

variable {b b' : Batcher} {q q' : Queue} {t : Nat}

/-- The batcher as the others see it: without one of the callers, and without counts. -/
def without (t : Nat) (b : Batcher) : Batcher :=
  { b with callers := b.callers.filter (· != t), queues := b.queues.map fun _ => Queue.uncounted }

/-- Two operations agree if they give the same answer and the others see no difference afterwards. -/
structure Agree {α : Type} (t : Nat) (x' x : α × Batcher) : Prop where
  answer : x'.1 = x.1
  left : x'.2.without t = x.2.without t

def Lacks (t : Nat) (b : Batcher) : Prop :=
  ∀ model q, b.queues.find? model = some q → t ∉ tickets q.waiting

lemma isOpen_without {u : Nat} (h : u ≠ t) (b : Batcher) : (b.without t).isOpen u = b.isOpen u := by
  rw [Bool.eq_iff_iff]
  simp [isOpen, without, h]

lemma find?_without (t : Nat) (b : Batcher) (model : String) :
    (b.without t).queues.find? model = (b.queues.find? model).map Queue.uncounted :=
  Table.find?_map ..

lemma without_setQueue (t : Nat) (b : Batcher) (model : String) (q : Queue) :
    (b.setQueue model q).without t = (b.without t).setQueue model q.uncounted := by
  simp only [setQueue, without, Table.map_insert]

lemma Lacks.setQueue (h : b.Lacks t) (model : String) (hq : t ∉ tickets q.waiting) :
    (b.setQueue model q).Lacks t := by
  intro other u hu
  rw [find?_setQueue] at hu
  split at hu
  · obtain rfl := Option.some.inj hu
    exact hq
  · exact h other u hu

lemma not_mem_drained (isOpen : Nat → Bool) (ht : t ∉ tickets q.waiting) :
    t ∉ tickets (q.drained isOpen).waiting := by
  by_cases hb : q.firstBatch isOpen = []
  · exact (Taken.skip hb .refl).not_mem ht
  · exact (Taken.take hb .refl).not_mem ht

lemma isOpen_congr (h : b'.without t = b.without t) {u : Nat} (hu : u ≠ t) : b'.isOpen u = b.isOpen u := by
  rw [← isOpen_without hu, h, isOpen_without hu]

lemma find?_cases (h : b'.without t = b.without t) (model : String) :
    (b'.queues.find? model = none ∧ b.queues.find? model = none) ∨
      ∃ q' q, b'.queues.find? model = some q' ∧ b.queues.find? model = some q ∧
        q'.uncounted = q.uncounted := by
  have hf : (b'.queues.find? model).map Queue.uncounted = (b.queues.find? model).map Queue.uncounted := by
    rw [← find?_without t, h, find?_without]
  cases hq : b.queues.find? model with
  | none =>
    rw [hq, Option.map_none, Option.map_eq_none_iff] at hf
    exact Or.inl ⟨hf, rfl⟩
  | some q =>
    rw [hq, Option.map_some, Option.map_eq_some_iff] at hf
    obtain ⟨q', hq', hu⟩ := hf
    exact Or.inr ⟨q', q, hq', rfl, hu⟩

lemma without_setQueue_congr (h : b'.without t = b.without t) (model : String)
    (hq : q'.uncounted = q.uncounted) : (b'.setQueue model q').without t = (b.setQueue model q).without t := by
  rw [without_setQueue, without_setQueue, h, hq]

lemma without_sendOut_congr (h : b'.without t = b.without t) (batches : List Sent) :
    (b'.sendOut batches).without t = (b.sendOut batches).without t :=
  congrArg (fun b : Batcher => b.sendOut batches) h

lemma nextBatch_congr (h : b'.without t = b.without t) : b'.nextBatch = b.nextBatch :=
  congrArg (·.nextBatch) h

lemma names_congr (h : b'.without t = b.without t) : b'.queues.names = b.queues.names := by
  have hn := congrArg (·.queues.names) h
  simpa only [without, Table.names_map] using hn

section Queue

variable (h : b'.without t = b.without t) (hq : q'.uncounted = q.uncounted) (ht : t ∉ tickets q.waiting)

include h hq

lemma reasonNow_congr (timerExpired : Bool) : b'.reasonNow q' timerExpired = b.reasonNow q timerExpired := by
  obtain ⟨counts, rfl⟩ := Queue.exists_counts hq
  have hc : b'.config = b.config := congrArg (·.config) h
  rw [reasonNow, hc]
  rfl

include ht

lemma drained_congr : q'.firstBatch b'.isOpen = q.firstBatch b.isOpen ∧
    (q'.drained b'.isOpen).uncounted = (q.drained b.isOpen).uncounted := by
  obtain ⟨counts, rfl⟩ := Queue.exists_counts hq
  -- The drains could differ on `t` only, and `t` is nowhere in the queue.
  have hd : drain b'.isOpen q.limit q.inOrder = drain b.isOpen q.limit q.inOrder := by
    refine drain_congr _ fun r hr => isOpen_congr h ?_
    rintro rfl
    exact ht (List.mem_map.2 ⟨r, q.inOrder_perm.mem_iff.1 hr, rfl⟩)
  constructor
  · exact congrArg (·.batch) hd
  · exact congrArg (fun d => { q with waiting := d.rest, counts := {} }) hd

lemma readyBatches_congr (rounds : Nat) :
    (b'.readyBatches rounds q').1 = (b.readyBatches rounds q).1 ∧
      (b'.readyBatches rounds q').2.uncounted = (b.readyBatches rounds q).2.uncounted := by
  induction rounds generalizing q q' with
  | zero => exact ⟨rfl, hq⟩
  | succ rounds ih =>
    obtain ⟨hfirst, hrest⟩ := drained_congr h hq ht
    obtain ⟨hbatches, hleft⟩ := ih hrest (not_mem_drained b.isOpen ht)
    simp only [readyBatches, drainQueue_eq, reasonNow_congr h hq, hfirst, List.isEmpty_iff]
    cases b.reasonNow q false with
    | none => exact ⟨rfl, hq⟩
    | some reason =>
      by_cases hb : q.firstBatch b.isOpen = []
      · simp only [hb, if_true, true_and]
        exact hrest
      · simp only [hb, if_false, hbatches, true_and]
        exact hleft

lemma emptyQueue_congr (rounds : Nat) :
    (b'.emptyQueue rounds q').1 = (b.emptyQueue rounds q).1 ∧
      (b'.emptyQueue rounds q').2.uncounted = (b.emptyQueue rounds q).2.uncounted := by
  induction rounds generalizing q q' with
  | zero => exact ⟨rfl, hq⟩
  | succ rounds ih =>
    obtain ⟨hfirst, hrest⟩ := drained_congr h hq ht
    obtain ⟨hbatches, hleft⟩ := ih hrest (not_mem_drained b.isOpen ht)
    simp only [emptyQueue, drainQueue_eq, hfirst, List.isEmpty_iff]
    by_cases hb : q.firstBatch b.isOpen = []
    · simp only [hb, if_true, true_and]
      exact hrest
    · simp only [hb, if_false, hbatches, true_and]
      exact hleft

lemma flushed_congr (now : Instant) :
    b'.ready q' = b.ready q ∧ (b'.flushed now q').uncounted = (b.flushed now q).uncounted := by
  have hp : q'.pending = q.pending := congrArg (·.pending) hq
  obtain ⟨hready, hleft⟩ := readyBatches_congr h hq ht q.pending
  rw [← hp] at hready hleft
  have hready' : b'.ready q' = b.ready q := by rw [ready, ready, hready, hp]
  refine ⟨hready', ?_⟩
  rw [flushed, flushed, hready', ← hp]
  split
  · exact hleft
  · exact Queue.restarted_congr hleft now

lemma flushQueue_congr (now : Instant) (model : String) :
    Agree t (b'.flushQueue now model q') (b.flushQueue now model q) := by
  obtain ⟨hready, hleft⟩ := flushed_congr h hq ht now
  have htimer : (b'.flushed now q').timer = (b.flushed now q).timer := congrArg (·.timer) hleft
  simp only [flushQueue_eq, flushTimers, hready, htimer, nextBatch_congr h]
  exact ⟨rfl, without_sendOut_congr (without_setQueue_congr h model hleft) _⟩

end Queue

lemma Lacks.flushQueue (hl : b.Lacks t) (now : Instant) (model : String) (ht : t ∉ tickets q.waiting) :
    (b.flushQueue now model q).2.Lacks t := by
  rw [flushQueue_eq]
  exact hl.setQueue model ((taken_flushed b now q).not_mem ht)

lemma sendLast_congr (now : Instant) (batches : List (String × List Queued)) (h : b'.without t = b.without t) :
    Agree t (sendLast now batches b') (sendLast now batches b) := by
  have hw (b : Batcher) : sendLast now batches (b.without t) =
      ((sendLast now batches b).1, (sendLast now batches b).2.without t) := by
    rw [sendLast_eq, sendLast_eq]
    rfl
  have hb := hw b'
  rw [h, hw b] at hb
  obtain ⟨heffects, hleft⟩ := Prod.mk.inj hb
  exact ⟨heffects.symm, hleft.symm⟩

lemma enqueue_congr (now : Instant) (r : Request) (h : b'.without t = b.without t)
    (hq : q'.uncounted = q.uncounted) (hn : t ≠ b.nextTicket) :
    (b'.enqueue now r q').without t = (b.enqueue now r q).without t := by
  have hw (b : Batcher) (n : Nat) (hn : t ≠ n) :
      { b with callers := n :: b.callers, nextTicket := n + 1 }.without t =
        { b.without t with callers := n :: (b.without t).callers, nextTicket := n + 1 } := by
    simp [without, hn.symm]
  have hnext : b'.nextTicket = b.nextTicket := congrArg (·.nextTicket) h
  rw [enqueue, enqueue, hnext]
  refine without_setQueue_congr ?_ r.model (Queue.accept_congr hq now _)
  rw [hw b' _ hn, hw b _ hn, h]

section Operation

variable (h : b'.without t = b.without t) (hl : b.Lacks t)

include h hl

lemma flushModels_congr (now : Instant) (names : List String) :
    Agree t (flushModels now names b') (flushModels now names b) := by
  induction names generalizing b b' with
  | nil => exact ⟨rfl, h⟩
  | cons name names ih =>
    simp only [flushModels]
    rcases find?_cases h name with ⟨hq', hq⟩ | ⟨q', q, hq', hq, hu⟩
    · simp only [hq', hq]
      exact ih h hl
    · have ht := hl name q hq
      have hflush := flushQueue_congr h hu ht now name
      have hmore := ih hflush.left (hl.flushQueue now name ht)
      simp only [hq', hq, hflush.answer, hmore.answer]
      exact ⟨rfl, hmore.left⟩

lemma flush_congr (now : Instant) : Agree t (b'.flush now) (b.flush now) := by
  rw [flush, flush, names_congr h]
  exact flushModels_congr h hl now _

lemma emptyQueues_congr (names : List String) : Agree t (emptyQueues names b') (emptyQueues names b) := by
  induction names generalizing b b' with
  | nil => exact ⟨rfl, h⟩
  | cons name names ih =>
    simp only [emptyQueues]
    rcases find?_cases h name with ⟨hq', hq⟩ | ⟨q', q, hq', hq, hu⟩
    · simp only [hq', hq]
      exact ih h hl
    · have ht : t ∉ tickets q.cancelTimer.waiting := hl name q hq
      have hu' : q'.cancelTimer.uncounted = q.cancelTimer.uncounted := congrArg Queue.cancelTimer hu
      have hp : q'.cancelTimer.pending = q.cancelTimer.pending := congrArg (·.pending) hu'
      obtain ⟨hbatches, hleft⟩ := emptyQueue_congr h hu' ht (q.cancelTimer.pending + 1)
      have hothers := ih (without_setQueue_congr h name hleft)
        (hl.setQueue name ((taken_emptyQueue b (q.cancelTimer.pending + 1) q.cancelTimer).not_mem ht))
      simp only [hq', hq, hp, hbatches, hothers.answer]
      exact ⟨rfl, hothers.left⟩

lemma shutDown_congr (now : Instant) : Agree t (b'.shutDown now) (b.shutDown now) := by
  have hs : b'.isShutDown = b.isShutDown := congrArg (·.isShutDown) h
  have hflagged : { b' with isShutDown := true }.without t = { b with isShutDown := true }.without t :=
    congrArg (fun b : Batcher => { b with isShutDown := true }) h
  have hempty := emptyQueues_congr hflagged hl b.queues.names
  simp only [shutDown, hs, names_congr h]
  split
  · exact ⟨rfl, h⟩
  · rw [hempty.answer]
    exact sendLast_congr now _ hempty.left

lemma timerFires_congr (now : Instant) (model : String) (generation : Nat) :
    Agree t (b'.timerFires now model generation) (b.timerFires now model generation) := by
  rcases find?_cases h model with ⟨hq', hq⟩ | ⟨q', q, hq', hq, hu⟩
  · simp only [timerFires, hq', hq]
    exact ⟨rfl, h⟩
  · have hgeneration : q'.generation = q.generation := congrArg (·.generation) hu
    by_cases hg : q.generation = generation
    · obtain ⟨hfirst, hrest⟩ := drained_congr h hu (hl model q hq)
      have hrung := Queue.restarted_congr hrest now
      have htimer : (b'.rung now q').timer = (b.rung now q).timer := congrArg (·.timer) hrung
      have hbatches : b'.rungBatches now model q' = b.rungBatches now model q := by
        rw [rungBatches, rungBatches, hfirst, nextBatch_congr h]
      have heq := timerFires_eq now hq'
      rw [hgeneration] at heq
      rw [← hg, heq, timerFires_eq now hq, htimer, hbatches]
      exact ⟨rfl, without_sendOut_congr (without_setQueue_congr h model hrung) _⟩
    · have hstale : ∀ u, b.queues.find? model = some u → u.generation ≠ generation := by
        intro u hu
        obtain rfl := Option.some.inj (hq.symm.trans hu)
        exact hg
      have hstale' : ∀ u, b'.queues.find? model = some u → u.generation ≠ generation := by
        intro u hu
        obtain rfl := Option.some.inj (hq'.symm.trans hu)
        rwa [hgeneration]
      rw [timerFires_stale now hstale, timerFires_stale now hstale']
      exact ⟨rfl, h⟩

lemma submit_congr (now : Instant) (r : Request) (hn : t ≠ b.nextTicket) :
    Agree t (b'.submit now r) (b.submit now r) := by
  have hs : b'.isShutDown = b.isShutDown := congrArg (·.isShutDown) h
  have hnext : b'.nextTicket = b.nextTicket := congrArg (·.nextTicket) h
  cases ho : b.isShutDown with
  | true =>
    simp only [submit, hs, ho, if_true]
    exact ⟨rfl, h⟩
  | false =>
    rcases find?_cases h r.model with ⟨hq', hq⟩ | ⟨q', q, hq', hq, hu⟩
    · simp only [submit, hs, ho, hq', hq, Bool.false_eq_true, if_false]
      exact ⟨rfl, h⟩
    · have htimers : q'.acceptTimers now = q.acceptTimers now := (congrArg (Queue.acceptTimers now) hu :)
      have ht : t ∉ tickets (q.accept now ⟨b.nextTicket, r⟩).waiting := by
        rw [Queue.waiting_accept, tickets, List.map_append, List.mem_append, not_or]
        exact ⟨hl r.model q hq, by simpa using hn⟩
      have hflush := flushQueue_congr (enqueue_congr now r h hu hn)
        (Queue.accept_congr hu now ⟨b.nextTicket, r⟩) ht now r.model
      rw [submit_eq now ho hq, submit_eq now (hs.trans ho) hq', hnext, htimers, hflush.answer]
      exact ⟨rfl, hflush.left⟩

end Operation

def others (t : Nat) (answers : List Delivery) : List Delivery := answers.filter (·.ticket != t)

lemma any_others {u : Nat} (hu : u ≠ t) (answers : List Delivery) :
    (others t answers).any (·.ticket == u) = answers.any (·.ticket == u) := by
  rw [others, List.any_filter]
  congr 1
  funext d
  by_cases hd : d.ticket = u
  · simp [hd, hu]
  · simp [hd]

lemma deliveries_congr (h : b'.without t = b.without t) (l : List (Queued × Except Error Json)) :
    others t (b'.deliveries l) = others t (b.deliveries l) := by
  simp only [others, deliveries, List.filter_map, List.filter_filter]
  congr 1
  refine List.filter_congr fun p _ => ?_
  by_cases hp : p.1.ticket = t
  · simp [hp]
  · rw [isOpen_congr h hp]

lemma filter_callersAfter (t : Nat) (b : Batcher) (answers : List Delivery) :
    (b.callersAfter answers).filter (· != t) =
      (b.without t).callers.filter fun u => !(others t answers).any (·.ticket == u) := by
  rw [callersAfter, List.filter_comm]
  refine List.filter_congr fun u hu => ?_
  rw [any_others (by simpa using (List.mem_filter.1 hu).2)]

lemma without_released (t number : Nat) (b : Batcher) (answers : List Delivery) (queues : Table Queue) :
    { b with
      inFlight := b.inFlight.filter (·.number != number)
      callers := b.callersAfter answers
      queues := queues }.without t =
      { b.without t with
        inFlight := (b.without t).inFlight.filter (·.number != number)
        callers := (b.without t).callers.filter fun u => !(others t answers).any (·.ticket == u)
        queues := queues.map fun _ => Queue.uncounted } := by
  rw [← filter_callersAfter]
  rfl

lemma map_counted (t : Nat) (now : Instant) (b : Batcher) (batch : Sent) (answers : List Delivery) :
    (b.queues.modify batch.model (b.counted now batch answers)).map (fun _ => Queue.uncounted) =
      (b.without t).queues.modify batch.model fun q => ((b.without t).counted now batch [] q).uncounted :=
  Table.map_modify _ _ _ fun _ => rfl

section Finish

variable {number : Nat} {batch : Sent} (h : b'.without t = b.without t)
  (hb : b.inFlight.find? (·.number == number) = some batch)

include h hb

lemma complete_congr (now : Instant) {results : List (Except Error Json)}
    (hl : results.length = batch.requests.length) :
    others t (b'.complete now number results).1 = others t (b.complete now number results).1 ∧
      (b'.complete now number results).2.without t = (b.complete now number results).2.without t := by
  have hf : b'.inFlight = b.inFlight := congrArg (·.inFlight) h
  have ha := deliveries_congr h (batch.requests.zip results)
  rw [complete_eq now results hb hl, complete_eq now results (hf ▸ hb) hl]
  refine ⟨ha, ?_⟩
  rw [without_released, without_released, map_counted t, map_counted t, h, ha]

lemma breakOff_congr : others t (b'.breakOff number).1 = others t (b.breakOff number).1 ∧
    (b'.breakOff number).2.without t = (b.breakOff number).2.without t := by
  have hf : b'.inFlight = b.inFlight := congrArg (·.inFlight) h
  have hq : b'.queues.map (fun _ => Queue.uncounted) = b.queues.map fun _ => Queue.uncounted :=
    congrArg (·.queues) h
  have ha := deliveries_congr h (batch.requests.map fun r => (r, .error (droppedError r.request)))
  rw [breakOff_eq hb, breakOff_eq (hf ▸ hb)]
  refine ⟨ha, ?_⟩
  rw [without_released, without_released, hq, h, ha]

end Finish

lemma without_giveUp (t u : Nat) (b : Batcher) (model : String) :
    (b.giveUp u model).without t =
      { b.without t with callers := (b.without t).callers.filter (· != u) } := by
  by_cases ho : b.isOpen u = true
  · have hq : (b.queues.modify model fun q =>
        { q with counts := { q.counts with timedOut := q.counts.timedOut + 1 } }).map
          (fun _ => Queue.uncounted) = (b.queues.map fun _ => Queue.uncounted).modify model id :=
      Table.map_modify _ _ _ fun _ => rfl
    rw [Table.modify_id] at hq
    simp only [giveUp, ho, if_true, without, hq]
    rw [List.filter_comm]
  · have hu : (b.without t).callers.filter (· != u) = (b.without t).callers := by
      refine List.filter_eq_self.2 fun x hx => ?_
      have hx := isOpen_iff.2 (List.mem_filter.1 hx).1
      rw [bne_iff_ne]
      rintro rfl
      exact ho hx
    rw [giveUp, if_neg ho, hu]

end Batcher

end Serving
