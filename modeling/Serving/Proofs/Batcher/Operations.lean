import Serving.Proofs.Batcher.Drain

/-! What the operations of a batcher do to its queues, and which batches and timers they give rise to. -/

namespace Serving

namespace Batch

def timersIn (effects : List Effect) : List (String × Timer) :=
  effects.filterMap fun
    | .timerSet model timer => some (model, timer)
    | .batchSent _ => none

def batchesIn (effects : List Effect) : List Sent :=
  effects.filterMap fun
    | .timerSet _ _ => none
    | .batchSent batch => some batch

@[simp] lemma timersIn_append (l l' : List Effect) : timersIn (l ++ l') = timersIn l ++ timersIn l' :=
  List.filterMap_append

@[simp] lemma batchesIn_append (l l' : List Effect) : batchesIn (l ++ l') = batchesIn l ++ batchesIn l' :=
  List.filterMap_append

@[simp] lemma timersIn_batchSent (l : List Sent) : timersIn (l.map .batchSent) = [] := by
  simp [timersIn, List.filterMap_map]

@[simp] lemma batchesIn_batchSent (l : List Sent) : batchesIn (l.map .batchSent) = l := by
  simp [batchesIn, List.filterMap_map]

@[simp] lemma timersIn_timerSet (model : String) (l : List Timer) :
    timersIn (l.map (.timerSet model)) = l.map (model, ·) := by
  simp [timersIn, List.filterMap_map]

@[simp] lemma batchesIn_timerSet (model : String) (l : List Timer) :
    batchesIn (l.map (.timerSet model)) = [] := by
  simp [batchesIn, List.filterMap_map]

def numbered (now : Instant) : Nat → List (String × Reason × List Queued) → List Sent
  | _, [] => []
  | n, (model, reason, requests) :: rest => ⟨n, model, reason, requests, now⟩ :: numbered now (n + 1) rest

@[simp] lemma length_numbered (now : Instant) (n : Nat) (l : List (String × Reason × List Queued)) :
    (numbered now n l).length = l.length := by
  induction l generalizing n with
  | nil => rfl
  | cons e l ih => simp [numbered, ih]

lemma map_number_numbered (now : Instant) (n : Nat) (l : List (String × Reason × List Queued)) :
    (numbered now n l).map (·.number) = List.range' n l.length := by
  induction l generalizing n with
  | nil => rfl
  | cons e l ih => simp [numbered, ih, List.range'_succ]

lemma map_requests_numbered (now : Instant) (n : Nat) (l : List (String × Reason × List Queued)) :
    (numbered now n l).map (fun b => (b.model, b.requests)) = l.map fun e => (e.1, e.2.2) := by
  induction l generalizing n with
  | nil => rfl
  | cons e l ih => simp [numbered, ih]

def batchesOf (model : String) (l : List Sent) : List (List Queued) :=
  (l.filter (·.model == model)).map (·.requests)

@[simp] lemma batchesOf_nil (model : String) : batchesOf model [] = [] := rfl

@[simp] lemma batchesOf_append (model : String) (l l' : List Sent) :
    batchesOf model (l ++ l') = batchesOf model l ++ batchesOf model l' := by
  simp [batchesOf]

lemma mem_batchesOf {l : List Sent} {batch : Sent} (h : batch ∈ l) :
    batch.requests ∈ batchesOf batch.model l :=
  List.mem_map.2 ⟨batch, List.mem_filter.2 ⟨h, beq_self_eq_true _⟩, rfl⟩

lemma batchesOf_numbered (now : Instant) (n : Nat) (model : String)
    (l : List (String × Reason × List Queued)) :
    batchesOf model (numbered now n l) = (l.filter (·.1 == model)).map (·.2.2) := by
  induction l generalizing n with
  | nil => rfl
  | cons e l ih =>
    have hl := ih (n + 1)
    simp only [batchesOf] at hl ⊢
    by_cases he : e.1 == model <;> simp [numbered, he, hl]

def Queue.push (r : Queued) (q : Queue) : Queue :=
  { q with
    waiting := q.waiting ++ [r]
    counts := { q.counts with submitted := q.counts.submitted + 1 } }

def Queue.accept (now : Instant) (r : Queued) (q : Queue) : Queue :=
  if q.waiting = [] then (q.push r).setTimer now else q.push r

def Queue.acceptTimers (now : Instant) (q : Queue) : List Timer :=
  if q.waiting = [] then [⟨q.generation + 1, now + q.model.timeout⟩] else []

@[simp] lemma Queue.waiting_accept (now : Instant) (r : Queued) (q : Queue) :
    (q.accept now r).waiting = q.waiting ++ [r] := by
  rw [accept]
  split <;> rfl

@[simp] lemma Queue.model_accept (now : Instant) (r : Queued) (q : Queue) :
    (q.accept now r).model = q.model := by
  rw [accept]
  split <;> rfl

@[simp] lemma Queue.counts_accept (now : Instant) (r : Queued) (q : Queue) :
    (q.accept now r).counts = { q.counts with submitted := q.counts.submitted + 1 } := by
  rw [accept]
  split <;> rfl

/-- The queue after it gave batches away: its timer is called off, and set anew if requests stay. -/
def Queue.restarted (now : Instant) (q : Queue) : Queue :=
  if q.waiting = [] then q.cancelTimer else q.cancelTimer.setTimer now

@[simp] lemma Queue.waiting_restarted (now : Instant) (q : Queue) :
    (q.restarted now).waiting = q.waiting := by
  rw [restarted]
  split <;> rfl

end Batch

namespace Batcher

open Batch

lemma find?_setQueue (b : Batcher) (model : String) (q : Queue) (other : String) :
    (b.setQueue model q).queues.find? other = if other = model then some q else b.queues.find? other :=
  Table.find?_insert ..

@[simp] lemma isOpen_setQueue (b : Batcher) (model : String) (q : Queue) :
    (b.setQueue model q).isOpen = b.isOpen := rfl

lemma sendAll_eq (now : Instant) (model : String) (batches : List (Reason × List Queued)) (b : Batcher) :
    sendAll now model batches b =
      ((numbered now b.nextBatch (batches.map (model, ·))).map .batchSent,
        { b with
          inFlight := b.inFlight ++ numbered now b.nextBatch (batches.map (model, ·))
          nextBatch := b.nextBatch + batches.length }) := by
  induction batches generalizing b with
  | nil => simp [sendAll, numbered]
  | cons e batches ih => simp [sendAll, send, numbered, ih, Nat.add_assoc, Nat.add_comm 1]

lemma sendLast_eq (now : Instant) (batches : List (String × List Queued)) (b : Batcher) :
    sendLast now batches b =
      ((numbered now b.nextBatch (batches.map fun e => (e.1, .shutdown, e.2))).map .batchSent,
        { b with
          inFlight := b.inFlight ++ numbered now b.nextBatch (batches.map fun e => (e.1, .shutdown, e.2))
          nextBatch := b.nextBatch + batches.length }) := by
  induction batches generalizing b with
  | nil => simp [sendLast, numbered]
  | cons e batches ih => simp [sendLast, send, numbered, ih, Nat.add_assoc, Nat.add_comm 1]

lemma rearm_eq (now : Instant) (model : String) (q : Queue) :
    rearm now model q = if q.waiting = [] then ([], q)
      else ([.timerSet model ⟨q.generation + 1, now + q.model.timeout⟩], q.setTimer now) := by
  by_cases h : q.waiting = [] <;> simp [rearm, Queue.pending, Queue.setTimer, Queue.cancelTimer, h]

lemma readyBatches_setQueue (b : Batcher) (model : String) (q' : Queue) (rounds : Nat) (q : Queue) :
    (b.setQueue model q').readyBatches rounds q = b.readyBatches rounds q := by
  induction rounds generalizing q with
  | zero => rfl
  | succ rounds ih =>
    simp only [readyBatches, ih]
    rfl

lemma taken_readyBatches (b : Batcher) (rounds : Nat) (q : Queue) :
    Taken b.isOpen q ((b.readyBatches rounds q).1.map (·.2)) (b.readyBatches rounds q).2 := by
  induction rounds generalizing q with
  | zero => exact .refl
  | succ rounds ih =>
    simp only [readyBatches, drainQueue_eq, List.isEmpty_iff]
    cases b.reasonNow q false with
    | none => exact .refl
    | some reason =>
      by_cases h : q.firstBatch b.isOpen = []
      · simp only [h, if_true]
        exact .skip h .refl
      · simp only [h, if_false]
        exact .take h (ih (q.drained b.isOpen))

lemma readyBatches_frame (b : Batcher) (rounds : Nat) (q : Queue) :
    (b.readyBatches rounds q).2.model = q.model ∧ (b.readyBatches rounds q).2.timer = q.timer ∧
    (b.readyBatches rounds q).2.generation = q.generation ∧
    (q.waiting = [] → (b.readyBatches rounds q).2.waiting = []) := by
  induction rounds generalizing q with
  | zero => exact ⟨rfl, rfl, rfl, id⟩
  | succ rounds ih =>
    simp only [readyBatches, drainQueue_eq, List.isEmpty_iff]
    have hd (h : q.waiting = []) : (q.drained b.isOpen).waiting = [] := by
      rw [Queue.drained_of_empty h, h]
    cases b.reasonNow q false with
    | none => exact ⟨rfl, rfl, rfl, id⟩
    | some reason =>
      by_cases h : q.firstBatch b.isOpen = []
      · simp only [h, if_true]
        exact ⟨rfl, rfl, rfl, hd⟩
      · simp only [h, if_false]
        obtain ⟨hm, ht, hg, hw⟩ := ih (q.drained b.isOpen)
        exact ⟨hm, ht, hg, fun he => hw (hd he)⟩

lemma taken_emptyQueue (b : Batcher) (rounds : Nat) (q : Queue) :
    Taken b.isOpen q (b.emptyQueue rounds q).1 (b.emptyQueue rounds q).2 := by
  induction rounds generalizing q with
  | zero => exact .refl
  | succ rounds ih =>
    simp only [emptyQueue, drainQueue_eq, List.isEmpty_iff]
    by_cases h : q.firstBatch b.isOpen = []
    · simp only [h, if_true]
      exact .skip h .refl
    · simp only [h, if_false]
      exact .take h (ih (q.drained b.isOpen))

def ready (b : Batcher) (q : Queue) : List (Reason × List Queued) := (b.readyBatches q.pending q).1

def flushed (b : Batcher) (now : Instant) (q : Queue) : Queue :=
  if b.ready q = [] then (b.readyBatches q.pending q).2
  else (b.readyBatches q.pending q).2.restarted now

/-- The timers that a flush sets: at most one. -/
def flushTimers (b : Batcher) (now : Instant) (q : Queue) : List Timer :=
  if b.ready q = [] then [] else (b.flushed now q).timer.toList

def sendOut (b : Batcher) (batches : List Sent) : Batcher :=
  { b with inFlight := b.inFlight ++ batches, nextBatch := b.nextBatch + batches.length }

lemma flushQueue_eq (b : Batcher) (now : Instant) (model : String) (q : Queue) :
    b.flushQueue now model q =
      ((b.flushTimers now q).map (.timerSet model) ++
          (numbered now b.nextBatch ((b.ready q).map (model, ·))).map .batchSent,
        (b.setQueue model (b.flushed now q)).sendOut
          (numbered now b.nextBatch ((b.ready q).map (model, ·)))) := by
  simp only [flushQueue, flushTimers, flushed, List.isEmpty_iff]
  by_cases h : b.ready q = []
  · simp [h, show (b.readyBatches q.pending q).1 = [] from h, numbered, sendOut]
  · simp only [h, if_false, show ¬(b.readyBatches q.pending q).1 = [] from h]
    by_cases hw : (b.readyBatches q.pending q).2.waiting = []
    · simp [rearm_eq, Queue.restarted, Queue.cancelTimer, sendAll_eq, sendOut, setQueue, ready, hw]
    · simp [rearm_eq, Queue.restarted, Queue.cancelTimer, Queue.setTimer, sendAll_eq, sendOut, setQueue,
        ready, hw]

lemma flushQueue_setQueue (b : Batcher) (now : Instant) (model : String) (q q' : Queue) :
    (b.setQueue model q').flushQueue now model q = b.flushQueue now model q := by
  have hs (u : Queue) : (b.setQueue model q').setQueue model u = b.setQueue model u := by
    simp [setQueue, Table.insert_insert]
  simp only [flushQueue_eq, flushTimers, flushed, ready, readyBatches_setQueue, hs]
  rfl

lemma taken_restarted (isOpen : Nat → Bool) (now : Instant) (q : Queue) :
    Taken isOpen q [] (q.restarted now) := by
  simp only [Queue.restarted]
  split
  · exact .time _ _ .refl
  · exact .time _ _ .refl

lemma taken_flushed (b : Batcher) (now : Instant) (q : Queue) :
    Taken b.isOpen q ((b.ready q).map (·.2)) (b.flushed now q) := by
  have h := taken_readyBatches b q.pending q
  simp only [flushed]
  split
  · exact h
  · have ht := h.trans (taken_restarted _ now _)
    rwa [List.append_nil] at ht

lemma flushed_waiting {b : Batcher} {now : Instant} {q : Queue} (h : q.waiting = []) :
    (b.flushed now q).waiting = [] := by
  have hw := (b.readyBatches_frame q.pending q).2.2.2 h
  rw [flushed]
  split
  · exact hw
  · rw [Queue.waiting_restarted, hw]

/-- The batcher with one more request in a queue, before it looks whether the queue goes out. -/
def enqueue (b : Batcher) (now : Instant) (r : Request) (q : Queue) : Batcher :=
  { b with callers := b.nextTicket :: b.callers, nextTicket := b.nextTicket + 1 }.setQueue r.model
    (q.accept now ⟨b.nextTicket, r⟩)

lemma accept_eq (now : Instant) (model : String) (r : Queued) (q : Queue) :
    (if (q.pending == 0) = true then rearm now model (q.push r) else ([], q.push r)) =
      ((q.acceptTimers now).map (.timerSet model), q.accept now r) := by
  have hp : (q.push r).waiting ≠ [] := by simp [Queue.push]
  rw [rearm_eq, if_neg hp]
  by_cases hw : q.waiting = []
  · simp [Queue.pending, Queue.accept, Queue.acceptTimers, Queue.push, hw]
  · simp [Queue.pending, Queue.accept, Queue.acceptTimers, hw]

lemma submit_eq {b : Batcher} {r : Request} {q : Queue} (now : Instant) (ho : b.isShutDown = false)
    (hq : b.queues.find? r.model = some q) :
    b.submit now r =
      (.ok ⟨b.nextTicket, (q.acceptTimers now).map (.timerSet r.model) ++
          ((b.enqueue now r q).flushQueue now r.model (q.accept now ⟨b.nextTicket, r⟩)).1⟩,
        ((b.enqueue now r q).flushQueue now r.model (q.accept now ⟨b.nextTicket, r⟩)).2) := by
  have ha := accept_eq now r.model ⟨b.nextTicket, r⟩ q
  simp only [Queue.push] at ha
  simp only [submit, ho, hq, ha, enqueue, flushQueue_setQueue]
  rfl

lemma submit_error {b : Batcher} {r : Request} {now : Instant} {e : Error}
    (h : (b.submit now r).1 = .error e) : (b.submit now r).2 = b ∧
      (b.isShutDown = true ∧ e = .shuttingDown ∨
        b.isShutDown = false ∧ b.queues.find? r.model = none ∧ e = .unknownModelType r.model) := by
  cases ho : b.isShutDown with
  | true =>
    simp only [submit, ho, if_true, Except.error.injEq] at h
    simp [submit, ho, ← h]
  | false =>
    cases hq : b.queues.find? r.model with
    | none =>
      simp only [submit, ho, hq, Bool.false_eq_true, if_false, Except.error.injEq] at h
      simp [submit, ho, hq, ← h]
    | some q =>
      rw [submit_eq now ho hq] at h
      cases h

lemma reasonNow_expired (b : Batcher) (q : Queue) :
    (b.reasonNow q true).isSome = true ↔ q.waiting ≠ [] := by
  simp only [reasonNow, fireReason, Queue.snapshot, Queue.pending]
  cases hw : q.waiting with
  | nil => simp
  | cons r l => simp

def rung (b : Batcher) (now : Instant) (q : Queue) : Queue := (q.drained b.isOpen).restarted now

/-- The batches that the end of a queue's timer sends out: at most one. -/
def rungBatches (b : Batcher) (now : Instant) (model : String) (q : Queue) : List Sent :=
  if q.firstBatch b.isOpen = [] then []
  else numbered now b.nextBatch [(model, .timer, q.firstBatch b.isOpen)]

lemma taken_rung (b : Batcher) (now : Instant) (q : Queue) :
    Taken b.isOpen q (if q.firstBatch b.isOpen = [] then [] else [q.firstBatch b.isOpen])
      (b.rung now q) := by
  have hr := taken_restarted b.isOpen now (q.drained b.isOpen)
  split
  · rename_i h
    exact .skip h hr
  · rename_i h
    exact .take h hr

lemma rung_waiting {b : Batcher} {now : Instant} {q : Queue} (h : q.waiting = []) :
    (b.rung now q).waiting = [] := by
  rw [rung, Queue.waiting_restarted, Queue.drained_of_empty h, h]

lemma timerFires_eq {b : Batcher} {model : String} {q : Queue} (now : Instant)
    (hq : b.queues.find? model = some q) :
    b.timerFires now model q.generation =
      ((b.rung now q).timer.toList.map (.timerSet model) ++ (b.rungBatches now model q).map .batchSent,
        (b.setQueue model (b.rung now q)).sendOut (b.rungBatches now model q)) := by
  have hd : (if (b.reasonNow q.cancelTimer true).isSome = true then b.drainQueue q.cancelTimer
      else ([], q.cancelTimer)) = (q.firstBatch b.isOpen, (q.drained b.isOpen).cancelTimer) := by
    have hx := b.reasonNow_expired q.cancelTimer
    by_cases hw : q.waiting = []
    · rw [if_neg (fun h => hx.1 h hw), Queue.firstBatch_of_empty hw, Queue.drained_of_empty hw]
    · rw [if_pos (hx.2 hw)]
      rfl
  simp only [timerFires, hq, hd, if_true, rearm_eq, rung, rungBatches, Queue.restarted, List.isEmpty_iff]
  by_cases hb : q.firstBatch b.isOpen = []
  · by_cases hw : (q.drained b.isOpen).waiting = []
    · simp [hb, hw, Queue.cancelTimer, sendOut]
    · exact absurd (Queue.drained_of_firstBatch_eq_nil hb) hw
  · by_cases hw : (q.drained b.isOpen).waiting = []
    · simp [hb, hw, Queue.cancelTimer, numbered, send, sendOut, setQueue]
    · simp [hb, hw, Queue.cancelTimer, Queue.setTimer, numbered, send, sendOut, setQueue]

lemma timerFires_stale {b : Batcher} {model : String} {generation : Nat} (now : Instant)
    (h : ∀ q, b.queues.find? model = some q → q.generation ≠ generation) :
    b.timerFires now model generation = ([], b) := by
  simp only [timerFires]
  cases hq : b.queues.find? model with
  | none => rfl
  | some q => simp [h q hq]

lemma emptyQueue_waiting (b : Batcher) (rounds : Nat) (q : Queue) (h : q.pending < rounds) :
    (b.emptyQueue rounds q).2.waiting = [] := by
  induction rounds generalizing q with
  | zero => omega
  | succ rounds ih =>
    simp only [emptyQueue, drainQueue_eq, List.isEmpty_iff]
    by_cases hb : q.firstBatch b.isOpen = []
    · simpa only [hb, if_true] using Queue.drained_of_firstBatch_eq_nil hb
    · simp only [hb, if_false]
      have := Queue.drained_length_lt hb
      exact ih _ (by omega)

/-- Emptying the named queues takes batches out of each of them and leaves nothing there. -/
lemma emptyQueues_spec (names : List String) (b : Batcher) :
    (emptyQueues names b).2 = { b with queues := (emptyQueues names b).2.queues } ∧
    ∀ model, match b.queues.find? model with
      | none => (emptyQueues names b).2.queues.find? model = none ∧
          (emptyQueues names b).1.filter (·.1 == model) = []
      | some q => ∃ q', (emptyQueues names b).2.queues.find? model = some q' ∧
          Taken b.isOpen q (((emptyQueues names b).1.filter (·.1 == model)).map (·.2)) q' ∧
          (model ∈ names ∨ q.waiting = [] → q'.waiting = []) := by
  induction names generalizing b with
  | nil =>
    refine ⟨rfl, fun model => ?_⟩
    cases hq : b.queues.find? model with
    | none => exact ⟨hq, rfl⟩
    | some q => exact ⟨q, hq, .refl, by simp⟩
  | cons name names ih =>
    simp only [emptyQueues]
    cases hn : b.queues.find? name with
    | none =>
      obtain ⟨hframe, hmodels⟩ := ih b
      refine ⟨hframe, fun model => ?_⟩
      have hm := hmodels model
      cases hq : b.queues.find? model with
      | none => simpa only [hq] using hm
      | some q =>
        simp only [hq] at hm ⊢
        obtain ⟨q', hq', ht, he⟩ := hm
        refine ⟨q', hq', ht, fun h => he (h.imp_left fun h => ?_)⟩
        rcases List.mem_cons.1 h with rfl | h
        · simp [hq] at hn
        · exact h
    | some q =>
      obtain ⟨hframe, hmodels⟩ := ih
        (b.setQueue name (b.emptyQueue (q.cancelTimer.pending + 1) q.cancelTimer).2)
      refine ⟨hframe, fun model => ?_⟩
      have hm := hmodels model
      simp only [find?_setQueue, isOpen_setQueue] at hm
      by_cases hname : model = name
      · subst hname
        have ht₁ := taken_emptyQueue b (q.cancelTimer.pending + 1) q.cancelTimer
        have he₁ := emptyQueue_waiting b (q.cancelTimer.pending + 1) q.cancelTimer (Nat.lt_succ_self _)
        simp only [if_true] at hm
        obtain ⟨q', hq', ht, he⟩ := hm
        rw [hn]
        refine ⟨q', hq', ?_, fun _ => he (Or.inr he₁)⟩
        simpa [List.filter_append, List.filter_map, Function.comp_def] using (Taken.time _ _ ht₁).trans ht
      · have hname' : (name == model) = false := by simpa using Ne.symm hname
        simp only [if_neg hname] at hm
        cases hq : b.queues.find? model with
        | none =>
          simp only [hq] at hm
          refine ⟨hm.1, ?_⟩
          simpa [List.filter_append, List.filter_map, Function.comp_def, hname'] using hm.2
        | some u =>
          simp only [hq] at hm
          obtain ⟨q', hq', ht, he⟩ := hm
          refine ⟨q', hq', ?_, fun h => he (h.imp_left fun h => ?_)⟩
          · simpa [List.filter_append, List.filter_map, Function.comp_def, hname'] using ht
          · exact (List.mem_cons.1 h).resolve_left hname

lemma isShutDown_shutDown (b : Batcher) (now : Instant) : (b.shutDown now).2.isShutDown = true := by
  rw [shutDown]
  split
  · assumption
  · have hf := (emptyQueues_spec b.queues.names { b with isShutDown := true }).1
    simp only [sendLast_eq]
    rw [hf]

def callersAfter (b : Batcher) (answers : List Delivery) : List Nat :=
  b.callers.filter fun t => !answers.any (·.ticket == t)

def counted (b : Batcher) (now : Instant) (batch : Sent) (answers : List Delivery) (q : Queue) : Queue :=
  let good := answers.countP fun d => d.result.isOk
  { q with
    counts := { q.counts with
      batches := q.counts.batches + 1
      completed := q.counts.completed + good
      failed := q.counts.failed + (answers.length - good)
      orphaned := q.counts.orphaned + (batch.requests.length - answers.length) }
    dispatched := q.dispatched + batch.requests.length
    recent := remember b.config.adaptive.window q.recent batch.requests.length (now - batch.started) }

lemma complete_eq {b : Batcher} {number : Nat} {batch : Sent} (now : Instant)
    (results : List (Except Error Json)) (h : b.inFlight.find? (·.number == number) = some batch)
    (hl : results.length = batch.requests.length) :
    b.complete now number results =
      (b.deliveries (batch.requests.zip results),
        { b with
          inFlight := b.inFlight.filter (·.number != number)
          callers := b.callersAfter (b.deliveries (batch.requests.zip results))
          queues := b.queues.modify batch.model
            (b.counted now batch (b.deliveries (batch.requests.zip results))) }) := by
  simp only [complete, takeSent, h, Option.map_some, List.length_zip, hl, Nat.min_self]
  rfl

lemma breakOff_eq {b : Batcher} {number : Nat} {batch : Sent}
    (h : b.inFlight.find? (·.number == number) = some batch) :
    b.breakOff number =
      (b.deliveries (batch.requests.map fun r => (r, .error (droppedError r.request))),
        { b with
          inFlight := b.inFlight.filter (·.number != number)
          callers := b.callersAfter
            (b.deliveries (batch.requests.map fun r => (r, .error (droppedError r.request)))) }) := by
  simp only [breakOff, takeSent, h, Option.map_some]
  rfl

lemma map_ticket_deliveries (b : Batcher) (l : List (Queued × Except Error Json)) :
    (b.deliveries l).map (·.ticket) = (live b.isOpen (l.map (·.1))).map (·.ticket) := by
  simp [deliveries, live, List.filter_map, Function.comp_def]

lemma isOpen_iff {b : Batcher} {t : Nat} : b.isOpen t = true ↔ t ∈ b.callers := by
  simp [isOpen]

end Batcher

end Serving
