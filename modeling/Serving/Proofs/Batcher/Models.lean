import Serving.Proofs.Batcher.Operations

/-! A batcher keeps one queue for each of its models, whatever is done to it, and the batches that it sends out are for
these models only. -/

namespace Serving.Batcher

open Batch

variable {b : Batcher} {models : Table Model} {name : String} {q q' : Queue}

/-- There is a queue for each of some models, and no other. -/
def Serves (b : Batcher) (models : Table Model) : Prop :=
  ∀ name, (b.queues.find? name).map (·.model) = models.find? name

/-- An operation leaves the models their queues, and sends out what is for one of them. -/
structure Yields (models : Table Model) (outcome : List Effect × Batcher) : Prop where
  serves : outcome.2.Serves models
  batches : ∀ batch ∈ batchesIn outcome.1, ∃ m, models.find? batch.model = some m

lemma serves_new (config : Batch.Config) : (new config).Serves config.models := by
  intro name
  rw [new, Table.find?_map, Option.map_map]
  exact Option.map_id'

namespace Serves

lemma find?_model (h : b.Serves models) (hq : b.queues.find? name = some q) : models.find? name = some q.model := by
  rw [← h name, hq, Option.map_some]

lemma setQueue (h : b.Serves models) (hq : b.queues.find? name = some q) (hm : q'.model = q.model) :
    (b.setQueue name q').Serves models := by
  intro other
  rw [find?_setQueue]
  split
  · subst_vars
    rw [h.find?_model hq, Option.map_some, hm]
  · exact h other

lemma modify (h : b.Serves models) (name : String) {f : Queue → Queue} (hf : ∀ q, (f q).model = q.model) :
    { b with queues := b.queues.modify name f }.Serves models := by
  intro other
  rw [← h other, Table.find?_modify]
  split
  · subst_vars
    rw [Option.map_map]
    exact congrArg (Option.map · _) (funext hf)
  · rfl

lemma yields_nil (h : b.Serves models) : Yields models ([], b) := ⟨h, fun _ hbatch => nomatch hbatch⟩

end Serves

lemma mem_numbered {now : Instant} {n : Nat} {l : List (String × Reason × List Queued)} {batch : Sent}
    (h : batch ∈ numbered now n l) : ∃ e ∈ l, e.1 = batch.model := by
  have hmem : (batch.model, batch.requests) ∈ (numbered now n l).map fun b => (b.model, b.requests) :=
    List.mem_map.2 ⟨batch, h, rfl⟩
  rw [map_requests_numbered] at hmem
  obtain ⟨e, he, heq⟩ := List.mem_map.1 hmem
  exact ⟨e, he, (Prod.mk.inj heq).1⟩

lemma yields_flushQueue (h : b.Serves models) (hq : b.queues.find? name = some q) (now : Instant) :
    Yields models (b.flushQueue now name q) := by
  rw [flushQueue_eq]
  refine ⟨h.setQueue hq (taken_flushed b now q).model, fun batch hbatch => ?_⟩
  rw [batchesIn_append, batchesIn_timerSet, batchesIn_batchSent, List.nil_append] at hbatch
  obtain ⟨e, he, heq⟩ := mem_numbered hbatch
  obtain ⟨ready, -, rfl⟩ := List.mem_map.1 he
  exact ⟨q.model, heq ▸ h.find?_model hq⟩

lemma yields_submit (h : b.Serves models) (now : Instant) (r : Request) :
    (b.submit now r).2.Serves models ∧
      ∀ accepted, (b.submit now r).1 = .ok accepted → Yields models (accepted.effects, (b.submit now r).2) := by
  cases hr : (b.submit now r).1 with
  | error e =>
    rw [(submit_error hr).1]
    exact ⟨h, fun _ hok => nomatch hok⟩
  | ok accepted =>
    suffices hyields : Yields models (accepted.effects, (b.submit now r).2) by
      refine ⟨hyields.serves, ?_⟩
      rintro _ ⟨⟩
      exact hyields
    -- only a batcher that is open and has a queue for the request accepts it
    cases ho : b.isShutDown with
    | true => simp [submit, ho] at hr
    | false =>
      cases hq : b.queues.find? r.model with
      | none => simp [submit, ho, hq] at hr
      | some q =>
        have henqueued : (b.enqueue now r q).Serves models :=
          Serves.setQueue (b := { b with callers := b.nextTicket :: b.callers, nextTicket := b.nextTicket + 1 }) h hq
            (Queue.model_accept ..)
        have hqueue : (b.enqueue now r q).queues.find? r.model = some (q.accept now ⟨b.nextTicket, r⟩) :=
          (find?_setQueue ..).trans (if_pos rfl)
        have hflush := yields_flushQueue henqueued hqueue now
        rw [submit_eq now ho hq] at hr ⊢
        obtain rfl := Except.ok.inj hr
        refine ⟨hflush.serves, fun batch hbatch => hflush.batches batch ?_⟩
        rwa [batchesIn_append, batchesIn_timerSet, List.nil_append] at hbatch

lemma yields_flushModels (h : b.Serves models) (now : Instant) (names : List String) :
    Yields models (flushModels now names b) := by
  induction names generalizing b with
  | nil => exact h.yields_nil
  | cons name names ih =>
    rw [flushModels]
    cases hq : b.queues.find? name with
    | none => exact ih h
    | some q =>
      have hfirst := yields_flushQueue h hq now
      have hrest := ih hfirst.serves
      refine ⟨hrest.serves, fun batch hbatch => ?_⟩
      rw [batchesIn_append] at hbatch
      exact (List.mem_append.1 hbatch).elim (hfirst.batches batch) (hrest.batches batch)

lemma yields_flush (h : b.Serves models) (now : Instant) : Yields models (b.flush now) := yields_flushModels h now _

lemma yields_timerFires (h : b.Serves models) (now : Instant) (name : String) (generation : Nat) :
    Yields models (b.timerFires now name generation) := by
  by_cases hfires : ∃ q, b.queues.find? name = some q ∧ q.generation = generation
  · obtain ⟨q, hq, rfl⟩ := hfires
    rw [timerFires_eq now hq]
    refine ⟨h.setQueue hq (taken_rung b now q).model, fun batch hbatch => ?_⟩
    rw [batchesIn_append, batchesIn_timerSet, batchesIn_batchSent, List.nil_append, rungBatches] at hbatch
    split at hbatch
    · cases hbatch
    · obtain ⟨e, he, heq⟩ := mem_numbered hbatch
      rw [List.mem_singleton.1 he] at heq
      exact ⟨q.model, heq ▸ h.find?_model hq⟩
  · rw [timerFires_stale now fun q hq hg => hfires ⟨q, hq, hg⟩]
    exact h.yields_nil

lemma serves_giveUp (h : b.Serves models) (ticket : Nat) (name : String) : (b.giveUp ticket name).Serves models := by
  rw [giveUp]
  split
  · exact Serves.modify (b := { b with callers := b.callers.filter (· != ticket) }) h name fun _ => rfl
  · exact h

lemma serves_complete (h : b.Serves models) (now : Instant) (number : Nat) (results : List (Except Error Json)) :
    (b.complete now number results).2.Serves models := by
  rw [complete, takeSent]
  cases b.inFlight.find? (·.number == number) with
  | none => exact h
  | some batch => exact h.modify batch.model fun _ => rfl

lemma serves_breakOff (h : b.Serves models) (number : Nat) : (b.breakOff number).2.Serves models := by
  rw [breakOff, takeSent]
  cases b.inFlight.find? (·.number == number) <;> exact h

lemma yields_shutDown (h : b.Serves models) (now : Instant) : Yields models (b.shutDown now) := by
  rw [shutDown]
  split
  · exact h.yields_nil
  · obtain ⟨hframe, hemptied⟩ := emptyQueues_spec b.queues.names { b with isShutDown := true }
    simp only [sendLast_eq]
    constructor
    · intro name
      have hname := hemptied name
      rw [← h name]
      cases hq : b.queues.find? name with
      | none =>
        simp only [hq] at hname
        exact congrArg (Option.map _) hname.1
      | some q =>
        simp only [hq] at hname
        obtain ⟨q', hq', htaken, -⟩ := hname
        exact (congrArg (Option.map _) hq').trans (congrArg some htaken.model)
    · intro batch hbatch
      rw [batchesIn_batchSent] at hbatch
      obtain ⟨e, he, heq⟩ := mem_numbered hbatch
      obtain ⟨emptied, hmem, rfl⟩ := List.mem_map.1 he
      -- a batch came out of a queue, so its model has one
      have hname := hemptied batch.model
      cases hq : b.queues.find? batch.model with
      | none =>
        simp only [hq] at hname
        have hself : emptied ∈ List.filter (·.1 == batch.model) _ := List.mem_filter.2 ⟨hmem, beq_iff_eq.2 heq⟩
        rw [hname.2] at hself
        cases hself
      | some q => exact ⟨q.model, h.find?_model hq⟩

/-! ### Answers -/

/-- What is delivered are results of the batch. -/
lemma result_mem_complete {now : Instant} {number : Nat} {results : List (Except Error Json)} {d : Delivery}
    (hd : d ∈ (b.complete now number results).1) : d.result ∈ results := by
  rw [complete] at hd
  cases htaken : b.takeSent number with
  | none =>
    rw [htaken] at hd
    cases hd
  | some taken =>
    rw [htaken] at hd
    obtain ⟨⟨r, result⟩, hr, rfl⟩ := List.mem_map.1 hd
    exact (List.of_mem_zip (List.mem_filter.1 hr).1).2

lemma result_of_mem_breakOff {number : Nat} {d : Delivery} (hd : d ∈ (b.breakOff number).1) :
    ∃ r, d.result = .error (droppedError r) := by
  rw [breakOff] at hd
  cases htaken : b.takeSent number with
  | none =>
    rw [htaken] at hd
    cases hd
  | some taken =>
    rw [htaken] at hd
    obtain ⟨pair, hpair, rfl⟩ := List.mem_map.1 hd
    obtain ⟨r, -, rfl⟩ := List.mem_map.1 (List.mem_filter.1 hpair).1
    exact ⟨_, rfl⟩

end Serving.Batcher
