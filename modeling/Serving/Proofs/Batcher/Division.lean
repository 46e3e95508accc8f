import Serving.Proofs.Batcher.Order
import Serving.Proofs.Numbered

/-! Three divisions hold all along: of the requests into those that wait, went out or dropped out, of the
batches into those on their way and those whose run is over, and of the callers into those who wait, gave up
or have their answer. -/

namespace Serving.Batcher.History

open Batch

variable {s s' : History} {new : List Sent}

def accepted (s : History) (model : String) : List Queued :=
  (s.arrivals.map (·.request)).filter (·.request.model == model)

def endedOf (s : History) (model : String) : List Finish := s.ended.filter (·.batch.model == model)

def answered (s : History) : List Nat := (s.ended ++ s.broken).flatMap fun f => f.answers.map (·.ticket)

namespace Ordered

lemma nodup_accepted (h : Ordered s) (model : String) : (tickets (s.accepted model)).Nodup := by
  have hs : (tickets (s.accepted model)).Sublist (s.arrivals.map (·.request.ticket)) := by
    have hm : s.arrivals.map (·.request.ticket) = tickets (s.arrivals.map (·.request)) := by
      rw [tickets, List.map_map]
      rfl
    rw [hm]
    exact List.filter_sublist.map _
  exact h.nodup_arrivals.sublist hs

end Ordered

/-- What the counters of a queue stand for. `dropped` requests dropped out of it as orphans. -/
structure Tally (accepted : List Queued) (ended : List Finish) (dropped : Nat) (c : Counts) : Prop where
  submitted : c.submitted = accepted.length
  completed : c.completed = (ended.flatMap (·.answers)).countP (·.result.isOk)
  failed : c.failed = (ended.flatMap (·.answers)).countP (!·.result.isOk)
  orphaned : c.orphaned + (ended.flatMap (·.answers)).length =
    dropped + (ended.flatMap fun f => f.batch.requests).length

lemma Tally.counted {accepted : List Queued} {ended : List Finish} {dropped : Nat} {q : Queue}
    (h : Tally accepted ended dropped q.counts) (b : Batcher) (now : Instant) (f : Finish)
    (hf : f.answers.length ≤ f.batch.requests.length) :
    Tally accepted (ended ++ [f]) dropped (b.counted now f.batch f.answers q).counts where
  submitted := h.submitted
  completed := by
    rw [List.flatMap_append, List.flatMap_singleton, List.countP_append, ← h.completed]
    rfl
  failed := by
    have hl := List.length_eq_countP_add_countP (fun d : Delivery => d.result.isOk) (l := f.answers)
    have hn : f.answers.length - f.answers.countP (·.result.isOk) =
        f.answers.countP (!·.result.isOk) := by
      simp only [Bool.not_eq_true, Bool.decide_eq_false] at hl
      omega
    rw [List.flatMap_append, List.flatMap_singleton, List.countP_append, ← h.failed, ← hn]
    rfl
  orphaned := by
    have ho := h.orphaned
    have hc : (b.counted now f.batch f.answers q).counts.orphaned =
        q.counts.orphaned + (f.batch.requests.length - f.answers.length) := rfl
    simp only [List.flatMap_append, List.flatMap_singleton, List.length_append, hc]
    omega

structure Divided (s : History) : Prop where
  ordered : Ordered s
  requests : ∀ model, ∃ dropped, (s.accepted model).Perm
      (s.waiting model ++ (batchesOf model s.sent).flatten ++ dropped) ∧
    (∀ r ∈ dropped, r.ticket ∈ s.gaveUp) ∧
    ∀ q, s.queue? model = some q → Tally (s.accepted model) (s.endedOf model) dropped.length q.counts
  batches : s.sent.Perm (s.batcher.inFlight ++ (s.ended ++ s.broken).map (·.batch))
  callers : (s.arrivals.map (·.request.ticket)).Perm (s.batcher.callers ++ s.gaveUp ++ s.answered)
  shares : ∀ f ∈ s.ended ++ s.broken, ∃ abandoned,
    (tickets f.batch.requests).Perm (f.answers.map (·.ticket) ++ abandoned) ∧
    ∀ t ∈ abandoned, t ∈ s.gaveUp
  numbers : (s.batcher.inFlight.map (·.number)).Sublist (List.range s.batcher.nextBatch)

lemma accepted_accept (r : Request) (q : Queue) (model : String) :
    (s.accept r q).accepted model =
      s.accepted model ++ if model = r.model then [⟨s.batcher.nextTicket, r⟩] else [] := by
  have ha : (s.accept r q).arrivals.map (·.request) =
      s.arrivals.map (·.request) ++ [⟨s.batcher.nextTicket, r⟩] := List.map_append
  rw [accepted, ha, List.filter_append]
  by_cases hm : model = r.model
  · simp [accepted, hm]
  · simp [accepted, hm, Ne.symm hm]

namespace Divided

lemma start (config : Batch.Config) : Divided (start config) where
  ordered := .start config
  requests model := by
    refine ⟨[], ?_, fun r hr => absurd hr List.not_mem_nil, fun q hq => ?_⟩
    · rw [waiting_start]
      exact .refl _
    · obtain ⟨m, rfl⟩ := eq_of_queue?_start hq
      exact ⟨rfl, rfl, rfl, rfl⟩
  batches := .refl _
  callers := .refl _
  shares f hf := absurd hf List.not_mem_nil
  numbers := .refl _

lemma mem_sent (h : Divided s) {f : Finish} (hf : f ∈ s.ended ++ s.broken) : f.batch ∈ s.sent :=
  h.batches.mem_iff.2 (List.mem_append_right _ (List.mem_map.2 ⟨f, hf, rfl⟩))

lemma mem_of_answered (h : Divided s) {t : Nat} (ht : t ∈ s.answered) :
    ∃ f ∈ s.ended ++ s.broken, t ∈ tickets f.batch.requests := by
  obtain ⟨f, hf, htf⟩ := List.mem_flatMap.1 ht
  obtain ⟨abandoned, hp, _⟩ := h.shares f hf
  exact ⟨f, hf, hp.mem_iff.2 (List.mem_append_left _ htf)⟩

lemma gaveUp_of_closed (h : Divided s) {r : Queued} (hr : r ∈ s.arrivals.map (·.request))
    (hc : s.batcher.isOpen r.ticket = false) (ha : r.ticket ∉ s.answered) : r.ticket ∈ s.gaveUp := by
  obtain ⟨a, ha', rfl⟩ := List.mem_map.1 hr
  have hm := h.callers.mem_iff.1 (List.mem_map.2 ⟨a, ha', rfl⟩)
  rcases List.mem_append.1 hm with hm | hm
  · rcases List.mem_append.1 hm with hm | hm
    · rw [isOpen_iff.2 hm] at hc
      cases hc
    · exact hm
  · exact absurd hm ha

lemma nodup_places (h : Divided s) {model : String} {dropped : List Queued}
    (hp : (s.accepted model).Perm (s.waiting model ++ (batchesOf model s.sent).flatten ++ dropped)) :
    (s.waiting model ++ (batchesOf model s.sent).flatten ++ dropped).Nodup :=
  hp.nodup_iff.1 (List.Nodup.of_map _ (h.ordered.nodup_accepted model))

lemma mem_accepted_of_waiting (h : Divided s) {model : String} {r : Queued} (hr : r ∈ s.waiting model) :
    r ∈ s.accepted model := by
  obtain ⟨dropped, hp, _⟩ := h.requests model
  exact hp.mem_iff.2 (List.mem_append_left _ (List.mem_append_left _ hr))

/-- A request that waits is in no batch. -/
lemma waiting_unsent (h : Divided s) {model : String} {r : Queued} (hr : r ∈ s.waiting model) {batch : Sent}
    (hb : batch ∈ s.sent) : r.ticket ∉ tickets batch.requests := by
  obtain ⟨hra, hrm⟩ := List.mem_filter.1 (h.mem_accepted_of_waiting hr)
  intro ht
  obtain ⟨y, hy, hyt⟩ := List.mem_map.1 ht
  obtain rfl := h.ordered.eq_of_ticket (h.ordered.mem_arrivals hb hy) hra hyt
  have hm : batch.model = model := by
    rw [← h.ordered.model_of_mem hb hy]
    exact beq_iff_eq.1 hrm
  have hout : y ∈ (batchesOf model s.sent).flatten :=
    List.mem_flatten.2 ⟨batch.requests, hm ▸ mem_batchesOf hb, hy⟩
  obtain ⟨dropped, hp, _⟩ := h.requests model
  exact List.disjoint_of_nodup_append (h.nodup_places hp).of_append_left hr hout

lemma waiting_unanswered (h : Divided s) {model : String} {r : Queued} (hr : r ∈ s.waiting model) :
    r ∈ s.arrivals.map (·.request) ∧ r.ticket ∉ s.answered := by
  refine ⟨(List.mem_filter.1 (h.mem_accepted_of_waiting hr)).1, fun ha => ?_⟩
  obtain ⟨f, hf, ht⟩ := h.mem_of_answered ha
  exact h.waiting_unsent hr (h.mem_sent hf) ht

lemma inFlight_unanswered (h : Divided s) {batch : Sent} (hb : batch ∈ s.batcher.inFlight) {r : Queued}
    (hr : r ∈ batch.requests) : r ∈ s.arrivals.map (·.request) ∧ r.ticket ∉ s.answered := by
  have hs : batch ∈ s.sent := h.batches.mem_iff.2 (List.mem_append_left _ hb)
  refine ⟨h.ordered.mem_arrivals hs hr, fun ha => ?_⟩
  obtain ⟨f, hf, ht⟩ := h.mem_of_answered ha
  have hn := (h.batches.flatMap_right fun b => tickets b.requests).nodup_iff.1 h.ordered.nodup_sent
  rw [List.flatMap_append] at hn
  refine List.disjoint_of_nodup_append hn
    (List.mem_flatMap.2 ⟨batch, hb, List.mem_map.2 ⟨r, hr, rfl⟩⟩)
    (List.mem_flatMap.2 ⟨f.batch, List.mem_map.2 ⟨f, hf, rfl⟩, ht⟩)

lemma accept (h : Divided s) {r : Request} {q : Queue} (hq : s.queue? r.model = some q) :
    Divided (s.accept r q) where
  ordered := h.ordered.accept hq
  requests model := by
    obtain ⟨dropped, hp, hg, ht⟩ := h.requests model
    refine ⟨dropped, ?_, hg, fun u hu => ?_⟩
    · rw [accepted_accept, waiting_accept hq]
      have hs : (s.accept r q).sent = s.sent := rfl
      rw [hs]
      refine (hp.append_right _).trans ?_
      simp only [List.append_assoc]
      rw [← List.append_assoc _ dropped]
      exact List.perm_append_comm.append_left _
    · have hof : (s.accept r q).endedOf model = s.endedOf model := rfl
      rw [queue?_accept] at hu
      rw [accepted_accept, hof]
      by_cases hm : model = r.model
      · rw [if_pos hm] at hu ⊢
        obtain rfl := Option.some.inj hu
        obtain ⟨hsub, hcom, hfail, horp⟩ := ht q (hm ▸ hq)
        rw [Queue.counts_accept]
        refine ⟨?_, hcom, hfail, horp⟩
        rw [List.length_append, ← hsub]
        rfl
      · rw [if_neg hm] at hu ⊢
        rw [List.append_nil]
        exact ht u hu
  batches := h.batches
  callers := by
    have ha : (s.accept r q).arrivals.map (·.request.ticket) =
        s.arrivals.map (·.request.ticket) ++ [s.batcher.nextTicket] := List.map_append
    rw [ha]
    exact (List.perm_append_singleton ..).trans (h.callers.cons _)
  shares := h.shares
  numbers := h.numbers

lemma dispatched (h : Divided s) (hd : Dispatched (Taken s.batcher.isOpen) s new s') : Divided s' := by
  have hended : s'.ended = s.ended := hd.keeps History.ended fun _ => rfl
  have hbroken : s'.broken = s.broken := hd.keeps History.broken fun _ => rfl
  have hgaveUp : s'.gaveUp = s.gaveUp := hd.keeps History.gaveUp fun _ => rfl
  have hanswered : s'.answered = s.answered := hd.keeps answered fun _ => rfl
  have hcallers : s'.batcher.callers = s.batcher.callers := hd.keeps (·.batcher.callers) fun _ => rfl
  have haccepted (model : String) : s'.accepted model = s.accepted model :=
    hd.keeps (·.accepted model) fun _ => rfl
  refine
    { ordered := h.ordered.dispatched hd
      requests := fun model => ?_
      batches := ?_
      callers := ?_
      shares := ?_
      numbers := ?_ }
  · obtain ⟨dropped, hp, hg, ht⟩ := h.requests model
    rw [haccepted, hgaveUp, hd.sent, batchesOf_append, List.flatten_append]
    cases hq : s.queue? model with
    | none =>
      obtain ⟨hq', hl⟩ := hd.absent model hq
      have hw : s'.waiting model = s.waiting model := by rw [waiting, waiting, hq, hq']
      refine ⟨dropped, ?_, hg, fun u hu => ?_⟩
      · rw [hl, List.flatten_nil, List.append_nil, hw]
        exact hp
      · rw [hq'] at hu
        cases hu
    | some q =>
      obtain ⟨q', hq', htaken⟩ := hd.queue model q hq
      obtain ⟨orphans, hperm, hclosed, hcounts⟩ := htaken.perm
      have hw := waiting_of_queue? hq
      refine ⟨dropped ++ orphans, ?_, List.forall_mem_append.2 ⟨hg, fun r hr => ?_⟩, fun u hu => ?_⟩
      · rw [waiting_of_queue? hq']
        rw [hw] at hp
        refine hp.trans (((hperm.append_right _).append_right _).trans ?_)
        classical
        refine List.perm_iff_count.2 fun r => ?_
        simp only [List.count_append]
        omega
      · have hr' : r ∈ s.waiting model := by
          rw [hw, hperm.mem_iff]
          exact List.mem_append_left _ (List.mem_append_right _ hr)
        obtain ⟨ha, hn⟩ := h.waiting_unanswered hr'
        exact h.gaveUp_of_closed ha (hclosed r hr) hn
      · obtain rfl : q' = u := Option.some.inj (hq'.symm.trans hu)
        obtain ⟨hsub, hcom, hfail, horp⟩ := ht q hq
        have hof : s'.endedOf model = s.endedOf model := hd.keeps (·.endedOf model) fun _ => rfl
        rw [hcounts, hof, List.length_append]
        refine ⟨hsub, hcom, hfail, ?_⟩
        rw [Nat.add_right_comm, horp, Nat.add_right_comm]
  · rw [hd.sent, hd.inFlight, hended, hbroken, List.append_assoc]
    exact (h.batches.append_right new).trans (by
      rw [List.append_assoc]
      exact List.perm_append_comm.append_left _)
  · rw [hd.arrivals, hcallers, hgaveUp, hanswered]
    exact h.callers
  · rw [hended, hbroken, hgaveUp]
    exact h.shares
  · rw [hd.inFlight, List.map_append, hd.numbers, hd.nextBatch, List.range_eq_range',
      ← List.range'_append_1, Nat.zero_add, ← List.range_eq_range']
    exact h.numbers.append_right _

lemma nodup_callers (h : Divided s) : (s.batcher.callers ++ s.gaveUp ++ s.answered).Nodup :=
  h.callers.nodup_iff.1 h.ordered.nodup_arrivals

section Finish

variable {batch : Sent} {answers : List Delivery}

lemma inFlight_perm (h : Divided s) (hb : batch ∈ s.batcher.inFlight) :
    s.batcher.inFlight.Perm (batch :: s.batcher.inFlight.filter (·.number != batch.number)) :=
  Numbered.perm_of_mem (List.nodup_range.sublist h.numbers) hb

lemma share (h : Divided s) (hb : batch ∈ s.batcher.inFlight)
    (ha : answers.map (·.ticket) = tickets (live s.batcher.isOpen batch.requests)) :
    ∃ abandoned, (tickets batch.requests).Perm (answers.map (·.ticket) ++ abandoned) ∧
      ∀ t ∈ abandoned, t ∈ s.gaveUp := by
  refine ⟨tickets (batch.requests.filter fun r => !s.batcher.isOpen r.ticket), ?_, fun t ht => ?_⟩
  · rw [ha, tickets, tickets, tickets, ← List.map_append]
    exact (List.filter_append_perm _ _).symm.map _
  · obtain ⟨r, hr, rfl⟩ := List.mem_map.1 ht
    obtain ⟨hr, hc⟩ := List.mem_filter.1 hr
    obtain ⟨harr, hn⟩ := h.inFlight_unanswered hb hr
    exact h.gaveUp_of_closed harr (by simpa using hc) hn

lemma callers_perm (h : Divided s) (hb : batch ∈ s.batcher.inFlight)
    (ha : answers.map (·.ticket) = tickets (live s.batcher.isOpen batch.requests)) :
    s.batcher.callers.Perm (answers.map (·.ticket) ++ s.batcher.callersAfter answers) := by
  have hs : batch ∈ s.sent := h.batches.mem_iff.2 (List.mem_append_left _ hb)
  have hc : s.batcher.callers.Nodup := h.nodup_callers.of_append_left.of_append_left
  have hn : (answers.map (·.ticket)).Nodup := by
    rw [ha]
    exact ((List.pairwise_flatMap.1 h.ordered.nodup_sent).1 batch hs).sublist (List.filter_sublist.map _)
  have hsub (t : Nat) (ht : t ∈ answers.map (·.ticket)) : t ∈ s.batcher.callers := by
    rw [ha] at ht
    obtain ⟨r, hr, rfl⟩ := List.mem_map.1 ht
    exact isOpen_iff.1 (List.mem_filter.1 hr).2
  have hmem (t : Nat) : t ∈ s.batcher.callersAfter answers ↔
      t ∈ s.batcher.callers ∧ t ∉ answers.map (·.ticket) := by
    simp [callersAfter]
  have happ : (answers.map (·.ticket) ++ s.batcher.callersAfter answers).Nodup := by
    refine List.nodup_append'.2 ⟨hn, hc.filter _, fun t ht ht' => ((hmem t).1 ht').2 ht⟩
  refine (List.perm_ext_iff_of_nodup hc happ).2 fun t => ?_
  rw [List.mem_append, hmem]
  constructor
  · intro ht
    by_cases hm : t ∈ answers.map (·.ticket)
    · exact Or.inl hm
    · exact Or.inr ⟨ht, hm⟩
  · rintro (ht | ⟨ht, _⟩)
    · exact hsub t ht
    · exact ht

lemma batches_perm (h : Divided s) (hb : batch ∈ s.batcher.inFlight) {finished : List Finish} {f : Finish}
    (hf : f.batch = batch) (ho : finished.Perm (f :: (s.ended ++ s.broken))) :
    s.sent.Perm (s.batcher.inFlight.filter (·.number != batch.number) ++ finished.map (·.batch)) := by
  refine h.batches.trans (((h.inFlight_perm hb).append_right _).trans ?_)
  refine .trans ?_ ((ho.map _).symm.append_left _)
  rw [List.map_cons, hf, List.cons_append]
  exact List.perm_middle.symm

lemma answered_perm (h : Divided s) (hb : batch ∈ s.batcher.inFlight)
    (ha : answers.map (·.ticket) = tickets (live s.batcher.isOpen batch.requests)) {finished : List Finish}
    {f : Finish} (hf : f.answers = answers) (ho : finished.Perm (f :: (s.ended ++ s.broken))) :
    (s.arrivals.map (·.request.ticket)).Perm (s.batcher.callersAfter answers ++ s.gaveUp ++
      finished.flatMap fun f => f.answers.map (·.ticket)) := by
  refine h.callers.trans ((((h.callers_perm hb ha).append_right _).append_right _).trans ?_)
  refine .trans ?_ ((ho.flatMap_right _).symm.append_left _)
  rw [List.flatMap_cons, hf]
  refine List.perm_iff_count.2 fun t => ?_
  simp only [List.count_append, answered]
  omega

lemma shares_over (h : Divided s) (hb : batch ∈ s.batcher.inFlight)
    (ha : answers.map (·.ticket) = tickets (live s.batcher.isOpen batch.requests)) {finished : List Finish}
    {f : Finish} (hfb : f.batch = batch) (hfa : f.answers = answers)
    (ho : finished.Perm (f :: (s.ended ++ s.broken))) : ∀ g ∈ finished, ∃ abandoned,
      (tickets g.batch.requests).Perm (g.answers.map (·.ticket) ++ abandoned) ∧
      ∀ t ∈ abandoned, t ∈ s.gaveUp := by
  intro g hg
  rcases List.mem_cons.1 (ho.mem_iff.1 hg) with rfl | hg
  · rw [hfb, hfa]
    exact h.share hb ha
  · exact h.shares g hg

lemma broken (h : Divided s) {ending : Ending} (hr : batch.results ending = none)
    (hb : s.batcher.inFlight.find? (·.number == batch.number) = some batch) :
    Divided (s.finish batch ending) := by
  have hmem := List.mem_of_find?_eq_some hb
  have hstill := still_finish ending hb
  have hordered := h.ordered.still hstill
  rw [finish_of_broken hr hb] at hstill hordered ⊢
  have ha : (s.batcher.deliveries (batch.requests.map fun r =>
      (r, .error (droppedError r.request)))).map (·.ticket) =
        tickets (live s.batcher.isOpen batch.requests) := by
    rw [map_ticket_deliveries, List.map_map]
    simp [tickets, Function.comp_def]
  have ho (f : Finish) : (s.ended ++ (s.broken ++ [f])).Perm (f :: (s.ended ++ s.broken)) := by
    rw [← List.append_assoc]
    exact List.perm_append_singleton ..
  exact
    { ordered := hordered
      requests := h.requests
      batches := h.batches_perm hmem rfl (ho _)
      callers := h.answered_perm hmem ha rfl (ho _)
      shares := h.shares_over hmem ha rfl rfl (ho _)
      numbers := (List.filter_sublist.map _).trans h.numbers }

lemma ended (h : Divided s) {ending : Ending} {results : List (Except Error Json)}
    (hr : batch.results ending = some results)
    (hb : s.batcher.inFlight.find? (·.number == batch.number) = some batch) :
    Divided (s.finish batch ending) := by
  have hmem := List.mem_of_find?_eq_some hb
  have hstill := still_finish ending hb
  have hordered := h.ordered.still hstill
  have hwaiting := hstill.waiting
  rw [finish_of_results hr hb] at hordered hwaiting ⊢
  have ha : (s.batcher.deliveries (batch.requests.zip results)).map (·.ticket) =
      tickets (live s.batcher.isOpen batch.requests) := by
    rw [map_ticket_deliveries, List.map_fst_zip (Nat.le_of_eq (Sent.length_results hr).symm)]
    rfl
  have ho (f : Finish) : (s.ended ++ [f] ++ s.broken).Perm (f :: (s.ended ++ s.broken)) := by
    rw [List.append_assoc]
    exact List.perm_middle
  refine
    { ordered := hordered
      requests := fun model => ?_
      batches := h.batches_perm hmem rfl (ho _)
      callers := h.answered_perm hmem ha rfl (ho _)
      shares := h.shares_over hmem ha rfl rfl (ho _)
      numbers := (List.filter_sublist.map _).trans h.numbers }
  obtain ⟨dropped, hp, hg, ht⟩ := h.requests model
  refine ⟨dropped, ?_, hg, fun u hu => ?_⟩
  · rw [hwaiting]
    exact hp
  · have hq := (Table.find?_modify ..).symm.trans hu
    by_cases hm : model = batch.model
    · rw [if_pos hm] at hq
      obtain ⟨q, hq', rfl⟩ := Option.map_eq_some_iff.1 hq
      rw [endedOf, List.filter_append, List.filter_cons_of_pos (by simpa using hm.symm), List.filter_nil]
      refine (ht q (hm ▸ hq')).counted s.batcher s.now
        ⟨batch, ending, s.batcher.deliveries (batch.requests.zip results)⟩ ?_
      obtain ⟨abandoned, hshare, _⟩ := h.share hmem ha
      have hlen := hshare.length_eq
      simp only [tickets, List.length_map, List.length_append] at hlen
      exact Nat.le.intro hlen.symm
    · rw [if_neg hm] at hq
      rw [endedOf, List.filter_append, List.filter_cons_of_neg (by simpa using Ne.symm hm), List.filter_nil,
        List.append_nil]
      exact ht u hq

end Finish

lemma giveUp (h : Divided s) {a : Arrival} (ho : s.batcher.isOpen a.request.ticket = true) :
    Divided (s.giveUp a.request) := by
  have hstill := still_giveUp ho
  have hordered := h.ordered.still hstill
  have hwaiting := hstill.waiting
  rw [giveUp_of_isOpen ho] at hordered hwaiting ⊢
  refine
    { ordered := hordered
      requests := fun model => ?_
      batches := h.batches
      callers := ?_
      shares := fun f hf => ?_
      numbers := h.numbers }
  · obtain ⟨dropped, hp, hg, ht⟩ := h.requests model
    refine ⟨dropped, ?_, fun r hr => List.mem_append_left _ (hg r hr), fun u hu => ?_⟩
    · rw [hwaiting]
      exact hp
    · have hq := (Table.find?_modify ..).symm.trans hu
      by_cases hm : model = a.request.request.model
      · rw [if_pos hm] at hq
        obtain ⟨q, hq', rfl⟩ := Option.map_eq_some_iff.1 hq
        obtain ⟨hsub, hcom, hfail, horp⟩ := ht q (hm ▸ hq')
        exact ⟨hsub, hcom, hfail, horp⟩
      · rw [if_neg hm] at hq
        exact ht u hq
  · have ht := List.perm_cons_erase (isOpen_iff.1 ho)
    have hc : s.batcher.callers.Nodup := h.nodup_callers.of_append_left.of_append_left
    rw [hc.erase_eq_filter] at ht
    refine h.callers.trans (((ht.append_right _).append_right _).trans ?_)
    refine List.perm_iff_count.2 fun t => ?_
    simp only [List.count_append, List.count_cons, List.count_nil, answered]
    omega
  · obtain ⟨abandoned, hp, hg⟩ := h.shares f hf
    exact ⟨abandoned, hp, fun t ht => List.mem_append_left _ (hg t ht)⟩

lemma move (hm : Move s s') (h : Divided s) : Divided s' := by
  rcases hm.effect with ⟨r, q, _, hq, rfl⟩ | ⟨new, hd⟩ | ⟨batch, ending, hb, rfl⟩ | ⟨a, _, ho, rfl⟩ |
    ⟨d, rfl⟩
  · exact h.accept hq
  · exact h.dispatched hd
  · cases hr : batch.results ending with
    | none => exact h.broken hr hb
    | some results => exact h.ended hr hb
  · exact h.giveUp ho
  · exact ⟨h.ordered.still (.passes s d), h.requests, h.batches, h.callers, h.shares, h.numbers⟩

theorem run (config : Batch.Config) (events : List Event) : Divided (run config events) :=
  run_induction (start config) (fun _ _ => move) events

end Divided

end Serving.Batcher.History
