import Mathlib.Data.List.Nodup
import Serving.Proofs.Batcher.Dispatch

/-! The order in which requests leave. A step takes pieces off the front of a queue, the most urgent lane
first, and over a whole run the requests of a lane go out in the order in which they came. -/

namespace Serving.Batcher.History

open Batch

variable {s s' : History}

lemma rel_of_getElem? {α : Type} {R : α → α → Prop} {l : List α} (h : l.Pairwise R) {i j : Nat} {x y : α}
    (hij : i < j) (hx : l[i]? = some x) (hy : l[j]? = some y) : R x y := by
  obtain ⟨hi, rfl⟩ := List.getElem?_eq_some_iff.1 hx
  obtain ⟨hj, rfl⟩ := List.getElem?_eq_some_iff.1 hy
  exact List.pairwise_iff_getElem.1 h i j hi hj hij

def waiting (s : History) (model : String) : List Queued := (s.queue? model).elim [] (·.waiting)

lemma waiting_of_queue? {model : String} {q : Queue} (hq : s.queue? model = some q) :
    s.waiting model = q.waiting := by
  rw [waiting, hq, Option.elim_some]

lemma waiting_start (config : Batch.Config) (model : String) : (start config).waiting model = [] := by
  rw [waiting, queue?_start]
  cases config.models.find? model <;> rfl

lemma waiting_accept {r : Request} {q : Queue} (hq : s.queue? r.model = some q) (model : String) :
    (s.accept r q).waiting model =
      s.waiting model ++ if model = r.model then [⟨s.batcher.nextTicket, r⟩] else [] := by
  rw [waiting, queue?_accept]
  split
  · rename_i h
    subst h
    rw [Option.elim_some, Queue.waiting_accept, waiting_of_queue? hq]
  · rw [List.append_nil, waiting]

lemma Still.waiting (h : Still s s') (model : String) : s'.waiting model = s.waiting model := by
  cases hq : s.queue? model with
  | none => rw [History.waiting, h.absent model hq, History.waiting, hq]
  | some q =>
    obtain ⟨q', hq', ha⟩ := h.queue model q hq
    rw [waiting_of_queue? hq, waiting_of_queue? hq', ha.waiting]

lemma Dispatched.lane_sublist {isOpen : Nat → Bool} {new : List Sent}
    (h : Dispatched (Taken isOpen) s new s') (model : String) (p : Priority) :
    ((batchesOf model new).flatten.filter (·.request.priority == p) ++
      (s'.waiting model).filter (·.request.priority == p)).Sublist
      ((s.waiting model).filter (·.request.priority == p)) := by
  cases hq : s.queue? model with
  | none =>
    obtain ⟨hq', hl⟩ := h.absent model hq
    simp [hl, waiting, hq']
  | some q =>
    obtain ⟨q', hq', ht⟩ := h.queue model q hq
    rw [waiting_of_queue? hq, waiting_of_queue? hq']
    exact ht.lane_sublist p

/-- In each lane, what went out and what waits stand in the order of arrival. -/
structure Ordered (s : History) : Prop where
  serial : s.arrivals.map (·.request.ticket) = List.range s.batcher.nextTicket
  lanes : ∀ model p,
    ((batchesOf model s.sent).flatten.filter (·.request.priority == p) ++
      (s.waiting model).filter (·.request.priority == p)).Sublist
      ((s.arrivals.map (·.request)).filter fun r => r.request.model == model && r.request.priority == p)

namespace Ordered

lemma start (config : Batch.Config) : Ordered (start config) where
  serial := rfl
  lanes model p := by
    rw [waiting_start]
    exact List.nil_sublist _

lemma accept (h : Ordered s) {r : Request} {q : Queue} (hq : s.queue? r.model = some q) :
    Ordered (s.accept r q) where
  serial := by
    have ht : (s.accept r q).arrivals.map (·.request.ticket) =
        s.arrivals.map (·.request.ticket) ++ [s.batcher.nextTicket] := List.map_append
    rw [ht, h.serial]
    exact List.range_succ.symm
  lanes model p := by
    have hs : (s.accept r q).sent = s.sent := rfl
    have ha : (s.accept r q).arrivals.map (·.request) =
        s.arrivals.map (·.request) ++ [⟨s.batcher.nextTicket, r⟩] := List.map_append
    rw [hs, ha, waiting_accept hq, List.filter_append, List.filter_append, ← List.append_assoc]
    refine (h.lanes model p).append ?_
    by_cases hm : model = r.model
    · subst hm
      have he : [(⟨s.batcher.nextTicket, r⟩ : Queued)].filter
            (fun u => u.request.model == r.model && u.request.priority == p) =
          [⟨s.batcher.nextTicket, r⟩].filter (·.request.priority == p) := List.filter_congr (by simp)
      rw [if_pos rfl, he]
    · simp [hm]

lemma dispatched {isOpen : Nat → Bool} {new : List Sent} (h : Ordered s)
    (hd : Dispatched (Taken isOpen) s new s') : Ordered s' where
  serial := by rw [hd.arrivals, hd.keeps (·.batcher.nextTicket) fun _ => rfl, h.serial]
  lanes model p := by
    rw [hd.arrivals, hd.sent, batchesOf_append, List.flatten_append, List.filter_append, List.append_assoc]
    exact ((hd.lane_sublist model p).append_left _).trans (h.lanes model p)

lemma still (h : Ordered s) (hs : Still s s') : Ordered s' where
  serial := by rw [hs.arrivals, hs.nextTicket, h.serial]
  lanes model p := by
    rw [hs.sent, hs.arrivals, hs.waiting]
    exact h.lanes model p

lemma move (hm : Move s s') (h : Ordered s) : Ordered s' := by
  rcases hm.kinds with ⟨r, q, _, hq, rfl⟩ | ⟨new, hd⟩ | hs
  · exact h.accept hq
  · exact h.dispatched hd
  · exact h.still hs

theorem run (config : Batch.Config) (events : List Event) : Ordered (run config events) :=
  run_induction (start config) (fun _ _ => move) events

/-- The requests that went out in a lane have growing tickets. -/
lemma pairwise (h : Ordered s) (model : String) :
    (batchesOf model s.sent).flatten.Pairwise fun x y =>
      x.request.priority = y.request.priority → x.ticket < y.ticket := by
  have ht : (s.arrivals.map (·.request)).Pairwise fun x y => x.ticket < y.ticket := by
    have hr : (s.arrivals.map (·.request.ticket)).Pairwise (· < ·) := by
      rw [h.serial]
      exact List.pairwise_lt_range
    rw [List.pairwise_map] at hr ⊢
    exact hr
  refine List.pairwise_iff_forall_sublist.2 fun {x y} hxy hp => ?_
  have hl := (List.sublist_append_left _ _).trans (h.lanes model x.request.priority)
  have hf := (hxy.filter (·.request.priority == x.request.priority)).trans
    (hl.trans List.filter_sublist)
  have he : ([x, y].filter (·.request.priority == x.request.priority)) = [x, y] := by simp [hp]
  rw [he] at hf
  exact List.pairwise_iff_forall_sublist.1 ht hf

lemma mem_lane (h : Ordered s) {batch : Sent} (hb : batch ∈ s.sent) {r : Queued}
    (hr : r ∈ batch.requests) : r ∈ (s.arrivals.map (·.request)).filter fun u =>
      u.request.model == batch.model && u.request.priority == r.request.priority := by
  have hl := (List.sublist_append_left _ _).trans (h.lanes batch.model r.request.priority)
  refine hl.subset (List.mem_filter.2 ⟨?_, beq_self_eq_true _⟩)
  exact List.mem_flatten.2 ⟨batch.requests, mem_batchesOf hb, hr⟩

lemma model_of_mem (h : Ordered s) {batch : Sent} (hb : batch ∈ s.sent) {r : Queued}
    (hr : r ∈ batch.requests) : r.request.model = batch.model := by
  have ha := (List.mem_filter.1 (h.mem_lane hb hr)).2
  rw [Bool.and_eq_true] at ha
  exact beq_iff_eq.1 ha.1

lemma mem_arrivals (h : Ordered s) {batch : Sent} (hb : batch ∈ s.sent) {r : Queued}
    (hr : r ∈ batch.requests) : r ∈ s.arrivals.map (·.request) :=
  (List.mem_filter.1 (h.mem_lane hb hr)).1

/-- The requests of one batch go in order, -/
lemma pairwise_batch (h : Ordered s) {batch : Sent} (hb : batch ∈ s.sent) :
    batch.requests.Pairwise fun x y => x.request.priority = y.request.priority → x.ticket < y.ticket :=
  (List.pairwise_flatten.1 (h.pairwise batch.model)).1 batch.requests (mem_batchesOf hb)

/-- and so do the batches of a model. -/
lemma pairwise_sent (h : Ordered s) : s.sent.Pairwise fun b b' => b.model = b'.model →
    ∀ x ∈ b.requests, ∀ y ∈ b'.requests, x.request.priority = y.request.priority →
      x.ticket < y.ticket := by
  refine List.pairwise_iff_forall_sublist.2 fun {b b'} hs hm => ?_
  have hp := (List.pairwise_flatten.1 (h.pairwise b.model)).2
  have hf : (batchesOf b.model [b, b']).Sublist (batchesOf b.model s.sent) := (hs.filter _).map _
  have he : batchesOf b.model [b, b'] = [b.requests, b'.requests] := by simp [batchesOf, hm]
  rw [he] at hf
  exact List.pairwise_iff_forall_sublist.1 hp hf

/-- Of two requests of a lane that went out, the one that came first is in an earlier batch, or earlier in
the same one. -/
lemma before (h : Ordered s) {a b c d : Nat} {batch batch' : Sent} {x y : Queued}
    (hb : s.sent[a]? = some batch) (hx : batch.requests[c]? = some x)
    (hb' : s.sent[b]? = some batch') (hy : batch'.requests[d]? = some y)
    (hm : x.request.model = y.request.model) (hp : x.request.priority = y.request.priority)
    (ht : x.ticket < y.ticket) : a < b ∨ a = b ∧ c < d := by
  have hmodel : batch.model = batch'.model := by
    rw [← h.model_of_mem (List.mem_of_getElem? hb) (List.mem_of_getElem? hx), hm]
    exact h.model_of_mem (List.mem_of_getElem? hb') (List.mem_of_getElem? hy)
  rcases Nat.lt_trichotomy a b with hab | rfl | hab
  · exact Or.inl hab
  · obtain rfl : batch = batch' := Option.some.inj (hb.symm.trans hb')
    refine Or.inr ⟨rfl, Nat.lt_of_not_le fun hcd => ?_⟩
    rcases Nat.lt_or_eq_of_le hcd with hcd | rfl
    · have hlt := rel_of_getElem? (h.pairwise_batch (List.mem_of_getElem? hb)) hcd hy hx hp.symm
      omega
    · obtain rfl : x = y := Option.some.inj (hx.symm.trans hy)
      omega
  · have hlt := rel_of_getElem? h.pairwise_sent hab hb' hb hmodel.symm y (List.mem_of_getElem? hy) x
      (List.mem_of_getElem? hx) hp.symm
    omega

lemma nodup_arrivals (h : Ordered s) : (s.arrivals.map (·.request.ticket)).Nodup := by
  rw [h.serial]
  exact List.nodup_range

lemma eq_of_ticket (h : Ordered s) {x y : Queued} (hx : x ∈ s.arrivals.map (·.request))
    (hy : y ∈ s.arrivals.map (·.request)) (ht : x.ticket = y.ticket) : x = y := by
  have hn : ((s.arrivals.map (·.request)).map (·.ticket)).Nodup := by
    rw [List.map_map]
    exact h.nodup_arrivals
  exact List.inj_on_of_nodup_map hn hx hy ht

/-- No request is in two batches, or twice in one. -/
lemma nodup_sent (h : Ordered s) : (s.sent.flatMap fun b => tickets b.requests).Nodup := by
  refine List.pairwise_flatMap.2 ⟨fun batch hb => ?_, ?_⟩
  · rw [tickets, List.pairwise_map]
    refine (h.pairwise_batch hb).imp_of_mem fun {x y} hx hy hlt ht => ?_
    have hxy := h.eq_of_ticket (h.mem_arrivals hb hx) (h.mem_arrivals hb hy) ht
    have := hlt (by rw [hxy])
    omega
  · refine h.pairwise_sent.imp_of_mem fun {b b'} hb hb' hlt t ht t' ht' htt => ?_
    obtain ⟨x, hx, rfl⟩ := List.mem_map.1 ht
    obtain ⟨y, hy, rfl⟩ := List.mem_map.1 ht'
    obtain rfl := h.eq_of_ticket (h.mem_arrivals hb hx) (h.mem_arrivals hb' hy) htt
    have hm : b.model = b'.model := by rw [← h.model_of_mem hb hx, h.model_of_mem hb' hy]
    have := hlt hm x hx x hy rfl
    omega

end Ordered

/-- What a step accepts for a model. -/
def newcomers (s : History) (e : Event) (model : String) : List Queued :=
  ((s.step e).arrivals.drop s.arrivals.length).map (·.request) |>.filter (·.request.model == model)

/-- A queue as a step finds it when it takes batches out: with what the step itself accepts. -/
def offered (s : History) (e : Event) (model : String) (q : Queue) : Queue :=
  { q with waiting := q.waiting ++ s.newcomers e model }

lemma newcomers_of_arrivals {e : Event} (h : (s.step e).arrivals = s.arrivals) (model : String) :
    s.newcomers e model = [] := by
  simp [newcomers, h]

lemma newcomers_accepted {r : Request} {q : Queue} (ho : s.batcher.isShutDown = false)
    (hq : s.queue? r.model = some q) (model : String) :
    s.newcomers (.submission r) model =
      if model = r.model then [⟨s.batcher.nextTicket, r⟩] else [] := by
  have ha : (s.step (.submission r)).arrivals = s.arrivals ++ [⟨⟨s.batcher.nextTicket, r⟩, s.now⟩] := by
    rw [step_accepted ho hq]
    rfl
  rw [newcomers, ha, List.drop_left]
  by_cases hm : model = r.model
  · subst hm
    simp
  · simp [hm, Ne.symm hm]

/-- A step goes through a history `u` that has the same batches, with what the step accepts in the queues,
and does nothing from there on but to take batches out. -/
def Drains (s : History) (e : Event) (u : History) (new : List Sent) : Prop :=
  u.sent = s.sent ∧ Dispatched (Taken (s.step e).batcher.isOpen) u new (s.step e) ∧
  (∀ model, s.queue? model = none → u.queue? model = none) ∧
  ∀ model q, s.queue? model = some q → ∃ q', u.queue? model = some q' ∧
    q'.model = q.model ∧ q'.waiting = q.waiting ++ s.newcomers e model

lemma drains_of_dispatched {e : Event} {new : List Sent}
    (h : Dispatched (Taken s.batcher.isOpen) s new (s.step e)) : Drains s e s new := by
  refine ⟨rfl, ?_, fun _ hq => hq, fun model q hq => ⟨q, hq, rfl, ?_⟩⟩
  · rw [h.isOpen]
    exact h
  · rw [newcomers_of_arrivals h.arrivals, List.append_nil]

lemma drains_of_still {e : Event} (h : Still s (s.step e)) : Drains s e (s.step e) [] := by
  refine ⟨h.sent, .refl (fun _ => .refl) _, h.absent, fun model q hq => ?_⟩
  obtain ⟨q', hq', ha⟩ := h.queue model q hq
  refine ⟨q', hq', ha.model, ?_⟩
  rw [newcomers_of_arrivals h.arrivals, List.append_nil, ha.waiting]

lemma drains_accepted {r : Request} {q : Queue} (ho : s.batcher.isShutDown = false)
    (hq : s.queue? r.model = some q) : ∃ new, Drains s (.submission r) (s.accept r q) new := by
  have hq' : (s.accept r q).queue? r.model = some (q.accept s.now ⟨s.batcher.nextTicket, r⟩) := by
    rw [queue?_accept, if_pos rfl]
  obtain ⟨new, hd⟩ := dispatched_flush (fun _ => .refl) hq' (taken_flushed ..)
  rw [← step_accepted ho hq] at hd
  refine ⟨new, rfl, ?_, fun model hn => ?_, fun model u hu => ?_⟩
  · rw [hd.isOpen]
    exact hd
  · rw [queue?_accept]
    split
    · rename_i hm
      rw [hm, hq] at hn
      cases hn
    · exact hn
  · rw [queue?_accept, newcomers_accepted ho hq]
    split
    · rename_i hm
      subst hm
      obtain rfl : u = q := Option.some.inj (hu.symm.trans hq)
      exact ⟨_, rfl, Queue.model_accept .., Queue.waiting_accept ..⟩
    · exact ⟨u, hu, rfl, (List.append_nil _).symm⟩

lemma step_drains (s : History) (e : Event) : ∃ u new, Drains s e u new := by
  have h := step_outcome s e
  generalize hs : s.step e = s' at h
  cases h with
  | idle =>
    have hd := Dispatched.refl (R := Taken s.batcher.isOpen) (fun _ => .refl) s
    exact ⟨s, [], drains_of_dispatched (by rwa [hs])⟩
  | submission ho hq => exact ⟨_, drains_accepted ho hq⟩
  | tick =>
    obtain ⟨new, hd⟩ := taken_sweep s.batcher.queues.names s
    exact ⟨s, new, drains_of_dispatched (by rwa [hs])⟩
  | timerEnds hm hd =>
    obtain ⟨new, hd⟩ := dispatched_ring (R := Taken s.batcher.isOpen) (fun _ => .refl) s _ _
      fun q _ _ => taken_rung _ _ q
    exact ⟨s, new, drains_of_dispatched (by rwa [hs])⟩
  | runEnds ending hb => exact ⟨_, _, drains_of_still (by rw [hs]; exact still_finish ending hb)⟩
  | patienceEnds ha ho => exact ⟨_, _, drains_of_still (by rw [hs]; exact still_giveUp ho)⟩
  | shutDown ho =>
    obtain ⟨⟨new, hd⟩, _⟩ := dispatched_shutDown ho
    exact ⟨s, new, drains_of_dispatched (by rwa [hs])⟩
  | timePasses d => exact ⟨_, _, drains_of_still (.passes s d)⟩

/-- `batches` come off the front of `l` one behind the other, and `left` is what stays. No request that
stays is more urgent than one that goes. -/
structure FrontPieces (limit : Nat) (l : List Queued) (batches : List (List Queued)) (left : List Queued) :
    Prop where
  pieces : batches = (List.range batches.length).map fun i => (l.drop (i * limit)).take limit
  nonempty : ∀ batch ∈ batches, batch ≠ []
  remaining : left = l.drop (batches.length * limit)
  urgent : ∀ i, ∀ x ∈ (l.drop (i * limit)).take limit, ∀ y ∈ l.drop ((i + 1) * limit),
    y.request.priority.rank ≤ x.request.priority.rank

lemma rank_of_taken {l : List Queued} (h : Ranked l) (limit i : Nat) {x y : Queued}
    (hx : x ∈ (l.drop (i * limit)).take limit) (hy : y ∈ l.drop ((i + 1) * limit)) :
    y.request.priority.rank ≤ x.request.priority.rank := by
  have hd : (l.drop (i * limit)).drop limit = l.drop ((i + 1) * limit) := by
    rw [List.drop_drop, Nat.succ_mul]
  have hs : Ranked (l.drop (i * limit)) := h.sublist (List.drop_sublist ..)
  rw [← List.take_append_drop limit (l.drop (i * limit)), hd] at hs
  exact (List.pairwise_append.1 hs).2.2 x hx y hy

lemma frontPieces_of_taken {isOpen : Nat → Bool} {q q' : Queue} {batches : List (List Queued)}
    (h : Taken isOpen q batches q') :
    FrontPieces q.limit (live isOpen q.inOrder) batches (live isOpen q'.inOrder) where
  pieces := h.pieces.1
  nonempty := h.ne_nil
  remaining := h.pieces.2
  urgent i _ hx _ hy := rank_of_taken (q.ranked_inOrder.filter _) q.limit i hx hy

lemma queue?_of_mem_new {isOpen : Nat → Bool} {new : List Sent} (h : Dispatched (Taken isOpen) s new s')
    {batch : Sent} (hb : batch ∈ new) : s.queue? batch.model ≠ none := by
  intro hq
  have hm := mem_batchesOf hb
  rw [(h.absent batch.model hq).2] at hm
  cases hm

/-- In every run, a step takes pieces off the front of the lanes, the most urgent first, and the requests
of a lane leave in the order in which they came. -/
theorem leaves_in_order (config : Batch.Config) (events : List Event) :
    (∀ e : Event, ∃ new, ((run config events).step e).sent = (run config events).sent ++ new ∧
      (∀ batch ∈ new, (run config events).queue? batch.model ≠ none) ∧
      ∀ model q, (run config events).queue? model = some q →
        ∃ q', ((run config events).step e).queue? model = some q' ∧
          let isOpen := ((run config events).step e).batcher.isOpen
          let u := (run config events).offered e model q
          FrontPieces (max 1 q.model.maxSize)
            (live isOpen (u.lane .critical ++ u.lane .high ++ u.lane .normal ++ u.lane .low))
            (batchesOf model new) (live isOpen q'.inOrder)) ∧
    ∀ (i j a b c d : Nat) (x y : Arrival) (batch batch' : Sent), i < j →
      (run config events).arrivals[i]? = some x → (run config events).arrivals[j]? = some y →
      x.request.request.model = y.request.request.model →
      x.request.request.priority = y.request.request.priority →
      (run config events).sent[a]? = some batch → batch.requests[c]? = some x.request →
      (run config events).sent[b]? = some batch' → batch'.requests[d]? = some y.request →
      a < b ∨ a = b ∧ c < d := by
  have hordered := Ordered.run config events
  generalize run config events = s at hordered ⊢
  constructor
  · intro e
    obtain ⟨u, new, hu, hd, hnone, hsome⟩ := step_drains s e
    refine ⟨new, by rw [hd.sent, hu], fun batch hb hq => ?_, fun model q hq => ?_⟩
    · exact queue?_of_mem_new hd hb (hnone batch.model hq)
    · obtain ⟨q₁, hq₁, hmodel, hwaiting⟩ := hsome model q hq
      obtain ⟨q', hq', ht⟩ := hd.queue model q₁ hq₁
      refine ⟨q', hq', ?_⟩
      have hpieces := frontPieces_of_taken ht
      have hlimit : q₁.limit = max 1 q.model.maxSize := by
        rw [Queue.limit, hmodel, Nat.max_comm]
      have horder : q₁.inOrder = (s.offered e model q).inOrder := Queue.inOrder_congr hwaiting
      rw [hlimit, horder] at hpieces
      simpa [Queue.inOrder, Priority.drainOrder] using hpieces
  · intro i j a b c d x y batch batch' hij hx hy hm hp hb hc hb' hd
    refine hordered.before hb hc hb' hd hm hp ?_
    have ht : s.arrivals.Pairwise fun x y => x.request.ticket < y.request.ticket := by
      rw [← List.pairwise_map (f := fun a : Arrival => a.request.ticket), hordered.serial]
      exact List.pairwise_lt_range
    exact rel_of_getElem? ht hij hx hy

theorem leaves_in_order_in_pairs :
    (∃ q new q', (run inPairs [plea .low]).queue? "m" = some q ∧
      ((run inPairs [plea .low]).step (plea .critical)).sent = (run inPairs [plea .low]).sent ++ new ∧
      ((run inPairs [plea .low]).step (plea .critical)).queue? "m" = some q' ∧
      (batchesOf "m" new).map (·.map (·.ticket)) = [[1, 0]] ∧
      let isOpen := ((run inPairs [plea .low]).step (plea .critical)).batcher.isOpen
      let u := (run inPairs [plea .low]).offered (plea .critical) "m" q
      FrontPieces 2 (live isOpen (u.lane .critical ++ u.lane .high ++ u.lane .normal ++ u.lane .low))
        (batchesOf "m" new) (live isOpen q'.inOrder)) ∧
    ∃ x y batch batch',
      let s := run inPairs [plea .low, plea .critical, plea .low, .patienceEnds 2, plea .low]
      s.arrivals[0]? = some x ∧ s.arrivals[3]? = some y ∧ s.sent[0]? = some batch ∧
      s.sent[1]? = some batch' ∧ batch.requests[1]? = some x.request ∧
      batch'.requests[0]? = some y.request ∧ (0 < 1 ∨ 0 = 1 ∧ 1 < 0) := by
  constructor
  · obtain ⟨new, hs, _, hm⟩ := (leaves_in_order inPairs [plea .low]).1 (plea .critical)
    obtain ⟨q', hq', hf⟩ := hm "m" _ rfl
    have hn : new = ((run inPairs [plea .low]).step (plea .critical)).sent := hs.symm
    refine ⟨_, new, q', rfl, hs, hq', ?_, hf⟩
    rw [hn]
    decide
  · have h := (leaves_in_order inPairs
      [plea .low, plea .critical, plea .low, .patienceEnds 2, plea .low]).2 0 3 0 1 1 0
    exact ⟨_, _, _, _, rfl, rfl, rfl, rfl, rfl, rfl,
      h _ _ _ _ (by decide) rfl rfl rfl rfl rfl rfl rfl rfl⟩

end Serving.Batcher.History
