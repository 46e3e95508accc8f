import Mathlib.Data.List.Perm.Basic
import Mathlib.Tactic.Lemma
import Serving.Batch.Batcher

/-! A drain takes the first requests with waiting callers from the lanes, put one behind the other.
Several drains in a row take consecutive pieces of the same list. -/

namespace Serving.Batch

def live (isOpen : Nat → Bool) (l : List Queued) : List Queued := l.filter fun r => isOpen r.ticket

def tickets (l : List Queued) : List Nat := l.map (·.ticket)

def Ranked (l : List Queued) : Prop :=
  l.Pairwise fun x y => y.request.priority.rank ≤ x.request.priority.rank

namespace Queue

lemma mem_lane {q : Queue} {p : Priority} {r : Queued} :
    r ∈ q.lane p ↔ r ∈ q.waiting ∧ r.request.priority = p := by
  simp [lane]

lemma inOrder_congr {q q' : Queue} (h : q.waiting = q'.waiting) : q.inOrder = q'.inOrder := by
  have hl : q.lane = q'.lane := funext fun p => congrArg (List.filter _) h
  rw [inOrder, inOrder, hl]

lemma inOrder_perm (q : Queue) : q.inOrder.Perm q.waiting := by
  simp only [inOrder, lane, Priority.drainOrder, List.flatMap_cons, List.flatMap_nil, List.append_nil]
  induction q.waiting with
  | nil => rfl
  | cons x l ih =>
    have hx := ih.cons x
    cases hp : x.request.priority with
    | critical => simpa [List.filter_cons, hp] using hx
    | high => simpa [List.filter_cons, hp] using List.perm_middle.trans hx
    | normal =>
      rw [← List.append_assoc] at hx ⊢
      simpa [List.filter_cons, hp] using List.perm_middle.trans hx
    | low =>
      rw [← List.append_assoc, ← List.append_assoc] at hx ⊢
      simpa [List.filter_cons, hp] using List.perm_middle.trans hx

lemma ranked_inOrder (q : Queue) : Ranked q.inOrder := by
  refine List.pairwise_flatMap.2 ⟨fun p _ => ?_, ?_⟩
  · refine List.pairwise_of_forall_mem_list fun x hx y hy => ?_
    simp [(mem_lane.1 hx).2, (mem_lane.1 hy).2]
  · have hd : Priority.drainOrder.Pairwise fun p p' => p'.rank ≤ p.rank := by decide
    refine hd.imp fun hr x hx y hy => ?_
    rwa [(mem_lane.1 hx).2, (mem_lane.1 hy).2]

lemma inOrder_of_ranked (q : Queue) (h : Ranked q.waiting) : q.inOrder = q.waiting := by
  simp only [inOrder, lane, Priority.drainOrder, List.flatMap_cons, List.flatMap_nil, List.append_nil]
  generalize q.waiting = l at h
  induction l with
  | nil => rfl
  | cons x l ih =>
    obtain ⟨hx, hl⟩ := List.pairwise_cons.1 h
    -- No request behind `x` is more urgent, so the lanes above that of `x` are empty.
    have above (p : Priority) (hp : x.request.priority.rank < p.rank) :
        l.filter (·.request.priority == p) = [] := by
      refine List.filter_eq_nil_iff.2 fun y hy hyp => ?_
      have hr := hx y hy
      rw [(beq_iff_eq.1 hyp : y.request.priority = p)] at hr
      omega
    have hn := ih hl
    cases hp : x.request.priority with
    | critical => simpa [List.filter_cons, hp] using hn
    | high =>
      rw [hp] at above
      have hc := above .critical (by decide)
      simpa [List.filter_cons, hp, hc] using hn
    | normal =>
      rw [hp] at above
      have hc := above .critical (by decide)
      have hh := above .high (by decide)
      simpa [List.filter_cons, hp, hc, hh] using hn
    | low =>
      rw [hp] at above
      have hc := above .critical (by decide)
      have hh := above .high (by decide)
      have hm := above .normal (by decide)
      simpa [List.filter_cons, hp, hc, hh, hm] using hn

lemma filter_lane (q : Queue) (p p' : Priority) :
    (q.lane p').filter (·.request.priority == p) = if p' = p then q.lane p else [] := by
  split
  · rename_i h
    subst h
    exact List.filter_eq_self.2 fun x hx => by simpa using (mem_lane.1 hx).2
  · rename_i h
    exact List.filter_eq_nil_iff.2 fun x hx => by simpa [(mem_lane.1 hx).2] using h

lemma filter_inOrder (q : Queue) (p : Priority) :
    q.inOrder.filter (·.request.priority == p) = q.lane p := by
  simp only [inOrder, Priority.drainOrder, List.flatMap_cons, List.flatMap_nil, List.append_nil,
    List.filter_append, filter_lane]
  cases p <;> simp

end Queue

section Drain

variable (isOpen : Nat → Bool) (limit : Nat) (l : List Queued)

/-- A drain splits the list it works on: what it takes off the front is its batch and the orphans
between, and it stops only where the list ends or the batch is full. -/
lemma drain_split : ∃ front, l = front ++ (drain isOpen limit l).rest ∧
    (drain isOpen limit l).batch = live isOpen front ∧
    (drain isOpen limit l).orphans = (front.filter fun r => !isOpen r.ticket).length ∧
    (drain isOpen limit l).batch.length ≤ limit ∧
    ((drain isOpen limit l).rest = [] ∨ (drain isOpen limit l).batch.length = limit) := by
  induction l generalizing limit with
  | nil => exact ⟨[], by cases limit <;> simp [drain, live]⟩
  | cons r l ih =>
    cases limit with
    | zero => exact ⟨[], by simp [drain, live]⟩
    | succ n =>
      by_cases hr : isOpen r.ticket = true
      · obtain ⟨front, hl, hb, ho, hn, hend⟩ := ih n
        refine ⟨r :: front, ?_⟩
        simp only [drain, hr, if_true]
        refine ⟨by rw [List.cons_append, ← hl], by simp [live, hr, hb], by simp [hr, ho], ?_, ?_⟩
        · simpa using hn
        · simpa using hend
      · obtain ⟨front, hl, hb, ho, hn, hend⟩ := ih (n + 1)
        refine ⟨r :: front, ?_⟩
        simp only [drain, hr]
        exact ⟨by rw [List.cons_append]; exact congrArg _ hl, by simpa [live, hr] using hb,
          by simp [hr, ho], hn, hend⟩

lemma batch_append_live_rest :
    (drain isOpen limit l).batch ++ live isOpen (drain isOpen limit l).rest = live isOpen l := by
  obtain ⟨front, hl, hb, _⟩ := drain_split isOpen limit l
  conv_rhs => rw [hl]
  rw [hb]
  exact (List.filter_append ..).symm

lemma drain_batch : (drain isOpen limit l).batch = (live isOpen l).take limit := by
  obtain ⟨_, _, _, _, hn, hend⟩ := drain_split isOpen limit l
  rw [← batch_append_live_rest isOpen limit l]
  rcases hend with hr | hf
  · simp [hr, live, List.take_of_length_le hn]
  · rw [List.take_append_of_le_length (Nat.le_of_eq hf.symm), List.take_of_length_le hn]

lemma live_rest : live isOpen (drain isOpen limit l).rest = (live isOpen l).drop limit := by
  obtain ⟨_, _, _, _, hn, hend⟩ := drain_split isOpen limit l
  rw [← batch_append_live_rest isOpen limit l]
  rcases hend with hr | hf
  · simp [hr, live, hn]
  · exact (List.drop_left' hf).symm

lemma rest_suffix : (drain isOpen limit l).rest <:+ l := by
  obtain ⟨front, hl, _⟩ := drain_split isOpen limit l
  exact ⟨front, hl.symm⟩

lemma batch_append_rest_sublist :
    ((drain isOpen limit l).batch ++ (drain isOpen limit l).rest).Sublist l := by
  obtain ⟨front, hl, hb, _⟩ := drain_split isOpen limit l
  conv_rhs => rw [hl]
  rw [hb]
  exact List.filter_sublist.append_right _

lemma drain_perm : ∃ orphans, l.Perm ((drain isOpen limit l).batch ++ orphans ++
      (drain isOpen limit l).rest) ∧
    (∀ r ∈ orphans, isOpen r.ticket = false) ∧ orphans.length = (drain isOpen limit l).orphans := by
  obtain ⟨front, hl, hb, ho, _⟩ := drain_split isOpen limit l
  refine ⟨front.filter fun r => !isOpen r.ticket, ?_, fun r hr => ?_, ho.symm⟩
  · conv_lhs => rw [hl]
    rw [hb]
    exact (List.filter_append_perm _ front).symm.append_right _
  · simpa using (List.mem_filter.1 hr).2

lemma rest_eq_nil (h : l.length ≤ limit ∨ (drain isOpen limit l).batch.length < limit) :
    (drain isOpen limit l).rest = [] := by
  obtain ⟨front, hl, hb, _, hn, hend⟩ := drain_split isOpen limit l
  rcases hend with hr | hf
  · exact hr
  · have hlen := congrArg List.length hl
    have hfront : (live isOpen front).length ≤ front.length := List.length_filter_le ..
    rw [List.length_append] at hlen
    rw [hb] at hf h
    exact List.eq_nil_of_length_eq_zero (by omega)

end Drain

namespace Queue

def limit (q : Queue) : Nat := max q.model.maxSize 1

def firstBatch (isOpen : Nat → Bool) (q : Queue) : List Queued := (drain isOpen q.limit q.inOrder).batch

def drained (isOpen : Nat → Bool) (q : Queue) : Queue :=
  let d := drain isOpen q.limit q.inOrder
  { q with waiting := d.rest, counts := { q.counts with orphaned := q.counts.orphaned + d.orphans } }

lemma limit_pos (q : Queue) : 0 < q.limit := Nat.lt_of_lt_of_le Nat.one_pos (Nat.le_max_right ..)

variable {isOpen : Nat → Bool} {q : Queue}

lemma inOrder_drained : (q.drained isOpen).inOrder = (q.drained isOpen).waiting :=
  inOrder_of_ranked _ (q.ranked_inOrder.sublist (rest_suffix isOpen q.limit q.inOrder).sublist)

lemma drained_of_firstBatch_eq_nil (h : q.firstBatch isOpen = []) : (q.drained isOpen).waiting = [] := by
  refine rest_eq_nil isOpen q.limit q.inOrder (Or.inr ?_)
  rw [show (drain isOpen q.limit q.inOrder).batch = [] from h]
  exact q.limit_pos

lemma drained_of_pending_le (h : q.pending ≤ q.limit) : (q.drained isOpen).waiting = [] :=
  rest_eq_nil isOpen q.limit q.inOrder (Or.inl (by rwa [q.inOrder_perm.length_eq]))

lemma drain_nil (limit : Nat) : drain isOpen limit [] = ⟨[], 0, []⟩ := by
  cases limit <;> rfl

lemma inOrder_eq_nil : q.inOrder = [] ↔ q.waiting = [] :=
  ⟨fun h => List.nil_perm.1 (h ▸ q.inOrder_perm), fun h => List.perm_nil.1 (h ▸ q.inOrder_perm)⟩

lemma firstBatch_of_empty (h : q.waiting = []) : q.firstBatch isOpen = [] := by
  rw [firstBatch, inOrder_eq_nil.2 h, drain_nil]

lemma drained_of_empty (h : q.waiting = []) : q.drained isOpen = q := by
  rw [drained, inOrder_eq_nil.2 h, drain_nil]
  cases q
  simp_all

lemma drained_length_lt (h : q.firstBatch isOpen ≠ []) : (q.drained isOpen).pending < q.pending := by
  have hs := (batch_append_rest_sublist isOpen q.limit q.inOrder).length_le
  have hb : 0 < (q.firstBatch isOpen).length := List.length_pos_of_ne_nil h
  rw [List.length_append, q.inOrder_perm.length_eq] at hs
  simp only [pending, drained, firstBatch] at *
  omega

end Queue

lemma drainQueue_eq (b : Batcher) (q : Queue) :
    b.drainQueue q = (q.firstBatch b.isOpen, q.drained b.isOpen) := rfl

/-- `q'` is what is left of `q` after the batches were taken out of it one by one. Timers may have been
set and called off meanwhile, and orphans may have dropped out without a batch. -/
inductive Taken (isOpen : Nat → Bool) : Queue → List (List Queued) → Queue → Prop
  | refl {q : Queue} : Taken isOpen q [] q
  | take {q q' : Queue} {batches : List (List Queued)} : q.firstBatch isOpen ≠ [] →
      Taken isOpen (q.drained isOpen) batches q' → Taken isOpen q (q.firstBatch isOpen :: batches) q'
  | skip {q q' : Queue} {batches : List (List Queued)} : q.firstBatch isOpen = [] →
      Taken isOpen (q.drained isOpen) batches q' → Taken isOpen q batches q'
  | time {q q' : Queue} {batches : List (List Queued)} (timer : Option Timer) (generation : Nat) :
      Taken isOpen { q with timer, generation } batches q' → Taken isOpen q batches q'

namespace Taken

variable {isOpen : Nat → Bool} {q q' q'' : Queue} {batches more : List (List Queued)}

lemma trans (h : Taken isOpen q batches q') (h' : Taken isOpen q' more q'') :
    Taken isOpen q (batches ++ more) q'' := by
  induction h with
  | refl => exact h'
  | take hb _ ih => exact .take hb (ih h')
  | skip hb _ ih => exact .skip hb (ih h')
  | time timer generation _ ih => exact .time timer generation (ih h')

lemma model (h : Taken isOpen q batches q') : q'.model = q.model := by
  induction h with
  | refl => rfl
  | take _ _ ih | skip _ _ ih | time _ _ _ ih => exact ih

lemma ne_nil (h : Taken isOpen q batches q') : ∀ batch ∈ batches, batch ≠ [] := by
  induction h with
  | refl => simp
  | take hb _ ih => exact List.forall_mem_cons.2 ⟨hb, ih⟩
  | skip _ _ ih | time _ _ _ ih => exact ih

lemma perm (h : Taken isOpen q batches q') : ∃ orphans,
    q.waiting.Perm (batches.flatten ++ orphans ++ q'.waiting) ∧
    (∀ r ∈ orphans, isOpen r.ticket = false) ∧
    q'.counts = { q.counts with orphaned := q.counts.orphaned + orphans.length } := by
  induction h with
  | refl => exact ⟨[], by simp⟩
  | @take q q' batches _ _ ih =>
    obtain ⟨orphans, hp, hc, hn⟩ := ih
    obtain ⟨first, hp', hc', hn'⟩ := drain_perm isOpen q.limit q.inOrder
    refine ⟨first ++ orphans, q.inOrder_perm.symm.trans (hp'.trans ?_), ?_, ?_⟩
    · refine (hp.append_left _).trans ?_
      simp only [List.flatten_cons, List.append_assoc]
      exact (List.perm_append_comm_assoc ..).append_left _
    · exact List.forall_mem_append.2 ⟨hc', hc⟩
    · rw [hn]
      simp [Queue.drained, hn', Nat.add_assoc]
  | @skip q q' batches hb _ ih =>
    obtain ⟨orphans, hp, hc, hn⟩ := ih
    obtain ⟨first, hp', hc', hn'⟩ := drain_perm isOpen q.limit q.inOrder
    rw [show (drain isOpen q.limit q.inOrder).batch = [] from hb, List.nil_append] at hp'
    refine ⟨first ++ orphans, q.inOrder_perm.symm.trans (hp'.trans ?_), ?_, ?_⟩
    · refine (hp.append_left _).trans ?_
      simp only [List.append_assoc]
      exact List.perm_append_comm_assoc ..
    · exact List.forall_mem_append.2 ⟨hc', hc⟩
    · rw [hn]
      simp [Queue.drained, hn', Nat.add_assoc]
  | time _ _ _ ih => exact ih

lemma pieces (h : Taken isOpen q batches q') :
    batches = (List.range batches.length).map
      (fun i => ((live isOpen q.inOrder).drop (i * q.limit)).take q.limit) ∧
    live isOpen q'.inOrder = (live isOpen q.inOrder).drop (batches.length * q.limit) := by
  induction h with
  | refl => simp
  | @take q q' batches _ _ ih =>
    obtain ⟨hb, hr⟩ := ih
    have hlive : live isOpen (q.drained isOpen).inOrder = (live isOpen q.inOrder).drop q.limit := by
      rw [Queue.inOrder_drained]
      exact live_rest isOpen q.limit q.inOrder
    have hlimit : (q.drained isOpen).limit = q.limit := rfl
    have hnext (i : Nat) : q.limit + i * q.limit = (i + 1) * q.limit := by
      rw [Nat.succ_mul, Nat.add_comm]
    simp only [hlive, hlimit, List.drop_drop, hnext] at hb hr
    constructor
    · rw [List.length_cons, List.range_succ_eq_map, List.map_cons, List.map_map]
      refine congrArg₂ _ ?_ hb
      rw [Nat.zero_mul, List.drop_zero]
      exact drain_batch isOpen q.limit q.inOrder
    · exact hr
  | @skip q q' batches hb _ ih =>
    have hq : live isOpen q.inOrder = [] := by
      have ht := drain_batch isOpen q.limit q.inOrder
      rw [show (drain isOpen q.limit q.inOrder).batch = [] from hb] at ht
      have := q.limit_pos
      rcases List.take_eq_nil_iff.1 ht.symm with h0 | h0
      · omega
      · exact h0
    have hd : live isOpen (q.drained isOpen).inOrder = [] := by
      rw [Queue.inOrder_drained, Queue.drained_of_firstBatch_eq_nil hb]
      rfl
    rw [hq]
    rw [hd] at ih
    exact ih
  | time _ _ _ ih => exact ih

/-- Within a lane, what goes out and what stays keep their order, and what goes out was first. -/
lemma lane_sublist (h : Taken isOpen q batches q') (p : Priority) :
    (batches.flatten.filter (·.request.priority == p) ++ q'.lane p).Sublist (q.lane p) := by
  have first (q : Queue) : ((q.firstBatch isOpen).filter (·.request.priority == p) ++
      (q.drained isOpen).lane p).Sublist (q.lane p) := by
    have hs := (batch_append_rest_sublist isOpen q.limit q.inOrder).filter (·.request.priority == p)
    rwa [List.filter_append, Queue.filter_inOrder] at hs
  induction h with
  | refl => simp
  | @take q q' batches _ _ ih =>
    rw [List.flatten_cons, List.filter_append, List.append_assoc]
    exact (ih.append_left _).trans (first q)
  | @skip q q' batches hb _ ih =>
    have hs := first q
    rw [hb] at hs
    exact ih.trans hs
  | time _ _ _ ih => exact ih

end Taken

end Serving.Batch
