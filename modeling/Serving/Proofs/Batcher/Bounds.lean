import Serving.Proofs.Batcher.Firing
import Serving.Proofs.Batcher.Wakeup

/-! Short queues. Unless only timers send batches out, no queue is ever full, a batch that goes out before
the shutdown empties its queue, and nobody waits longer than the timeout of the queue. -/

namespace Serving

namespace Batch

lemma Config.model_mem_problems {c : Config} {name : String} {p : Model.Problem} :
    .model name p ∈ c.problems ↔ ∃ m, (name, m) ∈ c.models.toList ∧ p ∈ m.problems := by
  have none_in {P : Prop} [Decidable P] {q : Problem} (hq : q ≠ .model name p) :
      .model name p ∉ (if P then [q] else []) ∧ .model name p ∉ if P then [] else [q] := by
    constructor <;> split <;> simp [hq.symm]
  rw [problems, List.mem_append, List.mem_append, List.mem_append, List.mem_append, List.mem_append]
  constructor
  · rintro (((((h | h) | h) | h) | h) | h)
    · exact absurd h (none_in (by simp)).1
    · exact absurd h (none_in (by simp)).1
    · exact absurd h (none_in (by simp)).1
    · exact absurd h (none_in (by simp)).2
    · exact absurd h (none_in (by simp)).1
    · obtain ⟨⟨n, m⟩, hm, hp⟩ := List.mem_flatMap.1 h
      obtain ⟨p', hp', he⟩ := List.mem_map.1 hp
      obtain ⟨rfl, rfl⟩ := Problem.model.inj he
      exact ⟨m, hm, hp'⟩
  · rintro ⟨m, hm, hp⟩
    exact Or.inr (List.mem_flatMap.2 ⟨(name, m), hm, List.mem_map.2 ⟨p, hp, rfl⟩⟩)

structure Fits (q : Queue) : Prop where
  positive : 0 < q.model.maxSize
  ideal : q.model.idealSize ≤ q.model.maxSize
  pending : q.pending ≤ q.model.maxSize

lemma Fits.of_empty {q q' : Queue} (hf : Fits q) (hm : q'.model = q.model) (hw : q'.waiting = []) :
    Fits q' where
  positive := hm ▸ hf.positive
  ideal := hm ▸ hf.ideal
  pending := by
    rw [Queue.pending, hw]
    exact Nat.zero_le _

end Batch

namespace Batcher

open Batch

variable {b : Batcher} {q : Queue}

lemma pending_lt (hs : b.config.strategy ≠ .timeBased) (hf : Fits q) (h : b.reasonNow q false = none) :
    q.pending < q.model.maxSize := by
  refine Nat.lt_of_not_le fun hl => ?_
  have hfires : (b.reasonNow q false).isSome = true :=
    isSome_fireReason_iff.2 ⟨Nat.lt_of_lt_of_le hf.positive hl, .inl (.full hs hl)⟩
  rw [h] at hfires
  cases hfires

lemma drained_waiting (hf : Fits q) (isOpen : Nat → Bool) : (q.drained isOpen).waiting = [] :=
  Queue.drained_of_pending_le (Nat.le_trans hf.pending (Nat.le_max_left ..))

lemma readyBatches_of_empty (rounds : Nat) (h : q.waiting = []) : b.readyBatches rounds q = ([], q) := by
  cases rounds with
  | zero => rfl
  | succ rounds =>
    have hp : (q.snapshot false).pending = 0 := by
      rw [Queue.snapshot, Queue.pending, h, List.length_nil]
    rw [readyBatches, reasonNow, fireReason_of_empty _ _ _ _ _ hp]

lemma ready_cases (hs : b.config.strategy ≠ .timeBased) (hf : Fits q) (now : Instant) :
    b.ready q = [] ∧ b.flushed now q = q ∧ q.pending < q.model.maxSize ∨
    (b.ready q).length ≤ 1 ∧ (b.flushed now q).waiting = [] := by
  by_cases hw : q.waiting = []
  · refine Or.inr ⟨?_, flushed_waiting hw⟩
    rw [ready, readyBatches_of_empty _ hw]
    exact Nat.zero_le 1
  · obtain ⟨n, hn⟩ := Nat.exists_eq_succ_of_ne_zero
      (show q.pending ≠ 0 from fun h => hw (List.eq_nil_of_length_eq_zero h))
    cases hr : b.reasonNow q false with
    | none =>
      have hb : b.readyBatches q.pending q = ([], q) := by
        rw [hn, readyBatches, hr]
      refine Or.inl ⟨?_, ?_, pending_lt hs hf hr⟩
      · rw [ready, hb]
      · rw [flushed, ready, hb, if_pos rfl]
    | some reason =>
      have hd := drained_waiting hf b.isOpen
      right
      by_cases hb : q.firstBatch b.isOpen = []
      · have he : b.readyBatches q.pending q = ([], q.drained b.isOpen) := by
          simp only [hn, readyBatches, hr, drainQueue_eq, hb, List.isEmpty_nil, if_true]
        rw [flushed, ready, he, if_pos rfl]
        exact ⟨Nat.zero_le 1, hd⟩
      · have he : b.readyBatches q.pending q =
            ([(reason, q.firstBatch b.isOpen)], q.drained b.isOpen) := by
          simp only [hn, readyBatches, hr, drainQueue_eq, List.isEmpty_iff, hb, if_false,
            readyBatches_of_empty n hd]
        rw [flushed, ready, he, if_neg (List.cons_ne_nil _ _), Queue.waiting_restarted]
        exact ⟨Nat.le_refl 1, hd⟩

def Clears (q : Queue) (l : List (List Queued)) (q' : Queue) : Prop :=
  l = [] ∧ q' = q ∨ l.length ≤ 1 ∧ q'.waiting = [] ∧ (q.waiting = [] → l = [])

def Swept (q : Queue) (l : List (List Queued)) (q' : Queue) : Prop := Fits q → Fits q' ∧ Clears q l q'

lemma swept_refl (q : Queue) : Swept q [] q := fun hf => ⟨hf, Or.inl ⟨rfl, rfl⟩⟩

lemma swept_trans (q q' q'' : Queue) (l l' : List (List Queued)) (h : Swept q l q')
    (h' : Swept q' l' q'') : Swept q (l ++ l') q'' := by
  intro hf
  obtain ⟨hf', hc⟩ := h hf
  obtain ⟨hf'', hc'⟩ := h' hf'
  refine ⟨hf'', ?_⟩
  rcases hc with ⟨rfl, rfl⟩ | ⟨hl, hw, he⟩
  · exact hc'
  · rcases hc' with ⟨rfl, rfl⟩ | ⟨_, hw', he'⟩
    · rw [List.append_nil]
      exact Or.inr ⟨hl, hw, he⟩
    · rw [he' hw, List.append_nil]
      exact Or.inr ⟨hl, hw', he⟩

lemma swept_flushed (hs : b.config.strategy ≠ .timeBased) (now : Instant) (q : Queue) :
    Swept q ((b.ready q).map (·.2)) (b.flushed now q) := by
  intro hf
  rcases ready_cases hs hf now with ⟨hr, hq, _⟩ | ⟨hl, hw⟩
  · rw [hr, hq]
    exact swept_refl q hf
  · refine ⟨hf.of_empty (taken_flushed b now q).model hw, Or.inr ⟨?_, hw, fun he => ?_⟩⟩
    · rwa [List.length_map]
    · rw [ready, readyBatches_of_empty _ he, List.map_nil]

lemma swept_rung (b : Batcher) (now : Instant) (q : Queue) :
    Swept q (if q.firstBatch b.isOpen = [] then [] else [q.firstBatch b.isOpen]) (b.rung now q) := by
  intro hf
  have hw : (b.rung now q).waiting = [] := by
    rw [rung, Queue.waiting_restarted, drained_waiting hf]
  refine ⟨hf.of_empty (taken_rung b now q).model hw, Or.inr ⟨?_, hw, fun he => ?_⟩⟩
  · split <;> simp
  · rw [Queue.firstBatch_of_empty he, if_pos rfl]

namespace History

variable {s s' : History} {new : List Sent}

/-- Somebody who waits in the queue came early enough for its timer, which has yet to run out. -/
def Timely (now : Instant) (arrivals : List Arrival) (q : Queue) : Prop :=
  q.waiting ≠ [] → ∃ timer, q.timer = some timer ∧ now ≤ timer.due ∧
    ∀ r ∈ q.waiting, ∃ a ∈ arrivals, a.request = r ∧ timer.due ≤ a.time + q.model.timeout

lemma Timely.more {now : Instant} {arrivals : List Arrival} (h : Timely now arrivals q) (a : Arrival) :
    Timely now (arrivals ++ [a]) q := by
  intro hw
  obtain ⟨timer, ht, hle, ha⟩ := h hw
  refine ⟨timer, ht, hle, fun r hr => ?_⟩
  obtain ⟨a', hmem, ha'⟩ := ha r hr
  exact ⟨a', List.mem_append_left _ hmem, ha'⟩

lemma Timely.accept {now : Instant} {arrivals : List Arrival} {timers : List Timer}
    (h : Timely now arrivals q) (hw : Wakes now timers q) (r : Queued) :
    Timely now (arrivals ++ [⟨r, now⟩]) (q.accept now r) := by
  have hr : (⟨r, now⟩ : Arrival) ∈ arrivals ++ [⟨r, now⟩] :=
    List.mem_append_right _ (List.mem_singleton_self _)
  intro _
  rw [Queue.model_accept, Queue.waiting_accept, Queue.accept]
  by_cases he : q.waiting = []
  · rw [if_pos he, he]
    refine ⟨⟨q.generation + 1, now + q.model.timeout⟩, rfl, Nat.le_add_right .., fun x hx => ?_⟩
    obtain rfl := List.mem_singleton.1 hx
    exact ⟨_, hr, rfl, Nat.le_refl _⟩
  · rw [if_neg he]
    obtain ⟨timer, ht, hle, ha⟩ := h.more ⟨r, now⟩ he
    refine ⟨timer, ht, hle, fun x hx => ?_⟩
    rcases List.mem_append.1 hx with hx | hx
    · exact ha x hx
    · obtain rfl := List.mem_singleton.1 hx
      obtain ⟨timer', ht', hd, _⟩ := hw.armed he
      obtain rfl : timer = timer' := Option.some.inj (ht.symm.trans ht')
      exact ⟨_, hr, rfl, hd⟩

structure Calm (s : History) : Prop where
  fits : ∀ model q, s.queue? model = some q → Fits q
  timely : ∀ model q, s.queue? model = some q → Timely s.now s.arrivals q

lemma timely_of_empty {now : Instant} {arrivals : List Arrival} (h : q.waiting = []) :
    Timely now arrivals q := fun hw => absurd h hw

namespace Calm

lemma dispatched (h : Calm s) (hd : Dispatched Swept s new s') : Calm s' := by
  have hn : s'.now = s.now := hd.keeps History.now fun _ => rfl
  have queue (model : String) (q' : Queue) (hq' : s'.queue? model = some q') :
      Fits q' ∧ Timely s'.now s'.arrivals q' := by
    rw [hn, hd.arrivals]
    obtain ⟨q, hq, hR⟩ := hd.queue_before hq'
    obtain ⟨hf, hc⟩ := hR (h.fits model q hq)
    refine ⟨hf, ?_⟩
    rcases hc with ⟨_, rfl⟩ | ⟨_, hw, _⟩
    · exact h.timely model q' hq
    · exact timely_of_empty hw
  exact ⟨fun model q hq => (queue model q hq).1, fun model q hq => (queue model q hq).2⟩

lemma still (h : Calm s) (hs : Still s s') (hn : s'.now = s.now) : Calm s' where
  fits model q' hq' := by
    obtain ⟨q, hq, ha⟩ := hs.queue_before hq'
    obtain ⟨hp, hi, hl⟩ := h.fits model q hq
    rw [Queue.pending] at hl
    exact ⟨ha.model ▸ hp, ha.model ▸ hi, by rwa [Queue.pending, ha.waiting, ha.model]⟩
  timely model q' hq' := by
    obtain ⟨q, hq, ha⟩ := hs.queue_before hq'
    have ht := h.timely model q hq
    rw [hn, hs.arrivals]
    rwa [Timely, ha.waiting, ha.timer, ha.model]

lemma passes (h : Calm s) {d : Duration}
    (hd : ∀ model q timer, s.queue? model = some q → q.waiting ≠ [] → q.timer = some timer →
      s.now + d ≤ timer.due) : Calm { s with now := s.now + d } where
  fits := h.fits
  timely model q hq hw := by
    obtain ⟨timer, ht, _, ha⟩ := h.timely model q hq hw
    exact ⟨timer, ht, hd model q timer hq hw ht, ha⟩

lemma accept (h : Calm s) (hw : Awake s) (ho : s.batcher.isShutDown = false) {r : Request} {q : Queue}
    (hq : s.queue? r.model = some q) (hp : q.pending < q.model.maxSize) : Calm (s.accept r q) where
  fits model u hu := by
    rw [queue?_accept] at hu
    split at hu
    · obtain rfl := Option.some.inj hu
      obtain ⟨hpos, hi, _⟩ := h.fits r.model q hq
      refine ⟨?_, ?_, ?_⟩
      · rwa [Queue.model_accept]
      · rwa [Queue.model_accept]
      · rw [Queue.pending, Queue.waiting_accept, Queue.model_accept, List.length_append]
        exact hp
    · exact h.fits model u hu
  timely model u hu := by
    have harrivals : (s.accept r q).arrivals = s.arrivals ++ [⟨⟨s.batcher.nextTicket, r⟩, s.now⟩] := rfl
    rw [queue?_accept] at hu
    rw [harrivals]
    split at hu
    · obtain rfl := Option.some.inj hu
      exact (h.timely r.model q hq).accept (hw.opened ho r.model q hq) _
    · exact (h.timely model u hu).more _

end Calm

def Short (s : History) : Prop := ∀ model q, s.queue? model = some q → q.pending < q.model.maxSize

lemma Short.dispatched (h : Short s) (hc : Calm s) (hd : Dispatched Swept s new s') : Short s' := by
  intro model q' hq'
  obtain ⟨q, hq, hR⟩ := hd.queue_before hq'
  obtain ⟨hf, hclears⟩ := hR (hc.fits model q hq)
  rcases hclears with ⟨_, rfl⟩ | ⟨_, hw, _⟩
  · exact h model q' hq
  · rw [Queue.pending, hw]
    exact hf.positive

lemma Short.still (h : Short s) (hs : Still s s') : Short s' := by
  intro model q' hq'
  obtain ⟨q, hq, ha⟩ := hs.queue_before hq'
  have hl := h model q hq
  rwa [Queue.pending, ← ha.waiting, ← ha.model] at hl

lemma Short.flush (hs : s.batcher.config.strategy ≠ .timeBased) {model : String} {q : Queue} (hf : Fits q)
    (h : ∀ other u, other ≠ model → s.queue? other = some u → u.pending < u.model.maxSize) :
    Short (s.flush model q) := by
  intro other u hu
  rw [queue?_flush] at hu
  by_cases hm : other = model
  · rw [if_pos hm] at hu
    obtain rfl := Option.some.inj hu
    rcases ready_cases hs hf s.now with ⟨_, hq, hl⟩ | ⟨_, hw⟩
    · rwa [hq]
    · have hp := (hf.of_empty (taken_flushed s.batcher s.now q).model hw).positive
      rwa [Queue.pending, hw]
  · rw [if_neg hm] at hu
    exact h other u hm hu

def isCurrent (s : History) (e : String × Timer) : Bool :=
  (s.queue? e.1).any (·.generation == e.2.generation)

/-- Time does not move past a timer that counts. -/
def OnTime (s : History) : Event → Prop
  | .timePasses d => ∀ e ∈ s.timers, s.isCurrent e = true → s.now + d ≤ e.2.due
  | _ => True

def Punctual (s : History) : List Event → Prop
  | [] => True
  | e :: events => OnTime s e ∧ Punctual (s.step e) events

lemma Awake.mem_timers (h : Awake s) {model : String} {q : Queue} {timer : Timer}
    (hq : s.queue? model = some q) (hw : q.waiting ≠ []) (ht : q.timer = some timer) :
    (model, timer) ∈ s.timers ∧ s.isCurrent (model, timer) = true := by
  obtain ⟨timer', ht', _, hf⟩ := (h.wakes hq hw).armed hw
  obtain rfl : timer = timer' := Option.some.inj (ht.symm.trans ht')
  have hm : timer ∈ (timersOf model s.timers).filter (·.generation == q.generation) :=
    hf ▸ List.mem_singleton_self timer
  obtain ⟨hm, hg⟩ := List.mem_filter.1 hm
  obtain ⟨⟨name, t⟩, he, rfl⟩ := List.mem_map.1 hm
  obtain ⟨hmem, hn⟩ := List.mem_filter.1 he
  obtain rfl : name = model := by simpa using hn
  refine ⟨hmem, ?_⟩
  have hg' : t.generation = q.generation := by simpa using hg
  simp [isCurrent, hq, hg']

lemma step_swept {e : Event} (hs : s.batcher.config.strategy ≠ .timeBased) (h : Calm s) (hw : Awake s)
    (hl : Short s) (he : OnTime s e) (hne : e ≠ .shutDown) : ∃ u new, u.sent = s.sent ∧ Calm u ∧
      Dispatched Swept u new (s.step e) ∧ (Short u ∨ Short (s.step e)) := by
  have hstep := step_outcome s e
  generalize s.step e = s' at hstep
  cases hstep with
  | idle => exact ⟨s, [], rfl, h, .refl swept_refl s, Or.inl hl⟩
  | @submission r q ho hq =>
    have hc := h.accept hw ho hq (hl _ _ hq)
    have hq' : (s.accept r q).queue? r.model = some (q.accept s.now ⟨s.batcher.nextTicket, r⟩) := by
      rw [queue?_accept, if_pos rfl]
    obtain ⟨new, hd⟩ := dispatched_flush swept_refl hq'
      (swept_flushed (b := (s.accept r q).batcher) hs s.now _)
    refine ⟨s.accept r q, new, rfl, hc, hd, Or.inr ?_⟩
    refine Short.flush (s := s.accept r q) hs (hc.fits _ _ hq') fun other u hm hu => ?_
    rw [queue?_accept, if_neg hm] at hu
    exact hl other u hu
  | tick =>
    obtain ⟨new, hd⟩ := dispatched_sweep swept_refl swept_trans (s := s) (fun u hu q => by
      have hc : u.batcher.config = s.batcher.config :=
        (congrArg (fun s : History => s.batcher.config) hu :)
      exact swept_flushed (hc ▸ hs) u.now q) s.batcher.queues.names s rfl
    exact ⟨s, new, rfl, h, hd, Or.inl hl⟩
  | timerEnds hm hd =>
    obtain ⟨new, hd⟩ := dispatched_ring swept_refl s _ _ fun q _ _ => swept_rung s.batcher s.now q
    exact ⟨s, new, rfl, h, hd, Or.inl hl⟩
  | @runEnds batch ending hb =>
    have hstill := still_finish ending hb
    have hn : (s.finish batch ending).now = s.now := by
      rw [finish]
      split <;> rfl
    exact ⟨_, [], hstill.sent, h.still hstill hn, .refl swept_refl _, Or.inr (hl.still hstill)⟩
  | patienceEnds ha ho =>
    have hstill := still_giveUp ho
    exact ⟨_, [], hstill.sent, h.still hstill rfl, .refl swept_refl _, Or.inr (hl.still hstill)⟩
  | shutDown ho => exact absurd rfl hne
  | timePasses d =>
    have hc : Calm { s with now := s.now + d } := by
      refine h.passes fun model q timer hq hwait ht => ?_
      obtain ⟨hm, hcur⟩ := hw.mem_timers hq hwait ht
      exact he (model, timer) hm hcur
    exact ⟨{ s with now := s.now + d }, [], rfl, hc, .refl swept_refl _, Or.inr hl⟩

structure Sound (config : Batch.Config) : Prop where
  models : ∀ name problem, .model name problem ∉ config.problems
  strategy : config.strategy ≠ .timeBased

lemma Sound.fits {config : Batch.Config} (h : Sound config) (hc : Configured config s) {model : String}
    {q : Queue} (hq : s.queue? model = some q) (hw : q.waiting = []) : Fits q := by
  have hm := Table.mem_of_find? (hc.find?_model hq)
  refine ⟨Nat.pos_of_ne_zero fun h0 => ?_, Nat.le_of_not_lt fun hlt => ?_, ?_⟩
  · refine h.models model .noSize (Config.model_mem_problems.2 ⟨_, hm, ?_⟩)
    simp [Model.problems, h0]
  · refine h.models model (.idealOutOfRange q.model.maxSize) (Config.model_mem_problems.2 ⟨_, hm, ?_⟩)
    simp [Model.problems, hlt]
  · rw [Queue.pending, hw]
    exact Nat.zero_le _

structure Settled (config : Batch.Config) (s : History) : Prop where
  configured : Configured config s
  awake : Awake s
  calm : Calm s
  short : Short s

namespace Settled

variable {config : Batch.Config}

lemma of_empty (hsound : Sound config) (hc : Configured config s) (hw : Awake s)
    (he : ∀ model q, s.queue? model = some q → q.waiting = []) : Settled config s where
  configured := hc
  awake := hw
  calm := ⟨fun model q hq => hsound.fits hc hq (he model q hq),
    fun model q hq => timely_of_empty (he model q hq)⟩
  short model q hq := by
    rw [Queue.pending, he model q hq]
    exact (hsound.fits hc hq (he model q hq)).positive

lemma start (hsound : Sound config) : Settled config (start config) := by
  refine of_empty hsound (.start config) (.start config) fun model q hq => ?_
  obtain ⟨m, rfl⟩ := eq_of_queue?_start hq
  rfl

lemma step (hsound : Sound config) (h : Settled config s) {e : Event} (he : OnTime s e) :
    Settled config (s.step e) := by
  have hc : Configured config (s.step e) := step_preserves (fun _ _ => .move) s e h.configured
  have hw : Awake (s.step e) := step_preserves (fun _ _ => .move) s e h.awake
  by_cases hne : e = .shutDown
  · subst hne
    refine of_empty hsound hc hw (hw.closed ?_)
    exact isShutDown_shutDown ..
  · have hs : s.batcher.config.strategy ≠ .timeBased := h.configured.kept ▸ hsound.strategy
    obtain ⟨u, new, _, hcalm, hd, hshort⟩ := step_swept hs h.calm h.awake h.short he hne
    refine ⟨hc, hw, hcalm.dispatched hd, ?_⟩
    rcases hshort with hu | hs'
    · exact hu.dispatched hcalm hd
    · exact hs'

theorem run (hsound : Sound config) {events : List Event}
    (hp : Punctual (History.start config) events) : Settled config (run config events) := by
  have h := start hsound
  rw [History.run]
  generalize History.start config = s at h hp
  induction events generalizing s with
  | nil => exact h
  | cons e events ih => exact ih _ (h.step hsound hp.1) hp.2

end Settled

def OneBatch (s : History) (new : List Sent) (s' : History) : Prop :=
  s'.sent = s.sent ++ new ∧ ∀ model, batchesOf model new = [] ∨
    ∃ batch q, batchesOf model new = [batch] ∧ s'.queue? model = some q ∧ q.waiting = []

lemma oneBatch_of_swept {u : History} (hu : u.sent = s.sent) (hc : Calm u)
    (hd : Dispatched Swept u new s') : OneBatch s new s' := by
  refine ⟨by rw [hd.sent, hu], fun model => ?_⟩
  cases hq : u.queue? model with
  | none => exact Or.inl (hd.absent model hq).2
  | some q =>
    obtain ⟨q', hq', hR⟩ := hd.queue model q hq
    obtain ⟨_, hclears⟩ := hR (hc.fits model q hq)
    rcases hclears with ⟨hl, _⟩ | ⟨hl, hw, _⟩
    · exact Or.inl hl
    · generalize batchesOf model new = l at hl ⊢
      match l with
      | [] => exact Or.inl rfl
      | [batch] => exact Or.inr ⟨batch, q', rfl, hq', hw⟩
      | _ :: _ :: _ => simp at hl

lemma Settled.oneBatch {config : Batch.Config} (hsound : Sound config) (h : Settled config s) {e : Event}
    (hne : e ≠ .shutDown) : ∃ new, OneBatch s new (s.step e) := by
  have htime : OnTime s e ∨ ∃ d, e = .timePasses d := by
    cases e with
    | timePasses d => exact Or.inr ⟨d, rfl⟩
    | _ => exact Or.inl trivial
  rcases htime with ht | ⟨d, rfl⟩
  · have hs : s.batcher.config.strategy ≠ .timeBased := h.configured.kept ▸ hsound.strategy
    obtain ⟨u, new, hu, hc, hd, _⟩ := step_swept hs h.calm h.awake h.short ht hne
    exact ⟨new, oneBatch_of_swept hu hc hd⟩
  · exact ⟨[], (List.append_nil _).symm, fun _ => Or.inl rfl⟩

/-- In every run in which no timer that counts is late, if the validation has nothing against a model and not
only timers send batches out: a queue is never full, nobody waits in it longer than its timeout, and a batch
that goes out before the shutdown empties it. -/
theorem queues_stay_short (config : Batch.Config) (events : List Event)
    (hmodels : ∀ name problem, .model name problem ∉ config.problems)
    (hstrategy : config.strategy ≠ .timeBased) (hp : Punctual (start config) events) :
    (∀ model m, config.models.find? model = some m →
      ∃ q, (run config events).queue? model = some q ∧ q.pending < m.maxSize ∧
        ∀ r ∈ q.waiting, ∃ a ∈ (run config events).arrivals, a.request = r ∧
          (run config events).now ≤ a.time + m.timeout) ∧
    ∀ e, e ≠ .shutDown → ∃ new, OneBatch (run config events) new ((run config events).step e) := by
  have hsound : Sound config := ⟨hmodels, hstrategy⟩
  have h := Settled.run hsound hp
  generalize run config events = s at h ⊢
  constructor
  · intro model m hm
    rw [← h.configured.models model] at hm
    obtain ⟨q, hq, rfl⟩ := Option.map_eq_some_iff.1 hm
    refine ⟨q, hq, h.short model q hq, fun r hr => ?_⟩
    obtain ⟨timer, _, hle, ha⟩ := h.calm.timely model q hq (List.ne_nil_of_mem hr)
    obtain ⟨a, hmem, har, hd⟩ := ha r hr
    exact ⟨a, hmem, har, Nat.le_trans hle hd⟩
  · intro e hne
    exact h.oneBatch hsound hne

theorem queues_stay_short_in_pairs :
    (∃ q, (run inPairs [plea .low, .timePasses (.ofSeconds 1)]).queue? "m" = some q ∧ q.pending < 2 ∧
      ∀ r ∈ q.waiting, ∃ a ∈ (run inPairs [plea .low, .timePasses (.ofSeconds 1)]).arrivals,
        a.request = r ∧
          (run inPairs [plea .low, .timePasses (.ofSeconds 1)]).now ≤ a.time + Duration.ofSeconds 1) ∧
    ∃ new, new.length = 1 ∧ OneBatch (run inPairs [plea .low, .timePasses (.ofSeconds 1)]) new
      ((run inPairs [plea .low, .timePasses (.ofSeconds 1)]).step (plea .high)) := by
  have h := queues_stay_short inPairs [plea .low, .timePasses (.ofSeconds 1)]
    (fun name problem hp => by
      obtain ⟨m, hm, hp⟩ := Config.model_mem_problems.1 hp
      obtain ⟨-, rfl⟩ := Prod.mk.inj (List.mem_singleton.1 hm)
      exact absurd hp (List.not_mem_nil (a := problem)))
    (by decide)
    ⟨trivial, fun e he _ => by
      obtain rfl := List.mem_singleton.1 he
      decide, trivial⟩
  refine ⟨h.1 "m" _ rfl, ?_⟩
  obtain ⟨new, hn⟩ := h.2 (plea .high) (by simp [plea])
  refine ⟨new, ?_, hn⟩
  have hlen := congrArg List.length hn.1
  rw [List.length_append] at hlen
  have h0 : (run inPairs [plea .low, .timePasses (.ofSeconds 1)]).sent.length = 0 := by decide
  have h1 : ((run inPairs [plea .low, .timePasses (.ofSeconds 1)]).step (plea .high)).sent.length = 1 := by
    decide
  omega

end History

end Batcher

end Serving
