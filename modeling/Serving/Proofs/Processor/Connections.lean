import Mathlib.Data.List.Induction
import Serving.Proofs.Processor.Permits

/-! What the runs of a processor do to the instances they execute on. An instance that nobody else touches
has as many requests in flight as batches execute on it. -/

namespace Serving

namespace Balancer

lemma instance?_startRequest (b : Balancer) (id other : String) :
    (b.startRequest id).2.instance? other =
      (b.instance? other).map fun i => if other = id then { i with active := i.active + 1 } else i := by
  simp only [startRequest, modify, instance?, Table.find?_modify]
  split
  · rename_i he
    simp [he]
  · simp

lemma instance?_endRequest (b : Balancer) (now : Instant) (id other : String) (success : Bool)
    (took : Duration) : (b.endRequest now id success took).instance? other =
      (b.instance? other).map fun i => if other = id then i.finish success took else i := by
  by_cases hc : b.instances.contains id = true
  · simp only [endRequest, hc, if_true, instance?, Table.find?_modify]
    split
    · rename_i he
      simp [he]
    · simp
  · have hi : b.instances.find? id = none := by simpa [Table.contains] using hc
    rw [endRequest, if_neg hc]
    split
    · rename_i he
      rw [he, instance?, hi, Option.map_none]
    · simp

lemma active_of_perform {b : Balancer} {now : Instant} {o : Operation} {id : String} {i : Instance}
    (h : (b.perform now o).instance? id = some i) (hs : o ≠ .startRequest id)
    (he : ∀ success took, o ≠ .endRequest id success took) :
    o = .register i ∧ i.id = id ∨ ∃ j, b.instance? id = some j ∧ i.active = j.active := by
  have hsame (h : b.instance? id = some i) : ∃ j, b.instance? id = some j ∧ i.active = j.active := ⟨i, h, rfl⟩
  have hmodify {target : String} {f : Instance → Instance}
      (h : (b.modify target f).2.instance? id = some i) (hf : ∀ j, (f j).active = j.active) :
      ∃ j, b.instance? id = some j ∧ i.active = j.active := by
    simp only [modify, instance?, Table.find?_modify] at h
    split at h
    · rename_i hid
      obtain ⟨j, hj, rfl⟩ := Option.map_eq_some_iff.1 h
      exact ⟨j, hid ▸ hj, hf j⟩
    · exact hsame h
  cases o with
  | register j =>
    simp only [perform, register, instance?, Table.find?_insert] at h
    split at h
    · rename_i hid
      obtain rfl := Option.some.inj h
      exact Or.inl ⟨rfl, hid.symm⟩
    · exact Or.inr (hsame h)
  | unregister gone =>
    simp only [perform, unregister, instance?, Table.find?_erase] at h
    split at h
    · cases h
    · exact Or.inr (hsame h)
  | select service key =>
    simp only [perform, instance?, select_instances] at h
    exact Or.inr (hsame h)
  | startRequest target =>
    have hne : id ≠ target := fun hid => hs (hid ▸ rfl)
    simp only [perform, instance?_startRequest, if_neg hne, Option.map_id'] at h
    exact Or.inr (hsame h)
  | endRequest target success took =>
    have hne : id ≠ target := fun hid => he success took (hid ▸ rfl)
    simp only [perform, instance?_endRequest, if_neg hne, Option.map_id'] at h
    exact Or.inr (hsame h)
  | recordProbe target healthy cpu memory =>
    simp only [perform, recordProbe] at h
    split at h
    · exact Or.inr (hsame h)
    · exact Or.inr (hmodify h fun _ => rfl)
  | setHealth target status => exact Or.inr (hmodify h fun _ => rfl)
  | updateResources target cpu memory => exact Or.inr (hmodify h fun _ => rfl)
  | setAlgorithm a =>
    simp only [perform, setAlgorithm] at h
    split at h
    · exact Or.inr (hsame h)
    · exact Or.inr (hsame h)
  | timePasses d => exact Or.inr (hsame h)

end Balancer

namespace Processor

open Batch

lemma requestPermit_running (p : Processor) (number : Nat) (model : String) (items : List Item) :
    (p.requestPermit number model items).2.running = p.running := by
  simp only [requestPermit]
  split
  · rfl
  · split
    · rfl
    · split <;> rfl

lemma release_running (p : Processor) (model : String) : (p.release model).2.running = p.running := by
  simp only [release]
  split
  · rfl
  · split <;> rfl

namespace History

variable {models : Table Model} {config : Balancer.Config} {s s' : History} {owed : String → Nat}

lemma passOn_eq (s : History) (next : Option Nat) :
    (s.passOn next).balancer = s.balancer ∧ (s.passOn next).now = s.now ∧
      (s.passOn next).processor = s.processor := by
  cases next with
  | none => exact ⟨rfl, rfl, rfl⟩
  | some n =>
    simp only [passOn]
    split <;> exact ⟨rfl, rfl, rfl⟩

/-- What an event does to the balancer and to the batches that execute. -/
inductive Effect (s s' : History) : Prop
  | quiet (hb : s'.balancer = s.balancer) (hr : s'.processor.running = s.processor.running)
  | refused (model : String) (hb : s'.balancer = s.balancer.perform s.now (.select model none))
    (hr : s'.processor.running = s.processor.running)
  | begun (run : Run) (hc : (s.balancer.select s.now run.model).1 = some run.target)
    (hb : s'.balancer = (s.balancer.perform s.now (.select run.model none)).perform s.now
      (.startRequest run.target.id))
    (hr : s'.processor.running = s.processor.running ++ [run])
  | ended (run : Run) (hm : run ∈ s.processor.running) (success : Bool) (took : Duration)
    (hb : s'.balancer = s.balancer.perform s.now (.endRequest run.target.id success took))
    (hr : s'.processor.running = s.processor.running.filter (·.number != run.number))

lemma effect_begins (s : History) (number : Nat) :
    Effect s (s.begins number) ∧ (s.begins number).now = s.now := by
  simp only [begins]
  split
  · exact ⟨.quiet rfl rfl, rfl⟩
  · rename_i c hc
    split
    · rename_i results next p b hb
      obtain ⟨counts, rfl, rfl, rfl⟩ := begin_noCapacity hb
      obtain ⟨h₁, h₂, h₃⟩ := passOn_eq { s with
        admitted := s.admitted.filter (·.number != number)
        processor := ({ s.processor with counts }.release c.model).2
        balancer := (s.balancer.select s.now c.model).2 } ({ s.processor with counts }.release c.model).1
      exact ⟨.refused c.model h₁ ((congrArg (·.running) h₃).trans (release_running ..)), h₂⟩
    · rename_i run p b hb
      obtain ⟨hc, _, hm, rfl, rfl⟩ := begin_begun hb
      rw [← hm] at hc ⊢
      exact ⟨.begun run hc rfl rfl, rfl⟩

lemma effect_ends (s : History) (number : Nat) (verdict : Verdict) :
    Effect s (s.ends number verdict) ∧ (s.ends number verdict).now = s.now := by
  simp only [ends]
  split
  · exact ⟨.quiet rfl rfl, rfl⟩
  · rename_i run hr
    obtain ⟨counts, success, _, hp, hb⟩ := finish_eq s.processor s.balancer s.now run verdict
    obtain ⟨hm, _⟩ := Numbered.of_find? hr
    obtain ⟨h₁, h₂, h₃⟩ := passOn_eq { s with
      processor := (s.processor.finish s.balancer s.now run verdict).2.1
      balancer := (s.processor.finish s.balancer s.now run verdict).2.2 }
      (s.processor.finish s.balancer s.now run verdict).1.next
    have hr' := (congrArg (·.running) (h₃.trans hp)).trans (release_running ..)
    exact ⟨.ended run hm success _ (h₁.trans hb) hr', h₂⟩

theorem effect (s : History) (e : Event) :
    (∃ o, e = .elsewhere o) ∨ Effect s (s.step e) ∧ (s.step e).now = s.now := by
  cases e with
  | call model items =>
    refine Or.inr ?_
    simp only [step, call]
    split <;> exact ⟨.quiet rfl (requestPermit_running ..), rfl⟩
  | begins number => exact Or.inr (s.effect_begins number)
  | ends number verdict => exact Or.inr (s.effect_ends number verdict)
  | cancelled number =>
    refine Or.inr ?_
    simp only [step, cancelled]
    split
    · exact ⟨.quiet rfl rfl, rfl⟩
    · rename_i c _ hc
      obtain ⟨h₁, h₂, h₃⟩ := passOn_eq { s with
        admitted := s.admitted.filter (·.number != number)
        processor := (s.processor.release c.model).2 } (s.processor.release c.model).1
      exact ⟨.quiet h₁ ((congrArg (·.running) h₃).trans (release_running ..)), h₂⟩
    · exact s.effect_ends number .crashed
  | elsewhere o => exact Or.inl ⟨o, rfl⟩

/-- The balancer as its other users know it. -/
structure Seen (config : Balancer.Config) (events : List Event) (s : History) (pool : Balancer.History) :
    Prop where
  tracked : pool.Tracked config
  balancer : pool.balancer = s.balancer
  now : pool.now = s.now
  registered : ∀ i, .register i ∈ List.map (·.2) pool.past → .elsewhere (.register i) ∈ events

namespace Seen

variable {events : List Event} {pool : Balancer.History} {e : Event}

lemma start (models : Table Model) (config : Balancer.Config) (dice : Nat → Float) :
    Seen config [] (History.start models config dice) (.start config dice) where
  tracked := .start config dice
  balancer := rfl
  now := rfl
  registered _ h := by cases h

lemma perform (h : Seen config events s pool) (o : Balancer.Operation)
    (hb : s'.balancer = s.balancer.perform s.now o) (hn : s'.now = s.now + o.duration)
    (hr : ∀ i, o = .register i → .elsewhere (.register i) ∈ events) : Seen config events s' (pool.step o) where
  tracked := h.tracked.step o
  balancer := by rw [Balancer.History.step, h.balancer, h.now, hb]
  now := by rw [Balancer.History.step, h.now, hn]
  registered i hi := by
    rcases List.mem_cons.1 hi with he | hi
    · exact hr i he.symm
    · exact h.registered i hi

lemma more (h : Seen config events s pool) (e : Event) : Seen config (events ++ [e]) s pool :=
  ⟨h.tracked, h.balancer, h.now, fun i hi => List.mem_append_left _ (h.registered i hi)⟩

lemma step (h : Seen config events s pool) (e : Event) :
    ∃ pool, Seen config (events ++ [e]) (s.step e) pool := by
  have h' := h.more e
  rcases s.effect e with ⟨o, rfl⟩ | ⟨he, hn⟩
  · refine ⟨_, h'.perform o rfl rfl fun i hi => ?_⟩
    rw [hi]
    exact List.mem_append_right _ (List.mem_singleton_self _)
  · cases he with
    | quiet hb _ => exact ⟨pool, h'.tracked, h'.balancer.trans hb.symm, h'.now.trans hn.symm, h'.registered⟩
    | refused model hb _ => exact ⟨_, h'.perform (.select model none) hb hn fun i hi => by cases hi⟩
    | begun run _ hb _ =>
      let chosen : History := { s with balancer := s.balancer.perform s.now (.select run.model none) }
      have hc : Seen config (events ++ [e]) chosen _ := h'.perform (.select run.model none) rfl rfl
        fun i hi => by cases hi
      exact ⟨_, hc.perform (.startRequest run.target.id) hb hn fun i hi => by cases hi⟩
    | ended run _ success took hb _ =>
      exact ⟨_, h'.perform (.endRequest run.target.id success took) hb hn fun i hi => by cases hi⟩

/-- Who is chosen is on record under its id, and was registered at some time. -/
lemma chosen (h : Seen config events s pool) {model : String} {i : Instance}
    (hc : (s.balancer.select s.now model).1 = some i) :
    s.balancer.instance? i.id = some i ∧ ∃ j, .elsewhere (.register j) ∈ events ∧ j.id = i.id := by
  have hm := Balancer.mem_of_select hc
  rw [← h.balancer, ← h.now, h.tracked.mem_candidates_iff] at hm
  obtain ⟨hi, he⟩ := hm
  obtain ⟨j, hj, hid⟩ := Balancer.Past.exists_register_of_standing he.standing
  exact ⟨h.balancer ▸ hi, j, h.registered j hj, hid⟩

end Seen

/-- What one event leaves in flight on an instance that is not registered anew while batches execute there. -/
lemma active_step {id : String} {e : Event} (hs : (s.processor.running.map (·.number)).Nodup)
    (hregister : ∀ i, e = .elsewhere (.register i) → i.id = id → i.active = 0 ∧ s.executing id = 0)
    (hstarts : e ≠ .elsewhere (.startRequest id))
    (hends : ∀ success took, e ≠ .elsewhere (.endRequest id success took))
    (ha : ∀ i, s.balancer.instance? id = some i → i.active = s.executing id) {i : Instance}
    (hi : (s.step e).balancer.instance? id = some i) : i.active = (s.step e).executing id := by
  have hasked (model : String) (other : String) :
      (s.balancer.perform s.now (.select model none)).instance? other = s.balancer.instance? other := by
    simp only [Balancer.perform, Balancer.instance?, Balancer.select_instances]
  rcases s.effect e with ⟨o, rfl⟩ | ⟨he, _⟩
  · have hsame : (s.step (.elsewhere o)).executing id = s.executing id := rfl
    rw [hsame]
    rcases Balancer.active_of_perform hi (fun ho => hstarts (ho ▸ rfl))
      (fun success took ho => hends success took (ho ▸ rfl)) with ⟨rfl, hid⟩ | ⟨j, hj, hij⟩
    · obtain ⟨hzero, hnone⟩ := hregister i rfl hid
      rw [hzero, hnone]
    · rw [hij]
      exact ha j hj
  · cases he with
    | quiet hb hr =>
      rw [hb] at hi
      rw [executing, hr]
      exact ha i hi
    | refused model hb hr =>
      rw [hb, hasked] at hi
      rw [executing, hr]
      exact ha i hi
    | begun run hc hb hr =>
      rw [hb] at hi
      change (Balancer.startRequest _ _).2.instance? id = some i at hi
      rw [Balancer.instance?_startRequest, hasked] at hi
      obtain ⟨j, hj, rfl⟩ := Option.map_eq_some_iff.1 hi
      have hj' := ha j hj
      rw [executing] at hj'
      rw [executing, hr, List.countP_append, List.countP_singleton]
      by_cases hid : id = run.target.id
      · subst hid
        simp [hj']
      · simp [hid, Ne.symm hid, hj']
    | ended run hm success took hb hr =>
      rw [hb] at hi
      change (Balancer.endRequest ..).instance? id = some i at hi
      rw [Balancer.instance?_endRequest] at hi
      obtain ⟨j, hj, rfl⟩ := Option.map_eq_some_iff.1 hi
      have hj' := ha j hj
      rw [executing, (Numbered.perm_of_mem hs hm).countP_eq, List.countP_cons] at hj'
      rw [executing, hr]
      by_cases hid : id = run.target.id
      · simp only [hid, beq_self_eq_true, if_true, Instance.finish_active] at hj' ⊢
        omega
      · simp only [hid, Ne.symm hid, beq_iff_eq, if_false] at hj' ⊢
        exact hj'

section Run

variable {dice : Nat → Float} {events : List Event} {id : String} {e : Event}

/-- In a run, an instance is registered with nothing in flight, is not registered again while batches execute
on it, and nobody but the processor starts or ends requests there. -/
structure Untouched (models : Table Model) (config : Balancer.Config) (dice : Nat → Float) (id : String)
    (events : List Event) : Prop where
  fresh : ∀ i, .elsewhere (.register i) ∈ events → i.id = id → i.active = 0
  again : ∀ before i after, events = before ++ .elsewhere (.register i) :: after → i.id = id →
    (∃ j, .elsewhere (.register j) ∈ before ∧ j.id = id) → (run models config dice before).executing id = 0
  starts : .elsewhere (.startRequest id) ∉ events
  ends : ∀ success took, .elsewhere (.endRequest id success took) ∉ events

lemma Untouched.before (h : Untouched models config dice id (events ++ [e])) :
    Untouched models config dice id events where
  fresh i hi := h.fresh i (List.mem_append_left _ hi)
  again before i after he := h.again before i (after ++ [e]) (by rw [he, List.append_assoc, List.cons_append])
  starts hm := h.starts (List.mem_append_left _ hm)
  ends success took hm := h.ends success took (List.mem_append_left _ hm)

structure Connected (models : Table Model) (config : Balancer.Config) (dice : Nat → Float)
    (events : List Event) : Prop where
  staffed : Staffed models (fun _ => 0) (run models config dice events)
  seen : ∃ pool, Seen config events (run models config dice events) pool
  known : ∀ r ∈ (run models config dice events).processor.running,
    ∃ i, .elsewhere (.register i) ∈ events ∧ i.id = r.target.id
  active : ∀ id, Untouched models config dice id events → ∀ i,
    (run models config dice events).balancer.instance? id = some i →
      i.active = (run models config dice events).executing id

lemma known_step {pool : Balancer.History} (hseen : Seen config events s pool)
    (hk : ∀ r ∈ s.processor.running, ∃ i, .elsewhere (.register i) ∈ events ∧ i.id = r.target.id) {r : Run}
    (hr : r ∈ (s.step e).processor.running) :
    ∃ i, .elsewhere (.register i) ∈ events ++ [e] ∧ i.id = r.target.id := by
  have hmore (h : ∃ i, .elsewhere (.register i) ∈ events ∧ i.id = r.target.id) :
      ∃ i, .elsewhere (.register i) ∈ events ++ [e] ∧ i.id = r.target.id := by
    obtain ⟨i, hi, hid⟩ := h
    exact ⟨i, List.mem_append_left _ hi, hid⟩
  rcases s.effect e with ⟨o, rfl⟩ | ⟨he, _⟩
  · exact hmore (hk r hr)
  · cases he with
    | quiet _ heq => exact hmore (hk r (heq ▸ hr))
    | refused _ _ heq => exact hmore (hk r (heq ▸ hr))
    | begun run hc _ heq =>
      rw [heq] at hr
      rcases List.mem_append.1 hr with hr | hr
      · exact hmore (hk r hr)
      · obtain rfl := List.mem_singleton.1 hr
        exact hmore (hseen.chosen hc).2
    | ended run _ _ _ _ heq =>
      rw [heq] at hr
      exact hmore (hk r (List.mem_filter.1 hr).1)

theorem connected (models : Table Model) (config : Balancer.Config) (dice : Nat → Float)
    (events : List Event) : Connected models config dice events := by
  induction events using List.reverseRecOn with
  | nil =>
    refine ⟨.start models config dice, ⟨_, .start models config dice⟩, ?_, ?_⟩
    · intro r hr
      cases hr
    · intro id _ i hi
      cases hi
  | append_singleton events e ih =>
    obtain ⟨hs, ⟨pool, hseen⟩, hk, ha⟩ := ih
    have hstep := run_append models config dice events e
    refine ⟨?_, ?_, ?_, ?_⟩
    · rw [hstep]
      exact hs.step e
    · rw [hstep]
      exact hseen.step e
    · rw [hstep]
      exact fun r hr => known_step hseen hk hr
    · intro id hu i hi
      rw [hstep] at hi ⊢
      refine active_step hs.nodup_running (fun j he hid => ?_) ?_ ?_ (ha id hu.before) hi
      · subst he
        refine ⟨hu.fresh j (by simp) hid, ?_⟩
        -- At its first registration no batch has ever been sent to it.
        by_cases hb : ∃ k, .elsewhere (.register k) ∈ events ∧ k.id = id
        · exact hu.again events j [] rfl hid hb
        · rw [executing, List.countP_eq_zero]
          intro r hr hrid
          obtain ⟨k, hk, hkid⟩ := hk r hr
          exact hb ⟨k, hk, hkid.trans (beq_iff_eq.1 hrid)⟩
      · rintro rfl
        exact hu.starts (by simp)
      · rintro success took rfl
        exact hu.ends success took (by simp)

/-- At every moment the permits of a model are with the calls that have them or free, and an instance that is
left to the processor has as many requests in flight as batches execute on it; so when no batch is left, every
permit is free and nothing is in flight. -/
theorem permits_and_connections (models : Table Model) (config : Balancer.Config) (dice : Nat → Float)
    (events : List Event) :
    let s := run models config dice events
    (∀ model m, models.find? model = some m → s.holders model ≤ max 1 m.concurrency ∧
      s.processor.available model = some (max 1 m.concurrency - s.holders model)) ∧
    (∀ model, models.find? model = none → s.holders model = 0) ∧
    (∀ model, s.holders model = 0 → ∀ c ∈ s.line, c.model ≠ model) ∧
    (∀ id, Untouched models config dice id events → ∀ i, s.balancer.instance? id = some i →
      i.active = s.executing id) ∧
    (s.admitted = [] → s.processor.running = [] → s.line = [] ∧
      (∀ model m, models.find? model = some m → s.processor.available model = some (max 1 m.concurrency)) ∧
      ∀ id, Untouched models config dice id events → ∀ i, s.balancer.instance? id = some i → i.active = 0) := by
  intro s
  have h := connected models config dice events
  have hs : Staffed models (fun _ => 0) s := h.staffed
  refine ⟨fun model m hm => hs.available hm, fun model hm => (hs.unknown model hm).2.1,
    fun model => hs.nobody_waits, h.active, fun hadmitted hrunning => ?_⟩
  have hnone (model : String) : s.holders model = 0 := by
    rw [holders, hadmitted, hrunning]
    rfl
  refine ⟨?_, ?_, ?_⟩
  · rw [List.eq_nil_iff_forall_not_mem]
    intro c hc
    exact hs.nobody_waits (hnone c.model) c hc rfl
  · intro model m hm
    rw [(hs.available hm).2, hnone, Nat.sub_zero]
  · intro id hu i hi
    have hexecuting : s.executing id = 0 := by
      rw [executing, hrunning]
      rfl
    exact (h.active id hu i hi).trans hexecuting

def alone : Table Model := .ofList [("chat", { concurrency := 1 })]

def dropped : List Event :=
  [.elsewhere (.register { id := "a", service := "chat", host := "localhost", port := 1, health := .healthy }),
    .call "chat" [⟨"x", .null⟩], .begins 0, .call "chat" [⟨"y", .null⟩], .cancelled 0, .begins 1]

lemma untouched_dropped : Untouched alone {} (fun _ => 0.0) "a" dropped where
  fresh i hi hid := by
    simp only [dropped, List.mem_cons, Event.elsewhere.injEq, Balancer.Operation.register.injEq] at hi
    rcases hi with rfl | hi
    · rfl
    · simp at hi
  again before i after he hid hb := by
    obtain ⟨j, hj, _⟩ := hb
    cases before with
    | nil => cases hj
    | cons e before =>
      have hmem : Event.elsewhere (.register i) ∈ before ++ .elsewhere (.register i) :: after := by simp
      rw [dropped, List.cons_append, List.cons.injEq] at he
      rw [← he.2] at hmem
      simp at hmem
  starts := by simp [dropped]
  ends success took := by simp [dropped]

/-- A call in line gets the permit of one that is dropped while it executes. -/
theorem permits_and_connections_after_drop :
    let s := run alone {} (fun _ => 0.0) dropped
    s.holders "chat" ≤ max 1 1 ∧ s.processor.available "chat" = some 0 ∧
      Untouched alone {} (fun _ => 0.0) "a" dropped ∧
      ∃ i, s.balancer.instance? "a" = some i ∧ i.active = 1 := by
  intro s
  have hm : alone.find? "chat" = some { concurrency := 1 } := by decide
  obtain ⟨hshares, _, _, hactive, _⟩ := permits_and_connections alone {} (fun _ => 0.0) dropped
  obtain ⟨hlimit, havailable⟩ := hshares "chat" _ hm
  have hholders : s.holders "chat" = 1 := by decide +kernel
  have hsome : (s.balancer.instance? "a").isSome = true := by decide +kernel
  obtain ⟨i, hi⟩ := Option.isSome_iff_exists.1 hsome
  have hexecuting : s.executing "a" = 1 := by decide +kernel
  refine ⟨hlimit, ?_, untouched_dropped, i, hi, ?_⟩
  · rw [havailable]
    exact congrArg (fun n => some (max 1 1 - n)) hholders
  · exact (hactive "a" untouched_dropped i hi).trans hexecuting

end Run

end History

end Processor

end Serving
