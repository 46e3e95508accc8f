import Serving.Proofs.Batcher.Division

/-! Nothing gets lost and nothing happens twice: each accepted request is in one place, and the counters say
how many are where. -/

namespace Serving.Batcher.History

open Batch

variable {s : History}

def answersOf (s : History) (model : String) : List Delivery := (s.endedOf model).flatMap (·.answers)

/-- Requests in batches that went out and have not come to their end. -/
def underway (s : History) (model : String) : List Queued :=
  (batchesOf model (s.batcher.inFlight ++ s.broken.map (·.batch))).flatten

def completed (s : History) (model : String) : List Nat :=
  ((s.answersOf model).filter (·.result.isOk)).map (·.ticket)

def failed (s : History) (model : String) : List Nat :=
  ((s.answersOf model).filter (!·.result.isOk)).map (·.ticket)

/-- Requests whose callers gave up, and that are no longer in a queue or a batch. -/
def orphaned (s : History) (model : String) : List Nat :=
  (tickets (s.accepted model)).filter fun t =>
    t ∈ s.gaveUp ∧ t ∉ tickets (s.waiting model) ∧ t ∉ tickets (s.underway model)

lemma finishes_perm {l : List Finish} {gaveUp : List Nat}
    (h : ∀ f ∈ l, ∃ abandoned, (tickets f.batch.requests).Perm (f.answers.map (·.ticket) ++ abandoned) ∧
      ∀ t ∈ abandoned, t ∈ gaveUp) :
    ∃ abandoned, (l.flatMap fun f => tickets f.batch.requests).Perm
        ((l.flatMap (·.answers)).map (·.ticket) ++ abandoned) ∧
      ∀ t ∈ abandoned, t ∈ gaveUp := by
  induction l with
  | nil => exact ⟨[], by simp⟩
  | cons f l ih =>
    obtain ⟨first, hp, hg⟩ := h f List.mem_cons_self
    obtain ⟨others, hp', hg'⟩ := ih fun g hgl => h g (List.mem_cons_of_mem _ hgl)
    refine ⟨first ++ others, ?_, List.forall_mem_append.2 ⟨hg, hg'⟩⟩
    simp only [List.flatMap_cons, List.map_append]
    refine (hp.append hp').trans (List.perm_iff_count.2 fun t => ?_)
    simp only [List.count_append]
    omega

lemma answersOf_perm (s : History) (model : String) :
    ((s.answersOf model).map (·.ticket)).Perm (s.completed model ++ s.failed model) := by
  rw [completed, failed, ← List.map_append]
  exact (List.filter_append_perm _ _).symm.map _

lemma mem_answered {model : String} {t : Nat} (h : t ∈ s.completed model ++ s.failed model) :
    t ∈ s.answered := by
  rw [← (s.answersOf_perm model).mem_iff] at h
  obtain ⟨d, hd, rfl⟩ := List.mem_map.1 h
  obtain ⟨f, hf, hdf⟩ := List.mem_flatMap.1 hd
  exact List.mem_flatMap.2 ⟨f, List.mem_append_left _ (List.mem_filter.1 hf).1, List.mem_map.2 ⟨d, hdf, rfl⟩⟩

structure Conserved (s : History) (model : String) (q : Queue) : Prop where
  sum : q.counts.submitted = ((q.lane .critical).length + (q.lane .high).length +
      (q.lane .normal).length + (q.lane .low).length) + (s.underway model).length +
    q.counts.completed + q.counts.failed + q.counts.orphaned
  places : (tickets (s.accepted model)).Perm (tickets q.inOrder ++ tickets (s.underway model) ++
    s.completed model ++ s.failed model ++ s.orphaned model)
  once : (tickets (s.accepted model)).Nodup
  submitted : q.counts.submitted = (s.accepted model).length
  completed : q.counts.completed = (s.completed model).length
  failed : q.counts.failed = (s.failed model).length
  orphaned : q.counts.orphaned = (s.orphaned model).length

namespace Divided

lemma sent_perm (h : Divided s) (model : String) :
    (batchesOf model s.sent).flatten.Perm
      (s.underway model ++ (s.endedOf model).flatMap fun f => f.batch.requests) := by
  have hb : (batchesOf model s.sent).flatten.Perm
      (batchesOf model (s.batcher.inFlight ++ (s.ended ++ s.broken).map (·.batch))).flatten :=
    ((h.batches.filter _).map _).flatten
  have he : batchesOf model (s.ended.map (·.batch)) = (s.endedOf model).map fun f => f.batch.requests := by
    simp [batchesOf, endedOf, List.filter_map, Function.comp_def]
  refine hb.trans ?_
  rw [List.map_append, batchesOf_append, batchesOf_append, he, List.flatten_append, List.flatten_append,
    underway, batchesOf_append, List.flatten_append, ← List.flatMap_def, List.append_assoc]
  exact List.perm_append_comm.append_left _

lemma places (h : Divided s) {model : String} {q : Queue} (hq : s.queue? model = some q) :
    ∃ orphans, (tickets (s.accepted model)).Perm (tickets (s.waiting model) ++ tickets (s.underway model) ++
        s.completed model ++ s.failed model ++ orphans) ∧
      (∀ t ∈ orphans, t ∈ s.gaveUp) ∧ q.counts.orphaned = orphans.length := by
  obtain ⟨dropped, hp, hdropped, ht⟩ := h.requests model
  obtain ⟨abandoned, hab, hgave⟩ := finishes_perm fun f hf =>
    h.shares f (List.mem_append_left _ (List.mem_filter.1 (hf : f ∈ s.endedOf model)).1)
  have hm : tickets ((s.endedOf model).flatMap fun f => f.batch.requests) =
      (s.endedOf model).flatMap fun f => tickets f.batch.requests := List.map_flatMap
  have hs : (tickets (batchesOf model s.sent).flatten).Perm
      (tickets (s.underway model) ++ (s.completed model ++ s.failed model ++ abandoned)) := by
    refine ((h.sent_perm model).map _).trans ?_
    rw [List.map_append]
    refine List.Perm.append_left _ ?_
    exact (hm ▸ hab).trans ((s.answersOf_perm model).append_right _)
  refine ⟨tickets dropped ++ abandoned, ?_, List.forall_mem_append.2 ⟨fun t ht => ?_, hgave⟩, ?_⟩
  · refine (hp.map _).trans ?_
    rw [List.map_append, List.map_append]
    refine ((hs.append_left _).append_right _).trans (List.perm_iff_count.2 fun t => ?_)
    simp only [List.count_append, tickets]
    omega
  · obtain ⟨r, hr, rfl⟩ := List.mem_map.1 ht
    exact hdropped r hr
  · have horp := (ht q hq).orphaned
    have hlen := (hm ▸ hab).length_eq
    simp only [tickets, List.length_map, List.length_append] at hlen ⊢
    omega

lemma orphaned_perm (h : Divided s) {model : String} {orphans : List Nat}
    (hp : (tickets (s.accepted model)).Perm (tickets (s.waiting model) ++ tickets (s.underway model) ++
      s.completed model ++ s.failed model ++ orphans)) (ho : ∀ t ∈ orphans, t ∈ s.gaveUp) :
    orphans.Perm (s.orphaned model) := by
  have hn := h.ordered.nodup_accepted model
  have hn' := hp.nodup_iff.1 hn
  refine (List.perm_ext_iff_of_nodup hn'.of_append_right (hn.filter _)).2 fun t => ?_
  have hd := List.disjoint_of_nodup_append hn'
  rw [List.mem_filter, decide_eq_true_iff, hp.mem_iff]
  constructor
  · intro ht
    have hw : t ∉ tickets (s.waiting model) := fun hw => hd (by simp [hw]) ht
    have hu : t ∉ tickets (s.underway model) := fun hu => hd (by simp [hu]) ht
    exact ⟨List.mem_append_right _ ht, ho t ht, hw, hu⟩
  · rintro ⟨ht, hg, hw, hu⟩
    rcases List.mem_append.1 ht with ht | ht
    · have hm : t ∈ s.completed model ++ s.failed model := by
        simpa [hw, hu] using ht
      exact absurd (mem_answered hm) fun ha =>
        List.disjoint_of_nodup_append h.nodup_callers (List.mem_append_right _ hg) ha
    · exact ht

lemma conserved (h : Divided s) {model : String} {q : Queue} (hq : s.queue? model = some q) :
    Conserved s model q := by
  obtain ⟨_, _, _, ht⟩ := h.requests model
  obtain ⟨hsub, hcom, hfail, _⟩ := ht q hq
  obtain ⟨orphans, hp, ho, horp⟩ := h.places hq
  have horphaned := h.orphaned_perm hp ho
  have hcompleted : q.counts.completed = (s.completed model).length := by
    rw [hcom, completed, List.length_map, List.countP_eq_length_filter]
    rfl
  have hfailed : q.counts.failed = (s.failed model).length := by
    rw [hfail, failed, List.length_map, List.countP_eq_length_filter]
    rfl
  have hplaces : (tickets (s.accepted model)).Perm (tickets q.inOrder ++ tickets (s.underway model) ++
      s.completed model ++ s.failed model ++ s.orphaned model) := by
    refine hp.trans (.append ?_ horphaned)
    rw [waiting_of_queue? hq]
    exact (((q.inOrder_perm.map _).symm.append_right _).append_right _).append_right _
  refine
    { sum := ?_
      places := hplaces
      once := h.ordered.nodup_accepted model
      submitted := hsub
      completed := hcompleted
      failed := hfailed
      orphaned := horp.trans horphaned.length_eq }
  have hlen := hplaces.length_eq
  have hlanes : q.inOrder.length = (q.lane .critical).length + (q.lane .high).length +
      (q.lane .normal).length + (q.lane .low).length := by
    simp [Queue.inOrder, Priority.drainOrder, Nat.add_assoc]
  simp only [tickets, List.length_map, List.length_append, hlanes] at hlen
  rw [hsub, hlen, hcompleted, hfailed, horp.trans horphaned.length_eq]

end Divided

/-- In every run, each accepted request is in a lane, in a batch on its way, completed, failed or an orphan,
and the counters agree. No request is in two batches, no caller is answered twice, and a request that is
turned away changes nothing. -/
theorem every_request_in_one_place (config : Batch.Config) (events : List Event) :
    (∀ model m, config.models.find? model = some m →
      ∃ q, (run config events).queue? model = some q ∧ Conserved (run config events) model q) ∧
    ((run config events).sent.flatMap fun batch => tickets batch.requests).Nodup ∧
    (run config events).answered.Nodup ∧
    ∀ (r : Request) (e : Error),
      ((run config events).batcher.submit (run config events).now r).1 = .error e →
      (e = .shuttingDown ∨ e = .unknownModelType r.model) ∧
      ((run config events).batcher.submit (run config events).now r).2 = (run config events).batcher ∧
      (run config events).step (.submission r) = run config events := by
  have hconfigured := Configured.run config events
  have h := Divided.run config events
  generalize run config events = s at hconfigured h ⊢
  refine ⟨fun model m hm => ?_, h.ordered.nodup_sent, h.nodup_callers.of_append_right, fun r e he => ?_⟩
  · rw [← hconfigured.models model] at hm
    obtain ⟨q, hq, _⟩ := Option.map_eq_some_iff.1 hm
    exact ⟨q, hq, h.conserved hq⟩
  · obtain ⟨hb, hcause⟩ := submit_error he
    refine ⟨?_, hb, step_rejected ?_⟩
    · rcases hcause with ⟨_, rfl⟩ | ⟨_, _, rfl⟩
      · exact Or.inl rfl
      · exact Or.inr rfl
    · rcases hcause with ⟨ho, _⟩ | ⟨_, hq, _⟩
      · exact Or.inl ho
      · exact Or.inr hq

/-- Five requests: an orphan, one that fails, two on their way, and one that waits. -/
def scattered : List Event :=
  [plea .low, .patienceEnds 0, plea .high, plea .low, plea .low, .runEnds 0 (.refused .shuttingDown),
    plea .normal]

theorem every_request_in_one_place_scattered :
    (∃ q, (run inPairs scattered).queue? "m" = some q ∧ Conserved (run inPairs scattered) "m" q ∧
      q.counts = { submitted := 5, failed := 1, timedOut := 1, orphaned := 1, batches := 1 }) ∧
    ((run inPairs scattered).batcher.submit (run inPairs scattered).now ⟨"r", "n", .null, .low, none⟩).2 =
      (run inPairs scattered).batcher := by
  obtain ⟨hplaces, _, _, hreject⟩ := every_request_in_one_place inPairs scattered
  constructor
  · obtain ⟨q, hq, hc⟩ := hplaces "m" _ rfl
    refine ⟨q, hq, hc, ?_⟩
    have hcounts : ((run inPairs scattered).queue? "m").map (·.counts) =
        some { submitted := 5, failed := 1, timedOut := 1, orphaned := 1, batches := 1 } := by decide
    rw [hq] at hcounts
    exact Option.some.inj hcounts
  · exact (hreject ⟨"r", "n", .null, .low, none⟩ (.unknownModelType "n") rfl).2.1

end Serving.Batcher.History
