import Mathlib.Data.List.Pairwise
import Serving.Proofs.Batcher.Conservation

/-! Who gets which answer. A batch owes each of its requests one result, by its place in the batch, and
delivers it to the callers who still wait. -/

namespace Serving

namespace Batch

/-- What a batch owes to its requests at its end, if all callers still wait. -/
def Sent.owed (s : Sent) (ending : Ending) : List (Queued × Except Error Json) :=
  match s.results ending with
  | some results => s.requests.zip results
  | none => s.requests.map fun r => (r, .error (Batcher.droppedError r.request))

/-- The batch fails as a whole: it was refused, or the executor failed or did not answer item by item. -/
inductive Sent.Failed (s : Sent) : Ending → Error → Prop
  | refused (e : Error) : Failed s (.refused e) e
  | failed (target : Instance) (e : Error) : Failed s (.executed target (.failed e)) e
  | malformed {target : Instance} {outcomes : List Outcome} {e : Error} :
      outcomes.map (·.id) ≠ s.requests.map (·.request.id) →
      Processor.judge ⟨s.number, s.model, s.items, target, s.started⟩ outcomes = .error e →
      Failed s (.executed target (.answered outcomes)) e

/-- The result that is due to the request at a place in the batch. -/
inductive Sent.Due (s : Sent) : Ending → Nat → Queued → Except Error Json → Prop
  | failed {ending : Ending} {k : Nat} {r : Queued} {e : Error} : s.Failed ending e →
      Due s ending k r (.error e)
  | answered {target : Instance} {outcomes : List Outcome} {k : Nat} {r : Queued} {o : Outcome} :
      outcomes.map (·.id) = s.requests.map (·.request.id) → outcomes[k]? = some o →
      o.id = r.request.id → Due s (.executed target (.answered outcomes)) k r o.result
  /-- There is neither an outcome nor an error if the execution breaks off. -/
  | dropped (target : Instance) (k : Nat) (r : Queued) :
      Due s (.executed target .crashed) k r (.error (Batcher.droppedError r.request))

namespace Sent

variable {s : Sent} {ending : Ending}

lemma map_id_items (s : Sent) : s.items.map (·.id) = s.requests.map (·.request.id) := by
  rw [items, List.map_map]
  rfl

lemma Failed.results {e : Error} (h : s.Failed ending e) :
    s.results ending = some (s.requests.map fun _ => .error e) := by
  have hfan : Processor.fanOut e s.items = s.requests.map fun _ => .error e := by
    rw [Processor.fanOut, items, List.map_map]
    rfl
  cases h with
  | refused => rw [Sent.results, hfan]
  | failed target => rw [Sent.results, ← hfan]; rfl
  | malformed _ hj => simp [Sent.results, Processor.resultOf, hj, hfan]

lemma judge_cases (run : Run) (outcomes : List Outcome) :
    (∃ e, Processor.judge run outcomes = .error e ∧ outcomes.map (·.id) ≠ run.items.map (·.id)) ∨
      Processor.judge run outcomes = .ok (outcomes.map (·.result)) ∧
        outcomes.map (·.id) = run.items.map (·.id) := by
  simp only [Processor.judge]
  split
  · rename_i hl
    refine Or.inl ⟨_, rfl, fun he => hl ?_⟩
    simpa using congrArg List.length he
  · split
    · rename_i hne
      exact Or.inl ⟨_, rfl, hne⟩
    · rename_i he
      exact Or.inr ⟨rfl, not_not.1 he⟩

lemma ending_cases (s : Sent) (ending : Ending) :
    (∃ e, s.Failed ending e) ∨
    (∃ target outcomes, ending = .executed target (.answered outcomes) ∧
      outcomes.map (·.id) = s.requests.map (·.request.id) ∧
      s.results ending = some (outcomes.map (·.result))) ∨
    ∃ target, ending = .executed target .crashed := by
  cases ending with
  | refused e => exact Or.inl ⟨e, .refused e⟩
  | executed target verdict =>
    cases verdict with
    | failed e => exact Or.inl ⟨e, .failed target e⟩
    | crashed => exact Or.inr (Or.inr ⟨target, rfl⟩)
    | answered outcomes =>
      rcases judge_cases ⟨s.number, s.model, s.items, target, s.started⟩ outcomes with ⟨e, hj, hne⟩ | ⟨hj, he⟩
      · rw [map_id_items] at hne
        exact Or.inl ⟨e, .malformed hne hj⟩
      · rw [map_id_items] at he
        exact Or.inr (Or.inl ⟨target, outcomes, rfl, he, by simp [Sent.results, Processor.resultOf, hj]⟩)

/-- What is owed at a place goes to the request at that place. -/
theorem owed_due {k : Nat} {p : Queued × Except Error Json} (h : (s.owed ending)[k]? = some p) :
    s.requests[k]? = some p.1 ∧ s.Due ending k p.1 p.2 := by
  rcases s.ending_cases ending with ⟨e, hf⟩ | ⟨target, outcomes, rfl, hids, hr⟩ | ⟨target, rfl⟩
  · rw [owed, hf.results] at h
    obtain ⟨hreq, hres⟩ := List.getElem?_zip_eq_some.1 h
    rw [List.getElem?_map, hreq, Option.map_some] at hres
    rw [← Option.some.inj hres]
    exact ⟨hreq, .failed hf⟩
  · rw [owed, hr] at h
    obtain ⟨hreq, hres⟩ := List.getElem?_zip_eq_some.1 h
    rw [List.getElem?_map] at hres
    obtain ⟨o, ho, hor⟩ := Option.map_eq_some_iff.1 hres
    have hid := congrArg (·[k]?) hids
    simp only [List.getElem?_map, ho, hreq, Option.map_some] at hid
    rw [← hor]
    exact ⟨hreq, .answered hids ho (Option.some.inj hid)⟩
  · have howed : s.owed (.executed target .crashed) =
        s.requests.map fun r => (r, .error (Batcher.droppedError r.request)) := rfl
    rw [howed, List.getElem?_map] at h
    obtain ⟨r, hreq, rfl⟩ := Option.map_eq_some_iff.1 h
    exact ⟨hreq, .dropped target k r⟩

lemma Failed.owed {e : Error} (h : s.Failed ending e) : ∀ p ∈ s.owed ending, p.2 = .error e := by
  intro p hp
  rw [Sent.owed, h.results] at hp
  obtain ⟨_, hres⟩ := List.of_mem_zip hp
  obtain ⟨_, _, he⟩ := List.mem_map.1 hres
  exact he.symm

end Sent

end Batch

namespace Batcher.History

open Batch

variable {s s' : History} {new : List Sent}

lemma mem_finish {batch : Sent} {ending : Ending} {f : Finish}
    (hb : s.batcher.inFlight.find? (·.number == batch.number) = some batch) :
    f ∈ (s.finish batch ending).ended ++ (s.finish batch ending).broken ↔
      f ∈ s.ended ++ s.broken ∨ f = ⟨batch, ending, s.batcher.deliveries (batch.owed ending)⟩ := by
  cases hr : batch.results ending with
  | some results =>
    rw [finish_of_results hr hb, Sent.owed, hr]
    simp only [List.mem_append, List.mem_singleton]
    exact or_right_comm
  | none =>
    rw [finish_of_broken hr hb, Sent.owed, hr]
    simp only [List.mem_append, List.mem_singleton]
    exact or_assoc.symm

/-- Each batch that is over answered those of its callers who still waited with what it owed them. -/
def Paid (s : History) : Prop :=
  ∀ f ∈ s.ended ++ s.broken, ∃ waits : Nat → Bool,
    f.answers = ((f.batch.owed f.ending).filter fun p => waits p.1.ticket).map fun p => ⟨p.1.ticket, p.2⟩

namespace Paid

lemma start (config : Batch.Config) : Paid (start config) := fun _ hf => absurd hf List.not_mem_nil

lemma move (hm : Move s s') (h : Paid s) : Paid s' := by
  rcases hm.effect with ⟨r, q, _, hq, rfl⟩ | ⟨new, hd⟩ | ⟨batch, ending, hb, rfl⟩ | ⟨a, _, ho, rfl⟩ | ⟨d, rfl⟩
  · exact h
  · intro f hf
    rw [hd.keeps History.ended fun _ => rfl, hd.keeps History.broken fun _ => rfl] at hf
    exact h f hf
  · intro f hf
    rcases (mem_finish hb).1 hf with hf | rfl
    · exact h f hf
    · exact ⟨s.batcher.isOpen, rfl⟩
  · rw [giveUp_of_isOpen ho]
    exact h
  · exact h

theorem run (config : Batch.Config) (events : List Event) : Paid (run config events) :=
  run_induction (start config) (fun _ _ => move) events

end Paid

/-- A caller has what the one batch with its request owed it, once. -/
structure Served (s : History) (r : Queued) (f : Finish) (d : Delivery) : Prop where
  finished : f ∈ s.ended ++ s.broken
  due : ∃ k, f.batch.requests[k]? = some r ∧ f.batch.Due f.ending k r d.result
  only : ∀ batch ∈ s.sent, r ∈ batch.requests → batch = f.batch
  given : d ∈ f.answers
  ticket : d.ticket = r.ticket
  once : s.answered.count r.ticket = 1
  alike : ∀ e, f.batch.Failed f.ending e → ∀ other ∈ f.answers, other.result = .error e

lemma Ordered.eq_of_mem (h : Ordered s) {batch batch' : Sent} {r : Queued} (hb : batch ∈ s.sent)
    (hb' : batch' ∈ s.sent) (hr : r ∈ batch.requests) (hr' : r ∈ batch'.requests) : batch = batch' := by
  by_contra hne
  obtain ⟨_, hp⟩ := List.nodup_flatMap.1 h.nodup_sent
  have : Std.Symm (Function.onFun List.Disjoint fun b : Sent => tickets b.requests) :=
    ⟨fun _ _ hd _ ht ht' => hd ht' ht⟩
  have hdisjoint := hp.forall hb hb' hne
  exact hdisjoint (List.mem_map.2 ⟨r, hr, rfl⟩) (List.mem_map.2 ⟨r, hr', rfl⟩)

theorem exists_served (hd : Divided s) (hp : Paid s) {a : Arrival} (ha : a ∈ s.arrivals)
    (hc : s.batcher.isOpen a.request.ticket = false) (hg : a.request.ticket ∉ s.gaveUp) :
    ∃ f d, Served s a.request f d := by
  have harrived : a.request ∈ s.arrivals.map (·.request) := List.mem_map.2 ⟨a, ha, rfl⟩
  have hanswered : a.request.ticket ∈ s.answered := by
    by_contra hn
    exact hg (hd.gaveUp_of_closed harrived hc hn)
  obtain ⟨f, hf, hfd⟩ := List.mem_flatMap.1 hanswered
  obtain ⟨d, hd', hticket⟩ := List.mem_map.1 hfd
  obtain ⟨waits, hw⟩ := hp f hf
  have hpaid {other : Delivery} (ho : other ∈ f.answers) : ∃ p ∈ f.batch.owed f.ending,
      p.1.ticket = other.ticket ∧ p.2 = other.result := by
    rw [hw] at ho
    obtain ⟨p, hp, rfl⟩ := List.mem_map.1 ho
    exact ⟨p, (List.mem_filter.1 hp).1, rfl, rfl⟩
  obtain ⟨p, hp', hpt, hpr⟩ := hpaid hd'
  obtain ⟨k, hk⟩ := List.mem_iff_getElem?.1 hp'
  obtain ⟨hreq, hdue⟩ := Sent.owed_due hk
  have hsent := hd.mem_sent hf
  have hmem : p.1 ∈ f.batch.requests := List.mem_of_getElem? hreq
  -- Tickets tell requests apart, so this is the caller's own request.
  have hself : p.1 = a.request :=
    hd.ordered.eq_of_ticket (hd.ordered.mem_arrivals hsent hmem) harrived (hpt.trans hticket)
  rw [hself, hpr] at hdue
  rw [hself] at hreq hmem
  refine ⟨f, d, hf, ⟨k, hreq, hdue⟩, fun batch hb hr => hd.ordered.eq_of_mem hb hsent hr hmem, hd', hticket, ?_,
    fun e he other ho => ?_⟩
  · exact List.count_eq_one_of_mem hd.nodup_callers.of_append_right hanswered
  · obtain ⟨p, hp, _, hpo⟩ := hpaid ho
    rw [← hpo]
    exact he.owed p hp

end Batcher.History

end Serving
