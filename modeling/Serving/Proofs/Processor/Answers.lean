import Serving.Proofs.Balancer.Selection
import Serving.Proofs.Processor.Connections

/-! How batches come out. An answer has one result for each item: the executor's own if it answered item by item, and
otherwise one error for all of them. The instance that was chosen is charged with the batch as a whole, and nobody is if
the executor was not asked. -/

namespace Serving

lemma Breaker.admits_lastFailure (b : Breaker) (now : Instant) : (b.admits now).2.lastFailure = b.lastFailure := by
  simp only [admits]
  split
  · rfl
  · split <;> rfl

namespace Balancer

lemma failures_admitted (now : Instant) (l : List Instance) (breakers : Table Breaker) (id : String) :
    ((admitted now l breakers).2.find? id).map (fun k => (k.failures, k.lastFailure)) =
      (breakers.find? id).map fun k => (k.failures, k.lastFailure) := by
  induction l generalizing breakers with
  | nil => rfl
  | cons i rest ih =>
    simp only [admitted]
    cases hb : breakers.find? i.id with
    | none => exact ih breakers
    | some breaker =>
      refine (ih _).trans ?_
      rw [Table.find?_insert]
      split
      · rename_i he
        rw [he, hb, Option.map_some, Option.map_some, Breaker.admits_failures, Breaker.admits_lastFailure]
      · rfl

/-- One success or one failure is put down to what is registered under an id, and nothing to anybody else. -/
structure Charged (b b' : Balancer) (now : Instant) (id : String) (success : Bool) (took : Duration) : Prop where
  instances : ∀ other, b'.instance? other =
    (b.instance? other).map fun i => if other = id then i.finish success took else i
  breakers : ∀ other, b'.breakers.find? other =
    if other = id ∧ (b.instance? id).isSome = true then
      let breaker := (b.breakers.find? id).getD (.new b.config.breaker)
      some (if success then breaker.succeed else (breaker.fail now).2)
    else b.breakers.find? other

lemma charged_endRequest (b : Balancer) (now : Instant) (id : String) (success : Bool) (took : Duration) :
    Charged b (b.endRequest now id success took) now id success took where
  instances other := instance?_endRequest ..
  breakers other := by
    rw [endRequest, instance?]
    by_cases hc : b.instances.contains id = true
    · have hsome : (b.instances.find? id).isSome = true := hc
      simp only [hc, hsome, and_true, if_true]
      exact Table.find?_insert ..
    · have hsome : ¬(b.instances.find? id).isSome = true := hc
      simp only [hc, hsome, and_false, if_false, Bool.false_eq_true]

/-- Neither a success nor a failure is put down to anybody. -/
structure Uncharged (b b' : Balancer) : Prop where
  instances : b'.instances = b.instances
  breakers : ∀ id, (b'.breakers.find? id).map (fun k => (k.failures, k.lastFailure)) =
    (b.breakers.find? id).map fun k => (k.failures, k.lastFailure)

lemma uncharged_select (b : Balancer) (now : Instant) (service : String) (key : Option String) :
    Uncharged b (b.select now service key).2 where
  instances := select_instances ..
  breakers id := by
    rw [select_breakers]
    exact failures_admitted ..

end Balancer

def Batch.Run.call (r : Batch.Run) : Processor.Call := ⟨r.number, r.model, r.items⟩

namespace Processor

open Batch

def Event.asks? : Event → Option (String × List Item)
  | .call model items => some (model, items)
  | _ => none

/-- How far a call came that was answered. -/
inductive Fate
  | refused
  | unserved
  | executed (target : Instance) (verdict : Verdict)

structure Answer where
  call : Call
  fate : Fate
  results : List (Except Error Json)

namespace Answer

variable {a : Answer}

/-- The executor was asked and answered item by item. -/
def Itemized (a : Answer) (outcomes : List Outcome) : Prop :=
  (∃ target, a.fate = .executed target (.answered outcomes)) ∧ outcomes.map (·.id) = a.call.items.map (·.id)

/-- One result for each item, and these are the executor's or all the same error. -/
structure Whole (a : Answer) : Prop where
  length : a.results.length = a.call.items.length
  own : ∀ outcomes, a.Itemized outcomes → a.results = outcomes.map (·.result)
  same : (∀ outcomes, ¬a.Itemized outcomes) → ∃ e, ∀ r ∈ a.results, r = .error e

/-- What is put down to the instance for a call that is answered, and that nothing is if the executor was not asked. -/
def Charge (a : Answer) (b b' : Balancer) (now : Instant) : Prop :=
  match a.fate with
  | .executed target _ => ∃ success took, (success = true ↔ ∃ outcomes, a.Itemized outcomes) ∧
      b.Charged b' now target.id success took
  | _ => b.Uncharged b'

def hadPermit (a : Answer) : Bool :=
  match a.fate with
  | .refused => false
  | _ => true

def counts (model : String) (a : Answer) : Bool :=
  a.call.model == model && !a.call.items.isEmpty && a.hadPermit

lemma whole_of_fanOut {e : Error} (hf : ∀ target outcomes, a.fate ≠ .executed target (.answered outcomes))
    (hr : a.results = fanOut e a.call.items) : a.Whole where
  length := by rw [hr, length_fanOut]
  own outcomes h := by
    obtain ⟨⟨target, ht⟩, _⟩ := h
    exact absurd ht (hf target outcomes)
  same _ := ⟨e, by simp [hr, fanOut]⟩

end Answer

lemma judge_eq_ok_iff {run : Run} {outcomes : List Outcome} {results : List (Except Error Json)} :
    judge run outcomes = .ok results ↔
      outcomes.map (·.id) = run.items.map (·.id) ∧ results = outcomes.map (·.result) := by
  simp only [judge]
  split
  · rename_i hl
    refine ⟨(fun h => by cases h), fun h => absurd ?_ hl⟩
    simpa only [List.length_map] using congrArg List.length h.1
  · split
    · rename_i hids
      exact ⟨(fun h => by cases h), fun h => absurd h.1 hids⟩
    · rename_i hids
      rw [Except.ok.injEq, eq_comm (a := outcomes.map (·.result))]
      exact ⟨fun h => ⟨Decidable.not_not.1 hids, h⟩, And.right⟩

lemma isOk_resultOf_iff {run : Run} {verdict : Verdict} : (resultOf run verdict).any (·.isOk) = true ↔
    ∃ outcomes, verdict = .answered outcomes ∧ outcomes.map (·.id) = run.items.map (·.id) := by
  cases verdict with
  | answered outcomes =>
    simp only [resultOf, Option.any_some, Verdict.answered.injEq, exists_eq_left']
    cases hj : judge run outcomes with
    | ok results => exact ⟨fun _ => (judge_eq_ok_iff.1 hj).1, fun _ => rfl⟩
    | error e =>
      refine ⟨nofun, fun hids => ?_⟩
      rw [judge_eq_ok_iff.2 ⟨hids, rfl⟩] at hj
      cases hj
  | failed e => exact ⟨nofun, fun ⟨_, h, _⟩ => nomatch h⟩
  | crashed => exact ⟨nofun, fun ⟨_, h, _⟩ => nomatch h⟩

lemma whole_of_finish {p : Processor} {b : Balancer} {now : Instant} {run : Run} {verdict : Verdict}
    {results : List (Except Error Json)} (h : (p.finish b now run verdict).1.results = some results) :
    Answer.Whole ⟨run.call, .executed run.target verdict, results⟩ := by
  obtain ⟨r, hr, rfl⟩ := Option.map_eq_some_iff.1 h
  cases verdict with
  | answered outcomes =>
    obtain rfl := Option.some.inj hr
    cases hj : judge run outcomes with
    | ok results =>
      obtain ⟨hids, rfl⟩ := judge_eq_ok_iff.1 hj
      refine ⟨length_of_judge_ok hj, fun o ho => ?_, fun hn => absurd ⟨⟨_, rfl⟩, hids⟩ (hn outcomes)⟩
      obtain ⟨⟨_, ho⟩, _⟩ := ho
      cases ho
      rfl
    | error e =>
      refine ⟨length_fanOut .., fun o ho => ?_, fun _ => ⟨e, by simp [fanOut]⟩⟩
      obtain ⟨⟨_, ho⟩, hids⟩ := ho
      cases ho
      rw [judge_eq_ok_iff.2 ⟨hids, rfl⟩] at hj
      cases hj
  | failed e =>
    obtain rfl := Option.some.inj hr
    exact Answer.whole_of_fanOut (fun _ _ h => by cases h) rfl
  | crashed => cases hr

namespace History

variable {models : Table Model} {config : Balancer.Config} {dice : Nat → Float} {owed : String → Nat} {s s' : History}
  {events : List Event} {e : Event} {a : Answer} {c : Call} {r : Run} {number : Nat}

def answer? (s : History) : Event → Option Answer
  | .call model items =>
    match (s.processor.requestPermit s.calls model items).1 with
    | .over results => some ⟨⟨s.calls, model, items⟩, .refused, results⟩
    | _ => none
  | .begins number =>
    (s.admitted.find? (·.number == number)).bind fun c =>
      match (s.processor.begin s.balancer s.now number c.model c.items).1 with
      | .noCapacity results _ => some ⟨c, .unserved, results⟩
      | .begun _ => none
  | .ends number verdict =>
    (s.processor.running.find? (·.number == number)).bind fun run =>
      (s.processor.finish s.balancer s.now run verdict).1.results.map fun results =>
        ⟨run.call, .executed run.target verdict, results⟩
  | .cancelled _ | .elsewhere _ => none

def underWay (s : History) : List Call := s.line ++ s.admitted ++ s.processor.running.map (·.call)

def asked (s : History) : Event → List Call
  | .call model items => [⟨s.calls, model, items⟩]
  | _ => []

/-- The call that an event takes away without an answer. -/
def abandoned? (s : History) : Event → Option Call
  | .cancelled number => s.underWay.find? (·.number == number)
  | .ends number .crashed => (s.processor.running.find? (·.number == number)).map (·.call)
  | _ => none

inductive Answered (s : History) : Event → Answer → Prop
  | refused {model : String} {items : List Item} {e : Error}
    (h : items = [] ∨ s.processor.permits.find? model = none) :
    Answered s (.call model items) ⟨⟨s.calls, model, items⟩, .refused, fanOut e items⟩
  | unserved {number : Nat} {c : Call} (hc : s.admitted.find? (·.number == number) = some c)
    (hn : (s.balancer.select s.now c.model).1 = none) :
    Answered s (.begins number) ⟨c, .unserved, fanOut (.noCapacity c.model) c.items⟩
  | executed {number : Nat} {verdict : Verdict} {run : Run} {results : List (Except Error Json)}
    (hr : s.processor.running.find? (·.number == number) = some run)
    (hv : (s.processor.finish s.balancer s.now run verdict).1.results = some results) :
    Answered s (.ends number verdict) ⟨run.call, .executed run.target verdict, results⟩

lemma answered (h : s.answer? e = some a) : Answered s e a := by
  cases e with
  | call model items =>
    simp only [answer?, requestPermit] at h
    split at h
    · rename_i results hover
      obtain rfl := Option.some.inj h
      by_cases hi : items.isEmpty = true
      · rw [if_pos hi] at hover
        obtain rfl := Admission.over.inj hover
        obtain rfl := List.isEmpty_iff.1 hi
        exact .refused (e := .unknownModelType model) (.inl rfl)
      · rw [if_neg hi] at hover
        split at hover
        · rename_i hnone
          obtain rfl := Admission.over.inj hover
          exact .refused (.inr hnone)
        · split at hover <;> cases hover
    · cases h
  | begins number =>
    obtain ⟨c, hc, h⟩ := Option.bind_eq_some_iff.1 h
    simp only [begin] at h
    split at h
    · rename_i results next hb
      obtain rfl := Option.some.inj h
      split at hb
      · rename_i hn
        obtain ⟨rfl, _⟩ := Beginning.noCapacity.inj hb
        exact .unserved hc hn
      · cases hb
    · cases h
  | ends number verdict =>
    obtain ⟨run, hr, h⟩ := Option.bind_eq_some_iff.1 h
    obtain ⟨results, hv, rfl⟩ := Option.map_eq_some_iff.1 h
    exact .executed hr hv
  | cancelled | elsewhere => cases h

namespace Answered

lemma whole (h : Answered s e a) : a.Whole := by
  cases h with
  | refused | unserved => exact Answer.whole_of_fanOut (fun _ _ h => by cases h) rfl
  | executed hr hv => exact whole_of_finish hv

lemma charge (h : Answered s e a) : a.Charge s.balancer (s.step e).balancer s.now := by
  cases h with
  | @refused model items _ _ =>
    have hb : (s.call model items).balancer = s.balancer := by
      simp only [call]
      split <;> rfl
    simp only [Answer.Charge, step, hb]
    exact ⟨rfl, fun _ => rfl⟩
  | unserved hc hn =>
    simp only [Answer.Charge, step, begins, hc, begin, hn, (passOn_eq _ _).1]
    exact Balancer.uncharged_select ..
  | @executed number verdict run _ hr _ =>
    simp only [Answer.Charge, step, ends, hr, (passOn_eq _ _).1]
    refine ⟨(resultOf run verdict).any (·.isOk), s.now - run.started, ?_, Balancer.charged_endRequest ..⟩
    rw [isOk_resultOf_iff]
    constructor
    · rintro ⟨outcomes, rfl, hids⟩
      exact ⟨outcomes, ⟨_, rfl⟩, hids⟩
    · rintro ⟨outcomes, ⟨target, hf⟩, hids⟩
      exact ⟨outcomes, (Fate.executed.inj hf).2, hids⟩

lemma exists_run {target : Instance} {verdict : Verdict} (h : Answered s e a)
    (hf : a.fate = .executed target verdict) :
    ∃ r ∈ s.processor.running, r.call = a.call ∧ r.target = target := by
  cases h with
  | refused | unserved => cases hf
  | executed hr _ => exact ⟨_, (Numbered.of_find? hr).1, rfl, (Fate.executed.inj hf).1⟩

end Answered

end History

end Processor

end Serving
