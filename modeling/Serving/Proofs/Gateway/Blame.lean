import Serving.Gateway.Lifecycle
import Serving.Proofs.Gateway.Absorption
import Serving.Proofs.Processor.Permits

/-! Who is to blame for an error that tells of an unknown name. The gateway itself says so of a model that it has no
queue for, and of nothing else; all other such errors are reported to it by the executor, the database or the handler. -/

namespace Serving

/-- An error that says of a name that nothing is known under it. -/
def Error.TellsOfName : Error → Prop
  | unknownCacheType _ | unknownModelType _ => True
  | _ => False

namespace Gateway

variable {τ π : Type}

/-- One of the parties reports an error. -/
inductive Parties.Says (p : Parties τ π) (e : Error) : Prop
  | item {model : String} {target : Instance} {items : List Batch.Item} {outcomes : List Batch.Outcome}
      {outcome : Batch.Outcome} (answered : (p.executor model target items).verdict = .answered outcomes)
      (mem : outcome ∈ outcomes) (failed : outcome.result = .error e)
  | batch {model : String} {target : Instance} {items : List Batch.Item}
      (failed : (p.executor model target items).verdict = .failed e)
  | query {query : String} {params : Json} (failed : (p.database query params).result = .error e)
  | handler {type : String} {payload : Json} (failed : (p.handler type payload).result = .error e)

/-- If a result tells of an unknown name, one of the parties said so. -/
def Parties.Backs (p : Parties τ π) (result : Except Error Json) : Prop :=
  ∀ e, result = .error e → e.TellsOfName → p.Says e

/-- The executor gives a verdict. -/
def Parties.Passes (p : Parties τ π) (verdict : Batch.Verdict) : Prop :=
  ∃ model target items, (p.executor model target items).verdict = verdict

variable {p : Parties τ π}

lemma backs_error {e : Error} (he : ¬e.TellsOfName) : p.Backs (.error e) := by
  rintro _ ⟨⟩ htells
  exact absurd htells he

lemma backs_fanOut {e : Error} (he : ¬e.TellsOfName) (items : List Batch.Item) :
    ∀ r ∈ Processor.fanOut e items, p.Backs r := by
  intro r hr
  obtain ⟨item, -, rfl⟩ := List.mem_map.1 hr
  exact backs_error he

end Gateway

/-! ### Runs of batches -/

namespace Processor

open Batch

variable {p p' : Processor} {models : Table Model} {model : String} {items : List Item} {number : Nat}

/-- There are permits for each of some models. -/
def Admits (p : Processor) (models : Table Model) : Prop :=
  ∀ name m, models.find? name = some m → ∃ permits, p.permits.find? name = some permits

lemma admits_new (models : Table Model) : (new models).Admits models := by
  intro name m hm
  exact ⟨_, by rw [new, Table.find?_map, hm, Option.map_some]⟩

namespace Admits

lemma setPermits (h : p.Admits models) (model : String) (permits : Permits) :
    (p.setPermits model permits).Admits models := by
  intro name m hm
  by_cases hname : name = model
  · exact ⟨permits, (Table.find?_insert ..).trans (if_pos hname)⟩
  · obtain ⟨others, hothers⟩ := h name m hm
    exact ⟨others, ((Table.find?_insert ..).trans (if_neg hname)).trans hothers⟩

lemma release (h : p.Admits models) (model : String) : (p.release model).2.Admits models := by
  rw [Processor.release]
  split
  · exact h
  · split <;> exact h.setPermits model _

lemma requestPermit (h : p.Admits models) : (p.requestPermit number model items).2.Admits models := by
  rw [Processor.requestPermit]
  split
  · exact h
  · split
    · exact h
    · split <;> exact h.setPermits model _

lemma begin (h : p.Admits models) (b : Balancer) (now : Instant) :
    (p.begin b now number model items).2.1.Admits models := by
  rcases hbegin : p.begin b now number model items with ⟨_ | run, p', b'⟩
  · obtain ⟨counts, -, rfl, -⟩ := begin_noCapacity hbegin
    exact Admits.release (p := { p with counts }) h model
  · obtain ⟨-, -, -, rfl, -⟩ := begin_begun hbegin
    exact h

lemma finish (h : p.Admits models) (b : Balancer) (now : Instant) (run : Run) (verdict : Verdict) :
    (p.finish b now run verdict).2.1.Admits models := by
  obtain ⟨counts, _, -, hp, -⟩ := finish_eq p b now run verdict
  rw [hp]
  exact Admits.release (p := { p with counts, running := _ }) h run.model

/-- A run for a model that is known is over before it begins only if it has nothing to do. -/
lemma results_eq_nil (h : p.Admits models) {m : Model} (hm : models.find? model = some m)
    {results : List (Except Error Json)} (hover : p.requestPermit number model items = (.over results, p')) :
    results = [] := by
  rw [Processor.requestPermit] at hover
  split at hover
  · cases hover
    rfl
  · obtain ⟨permits, hpermits⟩ := h model m hm
    simp only [hpermits] at hover
    split at hover <;> cases hover

end Admits

end Processor

namespace Gateway

variable {τ π : Type} {p : Parties τ π}

lemma backs_begin {q q' : Processor} {b b' : Balancer} {now : Instant} {number : Nat} {model : String}
    {items : List Batch.Item} {results : List (Except Error Json)} {next : Option Nat}
    (h : q.begin b now number model items = (.noCapacity results next, q', b')) : ∀ r ∈ results, p.Backs r := by
  simp only [Processor.begin] at h
  split at h
  · cases h
    exact backs_fanOut id items
  · cases h

lemma not_tells_of_judge {run : Batch.Run} {outcomes : List Batch.Outcome} {e : Error}
    (h : Processor.judge run outcomes = .error e) : ¬e.TellsOfName := by
  rw [Processor.judge] at h
  split at h
  · cases h
    exact id
  · split at h <;> cases h
    exact id

lemma backs_judge {run : Batch.Run} {outcomes : List Batch.Outcome} {results : List (Except Error Json)}
    (hp : p.Passes (.answered outcomes)) (h : Processor.judge run outcomes = .ok results) :
    ∀ r ∈ results, p.Backs r := by
  rw [Processor.judge] at h
  split at h
  · cases h
  · split at h <;> cases h
    intro r hr e he _
    obtain ⟨outcome, hmem, rfl⟩ := List.mem_map.1 hr
    obtain ⟨model, target, items, hanswered⟩ := hp
    exact .item hanswered hmem he

lemma backs_finish {q : Processor} {b : Balancer} {now : Instant} {run : Batch.Run} {verdict : Batch.Verdict}
    (hp : p.Passes verdict) {results : List (Except Error Json)}
    (h : (q.finish b now run verdict).1.results = some results) : ∀ r ∈ results, p.Backs r := by
  simp only [Processor.finish] at h
  obtain ⟨result, hresult, rfl⟩ := Option.map_eq_some_iff.1 h
  cases verdict with
  | answered outcomes =>
    obtain rfl := Option.some.inj hresult
    cases hjudged : Processor.judge run outcomes with
    | ok results => exact backs_judge hp hjudged
    | error e => exact backs_fanOut (not_tells_of_judge hjudged) run.items
  | failed e =>
    obtain rfl := Option.some.inj hresult
    intro r hr e' he _
    obtain ⟨item, -, rfl⟩ := List.mem_map.1 hr
    obtain ⟨model, target, items, hfailed⟩ := hp
    obtain rfl := Except.error.inj he
    exact .batch hfailed
  | crashed => cases hresult

/-! ### Requests -/

variable {s : Settings} {d : Destination} {id : String} {r : Request} {answers : List Answer} {response : Response}
  {result : Except Error Json}

/-- How a request may be answered where it goes: of an unknown name it is told by a party, or because the model that it
asks for has no settings. -/
def Due (s : Settings) (p : Parties τ π) (d : Destination) (result : Except Error Json) : Prop :=
  ∀ e, result = .error e → e.TellsOfName → p.Says e ∨
    ∃ r, d = .model r ∧ e = .unknownModelType r.model ∧ s.batching.models.find? r.model = none

lemma Parties.Backs.due (h : p.Backs result) : Due s p d result := fun e he ht => .inl (h e he ht)

/-- How a request may be answered in the end: of an unknown name it is told by a party, or because it asks for a model
that has no settings. -/
def Excused (s : Settings) (p : Parties τ π) (r : Request) (result : Except Error Json) : Prop :=
  ∀ e, result = .error e → e.TellsOfName → p.Says e ∨
    r.type = modelType ∧ e = .unknownModelType (modelOf s r) ∧ s.batching.models.find? (modelOf s r) = none

lemma destination_model {asked : Batch.Request} (h : destination s id r = .ok (.model asked)) :
    r.type = modelType ∧ asked.model = modelOf s r := by
  simp only [destination] at h
  split at h
  · rename_i htype
    cases h
    exact ⟨htype, rfl⟩
  · split at h
    · split at h <;> cases h
    · cases h

lemma excused_of_outcome (h : Outcome s id r answers response) (ha : ∀ a ∈ answers, Due s p a.destination a.result) :
    Excused s p r response.result := by
  intro e he ht
  cases h with
  | hit data _ hdata =>
    rw [hdata] at he
    cases he
  | anew _ hdispatched =>
    rw [Dispatched, he] at hdispatched
    split at hdispatched
    · rename_i refusal hd
      obtain rfl := Except.error.inj hdispatched.2
      obtain ⟨message, rfl⟩ := destination_error hd
      exact ht.elim
    · rename_i d hd
      refine (ha ⟨d, .error e⟩ (hdispatched ▸ List.mem_cons_self) e rfl ht).imp_right ?_
      rintro ⟨asked, rfl, rfl, hnone⟩
      obtain ⟨htype, hmodel⟩ := destination_model hd
      rw [hmodel] at hnone ⊢
      exact ⟨htype, rfl, hnone⟩

end Gateway

end Serving
