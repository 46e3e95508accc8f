import Mathlib.Tactic.Lemma
import Serving.Gateway.Request
import Serving.Proofs.Json.Reading

/-! Runs of a desk that serves one request after the other. A request takes many moves: it asks the store and the party
that it goes to, each of them answers when it likes, and until then time passes and the cache is swept. Requests come
only when none is being served. -/

namespace Serving.Gateway

structure Answer where
  destination : Destination
  result : Except Error Json

/-- A request, and what it was answered where it went. -/
structure Work where
  request : Request
  answers : List Answer := []

/-- Work that waits for something. -/
structure Case extends Work where
  need : Need
  resume : need.Reply → Desk → Instant → Service Response

/-- Work that is over. -/
structure Exchange extends Work where
  response : Response

inductive Move
  | arrival (id : String) (request : Request)
  /-- The store is through with a call, which it may have carried out, and which the desk may have waited for. -/
  | storeAnswers (isCarriedOut isHeard : Bool)
  | answer (result : Except Error Json)
  | sweep
  | timePasses (d : Duration)

/-- If it is an answer, then one with whole numbers only. -/
def Move.Whole : Move → Prop
  | answer (.ok data) => data.Whole
  | _ => True

structure History (τ : Type) where
  desk : Desk
  store : τ
  now : Instant := 0
  came : List Request := []
  current : Option Case := none
  past : List Exchange := []

def Work.hear (w : Work) (d : Destination) (result : Except Error Json) : Work :=
  { w with answers := w.answers ++ [⟨d, result⟩] }

namespace History

variable {τ : Type}

/-- Some work goes on until it is over or waits. -/
def follow (store : Cache.Store τ) (w : Work) (h : History τ) : Service Response → History τ
  | .done response desk => { h with desk, current := none, past := h.past ++ [⟨w, response⟩] }
  | .call (.store call) desk resume =>
    { h with desk, store := store.accept call h.store, current := some ⟨w, .store call, resume⟩ }
  | .call (.answer d) desk resume => { h with desk, current := some ⟨w, .answer d, resume⟩ }

def step (store : Cache.Store τ) (s : Settings) (h : History τ) : Move → History τ
  | .arrival id r =>
    match h.current with
    | none => { h with came := h.came ++ [r] }.follow store { request := r } (serve s id r h.desk h.now)
    | some _ => h
  | .storeAnswers isCarriedOut isHeard =>
    match h.current with
    | some ⟨w, .store call, resume⟩ =>
      let (reply, t) := store.perform call h.store h.now
      let heard := if isCarriedOut && isHeard then reply.toOption else none
      { h with store := if isCarriedOut then t else h.store }.follow store w (resume heard h.desk h.now)
    | _ => h
  | .answer result =>
    match h.current with
    | some ⟨w, .answer d, resume⟩ => h.follow store (w.hear d result) (resume result h.desk h.now)
    | _ => h
  | .sweep => { h with desk := { h.desk with cache := (h.desk.cache.sweep h.now).2 } }
  | .timePasses d => { h with now := h.now + d }

def start (s : Settings) (isDistributed : Bool) (t : τ) : History τ where
  desk := { cache := .new s.cache isDistributed, sla := .new s.sla }
  store := t

def run (store : Cache.Store τ) (s : Settings) (isDistributed : Bool) (t : τ) (moves : List Move) : History τ :=
  moves.foldl (step store s) (start s isDistributed t)

/-- All work so far, that which waits included. -/
def work (h : History τ) : List Work := h.past.map Exchange.toWork ++ h.current.toList.map Case.toWork

lemma work_of_idle {h : History τ} (hc : h.current = none) : h.work = h.past.map Exchange.toWork := by
  simp [work, hc]

lemma work_of_busy {h : History τ} {c : Case} (hc : h.current = some c) :
    h.work = h.past.map Exchange.toWork ++ [c.toWork] := by
  simp [work, hc]

lemma work_follow {store : Cache.Store τ} {w : Work} {h : History τ} (r : Service Response) :
    (h.follow store w r).work = h.past.map Exchange.toWork ++ [w] := by
  cases r with
  | done => simp [follow, work]
  | call need => cases need <;> rfl

lemma came_follow {store : Cache.Store τ} {w : Work} {h : History τ} (r : Service Response) :
    (h.follow store w r).came = h.came := by
  cases r with
  | done => rfl
  | call need => cases need <;> rfl

end History

end Serving.Gateway
