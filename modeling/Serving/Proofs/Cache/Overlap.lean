import Serving.Proofs.Cache.Renewal

/-! A read and a removal that use a cache at the same time. An operation that has called the outside store waits until
the store has carried out the call, and then until it hears the answer. At both times the other operation may go on and
find the cache and the store as they are by then. -/

namespace Serving.Cache.Overlap

variable {τ α : Type}

/-- How far an operation has come. -/
inductive Progress (α : Type)
  | ahead (operation : Cache → Instant → Operation α)
  | asks (call : Call) (resume : Option call.Reply → Cache → Instant → Operation α)
  | told (call : Call) (reply : Option call.Reply) (resume : Option call.Reply → Cache → Instant → Operation α)
  | ended (answer : α)

inductive Turn
  | begins
  | served
  | hears
  deriving DecidableEq

inductive Side
  | reader
  | remover
  deriving DecidableEq

/-- An operation goes on up to its next call. -/
def follow (store : Store τ) (t : τ) : Operation α → Progress α × Cache × τ
  | .done answer c => (.ended answer, c, t)
  | .call call c resume => (.asks call resume, c, store.accept call t)

namespace Progress

def isOver : Progress α → Bool
  | ended _ => true
  | _ => false

/-- What comes of a turn, unless it is not the operation's turn. -/
def advance (store : Store τ) (c : Cache) (t : τ) (now : Instant) : Turn → Progress α → Option (Progress α × Cache × τ)
  | .begins, ahead operation => some (follow store t (operation c now))
  | .served, asks call resume =>
    let (reply, t) := store.perform call t now
    some (told call reply.toOption resume, c, t)
  | .hears, told _ reply resume => some (follow store t (resume reply c now))
  | _, _ => none

lemma advance_asks {store : Store τ} {c : Cache} {t : τ} {now : Instant} {call : Call}
    {resume : Option call.Reply → Cache → Instant → Operation α} :
    (asks call resume).advance store c t now .served =
      some (told call (store.perform call t now).1.toOption resume, c, (store.perform call t now).2) := rfl

end Progress

inductive Move
  | turn (side : Side) (turn : Turn)
  | wait (d : Duration)

structure History (τ α : Type) where
  cache : Cache
  store : τ
  now : Instant
  reader : Progress (Except Error (Option α))
  remover : Progress (Except Error Bool)
  /-- The turns that were taken. -/
  log : List (Side × Turn) := []

namespace History

def step (store : Store τ) (h : History τ α) : Move → History τ α
  | .turn .reader turn =>
    match h.reader.advance store h.cache h.store h.now turn with
    | some (reader, cache, t) => { h with reader, cache, store := t, log := h.log ++ [(.reader, turn)] }
    | none => h
  | .turn .remover turn =>
    match h.remover.advance store h.cache h.store h.now turn with
    | some (remover, cache, t) => { h with remover, cache, store := t, log := h.log ++ [(.remover, turn)] }
    | none => h
  | .wait d => { h with now := h.now + d }

/-- Somebody is about to read what somebody else is about to remove. -/
def start (c : Cache) (t : τ) (now : Instant) (decode : Bytes → Option α) (type : String) (params : Params) :
    History τ α where
  cache := c
  store := t
  now := now
  reader := .ahead fun c now => c.get now decode type params
  remover := .ahead fun c now => c.invalidate now type params

def after (store : Store τ) (h : History τ α) (moves : List Move) : History τ α := moves.foldl (step store) h

abbrev IsOver (h : History τ α) : Prop := h.reader.isOver = true ∧ h.remover.isOver = true

end History

/-! ### An operation by itself -/

section Alone

variable {store : Store τ} {now : Instant}

/-- A turn of an operation that has the cache and the store for itself. -/
def takeTurn (store : Store τ) (now : Instant) (s : Progress α × Cache × τ) (turn : Turn) : Progress α × Cache × τ :=
  (s.1.advance store s.2.1 s.2.2 now turn).getD s

/-- An operation that is left alone comes to the end that it has by itself. -/
lemma follow_alone (hp : store.Prompt) (operation : Operation α) (timeout : Duration) (t : τ) :
    ∃ n, (List.replicate n [Turn.served, .hears]).flatten.foldl (takeTurn store now) (follow store t operation) =
      (let e := run store operation timeout t now
       (.ended e.1, e.2.1, e.2.2.1)) := by
  induction operation generalizing t with
  | done answer c => exact ⟨0, rfl⟩
  | call call c resume ih =>
    obtain ⟨n, hn⟩ := ih (store.perform call (store.accept call t) now).1.toOption c now
      (store.perform call (store.accept call t) now).2
    refine ⟨n + 1, ?_⟩
    rw [List.replicate_succ, List.flatten_cons, List.foldl_append]
    refine hn.trans ?_
    simp only [run, Routine.run, hp.ask]

end Alone

end Serving.Cache.Overlap
