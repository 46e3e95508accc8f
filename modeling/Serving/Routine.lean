import Serving.Time

/-!
# Routines with outside calls

Some operations have to wait for a call to an outside party. A routine is such an operation: it is
done, or it waits for the answer to a call and says how to go on. While it waits, its state lies open
and others may change it; it goes on with the state it finds then.
-/

namespace Serving

/-- An operation on a state `σ` with result `α`. A call `c` is answered by a value of type `ρ c`. -/
inductive Routine (κ : Type) (ρ : κ → Type) (σ α : Type)
  | done (result : α) (state : σ)
  | call (c : κ) (state : σ) (resume : ρ c → σ → Instant → Routine κ ρ σ α)

namespace Routine

variable {κ : Type} {ρ : κ → Type} {σ α β τ : Type}

/-- Goes on with `next` when a routine is done. The time is that of its last answer. -/
def andThen (now : Instant) (next : α → σ → Instant → Routine κ ρ σ β) : Routine κ ρ σ α → Routine κ ρ σ β
  | done a s => next a s now
  | call c s resume => call c s fun r s now => andThen now next (resume r s now)

def map (f : α → β) : Routine κ ρ σ α → Routine κ ρ σ β
  | done a s => done (f a) s
  | call c s resume => call c s fun r s now => map f (resume r s now)

/-- A routine as part of something larger. Its calls are some of the larger one's calls, and its state is
a part of the larger state: `part` gives it, and `set` puts it back. -/
def embed {κ' : Type} {ρ' : κ' → Type} {σ' : Type} (call' : κ → κ') (reply : (c : κ) → ρ' (call' c) → ρ c)
    (part : σ' → σ) (set : σ → σ' → σ') : σ' → Routine κ ρ σ α → Routine κ' ρ' σ' α
  | whole, done a s => done a (set s whole)
  | whole, call c s resume => call (call' c) (set s whole) fun r whole now =>
    embed call' reply part set whole (resume (reply c r) (part whole) now)

/-- Runs a routine with nobody else around. `answer` answers a call put to the outside party `τ` at a
time, and tells when. -/
def run (answer : (c : κ) → τ → Instant → ρ c × τ × Instant) :
    Routine κ ρ σ α → τ → Instant → α × σ × τ × Instant
  | done a s, t, now => (a, s, t, now)
  | call c s resume, t, now =>
    let (r, t, now) := answer c t now
    run answer (resume r s now) t now

@[simp]
theorem run_done (answer : (c : κ) → τ → Instant → ρ c × τ × Instant) (a : α) (s : σ) (t : τ)
    (now : Instant) : run answer (done a s) t now = (a, s, t, now) := rfl

theorem run_map (answer : (c : κ) → τ → Instant → ρ c × τ × Instant) (f : α → β)
    (r : Routine κ ρ σ α) (t : τ) (now : Instant) :
    run answer (r.map f) t now = ((f (run answer r t now).1), (run answer r t now).2) := by
  induction r generalizing t now with
  | done a s => rfl
  | call c s resume ih => simp only [map, run, ih]

end Routine

end Serving
