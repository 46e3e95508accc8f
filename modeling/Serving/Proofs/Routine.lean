import Mathlib.Tactic.Lemma
import Serving.Routine

/-! What holds when a routine has run with nobody else around. A condition on the end of a routine is a condition on
its first call and on the routine that goes on after it, so longer routines are followed call by call. -/

namespace Serving.Routine

variable {κ : Type} {ρ : κ → Type} {σ α β τ : Type} {answer : (c : κ) → τ → Instant → ρ c × τ × Instant}
  {t : τ} {now : Instant}

/-- A routine ends with a result, a state, an outside party and a time for which `post` holds. -/
def Ends (answer : (c : κ) → τ → Instant → ρ c × τ × Instant) (r : Routine κ ρ σ α) (t : τ) (now : Instant)
    (post : α → σ → τ → Instant → Prop) : Prop :=
  let e := run answer r t now
  post e.1 e.2.1 e.2.2.1 e.2.2.2

variable {post post' : α → σ → τ → Instant → Prop}

lemma ends_done {a : α} {s : σ} : Ends answer (.done a s) t now post ↔ post a s t now := .rfl

lemma ends_call {c : κ} {s : σ} {resume : ρ c → σ → Instant → Routine κ ρ σ α} :
    Ends answer (.call c s resume) t now post ↔
      Ends answer (resume (answer c t now).1 s (answer c t now).2.2) (answer c t now).2.1 (answer c t now).2.2
        post := .rfl

lemma Ends.mono {r : Routine κ ρ σ α} (h : Ends answer r t now post)
    (hp : ∀ a s t now, post a s t now → post' a s t now) : Ends answer r t now post' := hp _ _ _ _ h

lemma ends_map {r : Routine κ ρ σ α} {f : α → β} {post : β → σ → τ → Instant → Prop} :
    Ends answer (r.map f) t now post ↔ Ends answer r t now fun a => post (f a) := by
  simp only [Ends, run_map]

lemma ends_andThen {r : Routine κ ρ σ α} {next : α → σ → Instant → Routine κ ρ σ β}
    {post : β → σ → τ → Instant → Prop} :
    Ends answer (r.andThen now next) t now post ↔
      Ends answer r t now fun a s t now => Ends answer (next a s now) t now post := by
  induction r generalizing t now with
  | done a s => exact .rfl
  | call c s resume ih => exact ih _ _ _

lemma run_andThen (r : Routine κ ρ σ α) (next : α → σ → Instant → Routine κ ρ σ β) :
    run answer (r.andThen now next) t now =
      run answer (next (run answer r t now).1 (run answer r t now).2.1 (run answer r t now).2.2.2)
        (run answer r t now).2.2.1 (run answer r t now).2.2.2 := by
  induction r generalizing t now with
  | done a s => rfl
  | call c s resume ih => exact ih _ _ _

end Serving.Routine
