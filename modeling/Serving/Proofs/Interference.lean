import Mathlib.Tactic.Lemma
import Serving.Routine

/-! Routines that others interfere with. While a routine waits, its state lies open, and the answer that it gets is not
its own choice either. What may be expected of both sides is laid down in terms: which states may be found and left
behind at a call, which calls may be put, and how they may be answered. What has been answered goes into a record that
the terms may depend on. -/

namespace Serving.Routine

variable {κ : Type} {ρ : κ → Type} {σ α β γ : Type}

structure Terms (κ : Type) (ρ : κ → Type) (σ γ : Type) where
  state : γ → σ → Prop
  asks : γ → κ → Prop
  /-- The answer to a call, and the record with that answer taken in. -/
  tells : γ → (c : κ) → ρ c → γ → Prop

/-- A routine keeps its side of the terms as long as everybody else does, and comes to a good end. -/
def Abides (T : Terms κ ρ σ γ) (post : γ → α → σ → Prop) : γ → Routine κ ρ σ α → Prop
  | g, done a s => post g a s
  | g, call c s resume =>
    T.state g s ∧ T.asks g c ∧ ∀ r g', T.tells g c r g' → ∀ s now, T.state g' s → Abides T post g' (resume r s now)

variable {T : Terms κ ρ σ γ} {post post' : γ → α → σ → Prop} {g : γ}

lemma Abides.mono {r : Routine κ ρ σ α} (h : Abides T post g r) (hp : ∀ g a s, post g a s → post' g a s) :
    Abides T post' g r := by
  induction r generalizing g with
  | done a s => exact hp g a s h
  | call c s resume ih =>
    obtain ⟨hs, hc, hnext⟩ := h
    exact ⟨hs, hc, fun r g' ht s now hs => ih r s now (hnext r g' ht s now hs)⟩

lemma Abides.andThen {r : Routine κ ρ σ α} {next : α → σ → Instant → Routine κ ρ σ β} {last : γ → β → σ → Prop}
    (h : Abides T (fun g a s => ∀ now, Abides T last g (next a s now)) g r) (now : Instant) :
    Abides T last g (r.andThen now next) := by
  induction r generalizing g now with
  | done a s => exact h now
  | call c s resume ih =>
    obtain ⟨hs, hc, hnext⟩ := h
    exact ⟨hs, hc, fun r g' ht s now hs => ih r s now (hnext r g' ht s now hs) now⟩

lemma Abides.map {r : Routine κ ρ σ α} {f : α → β} {last : γ → β → σ → Prop}
    (h : Abides T (fun g a s => last g (f a) s) g r) : Abides T last g (r.map f) := by
  induction r generalizing g with
  | done a s => exact h
  | call c s resume ih =>
    obtain ⟨hs, hc, hnext⟩ := h
    exact ⟨hs, hc, fun r g' ht s now hs => ih r s now (hnext r g' ht s now hs)⟩

section Embed

variable {κ' : Type} {ρ' : κ' → Type} {σ' : Type} {T : Terms κ ρ σ Unit} {T' : Terms κ' ρ' σ' γ}
  {post : α → σ → Prop} {post' : γ → α → σ' → Prop} {call' : κ → κ'} {reply : (c : κ) → ρ' (call' c) → ρ c}
  {part : σ' → σ} {set : σ → σ' → σ'}

/-- A part keeps to the terms of the whole, if these come down to its own terms and its calls leave the record of the
whole as it is. -/
lemma Abides.embed {r : Routine κ ρ σ α} (h : Abides T (fun _ => post) () r)
    (hpart : ∀ whole, T'.state g whole → T.state () (part whole))
    (hset : ∀ whole s, T'.state g whole → T.state () s → T'.state g (set s whole))
    (hasks : ∀ c, T.asks () c → T'.asks g (call' c))
    (htells : ∀ c r g', T'.tells g (call' c) r g' → g' = g ∧ T.tells () c (reply c r) ())
    (hpost : ∀ whole a s, T'.state g whole → post a s → post' g a (set s whole)) {whole : σ'}
    (hw : T'.state g whole) : Abides T' post' g (r.embed call' reply part set whole) := by
  induction r generalizing whole with
  | done a s => exact hpost whole a s hw h
  | call c s resume ih =>
    obtain ⟨hs, hc, hnext⟩ := h
    refine ⟨hset whole s hw hs, hasks c hc, fun r g' ht whole' now hw' => ?_⟩
    obtain ⟨rfl, htold⟩ := htells c r g' ht
    exact ih (reply c r) (part whole') now (hnext _ () htold _ now (hpart whole' hw')) hw'

end Embed

/-! ### Runs among others -/

variable {τ : Type}

/-- Runs a routine among others. `answer` answers a call, and tells what has become of the state meanwhile. -/
def runAmid (answer : (c : κ) → σ → τ → Instant → ρ c × σ × τ × Instant) :
    Routine κ ρ σ α → τ → Instant → α × σ × τ × Instant
  | done a s, t, now => (a, s, t, now)
  | call c s resume, t, now =>
    let (r, s, t, now) := answer c s t now
    runAmid answer (resume r s now) t now

/-- If the others keep their side of the terms, a run comes to a good end. -/
lemma Abides.runAmid {answer : (c : κ) → σ → τ → Instant → ρ c × σ × τ × Instant} {r : Routine κ ρ σ α} {t : τ}
    (record : τ → γ) (h : Abides T post (record t) r)
    (ha : ∀ c s t now, T.state (record t) s → T.asks (record t) c →
      T.tells (record t) c (answer c s t now).1 (record (answer c s t now).2.2.1) ∧
        T.state (record (answer c s t now).2.2.1) (answer c s t now).2.1) (now : Instant) :
    let e := r.runAmid answer t now
    post (record e.2.2.1) e.1 e.2.1 := by
  induction r generalizing t now with
  | done a s => exact h
  | call c s resume ih =>
    obtain ⟨hs, hc, hnext⟩ := h
    obtain ⟨ht, hs⟩ := ha c s t now hs hc
    exact ih _ _ _ (hnext _ _ ht _ _ hs) _

end Serving.Routine
