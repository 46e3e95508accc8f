import Mathlib.Tactic.Lemma
import Serving.Breaker

/-! What a breaker knows of the failures in a row of its instance, given by their times, the latest first. -/

namespace Serving.Breaker

/-- So many failures in a row, the last of them so short a time ago, that the instance gets no requests. -/
structure Blocked (config : Config) (now : Instant) (failures : List Instant) : Prop where
  many : max 1 config.maxRetries.toNat ≤ failures.length
  recent : ∃ last, failures.head? = some last ∧ now - last < config.cooldown

instance (config : Config) (now : Instant) (failures : List Instant) : Decidable (Blocked config now failures) :=
  decidable_of_iff
    (max 1 config.maxRetries.toNat ≤ failures.length ∧ ∃ last ∈ failures.head?, now - last < config.cooldown)
    ⟨fun h => ⟨h.1, h.2⟩, fun h => ⟨h.many, h.recent⟩⟩

structure Tracks (config : Config) (now : Instant) (failures : List Instant) (b : Breaker) : Prop where
  kept : b.config = config
  count : b.failures = min failures.length mostFailures
  last : failures ≠ [] → b.lastFailure = failures.head?
  opened : b.isOpen = true → max 1 config.maxRetries.toNat ≤ failures.length
  closed : b.isOpen = false → ¬Blocked config now failures

variable {config : Config} {now : Instant} {failures : List Instant} {b : Breaker}

lemma not_blocked_nil : ¬Blocked config now [] := by
  rintro ⟨hm, _⟩
  simp at hm

namespace Tracks

lemma new (config : Config) (now : Instant) : Tracks config now [] (.new config) where
  kept := rfl
  count := rfl
  last h := absurd rfl h
  opened h := by cases h
  closed _ := not_blocked_nil

lemma cooled_iff (h : Tracks config now failures b) (ho : b.isOpen = true) :
    b.hasCooledDown now = true ↔ ¬Blocked config now failures := by
  have hm := h.opened ho
  obtain ⟨last, rest, rfl⟩ : ∃ last rest, failures = last :: rest := by
    cases failures with
    | nil => simp at hm
    | cons last rest => exact ⟨last, rest, rfl⟩
  have hl : b.lastFailure = some last := h.last (List.cons_ne_nil _ _)
  simp only [hasCooledDown, hl, h.kept, decide_eq_true_eq]
  constructor
  · rintro hc ⟨_, t, ht, hlt⟩
    obtain rfl : last = t := Option.some.inj ht
    exact absurd hlt (Nat.not_lt.2 hc)
  · intro hn
    apply Nat.le_of_not_lt
    intro hlt
    exact hn ⟨hm, last, rfl, hlt⟩

theorem admits_iff (h : Tracks config now failures b) :
    (b.admits now).1 = true ↔ ¬Blocked config now failures := by
  cases ho : b.isOpen with
  | false => simp [admits, ho, h.closed ho]
  | true =>
    rw [← h.cooled_iff ho]
    by_cases hc : b.hasCooledDown now = true <;> simp [admits, ho, hc]

lemma admits (h : Tracks config now failures b) : Tracks config now failures (b.admits now).2 := by
  cases ho : b.isOpen with
  | false =>
    rw [admits_of_closed b now ho]
    exact h
  | true =>
    by_cases hc : b.hasCooledDown now = true
    · simp only [Breaker.admits, ho, hc, Bool.not_true, Bool.false_eq_true, if_false, if_true]
      exact ⟨h.kept, h.count, h.last, (by simp), fun _ => (h.cooled_iff ho).1 hc⟩
    · simp only [Breaker.admits, ho, hc, Bool.not_true, Bool.false_eq_true, if_false]
      exact ⟨h.kept, h.count, h.last, fun _ => h.opened ho, (by simp)⟩

lemma succeed (h : Tracks config now failures b) : Tracks config now [] b.succeed where
  kept := h.kept
  count := rfl
  last hne := absurd rfl hne
  opened hf := by cases hf
  closed _ := not_blocked_nil

lemma fail (h : Tracks config now failures b) : Tracks config now (now :: failures) (b.fail now).2 := by
  have hbound : config.maxRetries.toNat ≤ mostFailures := Nat.le_of_lt_succ config.maxRetries.toNat_lt
  have hc := h.count
  have hcount : min (b.failures + 1) mostFailures = min (failures.length + 1) mostFailures := by omega
  by_cases hopens : (!b.isOpen && decide (b.config.maxRetries.toNat ≤ min (b.failures + 1) mostFailures)) = true
  · simp only [Breaker.fail, hopens, if_true]
    refine ⟨h.kept, hcount, fun _ => rfl, fun _ => ?_, (by simp)⟩
    rw [Bool.and_eq_true, decide_eq_true_eq, h.kept] at hopens
    rw [List.length_cons]
    omega
  · simp only [Breaker.fail, hopens]
    refine ⟨h.kept, hcount, fun _ => rfl, fun ho => ?_, fun ho => ?_⟩
    · exact Nat.le_succ_of_le (h.opened ho)
    · rintro ⟨hm, _⟩
      have ho' : b.isOpen = false := ho
      rw [ho', h.kept, Bool.not_false, Bool.true_and, decide_eq_true_eq] at hopens
      rw [List.length_cons] at hm
      omega

lemma later (h : Tracks config now failures b) (d : Duration) : Tracks config (now + d) failures b where
  kept := h.kept
  count := h.count
  last := h.last
  opened := h.opened
  closed ho := by
    rintro ⟨hm, t, ht, hlt⟩
    exact h.closed ho ⟨hm, t, ht, Nat.lt_of_le_of_lt (Nat.sub_le_sub_right (Nat.le_add_right ..) t) hlt⟩

end Tracks

end Serving.Breaker
