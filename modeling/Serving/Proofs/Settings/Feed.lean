import Mathlib.Tactic.Lemma
import Serving.Settings.Feed

/-! What a subscriber learns from a feed. It hears the values in the order in which they were published, and where some
are missing it is told how many. What it has not heard yet is kept as far as there is room, the latest values first. -/

namespace Serving.Feed

variable {α : Type}

/-- What a subscriber has noted tells of values, in their order: it has heard them, or knows how many it has missed. -/
inductive Tells : List (Look α) → List α → Prop
  | start : Tells [] []
  | value {log : List (Look α)} {told : List α} (h : Tells log told) (a : α) : Tells (log ++ [.value a]) (told ++ [a])
  | gap {log : List (Look α)} {told : List α} (h : Tells log told) (lost : List α) :
    Tells (log ++ [.lagged lost.length]) (told ++ lost)
  | nothing {log : List (Look α)} {told : List α} (h : Tells log told) : Tells (log ++ [.nothing]) told

/-- The subscriber has been told of the values up to some point. The ones behind it were lost or are kept, and they are
lost only when there is no room. -/
structure Follows (f : Feed α) (log : List (Look α)) (published : List α) : Prop where
  parts : ∃ told lost, published = told ++ (lost ++ f.kept) ∧ Tells log told ∧ lost.length = f.missed
  bounded : f.kept.length ≤ f.capacity
  full : 0 < f.missed → f.kept.length = f.capacity

variable {f : Feed α} {log : List (Look α)} {published : List α}

lemma follows_start (capacity : Nat) : Follows { capacity } ([] : List (Look α)) [] where
  parts := ⟨[], [], rfl, .start, rfl⟩
  bounded := Nat.zero_le _
  full := nofun

lemma capacity_next (f : Feed α) : f.next.2.capacity = f.capacity := by
  rw [Feed.next]
  split
  · split <;> rfl
  · rfl

lemma kept_publish (f : Feed α) (a : α) :
    (f.publish a).kept = (f.kept ++ [a]).drop (f.kept.length + 1 - f.capacity) := by
  simp only [publish, List.length_append, List.length_cons, List.length_nil, Nat.zero_add]

lemma missed_publish (f : Feed α) (a : α) :
    (f.publish a).missed = f.missed + (f.kept.length + 1 - f.capacity) := by
  simp only [publish, List.length_append, List.length_cons, List.length_nil, Nat.zero_add]

lemma Follows.publish (h : Follows f log published) (a : α) : Follows (f.publish a) log (published ++ [a]) where
  parts := by
    obtain ⟨told, lost, rfl, htold, hlost⟩ := h.parts
    refine ⟨told, lost ++ (f.kept ++ [a]).take (f.kept.length + 1 - f.capacity), ?_, htold, ?_⟩
    · rw [kept_publish, List.append_assoc lost, List.take_append_drop]
      simp only [List.append_assoc]
    · rw [missed_publish, List.length_append, List.length_take, List.length_append, List.length_singleton, hlost]
      omega
  bounded := length_publish_le f a h.bounded
  full hm := by
    have hbounded := h.bounded
    have hfull := h.full
    rw [missed_publish] at hm
    rw [kept_publish, List.length_drop, List.length_append, List.length_singleton]
    change _ = f.capacity
    omega

lemma Follows.next (h : Follows f log published) : Follows f.next.2 (log ++ [f.next.1]) published := by
  obtain ⟨told, lost, rfl, htold, hlost⟩ := h.parts
  rw [Feed.next]
  split
  · rename_i hm
    obtain rfl := List.length_eq_zero_iff.1 (hlost.trans hm)
    split
    · rename_i hk
      exact ⟨⟨told, [], rfl, htold.nothing, hlost⟩, h.bounded, h.full⟩
    · rename_i a rest hk
      have hbounded := h.bounded
      rw [hk] at hbounded ⊢
      refine ⟨⟨told ++ [a], [], ?_, htold.value a, hlost⟩, ?_, ?_⟩
      · simp
      · exact Nat.le_of_succ_le hbounded
      · intro hpos
        exact absurd hm (Nat.ne_of_gt hpos)
  · rename_i hm
    refine ⟨⟨told ++ lost, [], ?_, ?_, rfl⟩, h.bounded, nofun⟩
    · simp
    · rw [← hlost]
      exact htold.gap lost

/-! ### The latest value -/

lemma suffix_publish (h : f.kept <:+ published) (a : α) : (f.publish a).kept <:+ published ++ [a] := by
  obtain ⟨before, rfl⟩ := h
  rw [kept_publish, List.append_assoc]
  exact (List.drop_suffix _ _).trans (List.suffix_append _ _)

lemma kept_publish_ne_nil (h : 0 < f.capacity) (a : α) : (f.publish a).kept ≠ [] := by
  rw [kept_publish, ne_eq, List.drop_eq_nil_iff, List.length_append, List.length_singleton]
  omega

lemma getLast?_publish (h : 0 < f.capacity) (a : α) : (f.publish a).kept.getLast? = some a := by
  have hne := kept_publish_ne_nil h a
  rw [kept_publish] at hne ⊢
  rw [List.getLast?_drop, if_neg (by simpa using hne), List.getLast?_concat]

end Serving.Feed
