import Mathlib.Tactic.Lemma

/-! Lists of things that carry numbers or names, each of them once, or are numbered by their places. -/

namespace Serving.Numbered

variable {α ν : Type} [DecidableEq ν] {number : α → ν} {l : List α} {a : α}

lemma perm_of_mem (h : (l.map number).Nodup) (ha : a ∈ l) :
    l.Perm (a :: l.filter fun b => number b != number a) := by
  induction l with
  | nil => cases ha
  | cons b rest ih =>
    obtain ⟨hb, hr⟩ := List.nodup_cons.1 h
    rcases List.mem_cons.1 ha with rfl | hm
    · have hall : ∀ c ∈ rest, (number c != number a) = true := by
        intro c hc
        rw [bne_iff_ne]
        intro he
        exact hb (List.mem_map.2 ⟨c, hc, he⟩)
      simp only [List.filter_cons, bne_self_eq_false, Bool.false_eq_true, if_false, List.filter_eq_self.2 hall]
      exact .refl _
    · have hne : (number b != number a) = true := by
        rw [bne_iff_ne]
        intro he
        exact hb (he ▸ List.mem_map.2 ⟨a, hm, rfl⟩)
      rw [List.filter_cons, if_pos hne]
      exact ((ih hr hm).cons b).trans (.swap ..)

lemma find?_of_mem (h : (l.map number).Nodup) (ha : a ∈ l) :
    l.find? (fun b => number b == number a) = some a := by
  induction l with
  | nil => cases ha
  | cons b rest ih =>
    obtain ⟨hb, hr⟩ := List.nodup_cons.1 h
    rcases List.mem_cons.1 ha with rfl | hm
    · simp
    · have hne : (number b == number a) = false := by
        rw [beq_eq_false_iff_ne]
        intro he
        exact hb (he ▸ List.mem_map.2 ⟨a, hm, rfl⟩)
      rw [List.find?_cons, hne]
      exact ih hr hm

lemma of_find? {n : ν} (h : l.find? (fun b => number b == n) = some a) : a ∈ l ∧ number a = n :=
  ⟨List.mem_of_find?_eq_some h, by simpa using List.find?_some h⟩

omit [DecidableEq ν] in
lemma nodup_concat (h : (l.map number).Nodup) (ha : ∀ b ∈ l, number b ≠ number a) :
    ((l ++ [a]).map number).Nodup := by
  rw [List.map_append, List.map_singleton, List.nodup_append]
  refine ⟨h, by simp, fun n hn m hm => ?_⟩
  obtain ⟨b, hb, rfl⟩ := List.mem_map.1 hn
  rw [List.mem_singleton.1 hm]
  exact ha b hb

lemma getElem?_concat_eq_some {b : α} {n : Nat} :
    (l ++ [a])[n]? = some b ↔ l[n]? = some b ∨ n = l.length ∧ a = b := by
  rcases Nat.lt_trichotomy n l.length with hn | rfl | hn
  · simp [List.getElem?_append_left hn, Nat.ne_of_lt hn]
  · simp
  · have hne : n ≠ l.length := Nat.ne_of_gt hn
    rw [List.getElem?_eq_none (by simp; omega), List.getElem?_eq_none (by omega)]
    simp [hne]

end Serving.Numbered
