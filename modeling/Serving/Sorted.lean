/-!
# Sorting

Sorting by insertion. Of two entries neither of which comes before the other, the one that was there
first stays in front. Main statements: nothing is lost, and a list sorted by an order is in that order.
-/

namespace Serving

namespace Sorted

variable {α : Type}

/-- Places an entry in front of the first one that it comes before. -/
def place (before : α → α → Bool) (a : α) : List α → List α
  | [] => [a]
  | b :: rest => if before a b then a :: b :: rest else b :: place before a rest

def sort (before : α → α → Bool) (l : List α) : List α :=
  l.foldl (fun sorted a => place before a sorted) []

def names (l : List String) : List String := sort (fun a b => decide (a < b)) l

theorem mem_place {before : α → α → Bool} {a x : α} {l : List α} :
    x ∈ place before a l ↔ x = a ∨ x ∈ l := by
  induction l with
  | nil => simp [place]
  | cons b rest ih =>
    cases h : before a b
    · simp only [place, h, Bool.false_eq_true, if_false, List.mem_cons, ih]
      exact or_left_comm
    · simp [place, h]

theorem mem_foldl_place {before : α → α → Bool} {x : α} (l sorted : List α) :
    x ∈ l.foldl (fun sorted a => place before a sorted) sorted ↔ x ∈ sorted ∨ x ∈ l := by
  induction l generalizing sorted with
  | nil => simp
  | cons a rest ih =>
    simp only [List.foldl_cons, ih, mem_place, List.mem_cons]
    rw [or_assoc, or_left_comm]

@[simp]
theorem mem_sort {before : α → α → Bool} {x : α} {l : List α} : x ∈ sort before l ↔ x ∈ l := by
  simp [sort, mem_foldl_place]

theorem length_place (before : α → α → Bool) (a : α) (l : List α) :
    (place before a l).length = l.length + 1 := by
  induction l with
  | nil => rfl
  | cons b rest ih => cases h : before a b <;> simp [place, h, ih]

theorem perm_place (before : α → α → Bool) (a : α) (l : List α) : (place before a l).Perm (a :: l) := by
  induction l with
  | nil => exact .refl _
  | cons b rest ih =>
    cases h : before a b
    · simp only [place, h, Bool.false_eq_true, if_false]
      exact (ih.cons b).trans (.swap a b rest)
    · simp [place, h]

theorem perm_foldl_place (before : α → α → Bool) (l sorted : List α) :
    (l.foldl (fun sorted a => place before a sorted) sorted).Perm (sorted ++ l) := by
  induction l generalizing sorted with
  | nil => simp
  | cons a rest ih =>
    exact (ih _).trans (((perm_place before a sorted).append_right rest).trans List.perm_middle.symm)

theorem perm_sort (before : α → α → Bool) (l : List α) : (sort before l).Perm l := perm_foldl_place before l []

section Order

variable {before : α → α → Bool} {le : α → α → Prop} (trans : ∀ a b c, le a b → le b c → le a c)
  (le_of_before : ∀ a b, before a b = true → le a b) (le_of_not : ∀ a b, before a b = false → le b a)

include trans le_of_before le_of_not

/-- A list in order stays in order when an entry is placed in it. -/
theorem pairwise_place (a : α) {l : List α} (h : l.Pairwise le) : (place before a l).Pairwise le := by
  induction l with
  | nil => simp [place]
  | cons b rest ih =>
    obtain ⟨hb, hr⟩ := List.pairwise_cons.1 h
    cases hab : before a b
    · simp only [place, hab, Bool.false_eq_true, if_false]
      refine List.pairwise_cons.2 ⟨fun x hx => ?_, ih hr⟩
      rcases mem_place.1 hx with rfl | hx
      · exact le_of_not _ _ hab
      · exact hb x hx
    · simp only [place, hab, if_true]
      refine List.pairwise_cons.2 ⟨fun x hx => ?_, h⟩
      rcases List.mem_cons.1 hx with rfl | hx
      · exact le_of_before _ _ hab
      · exact trans _ _ _ (le_of_before _ _ hab) (hb x hx)

theorem pairwise_foldl_place (l sorted : List α) (h : sorted.Pairwise le) :
    (l.foldl (fun sorted a => place before a sorted) sorted).Pairwise le := by
  induction l generalizing sorted with
  | nil => exact h
  | cons a rest ih => exact ih _ (pairwise_place trans le_of_before le_of_not a h)

theorem pairwise_sort (l : List α) : (sort before l).Pairwise le :=
  pairwise_foldl_place trans le_of_before le_of_not l [] .nil

end Order

theorem pairwise_names (l : List String) : (names l).Pairwise (· ≤ ·) := by
  refine pairwise_sort (fun a b c h h' => ?_) (fun a b h => ?_) (fun a b h => ?_) l
  · exact String.le_trans h h'
  · exact String.not_lt.1 (String.lt_asymm (of_decide_eq_true h))
  · exact String.not_lt.1 (of_decide_eq_false h)

end Sorted

end Serving
