import Serving.Time

/-!
# Agendas

An agenda says what is to happen at which time. What was put down first for a time happens first.
Main statement: an agenda stays in order of time, whatever is put down.
-/

namespace Serving

/-- What is to happen, the earliest first. -/
structure Agenda (ε : Type) where
  entries : List (Instant × ε) := []

namespace Agenda

variable {ε : Type}

/-- Puts an entry behind all entries that are not later. -/
def place (due : Instant) (e : ε) : List (Instant × ε) → List (Instant × ε)
  | [] => [(due, e)]
  | (d, f) :: rest => if due < d then (due, e) :: (d, f) :: rest else (d, f) :: place due e rest

def post (a : Agenda ε) (due : Instant) (e : ε) : Agenda ε := ⟨place due e a.entries⟩

/-- Takes the first entry, if it is due by `limit`. -/
def next? (a : Agenda ε) (limit : Instant) : Option (Instant × ε × Agenda ε) :=
  match a.entries with
  | (due, e) :: rest => if due ≤ limit then some (due, e, ⟨rest⟩) else none
  | [] => none

/-- Takes the first entry. -/
def first? (a : Agenda ε) : Option (Instant × ε × Agenda ε) :=
  match a.entries with
  | (due, e) :: rest => some (due, e, ⟨rest⟩)
  | [] => none

theorem mem_place {x : Instant × ε} {due : Instant} {e : ε} {l : List (Instant × ε)} :
    x ∈ place due e l ↔ x = (due, e) ∨ x ∈ l := by
  induction l with
  | nil => simp [place]
  | cons a rest ih =>
    by_cases h : due < a.1
    · simp [place, h]
    · simp only [place, h, if_false, List.mem_cons, ih]
      exact or_left_comm

theorem pairwise_place (due : Instant) (e : ε) (l : List (Instant × ε))
    (h : l.Pairwise (·.1 ≤ ·.1)) : (place due e l).Pairwise (·.1 ≤ ·.1) := by
  induction l with
  | nil => simp [place]
  | cons a rest ih =>
    obtain ⟨hd, hr⟩ := List.pairwise_cons.1 h
    by_cases hlt : due < a.1
    · simp only [place, hlt, if_true]
      refine List.pairwise_cons.2 ⟨fun x hx => ?_, h⟩
      rcases List.mem_cons.1 hx with rfl | hx
      · exact Nat.le_of_lt hlt
      · exact Nat.le_trans (Nat.le_of_lt hlt) (hd x hx)
    · simp only [place, hlt, if_false]
      refine List.pairwise_cons.2 ⟨fun x hx => ?_, ih hr⟩
      rcases mem_place.1 hx with rfl | hx
      · exact Nat.le_of_not_lt hlt
      · exact hd x hx

/-- An agenda in order of time stays in order of time. -/
theorem pairwise_post (a : Agenda ε) (due : Instant) (e : ε) (h : a.entries.Pairwise (·.1 ≤ ·.1)) :
    (a.post due e).entries.Pairwise (·.1 ≤ ·.1) := pairwise_place due e a.entries h

end Agenda

end Serving
