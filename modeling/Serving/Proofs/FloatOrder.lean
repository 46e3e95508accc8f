import Mathlib.Data.Prod.Lex
import Mathlib.Order.Compare
import Mathlib.Tactic.Lemma

/-! The order of floats. Every float that is a number has a place among all others, in which the two zeros share, and
comparing two numbers is comparing their places; so the order has the laws of a linear order wherever no NaN comes in. -/

namespace Serving.FloatOrder

open Float.Model

/-- Where a number stands: the infinities outermost, and on either side of zero by exponent before mantissa. -/
def standing : UnpackedFloat → Option (Int ×ₗ Int ×ₗ Int)
  | .notANumber => none
  | .infinity .negative => some (toLex (-2, toLex (0, 0)))
  | .finite .negative m e _ => some (toLex (-1, toLex (-e, -m)))
  | .zero _ => some (toLex (0, toLex (0, 0)))
  | .finite .positive m e _ => some (toLex (1, toLex (e, m)))
  | .infinity .positive => some (toLex (2, toLex (0, 0)))

lemma compare_eq_lt_iff {a b : UnpackedFloat} :
    a.compare b = some .lt ↔ ∃ x ∈ standing a, ∃ y ∈ standing b, x < y := by
  -- Apart from two numbers of one sign, the kinds of the two decide.
  rcases a with (_ | _) | _ | _ | ⟨_ | _, m, e, hm⟩ <;> rcases b with (_ | _) | _ | _ | ⟨_ | _, n, f, hn⟩ <;>
    dsimp only [UnpackedFloat.compare, standing] <;>
    simp [Prod.Lex.toLex_lt_toLex, Ordering.then_eq_lt, Ordering.swap_then, compare_lt_iff_lt, compare_gt_iff_gt]
  rfl

lemma isLE_compare_iff {a b : UnpackedFloat} :
    (a.compare b).any (·.isLE) = true ↔ ∃ x ∈ standing a, ∃ y ∈ standing b, x ≤ y := by
  rcases a with (_ | _) | _ | _ | ⟨_ | _, m, e, hm⟩ <;> rcases b with (_ | _) | _ | _ | ⟨_ | _, n, f, hn⟩ <;>
    dsimp only [UnpackedFloat.compare, standing] <;>
    simp [Prod.Lex.toLex_le_toLex, Ordering.isLE_then_iff_or, Ordering.swap_then, compare_lt_iff_lt,
      compare_gt_iff_gt, Nat.isLE_compare, Nat.isGE_compare] <;> rfl

lemma standing_of_not_isNaN {a : UnpackedFloat} (h : a.isNaN = false) : ∃ x, standing a = some x := by
  rcases a with (_ | _) | _ | _ | ⟨_ | _, m, e, hm⟩
  case notANumber => cases h
  all_goals exact ⟨_, rfl⟩

variable {x y z : Float}

lemma lt_iff_standing : x < y ↔ ∃ a ∈ standing x.toModel.unpack, ∃ b ∈ standing y.toModel.unpack, a < b := by
  rw [← compare_eq_lt_iff]
  exact decide_eq_true_iff.trans beq_iff_eq

lemma le_iff_standing : x ≤ y ↔ ∃ a ∈ standing x.toModel.unpack, ∃ b ∈ standing y.toModel.unpack, a ≤ b := by
  rw [← isLE_compare_iff]
  exact decide_eq_true_iff

/-- Of two floats that are numbers, the one that is not below is at least as large. -/
lemma le_of_not_lt (hx : x.isNaN = false) (hy : y.isNaN = false) (h : ¬x < y) : y ≤ x := by
  obtain ⟨a, ha⟩ := standing_of_not_isNaN (a := x.toModel.unpack) hx
  obtain ⟨b, hb⟩ := standing_of_not_isNaN (a := y.toModel.unpack) hy
  rw [lt_iff_standing] at h
  exact le_iff_standing.2 ⟨b, hb, a, ha, not_lt.1 fun hab => h ⟨a, ha, b, hb, hab⟩⟩

lemma lt_of_lt_of_le (hxy : x < y) (hyz : y ≤ z) : x < z := by
  obtain ⟨a, ha, b, hb, hab⟩ := lt_iff_standing.1 hxy
  obtain ⟨b', hb', c, hc, hbc⟩ := le_iff_standing.1 hyz
  obtain rfl : b = b' := Option.some.inj (hb.symm.trans hb')
  exact lt_iff_standing.2 ⟨a, ha, c, hc, hab.trans_le hbc⟩

end Serving.FloatOrder
