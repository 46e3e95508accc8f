import Mathlib.Algebra.Order.Field.Power
import Mathlib.Data.Rat.Cast.Order
import Mathlib.Tactic.Linarith
import Mathlib.Tactic.Positivity
import Mathlib.Tactic.Ring
import Serving.Decimal.Shortest

/-! The shortest decimal of a float belongs to that float alone. With seventeen digits the grid is finer than the
interval of any float, so the search comes to an end inside the interval; and the intervals of two floats have no
point in common, for where they touch only one of them has its end. -/

namespace Serving.Decimal

namespace Binary

/-- What the bits of a float can give: the leading bit is there unless the exponent is the least one. -/
structure Regular (b : Binary) : Prop where
  mantissa : b.mantissa < 2 * leadingBit
  exponent : -1074 ≤ b.exponent
  leading : leadingBit ≤ b.mantissa ∨ b.exponent = -1074

lemma regular_ofFloat (x : Float) : (ofFloat x).Regular := by
  have hfraction : x.toBits.toNat % leadingBit < leadingBit := Nat.mod_lt _ (by decide)
  by_cases h : x.toBits.toNat / leadingBit % 2048 = 0
  · simp only [ofFloat, h, if_true]
    exact ⟨by simp only [leadingBit] at *; omega, Int.le_refl _, .inr rfl⟩
  · simp only [ofFloat, h, if_false]
    exact ⟨by simp only [leadingBit] at *; omega, by simp only [leadingBit] at *; omega, .inl (Nat.le_add_left ..)⟩

/-- A float is its sign and the number that it stands for. -/
lemma eq_of_ofFloat {x y : Float} (hs : isSigned x = isSigned y) (h : ofFloat x = ofFloat y) : x = y := by
  have hbits : x.toBits.toNat = y.toBits.toNat := by
    have hx := x.toBits.toNat_lt
    have hy := y.toBits.toNat_lt
    simp only [isSigned, decide_eq_decide] at hs
    simp only [ofFloat, leadingBit] at h
    by_cases hex : x.toBits.toNat / 4503599627370496 % 2048 = 0 <;>
      by_cases hey : y.toBits.toNat / 4503599627370496 % 2048 = 0 <;>
      simp only [hex, hey, if_true, if_false, mk.injEq] at h <;> omega
  have hmodel : x.toModel.toBits = y.toModel.toBits := UInt64.toNat_inj.1 hbits
  cases x with | ofModel x =>
  cases y with | ofModel y =>
  cases x
  cases y
  cases hmodel
  rfl

end Binary

def Digits.value (d : Digits) : ℚ := d.digits * 10 ^ d.exponent

namespace Interval

variable {i : Interval} {e k : ℤ} {d : Digits} {q : ℚ}

/-- A number lies in an interval, whose ends belong to it or not. -/
def Contains (i : Interval) (q : ℚ) : Prop :=
  if i.closed then i.low ≤ q * i.den ∧ q * i.den ≤ i.high else i.low < q * i.den ∧ q * i.den < i.high

lemma contains_of_holds {n : ℕ} (h : i.holds n = true) : i.Contains n := by
  unfold holds at h
  unfold Contains
  split at h <;> rename_i hc <;> simp only [hc, if_true, Bool.and_eq_true, decide_eq_true_eq] at h ⊢
  · exact_mod_cast h
  · exact_mod_cast h

/-- A shift brings powers of ten to the bounds or to the denominator. -/
lemma shift_eq (i : Interval) (e : ℤ) : ∃ p q : ℕ, 0 < p ∧ 0 < q ∧ (q : ℚ) = 10 ^ e * p ∧
    i.shift e = ⟨i.low * p, i.exact * p, i.high * p, i.den * q, i.closed⟩ := by
  by_cases h : 0 ≤ e
  · refine ⟨1, 10 ^ e.toNat, Nat.one_pos, by positivity, ?_, by simp [shift, h]⟩
    rw [Nat.cast_pow, ← zpow_natCast, Int.toNat_of_nonneg h]
    simp
  · refine ⟨10 ^ (-e).toNat, 1, by positivity, Nat.one_pos, ?_, by simp [shift, h]⟩
    rw [Nat.cast_pow, ← zpow_natCast, Int.toNat_of_nonneg (by omega), zpow_neg]
    have hne : (10 : ℚ) ^ e ≠ 0 := by positivity
    exact_mod_cast (mul_inv_cancel₀ hne).symm

lemma contains_of_shift (h : (i.shift e).Contains q) : i.Contains (q * 10 ^ e) := by
  obtain ⟨p, s, hp, _, hs, heq⟩ := shift_eq i e
  have hpos : (0 : ℚ) < p := by exact_mod_cast hp
  have hmid : q * (i.den * s) = q * 10 ^ e * i.den * p := by rw [hs]; ring
  rw [heq] at h
  unfold Contains at h ⊢
  simp only [Nat.cast_mul, hmid] at h
  split at h <;> rename_i hc <;> simp only [hc, if_true]
  · exact ⟨le_of_mul_le_mul_right h.1 hpos, le_of_mul_le_mul_right h.2 hpos⟩
  · exact ⟨lt_of_mul_lt_mul_right h.1 hpos.le, lt_of_mul_lt_mul_right h.2 hpos.le⟩

lemma contains_of_onGrid (h : onGrid? i e = some d) : i.Contains d.value := by
  have hd : d.exponent = e ∧ (i.shift e).holds d.digits = true := by
    simp only [onGrid?] at h
    split at h
    · cases h
    · cases h
      exact ⟨rfl, ‹_›⟩
    · cases h
      exact ⟨rfl, ‹_›⟩
    · split at h
      · cases h
        exact ⟨rfl, ‹_›⟩
      · split at h
        · cases h
          exact ⟨rfl, ‹_›⟩
        · split at h <;> cases h <;> exact ⟨rfl, ‹_›⟩
  have hv : d.value = d.digits * 10 ^ e := by rw [Digits.value, hd.1]
  rw [hv]
  exact contains_of_shift (contains_of_holds hd.2)

lemma contains_search {grids : List ℕ} (h : ∃ n ∈ grids, onGrid? i (k - n) ≠ none) :
    i.Contains (search i k grids).value := by
  induction grids with
  | nil =>
    obtain ⟨n, hn, _⟩ := h
    cases hn
  | cons n rest ih =>
    rw [search]
    cases hg : onGrid? i (k - n) with
    | some d => exact contains_of_onGrid hg
    | none =>
      obtain ⟨m, hm, hne⟩ := h
      rcases List.mem_cons.1 hm with rfl | hm
      · exact absurd hg hne
      · exact ih ⟨m, hm, hne⟩

/-- A grid whose step is less than either half of the interval has a point inside. -/
lemma onGrid_ne_none (hden : 0 < (i.shift e).den)
    (hlow : 2 * (i.shift e).low + (i.shift e).den < 2 * (i.shift e).exact)
    (hhigh : 2 * (i.shift e).exact + (i.shift e).den < 2 * (i.shift e).high) : onGrid? i e ≠ none := by
  unfold onGrid?
  generalize i.shift e = s at *
  have hnear : s.holds (s.exact / s.den) = true ∨ s.holds (s.exact / s.den + 1) = true := by
    have hdiv := Nat.div_add_mod' s.exact s.den
    have hrest := Nat.mod_lt s.exact hden
    simp only [holds, Nat.add_mul, Nat.one_mul]
    generalize s.exact / s.den * s.den = below at *
    -- of the two neighbours the nearer one is no further away than half a step
    by_cases hhalf : 2 * (s.exact % s.den) ≤ s.den
    · left
      split <;> simp only [Bool.and_eq_true, decide_eq_true_eq] <;> omega
    · right
      split <;> simp only [Bool.and_eq_true, decide_eq_true_eq] <;> omega
  dsimp only
  split
  · rename_i hb ha
    simp [hb, ha] at hnear
  all_goals (try split) <;> (try split) <;> (try split) <;> nofun

end Interval

lemma lt_pow_width (n : ℕ) : n < 10 ^ width n :=
  (Nat.length_toDigits_le_iff (by decide) Nat.length_toDigits_pos).1 (Nat.le_refl _)

lemma pow_width_le {n : ℕ} (h : 0 < n) : 10 ^ (width n - 1) ≤ n := by
  by_contra hlt
  rcases Nat.eq_zero_or_pos (width n - 1) with hz | hz
  · rw [hz] at hlt
    omega
  · have hle : width n ≤ width n - 1 :=
      (Nat.length_toDigits_le_iff (by decide) hz).2 (Nat.lt_of_not_le hlt)
    omega

lemma pow_mul_le_iff (num den : ℕ) (e : ℤ) :
    (if 0 ≤ e then den * Nat.pow 10 e.toNat ≤ num else den ≤ num * Nat.pow 10 (-e).toNat) ↔
      (10 : ℚ) ^ e * den ≤ num := by
  split <;> rename_i h
  · lift e to ℕ using h
    rw [zpow_natCast, mul_comm, Int.toNat_natCast]
    exact_mod_cast Iff.rfl
  · obtain ⟨n, rfl⟩ : ∃ n : ℕ, e = -n := ⟨(-e).toNat, by omega⟩
    rw [zpow_neg, zpow_natCast, inv_mul_le_iff₀ (by positivity), neg_neg, Int.toNat_natCast, mul_comm]
    exact_mod_cast Iff.rfl

/-- The power of ten below the leading one is no larger than the fraction. -/
lemma pow_leading_le {num den : ℕ} (hn : 0 < num) : (10 : ℚ) ^ (leading num den - 1) * den ≤ num := by
  simp only [leading, pow_mul_le_iff]
  split <;> rename_i hreached
  · rwa [Int.add_sub_cancel]
  · -- the numbers of digits tell
    have hwidth : 1 ≤ width num := Nat.length_toDigits_pos
    calc (10 : ℚ) ^ ((width num : ℤ) - width den - 1) * den
        ≤ 10 ^ ((width num : ℤ) - width den - 1) * 10 ^ width den := by
          refine mul_le_mul_of_nonneg_left ?_ (by positivity)
          exact_mod_cast (lt_pow_width den).le
      _ = 10 ^ (width num - 1) := by
          rw [← zpow_natCast, ← zpow_natCast, ← zpow_add₀ (by norm_num)]
          congr 1
          omega
      _ ≤ num := by exact_mod_cast pow_width_le hn

namespace Digits

lemma value_trim (d : Digits) : d.trim.value = d.value := by
  fun_induction trim d with
  | case1 d h => simp [value, h]
  | case2 d h hz ih =>
    have hten : (d.digits : ℚ) = (d.digits / 10 : ℕ) * 10 := by
      exact_mod_cast (Nat.div_mul_cancel (Nat.dvd_of_mod_eq_zero hz)).symm
    rw [ih, value, value, hten, zpow_add_one₀ (by norm_num)]
    ring
  | case3 d h hz => rfl

end Digits

namespace Binary

variable {b b' : Binary} {q : ℚ}

/-- The lower end of an interval, in quarters of the last place. -/
def lowerQuarters (b : Binary) : ℕ := if b.lowerGapIsHalf then 4 * b.mantissa - 1 else 4 * b.mantissa - 2

lemma value_scaled (e : ℤ) : ((scaled 1 e).num : ℚ) = 2 ^ e * (scaled 1 e).den := by
  by_cases h : 0 ≤ e
  · lift e to ℕ using h
    simp [scaled]
  · obtain ⟨n, rfl⟩ : ∃ n : ℕ, e = -n := ⟨(-e).toNat, by omega⟩
    rw [scaled, if_neg h]
    simp

lemma num_scaled_pos (e : ℤ) : 0 < (scaled 1 e).num := by
  unfold scaled
  split <;> simp

lemma den_scaled_pos (e : ℤ) : 0 < (scaled 1 e).den := by
  unfold scaled
  split <;> simp

/-- The interval of a float in terms of the number that it stands for. -/
lemma contains_ofBinary : (Interval.ofBinary b).Contains q ↔
    if b.mantissa % 2 = 0 then
      b.lowerQuarters * (2 : ℚ) ^ (b.exponent - 2) ≤ q ∧ q ≤ (4 * b.mantissa + 2) * (2 : ℚ) ^ (b.exponent - 2)
    else b.lowerQuarters * (2 : ℚ) ^ (b.exponent - 2) < q ∧ q < (4 * b.mantissa + 2) * (2 : ℚ) ^ (b.exponent - 2) := by
  have hpos : (0 : ℚ) < (scaled 1 (b.exponent - 2)).den := by exact_mod_cast den_scaled_pos _
  simp only [Interval.ofBinary, Interval.Contains, beq_iff_eq, Nat.cast_mul, value_scaled, ← mul_assoc,
    mul_le_mul_iff_left₀ hpos, mul_lt_mul_iff_left₀ hpos, lowerQuarters]
  push_cast
  rfl

/-- The search ends inside the interval, on the grid of seventeen digits if not before. -/
lemma contains_search (hb : b.Regular) (hm : b.mantissa ≠ 0) :
    (Interval.ofBinary b).Contains (search (Interval.ofBinary b)
      (leading (Interval.ofBinary b).exact (Interval.ofBinary b).den) (List.range' 1 17)).value := by
  refine Interval.contains_search ⟨17, by decide, ?_⟩
  have hlead : (10 : ℚ) ^ (leading (Interval.ofBinary b).exact (Interval.ofBinary b).den - 1) *
      (Interval.ofBinary b).den ≤ (Interval.ofBinary b).exact := by
    refine pow_leading_le (Nat.mul_pos (by omega) (num_scaled_pos _))
  generalize leading (Interval.ofBinary b).exact (Interval.ofBinary b).den = k at hlead ⊢
  obtain ⟨p, r, hp, hr, hpr, hs⟩ := Interval.shift_eq (Interval.ofBinary b) (k - (17 : ℕ))
  -- the grid has at least 10 ^ 16 steps up to the number, which is less than 2 ^ 55 quarters
  have hsteps : 10 ^ 16 * ((Interval.ofBinary b).den * r) ≤ (Interval.ofBinary b).exact * p := by
    have hpow : (10 : ℚ) ^ 16 * 10 ^ (k - (17 : ℕ)) = 10 ^ (k - 1) := by
      rw [← zpow_natCast, ← zpow_add₀ (by norm_num)]
      congr 1
      omega
    have hle := mul_le_mul_of_nonneg_right hlead (Nat.cast_nonneg p : (0 : ℚ) ≤ p)
    have heq : (10 : ℚ) ^ 16 * ((Interval.ofBinary b).den * r) =
        10 ^ (k - 1) * (Interval.ofBinary b).den * p := by
      rw [hpr, ← hpow]
      ring
    rw [← heq] at hle
    exact_mod_cast hle
  have hden : 0 < (Interval.ofBinary b).den * r := Nat.mul_pos (den_scaled_pos _) hr
  have hpos : 0 < (scaled 1 (b.exponent - 2)).num * p := Nat.mul_pos (num_scaled_pos _) hp
  refine Interval.onGrid_ne_none ?_ ?_ ?_ <;> rw [hs] <;> dsimp only
  · exact hden
  all_goals
    simp only [Interval.ofBinary, Nat.mul_assoc] at hsteps hden ⊢
    generalize (scaled 1 (b.exponent - 2)).num * p = n at *
    generalize (scaled 1 (b.exponent - 2)).den * r = d at *
    have hmantissa := hb.mantissa
  · split
    · rename_i hhalf
      simp only [lowerGapIsHalf, Bool.and_eq_true, beq_iff_eq] at hhalf
      simp only [leadingBit] at hhalf
      rw [hhalf.1] at hsteps ⊢
      omega
    · have hle : b.mantissa * n ≤ (2 * leadingBit - 1) * n := Nat.mul_le_mul_right _ (by omega)
      have hone : n ≤ b.mantissa * n := Nat.le_mul_of_pos_left _ (Nat.pos_of_ne_zero hm)
      simp only [leadingBit] at hle
      rw [Nat.sub_mul, Nat.mul_assoc]
      omega
  · have hle : b.mantissa * n ≤ (2 * leadingBit - 1) * n := Nat.mul_le_mul_right _ (by omega)
    simp only [leadingBit] at hle
    rw [Nat.add_mul, Nat.mul_assoc]
    omega

lemma lowerQuarters_le (b : Binary) : b.lowerQuarters ≤ 4 * b.mantissa - 1 := by
  unfold lowerQuarters
  split <;> omega

lemma le_lowerQuarters (b : Binary) : 4 * b.mantissa ≤ b.lowerQuarters + 2 := by
  unfold lowerQuarters
  split <;> omega

/-- The order of floats of one sign. -/
def Below (b b' : Binary) : Prop := b.exponent < b'.exponent ∨ b.exponent = b'.exponent ∧ b.mantissa < b'.mantissa

/-- The interval of a smaller float ends where that of a larger one begins or earlier, and earlier if both ends are
taken in. -/
lemma Below.ends_before (h : b.Below b') (hb : b.Regular) (hb' : b'.Regular) :
    (4 * b.mantissa + 2) * (2 : ℚ) ^ (b.exponent - 2) ≤ b'.lowerQuarters * (2 : ℚ) ^ (b'.exponent - 2) ∧
      (b.mantissa % 2 = 0 → b'.mantissa % 2 = 0 →
        (4 * b.mantissa + 2) * (2 : ℚ) ^ (b.exponent - 2) < b'.lowerQuarters * (2 : ℚ) ^ (b'.exponent - 2)) := by
  have hpos : (0 : ℚ) < 2 ^ (b.exponent - 2) := by positivity
  have hnear := le_lowerQuarters b'
  rcases h with he | ⟨he, hm⟩
  · have hdouble : (b'.lowerQuarters : ℚ) * 2 * 2 ^ (b.exponent - 2) ≤ b'.lowerQuarters * 2 ^ (b'.exponent - 2) := by
      rw [mul_assoc, ← zpow_one_add₀ (by norm_num)]
      refine mul_le_mul_of_nonneg_left ?_ (Nat.cast_nonneg _)
      exact zpow_le_zpow_right₀ (by norm_num) (by omega)
    -- the larger one has its leading bit, and the smaller one no more bits than that
    have hquarters : 4 * b.mantissa + 2 ≤ b'.lowerQuarters * 2 ∧
        (b.mantissa % 2 = 0 → 4 * b.mantissa + 2 < b'.lowerQuarters * 2) := by
      have hsmall := hb.exponent
      have hmantissa := hb.mantissa
      have hlead := hb'.leading.resolve_right (by omega)
      have hhalf : b'.mantissa = leadingBit → b'.lowerQuarters = 4 * leadingBit - 1 := by
        intro heq
        have hgap : b'.lowerGapIsHalf = true := by
          simp only [lowerGapIsHalf, heq, beq_self_eq_true, Bool.true_and, bne_iff_ne, ne_eq]
          omega
        rw [lowerQuarters, if_pos hgap, heq]
      simp only [leadingBit] at *
      omega
    refine ⟨le_trans (mul_le_mul_of_nonneg_right ?_ hpos.le) hdouble, fun heven _ => ?_⟩
    · exact_mod_cast hquarters.1
    · refine lt_of_lt_of_le (mul_lt_mul_of_pos_right ?_ hpos) hdouble
      exact_mod_cast hquarters.2 heven
  · rw [← he]
    refine ⟨mul_le_mul_of_nonneg_right ?_ hpos.le, fun heven heven' => mul_lt_mul_of_pos_right ?_ hpos⟩
    · have hquarters : 4 * b.mantissa + 2 ≤ b'.lowerQuarters := by omega
      exact_mod_cast hquarters
    · have hquarters : 4 * b.mantissa + 2 < b'.lowerQuarters := by omega
      exact_mod_cast hquarters

lemma Below.not_contains (h : b.Below b') (hb : b.Regular) (hb' : b'.Regular) (hc : (Interval.ofBinary b).Contains q) :
    ¬(Interval.ofBinary b').Contains q := by
  intro hc'
  obtain ⟨hle, hlt⟩ := h.ends_before hb hb'
  rw [contains_ofBinary] at hc hc'
  split at hc <;> split at hc'
  · exact absurd (hlt ‹_› ‹_›) (not_lt.2 (hc'.1.trans hc.2))
  · exact absurd hle (not_le.2 (hc'.1.trans_le hc.2))
  · exact absurd hle (not_le.2 (hc'.1.trans_lt hc.2))
  · exact absurd hle (not_le.2 (hc'.1.trans hc.2))

lemma eq_of_contains (hb : b.Regular) (hb' : b'.Regular) (hc : (Interval.ofBinary b).Contains q)
    (hc' : (Interval.ofBinary b').Contains q) : b = b' := by
  have habove : ¬b.Below b' := fun h => h.not_contains hb hb' hc hc'
  have hbelow : ¬b'.Below b := fun h => h.not_contains hb' hb hc' hc
  cases b
  cases b'
  simp only [Below, mk.injEq] at habove hbelow ⊢
  omega

end Binary

lemma contains_shortest (x : Float) : (Interval.ofBinary (.ofFloat x)).Contains (shortest x).value := by
  have hb := Binary.regular_ofFloat x
  unfold shortest
  dsimp only
  split
  · rename_i hz
    rw [Binary.contains_ofBinary, if_pos (by simp [hz])]
    have hlow : (Binary.ofFloat x).lowerQuarters = 0 := by
      have := Binary.lowerQuarters_le (.ofFloat x)
      omega
    refine ⟨by simp [Digits.value, hlow], ?_⟩
    rw [Digits.value, Nat.cast_zero, zero_mul]
    positivity
  · rename_i hz
    rw [Digits.value_trim]
    exact Binary.contains_search hb hz

/-- The shortest decimal and the sign tell a float from all others. -/
theorem eq_of_shortest {x y : Float} (hs : isSigned x = isSigned y) (h : (shortest x).value = (shortest y).value) :
    x = y := by
  have hy := contains_shortest y
  rw [← h] at hy
  exact Binary.eq_of_ofFloat hs
    (Binary.eq_of_contains (Binary.regular_ofFloat x) (Binary.regular_ofFloat y) (contains_shortest x) hy)

end Serving.Decimal
