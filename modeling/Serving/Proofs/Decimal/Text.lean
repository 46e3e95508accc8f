import Mathlib.Data.List.TakeWhile
import Serving.Decimal.Text
import Serving.Proofs.Decimal.Shortest

/-! What the text of a float tells. Read as a decimal it is the shortest one of the float, so floats of one text are
the same float; and as it has a point or an exponent, it is the text of no whole number. -/

namespace Serving.Decimal

/-- Digits with a point before the last of them, read as a number. -/
def pointValue (cs : List Char) : ℚ :=
  let fraction := (cs.dropWhile (· != '.')).drop 1
  Nat.ofDigitChars 10 (cs.takeWhile (· != '.') ++ fraction) 0 / 10 ^ fraction.length

def exponentValue : List Char → ℤ
  | '-' :: ds => -(Nat.ofDigitChars 10 ds 0 : ℤ)
  | '+' :: ds => Nat.ofDigitChars 10 ds 0
  | ds => Nat.ofDigitChars 10 ds 0

/-- A decimal without sign, read as a number. -/
def textValue (cs : List Char) : ℚ :=
  pointValue (cs.takeWhile (· != 'e')) * 10 ^ exponentValue ((cs.dropWhile (· != 'e')).drop 1)

variable {ds whole fraction : List Char} {p : ℤ}

lemma digit_ne {c d : Char} (h : c.isDigit = true) (hd : d.isDigit = false) : (c != d) = true := by
  rw [bne_iff_ne]
  rintro rfl
  rw [h] at hd
  cases hd

lemma pointValue_point (h : ∀ c ∈ whole, c.isDigit = true) : pointValue (whole ++ '.' :: fraction) =
    Nat.ofDigitChars 10 (whole ++ fraction) 0 / 10 ^ fraction.length := by
  have hne : ∀ c ∈ whole, (c != '.') = true := fun c hc => digit_ne (h c hc) rfl
  rw [pointValue, List.takeWhile_append_of_pos hne, List.dropWhile_append_of_pos hne]
  simp

lemma pointValue_whole (h : ∀ c ∈ whole, c.isDigit = true) : pointValue whole = Nat.ofDigitChars 10 whole 0 := by
  have hne : ∀ c ∈ whole, (c != '.') = true := fun c hc => digit_ne (h c hc) rfl
  rw [pointValue, List.takeWhile_eq_self_iff.2 hne, List.dropWhile_eq_nil_iff.2 hne]
  simp

lemma ofDigitChars_zeros (n : ℕ) (ds : List Char) :
    Nat.ofDigitChars 10 (zeros n ++ ds) 0 = Nat.ofDigitChars 10 ds 0 := by
  rw [zeros, Nat.ofDigitChars_append, Nat.ofDigitChars_replicate_zero, Nat.mul_zero]

lemma ofDigitChars_append_zeros (n : ℕ) (ds : List Char) :
    Nat.ofDigitChars 10 (ds ++ zeros n) 0 = Nat.ofDigitChars 10 ds 0 * 10 ^ n := by
  rw [zeros, Nat.ofDigitChars_append, Nat.ofDigitChars_replicate_zero, Nat.mul_comm]

lemma isDigit_zeros {n : ℕ} : ∀ c ∈ zeros n, c.isDigit = true := by
  intro c hc
  rw [List.eq_of_mem_replicate hc]
  rfl

/-- The characters of which numbers are written. -/
def isNumeric (c : Char) : Bool := c.isDigit || c ∈ ['-', '+', '.', 'e']

lemma isNumeric_of_isDigit {c : Char} (h : c.isDigit = true) : isNumeric c = true := by simp [isNumeric, h]

/-- A text that starts with a digit, has a point or an exponent, and is read as a certain number. -/
structure Numeral (cs : List Char) (q : ℚ) : Prop where
  value : textValue cs = q
  first : ∃ c rest, cs = c :: rest ∧ c.isDigit = true
  numeric : ∀ c ∈ cs, isNumeric c = true
  mark : '.' ∈ cs ∨ 'e' ∈ cs

lemma exists_first {tail : List Char} (hw : ∀ c ∈ whole, c.isDigit = true) (hne : whole ≠ []) :
    ∃ c rest, whole ++ tail = c :: rest ∧ c.isDigit = true := by
  cases whole with
  | nil => exact absurd rfl hne
  | cons c rest => exact ⟨c, rest ++ tail, rfl, hw c List.mem_cons_self⟩

lemma numeral_point (hw : ∀ c ∈ whole, c.isDigit = true) (hne : whole ≠ []) (hf : ∀ c ∈ fraction, c.isDigit = true) :
    Numeral (whole ++ '.' :: fraction) (Nat.ofDigitChars 10 (whole ++ fraction) 0 / 10 ^ fraction.length) where
  value := by
    have he : ∀ c ∈ whole ++ '.' :: fraction, (c != 'e') = true := by
      intro c hc
      rcases List.mem_append.1 hc with hc | hc
      · exact digit_ne (hw c hc) rfl
      · rcases List.mem_cons.1 hc with rfl | hc
        · rfl
        · exact digit_ne (hf c hc) rfl
    rw [textValue, List.takeWhile_eq_self_iff.2 he, List.dropWhile_eq_nil_iff.2 he, pointValue_point hw]
    simp [exponentValue]
  first := exists_first hw hne
  numeric c hc := by
    rcases List.mem_append.1 hc with hc | hc
    · exact isNumeric_of_isDigit (hw c hc)
    · rcases List.mem_cons.1 hc with rfl | hc
      · rfl
      · exact isNumeric_of_isDigit (hf c hc)
  mark := .inl (by simp)

lemma numeral_positional (hds : ∀ c ∈ ds, c.isDigit = true) (hne : ds ≠ []) (p : ℤ) :
    Numeral (positional .stored ds p) (Nat.ofDigitChars 10 ds 0 * 10 ^ (p - ds.length)) := by
  have hz : ['0'] = zeros 1 := rfl
  unfold positional
  dsimp only
  split
  · -- the point goes before the digits, perhaps with zeros in between
    have hfraction : ∀ c ∈ zeros (-p).toNat ++ ds, c.isDigit = true := fun c hc =>
      (List.mem_append.1 hc).elim (isDigit_zeros c) (hds c)
    have hvalue : (Nat.ofDigitChars 10 (['0'] ++ (zeros (-p).toNat ++ ds)) 0 : ℚ) /
        10 ^ (zeros (-p).toNat ++ ds).length = Nat.ofDigitChars 10 ds 0 * 10 ^ (p - ds.length) := by
      rw [hz, ofDigitChars_zeros, ofDigitChars_zeros, List.length_append, div_eq_mul_inv, ← zpow_natCast, ← zpow_neg]
      congr 2
      simp [zeros]
      omega
    rw [← hvalue]
    exact numeral_point (List.forall_mem_singleton.2 rfl) (List.cons_ne_nil '0' []) hfraction
  · split
    · -- all digits go before the point, perhaps with zeros behind them
      have hwhole : ∀ c ∈ ds ++ zeros (p.toNat - ds.length), c.isDigit = true := fun c hc =>
        (List.mem_append.1 hc).elim (hds c) (isDigit_zeros c)
      have hvalue : (Nat.ofDigitChars 10 (ds ++ zeros (p.toNat - ds.length) ++ ['0']) 0 : ℚ) / 10 ^ ['0'].length =
          Nat.ofDigitChars 10 ds 0 * 10 ^ (p - ds.length) := by
        have hp : p - ds.length = (p.toNat - ds.length : ℕ) := by omega
        rw [hz, ofDigitChars_append_zeros, ofDigitChars_append_zeros, hp, zpow_natCast]
        simp [zeros]
      rw [← hvalue]
      exact numeral_point hwhole (by simp [hne]) (by simp)
    · have hvalue : (Nat.ofDigitChars 10 (ds.take p.toNat ++ ds.drop p.toNat) 0 : ℚ) / 10 ^ (ds.drop p.toNat).length =
          Nat.ofDigitChars 10 ds 0 * 10 ^ (p - ds.length) := by
        rw [List.take_append_drop, List.length_drop, div_eq_mul_inv, ← zpow_natCast, ← zpow_neg]
        congr 2
        omega
      rw [← hvalue]
      refine numeral_point (fun c hc => hds c (List.mem_of_mem_take hc)) ?_ fun c hc => hds c (List.mem_of_mem_drop hc)
      rw [ne_eq, List.take_eq_nil_iff]
      simp only [hne, or_false]
      omega

/-- A text with an exponent behind what stands for a number by itself. -/
lemma numeral_exponent {mantissa exponent : List Char} (hfirst : ∃ c rest, mantissa = c :: rest ∧ c.isDigit = true)
    (hm : ∀ c ∈ mantissa, c.isDigit = true ∨ c = '.') (he : ∀ c ∈ exponent, isNumeric c = true) :
    Numeral (mantissa ++ 'e' :: exponent) (pointValue mantissa * 10 ^ exponentValue exponent) where
  value := by
    have hne : ∀ c ∈ mantissa, (c != 'e') = true := by
      intro c hc
      rcases hm c hc with hd | rfl
      · exact digit_ne hd rfl
      · rfl
    rw [textValue, List.takeWhile_append_of_pos hne, List.dropWhile_append_of_pos hne]
    simp
  first := by
    obtain ⟨c, rest, rfl, hc⟩ := hfirst
    exact ⟨c, _, rfl, hc⟩
  numeric c hc := by
    rcases List.mem_append.1 hc with hc | hc
    · rcases hm c hc with hd | rfl
      · exact isNumeric_of_isDigit hd
      · rfl
    · rcases List.mem_cons.1 hc with rfl | hc
      · rfl
      · exact he c hc
  mark := .inr (by simp)

lemma numeral_scientific (hds : ∀ c ∈ ds, c.isDigit = true) (hne : ds ≠ []) (p : ℤ) :
    Numeral (scientific .stored ds p) (Nat.ofDigitChars 10 ds 0 * 10 ^ (p - ds.length)) := by
  have hdigits : ∀ c ∈ Nat.toDigits 10 (p - 1).natAbs, isNumeric c = true := fun c hc =>
    isNumeric_of_isDigit (Nat.isDigit_of_mem_toDigits (by decide) (by decide) hc)
  obtain ⟨exponent, hexponent, hnumeric, htext⟩ : ∃ exponent : List Char, exponentValue exponent = p - 1 ∧
      (∀ c ∈ exponent, isNumeric c = true) ∧
      (if p - 1 < 0 then ['-'] else if Style.stored.plusSign then ['+'] else []) ++
        Nat.toDigits 10 (p - 1).natAbs = exponent := by
    refine ⟨_, ?_, ?_, rfl⟩ <;> split
    · simp only [List.cons_append, List.nil_append, exponentValue, Nat.ofDigitChars_ten_toDigits]
      omega
    · simp only [Style.stored, if_true, List.cons_append, List.nil_append, exponentValue,
        Nat.ofDigitChars_ten_toDigits]
      omega
    · simpa [isNumeric] using hdigits
    · simpa [Style.stored, isNumeric] using hdigits
  unfold scientific
  dsimp only
  rw [List.append_assoc, List.cons_append, htext]
  rcases ds with _ | ⟨first, _ | ⟨second, rest⟩⟩
  · exact absurd rfl hne
  · have hvalue : pointValue [first] * 10 ^ exponentValue exponent =
        Nat.ofDigitChars 10 [first] 0 * 10 ^ (p - ([first] : List Char).length) := by
      rw [hexponent, pointValue_whole hds]
      simp
    rw [← hvalue]
    exact numeral_exponent ⟨first, [], rfl, hds first List.mem_cons_self⟩ (fun c hc => .inl (hds c hc)) hnumeric
  · have hvalue : pointValue (first :: '.' :: second :: rest) * 10 ^ exponentValue exponent =
        Nat.ofDigitChars 10 (first :: second :: rest) 0 * 10 ^ (p - (first :: second :: rest).length) := by
      have hpoint : pointValue (first :: '.' :: second :: rest) =
          Nat.ofDigitChars 10 (first :: second :: rest) 0 / 10 ^ (second :: rest).length :=
        pointValue_point (List.forall_mem_singleton.2 (hds first List.mem_cons_self))
      rw [hpoint, hexponent, div_mul_eq_mul_div, mul_div_assoc]
      congr 1
      rw [div_eq_mul_inv, ← zpow_natCast, ← zpow_neg, ← zpow_add₀ (by norm_num)]
      congr 1
      simp only [List.length_cons]
      omega
    rw [← hvalue]
    refine numeral_exponent ⟨first, _, rfl, hds first List.mem_cons_self⟩ ?_ hnumeric
    intro c hc
    rcases List.mem_cons.1 hc with rfl | hc
    · exact .inl (hds _ List.mem_cons_self)
    · exact (List.mem_cons.1 hc).symm.imp (fun hc => hds c (List.mem_cons_of_mem _ hc)) id

/-- The text of a float without its sign, read as a decimal, is the shortest one of the float. -/
lemma numeral_magnitude (x : Float) : Numeral (magnitude .stored x) (shortest x).value := by
  have hds : ∀ c ∈ Nat.toDigits 10 (shortest x).digits, c.isDigit = true := fun c hc =>
    Nat.isDigit_of_mem_toDigits (by decide) (by decide) hc
  unfold magnitude
  dsimp only
  split
  · rename_i hz
    have hvalue : (Nat.ofDigitChars 10 ['0'] 0 : ℚ) * 10 ^ ((1 : ℤ) - ['0'].length) = (shortest x).value := by
      rw [Digits.value, hz]
      simp [Nat.ofDigitChars]
    rw [← hvalue]
    exact numeral_positional (by simp) (by simp) 1
  · have hvalue : (Nat.ofDigitChars 10 (Nat.toDigits 10 (shortest x).digits) 0 : ℚ) *
        10 ^ ((shortest x).exponent + (Nat.toDigits 10 (shortest x).digits).length -
          (Nat.toDigits 10 (shortest x).digits).length) = (shortest x).value := by
      rw [Nat.ofDigitChars_ten_toDigits, Int.add_sub_cancel, Digits.value]
    rw [← hvalue]
    split
    · exact numeral_positional hds Nat.toDigits_ne_nil _
    · exact numeral_scientific hds Nat.toDigits_ne_nil _

variable {x y : Float}

lemma isNumeric_text : ∀ c ∈ text .stored x, isNumeric c = true := by
  intro c hc
  unfold text at hc
  split at hc
  · rcases List.mem_cons.1 hc with rfl | hc
    · rfl
    · exact (numeral_magnitude x).numeric c hc
  · exact (numeral_magnitude x).numeric c hc

lemma mark_text (x : Float) : '.' ∈ text .stored x ∨ 'e' ∈ text .stored x := by
  unfold text
  split
  · exact (numeral_magnitude x).mark.imp (List.mem_cons_of_mem _) (List.mem_cons_of_mem _)
  · exact (numeral_magnitude x).mark

lemma magnitude_ne_minus (x : Float) (cs : List Char) : magnitude .stored x ≠ '-' :: cs := by
  obtain ⟨c, rest, heq, hc⟩ := (numeral_magnitude x).first
  rw [heq]
  rintro ⟨⟩
  cases hc

/-- The text of a float tells it from all others. -/
theorem eq_of_text (h : text .stored x = text .stored y) : x = y := by
  have hparts : isSigned x = isSigned y ∧ magnitude .stored x = magnitude .stored y := by
    unfold text at h
    split at h <;> split at h <;> rename_i hx hy
    · exact ⟨hx.trans hy.symm, (List.cons.inj h).2⟩
    · exact absurd h.symm (magnitude_ne_minus y _)
    · exact absurd h (magnitude_ne_minus x _)
    · exact ⟨(Bool.eq_false_of_not_eq_true hx).trans (Bool.eq_false_of_not_eq_true hy).symm, h⟩
  refine eq_of_shortest hparts.1 ?_
  rw [← (numeral_magnitude x).value, ← (numeral_magnitude y).value, hparts.2]

end Serving.Decimal
