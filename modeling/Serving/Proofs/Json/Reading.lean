import Serving.Proofs.Json.Content
import Serving.Proofs.Json.Text

/-! What is read from the compact text of a value. If the value has whole numbers of 64 bits only, then it is read back
or nothing is, which happens if it is nested too deep. -/

namespace Serving.Json

open Decimal (isNumeric isNumeric_of_isDigit)

/-- All numbers are whole numbers that fit 64 bits. -/
inductive Whole : Json → Prop
  | null : Whole .null
  | bool (b : Bool) : Whole (.bool b)
  | int {n : ℤ} (low : -9223372036854775808 ≤ n) (high : n ≤ largestWord) : Whole (.int n)
  | str (s : String) : Whole (.str s)
  | arr {items : List Json} (h : ∀ v ∈ items, Whole v) : Whole (.arr items)
  | obj {fields : List (String × Json)} (h : ∀ f ∈ fields, Whole f.2) : Whole (.obj fields)

lemma fromUTF8_toUTF8 (s : String) : String.fromUTF8? s.toUTF8 = some s := by
  rw [String.fromUTF8?]
  exact dif_pos s.isValidUTF8

lemma mem_canonicalItems {items : List Json} {w : Json} (h : w ∈ canonicalItems items) :
    ∃ v ∈ items, w = canonical v := by
  induction items with
  | nil => cases h
  | cons v rest ih =>
    rcases List.mem_cons.1 h with rfl | h
    · exact ⟨v, List.mem_cons_self, rfl⟩
    · obtain ⟨v', hv', hw⟩ := ih h
      exact ⟨v', List.mem_cons_of_mem _ hv', hw⟩

lemma Whole.canonical {v : Json} (h : Whole v) : Whole (canonical v) := by
  induction h with
  | null => exact .null
  | bool b => exact .bool b
  | int low high => exact .int low high
  | str s => exact .str s
  | arr _ ih =>
    refine .arr fun w hw => ?_
    obtain ⟨v, hv, rfl⟩ := mem_canonicalItems hw
    exact ih v hv
  | obj _ ih =>
    refine .obj fun f hf => ?_
    obtain ⟨g, hg, he⟩ := mem_canonicalFields hf
    rw [he]
    exact ih g hg

/-! ### Numbers -/

/-- What may come behind a value in a text. -/
def Follows (cs : List Char) : Prop := ∀ c ∈ cs.head?, c ∈ [',', ']', '\x7d']

variable {rest : List Char}

lemma le_ofDigitChars (cs : List Char) (m : ℕ) : m ≤ Nat.ofDigitChars 10 cs m := by
  induction cs generalizing m with
  | nil => exact Nat.le_refl m
  | cons c cs ih =>
    rw [Nat.ofDigitChars_cons]
    exact Nat.le_trans (by omega) (ih _)

lemma appendDigits_eq {m : ℕ} {cs : List Char} (h : Nat.ofDigitChars 10 cs m ≤ largestWord) :
    appendDigits m cs = (Nat.ofDigitChars 10 cs m, 0) := by
  induction cs generalizing m with
  | nil => rfl
  | cons c cs ih =>
    have hstep : m * 10 + digitValue c = 10 * m + (c.toNat - '0'.toNat) := by rw [Nat.mul_comm, digitValue]
    have hle : m * 10 + digitValue c ≤ largestWord := by
      rw [hstep]
      exact Nat.le_trans (le_ofDigitChars cs _) (Nat.ofDigitChars_cons ▸ h)
    rw [appendDigits, if_neg (Nat.not_lt.2 hle), hstep, Nat.ofDigitChars_cons]
    exact ih (Nat.ofDigitChars_cons ▸ h)

lemma head_toDigits {n : ℕ} (hn : n ≠ 0) : (Nat.toDigits 10 n).head? ≠ some '0' := by
  induction n using Nat.strongRecOn with
  | ind n ih =>
    by_cases hlt : n < 10
    · have hdigit : ∀ d < 10, d ≠ 0 → Nat.digitChar d ≠ '0' := by decide
      rw [Nat.toDigits_of_lt_base hlt]
      exact fun h => hdigit n hlt hn (Option.some.inj h)
    · rw [Nat.toDigits_of_base_le (by decide) (Nat.not_lt.1 hlt)]
      have hrest := ih (n / 10) (by omega) (by omega)
      cases hd : Nat.toDigits 10 (n / 10) with
      | nil => exact absurd hd Nat.toDigits_ne_nil
      | cons d ds =>
        rw [hd] at hrest
        exact hrest

lemma isDigit_of_mem_toDigits {n : ℕ} : ∀ c ∈ Nat.toDigits 10 n, c.isDigit = true := fun _ hc =>
  Nat.isDigit_of_mem_toDigits (by decide) (by decide) hc

/-- The digits of a number come to their end where no number goes on. -/
lemma span_toDigits (n : ℕ) (hr : Follows rest) :
    (Nat.toDigits 10 n ++ rest).takeWhile Char.isDigit = Nat.toDigits 10 n ∧
      (Nat.toDigits 10 n ++ rest).dropWhile Char.isDigit = rest := by
  rw [List.takeWhile_append_of_pos isDigit_of_mem_toDigits, List.dropWhile_append_of_pos isDigit_of_mem_toDigits]
  cases rest with
  | nil => exact ⟨List.append_nil _, rfl⟩
  | cons c rest =>
    have hplain : ∀ d ∈ [',', ']', '\x7d'], ¬d.isDigit = true := by simp [Char.isDigit]
    have hc := hplain c (hr c rfl)
    rw [List.takeWhile_cons_of_neg hc, List.dropWhile_cons_of_neg hc]
    exact ⟨List.append_nil _, rfl⟩

lemma magnitude_toDigits {n : ℕ} (hn : n ≤ largestWord) (hr : Follows rest) :
    magnitude? (Nat.toDigits 10 n ++ rest) = some (.inl n, rest) := by
  obtain ⟨htake, hdrop⟩ := span_toDigits n hr
  have hplain : ((Nat.toDigits 10 n).isEmpty ||
      ((Nat.toDigits 10 n).head? == some '0' && decide (1 < (Nat.toDigits 10 n).length))) = false := by
    have hempty : (Nat.toDigits 10 n).isEmpty = false := List.isEmpty_eq_false_iff.2 Nat.toDigits_ne_nil
    rw [hempty, Bool.false_or]
    by_cases hz : n = 0
    · subst hz
      rfl
    · rw [beq_eq_false_iff_ne.2 (head_toDigits hz), Bool.false_and]
  have hvalue : appendDigits 0 (Nat.toDigits 10 n) = (n, 0) := by
    rw [appendDigits_eq] <;> rw [Nat.ofDigitChars_ten_toDigits]
    exact hn
  simp only [magnitude?, htake, hdrop, hplain, hvalue, Bool.false_eq_true, if_false]
  split
  · exact absurd (hr '.' rfl) (by decide)
  · exact absurd (hr 'e' rfl) (by decide)
  · exact absurd (hr 'E' rfl) (by decide)
  · rfl

lemma number_integer {n : ℤ} (low : -9223372036854775808 ≤ n) (high : n ≤ largestWord) (hr : Follows rest) :
    number? (integer n ++ rest) = some (.int n, rest) := by
  have hword : n.natAbs ≤ largestWord := by
    rw [largestWord] at high ⊢
    omega
  have hread := magnitude_toDigits hword hr
  rw [integer]
  split
  · have hfits : ¬(n.natAbs = 0 ∨ 9223372036854775808 < n.natAbs) := by omega
    have hneg : -(n.natAbs : ℤ) = n := by omega
    rw [List.cons_append, number?, hread, Option.map_some]
    simp only [if_neg hfits, hneg]
  · have hpos : (n.natAbs : ℤ) = n := by omega
    rw [number?.eq_def]
    split
    · rename_i heq
      have hdigit : ('-' : Char).isDigit = true := by
        cases hd : Nat.toDigits 10 n.natAbs with
        | nil => exact absurd hd Nat.toDigits_ne_nil
        | cons d ds =>
          rw [hd] at heq
          obtain rfl := (List.cons.inj heq).1
          exact isDigit_of_mem_toDigits _ (hd ▸ List.mem_cons_self)
      cases hdigit
    · rw [hread, Option.map_some]
      simp only [hpos]

/-! ### Values -/

lemma skipBlanks_cons {c : Char} (h : isBlank c = false) (cs : List Char) : skipBlanks (c :: cs) = c :: cs := by
  rw [skipBlanks, List.dropWhile_cons_of_neg (by rw [h]; exact Bool.false_ne_true)]

lemma isBlank_of_isNumeric {c : Char} (h : isNumeric c = true) : isBlank c = false := by
  have hplain : ∀ d ∈ [' ', '\n', '\t', '\r'], isNumeric d = false := by simp [isNumeric]
  simp only [isBlank, Bool.or_eq_false_iff, decide_eq_false_iff_not]
  refine ⟨⟨⟨?_, ?_⟩, ?_⟩, ?_⟩ <;> rintro rfl <;> simp [hplain] at h

lemma isBlank_lead (v : Json) : isBlank (lead v) = false := by
  cases v with
  | bool b => cases b <;> rfl
  | null | int | float | str | arr | obj => rfl

lemma skipBlanks_render (v : Json) (rest : List Char) : skipBlanks (render v ++ rest) = render v ++ rest := by
  obtain ⟨c, cs, hrender, hlead⟩ := first_render v
  rw [hrender, List.cons_append]
  refine skipBlanks_cons ?_ _
  split at hlead
  · exact isBlank_of_isNumeric ‹_›
  · exact hlead ▸ isBlank_lead v

lemma value_numeric {c : Char} (hc : isNumeric c = true) (fuel depth : ℕ) (cs : List Char) :
    value (fuel + 1) depth (c :: cs) = number? (c :: cs) := by
  rw [value.eq_def]
  simp only [skipBlanks_cons (isBlank_of_isNumeric hc)]
  split <;> first | rfl | (rename_i heq; obtain rfl := (List.cons.inj heq).1; cases hc)

/-- If anything is read from a text that begins with a value, then it is that value, with what comes behind it. -/
def ReadBack (v : Json) : Prop :=
  ∀ {fuel depth rest r}, Follows rest → value fuel depth (render v ++ rest) = some r → r = (v, rest)

lemma follows_renderItems (items : List Json) : Follows (renderItems items ++ rest) := by
  cases items <;> rintro c ⟨⟩ <;> decide

lemma follows_renderFields (fields : List (String × Json)) : Follows (renderFields fields ++ rest) := by
  rcases fields with _ | ⟨⟨name, v⟩, more⟩ <;> rintro c ⟨⟩ <;> decide

lemma skipBlanks_renderItems (items : List Json) :
    skipBlanks (renderItems items ++ rest) = renderItems items ++ rest := by
  cases items <;> rfl

lemma skipBlanks_renderFields (fields : List (String × Json)) :
    skipBlanks (renderFields fields ++ rest) = renderFields fields ++ rest := by
  rcases fields with _ | ⟨⟨name, v⟩, more⟩ <;> rfl

lemma items_render {v : Json} {more : List Json} (hv : ∀ w ∈ v :: more, ReadBack w) {fuel depth : ℕ}
    {r : List Json × List Char} (h : items fuel depth (render v ++ (renderItems more ++ rest)) = some r) :
    r = (v :: more, rest) := by
  induction more generalizing v fuel r with
  | nil =>
    cases fuel with
    | zero => cases h
    | succ fuel =>
      simp only [items, Option.bind_eq_bind, Option.bind_eq_some_iff] at h
      obtain ⟨⟨w, left⟩, hw, h⟩ := h
      obtain ⟨rfl, rfl⟩ := Prod.mk.inj (hv v List.mem_cons_self (follows_renderItems []) hw)
      rw [skipBlanks_renderItems] at h
      exact (Option.some.inj h).symm
  | cons w more ih =>
    cases fuel with
    | zero => cases h
    | succ fuel =>
      simp only [items, Option.bind_eq_bind, Option.bind_eq_some_iff] at h
      obtain ⟨⟨x, left⟩, hx, h⟩ := h
      obtain ⟨rfl, rfl⟩ := Prod.mk.inj (hv v List.mem_cons_self (follows_renderItems _) hx)
      rw [skipBlanks_renderItems] at h
      simp only [renderItems, List.cons_append, List.append_assoc, Option.bind_eq_some_iff] at h
      obtain ⟨⟨ws, left⟩, hws, h⟩ := h
      obtain ⟨rfl, rfl⟩ := Prod.mk.inj (ih (fun u hu => hv u (List.mem_cons_of_mem _ hu)) hws)
      exact (Option.some.inj h).symm

lemma fields_quoted (fuel depth : ℕ) (name : String) (cs : List Char) :
    fields (fuel + 1) depth (quoted name ++ ':' :: cs) = (value fuel depth cs).bind fun r =>
      match skipBlanks r.2 with
      | ',' :: rest => (fields fuel depth rest).bind fun fs => some ((name, r.1) :: fs.1, fs.2)
      | '\x7d' :: rest => some ([(name, r.1)], rest)
      | _ => none := by
  have hquoted : quoted name ++ ':' :: cs = '"' :: (name.toList.flatMap escape ++ '"' :: ':' :: cs) := by
    simp [quoted]
  have hcolon : skipBlanks (':' :: cs) = ':' :: cs := skipBlanks_cons rfl cs
  rw [hquoted, fields, skipBlanks_cons rfl]
  simp only [string_quoted, Option.bind_eq_bind, Option.bind_some, hcolon]
  rfl

lemma fields_render {name : String} {v : Json} {more : List (String × Json)}
    (hv : ∀ f ∈ (name, v) :: more, ReadBack f.2) {fuel depth : ℕ} {r : List (String × Json) × List Char}
    (h : fields fuel depth (quoted name ++ ':' :: (render v ++ (renderFields more ++ rest))) = some r) :
    r = ((name, v) :: more, rest) := by
  induction more generalizing name v fuel r with
  | nil =>
    cases fuel with
    | zero => cases h
    | succ fuel =>
      rw [fields_quoted, Option.bind_eq_some_iff] at h
      obtain ⟨⟨w, left⟩, hw, h⟩ := h
      obtain ⟨rfl, rfl⟩ := Prod.mk.inj (hv (name, v) List.mem_cons_self (follows_renderFields []) hw)
      dsimp only at h
      rw [skipBlanks_renderFields] at h
      exact (Option.some.inj h).symm
  | cons f more ih =>
    cases fuel with
    | zero => cases h
    | succ fuel =>
      obtain ⟨other, w⟩ := f
      rw [fields_quoted, Option.bind_eq_some_iff] at h
      obtain ⟨⟨x, left⟩, hx, h⟩ := h
      obtain ⟨rfl, rfl⟩ := Prod.mk.inj (hv (name, v) List.mem_cons_self (follows_renderFields _) hx)
      dsimp only at h
      rw [skipBlanks_renderFields] at h
      simp only [renderFields, List.cons_append, List.append_assoc, Option.bind_eq_some_iff] at h
      obtain ⟨⟨fs, left⟩, hfs, h⟩ := h
      obtain ⟨rfl, rfl⟩ := Prod.mk.inj (ih (fun g hg => hv g (List.mem_cons_of_mem _ hg)) hfs)
      exact (Option.some.inj h).symm

lemma readBack_int {n : ℤ} (low : -9223372036854775808 ≤ n) (high : n ≤ largestWord) : ReadBack (.int n) := by
  rintro (_ | fuel) depth rest r hrest hr
  · cases hr
  · have hread := number_integer low high hrest
    rw [render] at hr
    cases hi : integer n with
    | nil => exact absurd hi (integer_ne_nil n)
    | cons c cs =>
      have hc : isNumeric c = true := isNumeric_integer n c (hi ▸ List.mem_cons_self)
      rw [hi, List.cons_append] at hr hread
      rw [value_numeric hc, hread] at hr
      exact (Option.some.inj hr).symm

lemma readBack_str (s : String) : ReadBack (.str s) := by
  rintro (_ | fuel) depth rest r _ hr
  · cases hr
  · have hquoted : quoted s ++ rest = '"' :: (s.toList.flatMap escape ++ '"' :: rest) := by simp [quoted]
    rw [render, hquoted, value, skipBlanks_cons rfl] at hr
    simp only [string_quoted, Option.map_some] at hr
    exact (Option.some.inj hr).symm

lemma readBack_arr {items : List Json} (hv : ∀ v ∈ items, ReadBack v) : ReadBack (.arr items) := by
  rintro (_ | fuel) depth rest r _ hr
  · cases hr
  · cases items with
    | nil =>
      rw [render, List.cons_append, value, skipBlanks_cons rfl] at hr
      simp only [List.cons_append, List.nil_append, skipBlanks_cons (c := ']') rfl] at hr
      split at hr
      · cases hr
      · exact (Option.some.inj hr).symm
    | cons v more =>
      rw [render, List.cons_append, List.append_assoc, value, skipBlanks_cons rfl] at hr
      simp only [skipBlanks_render] at hr
      split at hr
      · cases hr
      · split at hr
        · rename_i heq
          exact absurd heq (render_ne_bracket v _)
        · obtain ⟨⟨vs, left⟩, hvs, rfl⟩ := Option.map_eq_some_iff.1 hr
          obtain ⟨rfl, rfl⟩ := Prod.mk.inj (items_render hv hvs)
          rfl

lemma readBack_obj {fields : List (String × Json)} (hv : ∀ f ∈ fields, ReadBack f.2) : ReadBack (.obj fields) := by
  rintro (_ | fuel) depth rest r _ hr
  · cases hr
  · rcases fields with _ | ⟨⟨name, v⟩, more⟩
    · rw [render, List.cons_append, value, skipBlanks_cons rfl] at hr
      simp only [List.cons_append, List.nil_append, skipBlanks_cons (c := '\x7d') rfl] at hr
      split at hr
      · cases hr
      · exact (Option.some.inj hr).symm
    · have hskip (cs : List Char) : skipBlanks (quoted name ++ cs) = quoted name ++ cs := skipBlanks_cons rfl _
      rw [render, List.cons_append, List.append_assoc, value, skipBlanks_cons rfl] at hr
      simp only [hskip] at hr
      split at hr
      · cases hr
      · obtain ⟨⟨fs, left⟩, hfs, rfl⟩ := Option.map_eq_some_iff.1 hr
        simp only [List.cons_append, List.append_assoc] at hfs
        obtain ⟨rfl, rfl⟩ := Prod.mk.inj (fields_render hv hfs)
        rfl

theorem readBack {v : Json} (h : Whole v) : ReadBack v := by
  induction h with
  | null =>
    rintro (_ | fuel) depth rest r _ hr
    · cases hr
    · exact (Option.some.inj hr).symm
  | bool b =>
    rintro (_ | fuel) depth rest r _ hr
    · cases hr
    · cases b <;> exact (Option.some.inj hr).symm
  | int low high => exact readBack_int low high
  | str s => exact readBack_str s
  | arr _ ih => exact readBack_arr ih
  | obj _ ih => exact readBack_obj ih

/-- What is parsed from the compact text of a canonical form is that form. -/
theorem eq_of_parse {v w : Json} (h : Whole v) (hp : parse (compact (canonical v)) = some w) : w = canonical v := by
  rw [parse, read, readChars, compact, String.toList_ofList, Option.map_eq_some_iff] at hp
  obtain ⟨u, hu, rfl⟩ := hp
  simp only [Option.bind_eq_bind, Option.bind_eq_some_iff] at hu
  obtain ⟨⟨x, left⟩, hx, hu⟩ := hu
  have hend : Follows [] := by rintro c ⟨⟩
  rw [← List.append_nil (render _)] at hx
  obtain ⟨rfl, rfl⟩ := Prod.mk.inj (readBack h.canonical hend hx)
  obtain rfl : canonical v = u := Option.some.inj hu
  exact canonical_of_content (content_canonical v)

end Serving.Json
