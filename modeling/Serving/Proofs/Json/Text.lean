import Serving.Json.Parser
import Serving.Json.Printer
import Serving.Proofs.Decimal.Text

/-! What the compact text of a JSON value tells. It is the text of no other value: wherever two texts go on, the values
behind them have come to an end at the same place. And it has no character below a blank, whatever strings the value
contains. -/

namespace Serving.Json

open Decimal (isNumeric isNumeric_of_isDigit)

/-! ### Strings -/

lemma hexValue_digitChar : ∀ d < 16, hexValue? (Nat.digitChar d) = some d := by decide

lemma escaped_hexPair {c : Char} (h : c.toNat < 0x20) (rest : List Char) :
    escaped? ('u' :: '0' :: '0' :: (hexPair c.toNat ++ rest)) = some (c, rest) := by
  have hhigh := hexValue_digitChar (c.toNat / 16 % 16) (by omega)
  have hlow := hexValue_digitChar (c.toNat % 16) (by omega)
  have hzero : hexValue? '0' = some 0 := rfl
  have hsum : c.toNat / 16 % 16 * 16 + c.toNat % 16 = c.toNat := by omega
  have hunit : unit? ('0' :: '0' :: (hexPair c.toNat ++ rest)) = some (c.toNat, rest) := by
    simp [hexPair, unit?, hhigh, hlow, hzero, hsum]
  rw [escaped?, unicode?, hunit]
  have hhigh : ¬(0xD800 ≤ c.toNat ∧ c.toNat ≤ 0xDBFF) := by omega
  have hlow : ¬(0xDC00 ≤ c.toNat ∧ c.toNat ≤ 0xDFFF) := by omega
  simp [hhigh, hlow]

/-- A character is written as it is, or as an escape from which it is read back. -/
lemma escape_cases (c : Char) : (escape c = [c] ∧ c ≠ '"' ∧ c ≠ '\\' ∧ 0x20 ≤ c.toNat) ∨
    ∃ e, escape c = '\\' :: e ∧ ∀ rest, escaped? (e ++ rest) = some (c, rest) := by
  unfold escape
  split
  · exact .inr ⟨['"'], rfl, by subst_vars; exact fun _ => rfl⟩
  split
  · exact .inr ⟨['\\'], rfl, by subst_vars; exact fun _ => rfl⟩
  split
  · exact .inr ⟨['b'], rfl, by subst_vars; exact fun _ => rfl⟩
  split
  · exact .inr ⟨['f'], rfl, by subst_vars; exact fun _ => rfl⟩
  split
  · exact .inr ⟨['n'], rfl, by subst_vars; exact fun _ => rfl⟩
  split
  · exact .inr ⟨['r'], rfl, by subst_vars; exact fun _ => rfl⟩
  split
  · exact .inr ⟨['t'], rfl, by subst_vars; exact fun _ => rfl⟩
  split
  · exact .inr ⟨_, rfl, escaped_hexPair ‹_›⟩
  · exact .inl ⟨rfl, ‹_›, ‹_›, by omega⟩

lemma characters_escape (c : Char) (n : ℕ) (rest : List Char) : characters (n + 1) (escape c ++ rest) =
    (characters n rest).map fun r => (c :: r.1, r.2) := by
  rcases escape_cases c with ⟨he, hquote, hslash, hblank⟩ | ⟨e, he, hread⟩
  · rw [he, List.singleton_append, characters.eq_def]
    split <;> simp_all
  · rw [he, List.cons_append, characters, hread, Option.bind_eq_bind, Option.bind_some]
    dsimp only
    cases characters n rest <;> rfl

lemma characters_quoted (cs rest : List Char) (n : ℕ) (hn : cs.length < n) :
    characters n (cs.flatMap escape ++ '"' :: rest) = some (cs, rest) := by
  induction cs generalizing n with
  | nil =>
    cases n with
    | zero => cases hn
    | succ n => rfl
  | cons c cs ih =>
    cases n with
    | zero => cases hn
    | succ n =>
      rw [List.flatMap_cons, List.append_assoc, characters_escape, ih n (Nat.lt_of_succ_lt_succ hn)]
      rfl

lemma length_le_flatMap_escape (cs : List Char) : cs.length ≤ (cs.flatMap escape).length := by
  induction cs with
  | nil => exact Nat.le_refl 0
  | cons c cs ih =>
    have hone : 1 ≤ (escape c).length := by
      rcases escape_cases c with ⟨he, _⟩ | ⟨e, he, _⟩ <;> simp [he]
    simp only [List.flatMap_cons, List.length_append, List.length_cons]
    omega

/-- A quoted string is read back, and what follows it is left. -/
theorem string_quoted (s : String) (rest : List Char) :
    string? (s.toList.flatMap escape ++ '"' :: rest) = some (s, rest) := by
  rw [string?, characters_quoted]
  · simp
  · have := length_le_flatMap_escape s.toList
    simp only [List.length_append, List.length_cons]
    omega

lemma quoted_inj {s t : String} {r u : List Char} (h : quoted s ++ r = quoted t ++ u) : s = t ∧ r = u := by
  have htail : s.toList.flatMap escape ++ '"' :: r = t.toList.flatMap escape ++ '"' :: u := by
    simpa [quoted] using h
  have hread := (string_quoted s r).symm.trans ((congrArg string? htail).trans (string_quoted t u))
  exact Prod.mk.inj (Option.some.inj hread)

/-! ### Numbers -/

/-- No number goes on here. -/
def Ends (cs : List Char) : Prop := ∀ c ∈ cs.head?, isNumeric c = false

lemma numeric_inj {a b r u : List Char} (ha : ∀ c ∈ a, isNumeric c = true) (hb : ∀ c ∈ b, isNumeric c = true)
    (hr : Ends r) (hu : Ends u) (h : a ++ r = b ++ u) : a = b ∧ r = u := by
  have hnil {cs : List Char} (hc : Ends cs) : cs.takeWhile isNumeric = [] := by
    cases cs with
    | nil => rfl
    | cons c cs => rw [List.takeWhile_cons, hc c rfl, if_neg Bool.false_ne_true]
  have htake := congrArg (List.takeWhile isNumeric) h
  rw [List.takeWhile_append_of_pos ha, List.takeWhile_append_of_pos hb, hnil hr, hnil hu, List.append_nil,
    List.append_nil] at htake
  subst htake
  exact ⟨rfl, List.append_cancel_left h⟩

lemma numeric_integer (n : ℤ) : ∀ c ∈ integer n, c.isDigit = true ∨ c = '-' := by
  have hdigits : ∀ c ∈ Nat.toDigits 10 n.natAbs, c.isDigit = true := fun c hc =>
    Nat.isDigit_of_mem_toDigits (by decide) (by decide) hc
  intro c hc
  unfold integer at hc
  split at hc
  · exact (List.mem_cons.1 hc).symm.imp_left (hdigits c)
  · exact .inl (hdigits c hc)

lemma integer_inj {m n : ℤ} (h : integer m = integer n) : m = n := by
  have hplus (k : ℕ) (cs : List Char) : Nat.toDigits 10 k ≠ '-' :: cs := by
    intro heq
    have hdigit : ('-' : Char).isDigit = true :=
      Nat.isDigit_of_mem_toDigits (by decide : 0 < 10) (by decide) (heq ▸ List.mem_cons_self)
    cases hdigit
  have habs {m n : ℤ} (h : Nat.toDigits 10 m.natAbs = Nat.toDigits 10 n.natAbs) : m.natAbs = n.natAbs := by
    have hread := congrArg (Nat.ofDigitChars 10 · 0) h
    simpa only [Nat.ofDigitChars_ten_toDigits] using hread
  unfold integer at h
  split at h <;> split at h
  · have := habs (List.cons.inj h).2
    omega
  · exact absurd h.symm (hplus _ _)
  · exact absurd h (hplus _ _)
  · have := habs h
    omega

lemma integer_ne_text (n : ℤ) (x : Float) : integer n ≠ Decimal.text .stored x := by
  intro h
  rcases Decimal.mark_text x with hm | hm <;> rw [← h] at hm <;>
    rcases numeric_integer n _ hm with hd | hd <;> cases hd

/-! ### Values -/

/-- With which character a text begins, if all characters of numbers count as one. -/
def lead : Json → Char
  | null => 'n'
  | bool true => 't'
  | bool false => 'f'
  | int _ | float _ => '0'
  | str _ => '"'
  | arr _ => '['
  | obj _ => '\x7b'

lemma first_numeric {cs : List Char} (hne : cs ≠ []) (hcs : ∀ c ∈ cs, isNumeric c = true) :
    ∃ c rest, cs = c :: rest ∧ (if isNumeric c then '0' else c) = '0' := by
  cases cs with
  | nil => exact absurd rfl hne
  | cons c rest => exact ⟨c, rest, rfl, if_pos (hcs c List.mem_cons_self)⟩

lemma isNumeric_integer (n : ℤ) : ∀ c ∈ integer n, isNumeric c = true := by
  intro c hc
  rcases numeric_integer n c hc with hd | rfl
  · exact isNumeric_of_isDigit hd
  · rfl

lemma integer_ne_nil (n : ℤ) : integer n ≠ [] := by
  unfold integer
  split
  · exact List.cons_ne_nil _ _
  · exact Nat.toDigits_ne_nil

lemma text_ne_nil (x : Float) : Decimal.text .stored x ≠ [] := by
  intro h
  rcases Decimal.mark_text x with hm | hm <;> rw [h] at hm <;> cases hm

lemma first_render (v : Json) : ∃ c rest, render v = c :: rest ∧ (if isNumeric c then '0' else c) = lead v := by
  cases v with
  | int n => exact first_numeric (integer_ne_nil n) (isNumeric_integer n)
  | float x => exact first_numeric (text_ne_nil x) Decimal.isNumeric_text
  | null => exact ⟨_, _, rfl, rfl⟩
  | bool b => cases b <;> exact ⟨_, _, rfl, rfl⟩
  | str s => exact ⟨_, _, rfl, rfl⟩
  | arr items => cases items <;> exact ⟨_, _, rfl, rfl⟩
  | obj fields => rcases fields with _ | ⟨⟨name, v⟩, rest⟩ <;> exact ⟨_, _, rfl, rfl⟩

variable {r u : List Char}

lemma lead_eq {v w : Json} (h : render v ++ r = render w ++ u) : lead v = lead w := by
  obtain ⟨c, rest, hv, hc⟩ := first_render v
  obtain ⟨d, rest', hw, hd⟩ := first_render w
  rw [hv, hw] at h
  obtain rfl := (List.cons.inj h).1
  exact hc.symm.trans hd

lemma render_ne_bracket (v : Json) (cs : List Char) : render v ++ r ≠ ']' :: cs := by
  obtain ⟨c, rest, hv, hc⟩ := first_render v
  rw [hv]
  rintro ⟨⟩
  cases v with
  | bool b => cases b <;> simp [lead, isNumeric] at hc
  | null | int | float | str | arr | obj => simp [lead, isNumeric] at hc

lemma ends_renderItems (items : List Json) : Ends (renderItems items ++ r) := by
  cases items <;> rintro c ⟨⟩ <;> rfl

lemma ends_renderFields (fields : List (String × Json)) : Ends (renderFields fields ++ r) := by
  rcases fields with _ | ⟨⟨name, v⟩, rest⟩ <;> rintro c ⟨⟩ <;> rfl

/-- Texts that begin with the value are told apart, and so is what follows it. -/
def Told (v : Json) : Prop :=
  ∀ {w r u}, Ends r → Ends u → render v ++ r = render w ++ u → v = w ∧ r = u

lemma renderItems_inj {items items' : List Json} (hi : ∀ v ∈ items, Told v)
    (h : renderItems items ++ r = renderItems items' ++ u) : items = items' ∧ r = u := by
  induction items generalizing items' with
  | nil =>
    cases items' with
    | nil => exact ⟨rfl, (List.cons.inj h).2⟩
    | cons w rest => simp [renderItems] at h
  | cons v rest ih =>
    cases items' with
    | nil => simp [renderItems] at h
    | cons w rest' =>
      simp only [renderItems, List.cons_append, List.append_assoc, List.cons.injEq, true_and] at h
      obtain ⟨rfl, hrest⟩ := hi v List.mem_cons_self (ends_renderItems rest) (ends_renderItems rest') h
      obtain ⟨rfl, hend⟩ := ih (fun v hv => hi v (List.mem_cons_of_mem _ hv)) hrest
      exact ⟨rfl, hend⟩

lemma renderFields_inj {fields fields' : List (String × Json)} (hf : ∀ f ∈ fields, Told f.2)
    (h : renderFields fields ++ r = renderFields fields' ++ u) : fields = fields' ∧ r = u := by
  induction fields generalizing fields' with
  | nil =>
    rcases fields' with _ | ⟨⟨name', w⟩, rest'⟩
    · exact ⟨rfl, (List.cons.inj h).2⟩
    · simp [renderFields] at h
  | cons f rest ih =>
    obtain ⟨name, v⟩ := f
    rcases fields' with _ | ⟨⟨name', w⟩, rest'⟩
    · simp [renderFields] at h
    · simp only [renderFields, List.cons_append, List.append_assoc, List.cons.injEq, true_and] at h
      obtain ⟨rfl, hvalue⟩ := quoted_inj h
      obtain ⟨rfl, hrest⟩ := hf _ List.mem_cons_self (ends_renderFields rest) (ends_renderFields rest')
        (List.cons.inj hvalue).2
      obtain ⟨rfl, hend⟩ := ih (fun f hf' => hf f (List.mem_cons_of_mem _ hf')) hrest
      exact ⟨rfl, hend⟩

theorem told (v : Json) : Told v := by
  induction v using Json.induction with
  | null =>
    intro w r u _ _ h
    have hlead := lead_eq h
    cases w with
    | null => exact ⟨rfl, List.append_cancel_left h⟩
    | bool b => cases b <;> simp [lead] at hlead
    | int | float | str | arr | obj => simp [lead] at hlead
  | bool b =>
    intro w r u _ _ h
    have hlead := lead_eq h
    cases w with
    | bool b' =>
      cases b <;> cases b' <;> first | exact ⟨rfl, List.append_cancel_left h⟩ | simp [lead] at hlead
    | null | int | float | str | arr | obj => cases b <;> simp [lead] at hlead
  | int n =>
    intro w r u hr hu h
    have hlead := lead_eq h
    cases w with
    | int m =>
      obtain ⟨hn, h⟩ := numeric_inj (isNumeric_integer n) (isNumeric_integer m) hr hu h
      exact ⟨congrArg int (integer_inj hn), h⟩
    | float x =>
      exact absurd (numeric_inj (isNumeric_integer n) Decimal.isNumeric_text hr hu h).1 (integer_ne_text n x)
    | bool b => cases b <;> simp [lead] at hlead
    | null | str | arr | obj => simp [lead] at hlead
  | float x =>
    intro w r u hr hu h
    have hlead := lead_eq h
    cases w with
    | int n =>
      exact absurd (numeric_inj Decimal.isNumeric_text (isNumeric_integer n) hr hu h).1.symm (integer_ne_text n x)
    | float y =>
      obtain ⟨hx, h⟩ := numeric_inj Decimal.isNumeric_text Decimal.isNumeric_text hr hu h
      exact ⟨congrArg float (Decimal.eq_of_text hx), h⟩
    | bool b => cases b <;> simp [lead] at hlead
    | null | str | arr | obj => simp [lead] at hlead
  | str s =>
    intro w r u _ _ h
    have hlead := lead_eq h
    cases w with
    | str t => exact (quoted_inj h).imp_left (congrArg str)
    | bool b => cases b <;> simp [lead] at hlead
    | null | int | float | arr | obj => simp [lead] at hlead
  | arr items ih =>
    intro w r u _ _ h
    have hlead := lead_eq h
    cases w with
    | arr items' =>
      -- the first item has no comma before it
      cases items with
      | nil =>
        cases items' with
        | nil => exact ⟨rfl, List.append_cancel_left h⟩
        | cons w rest' =>
          simp only [render, List.cons_append, List.append_assoc, List.cons.injEq, true_and] at h
          exact absurd h.symm (render_ne_bracket w _)
      | cons v rest =>
        cases items' with
        | nil =>
          simp only [render, List.cons_append, List.append_assoc, List.cons.injEq, true_and] at h
          exact absurd h (render_ne_bracket v _)
        | cons w rest' =>
          have hcomma : renderItems (v :: rest) ++ r = renderItems (w :: rest') ++ u :=
            congrArg (',' :: ·) (List.cons.inj h).2
          exact (renderItems_inj ih hcomma).imp_left (congrArg arr)
    | bool b => cases b <;> simp [lead] at hlead
    | null | int | float | str | obj => simp [lead] at hlead
  | obj fields ih =>
    intro w r u _ _ h
    have hlead := lead_eq h
    cases w with
    | obj fields' =>
      rcases fields with _ | ⟨⟨name, v⟩, rest⟩ <;> rcases fields' with _ | ⟨⟨name', w⟩, rest'⟩
      · exact ⟨rfl, List.append_cancel_left h⟩
      · simp [render, quoted] at h
      · simp [render, quoted] at h
      · have hcomma : renderFields ((name, v) :: rest) ++ r = renderFields ((name', w) :: rest') ++ u :=
          congrArg (',' :: ·) (List.cons.inj h).2
        exact (renderFields_inj ih hcomma).imp_left (congrArg obj)
    | bool b => cases b <;> simp [lead] at hlead
    | null | int | float | str | arr => simp [lead] at hlead

/-- The compact text of a value is the text of no other value. -/
theorem compact_inj {v w : Json} (h : compact v = compact w) : v = w := by
  have hchars : render v ++ [] = render w ++ [] := by
    simpa [compact] using congrArg String.toList h
  have hend : Ends [] := by simp [Ends]
  exact (told v hend hend hchars).1

/-! ### Characters -/

/-- Characters from the blank on. -/
def Printed (cs : List Char) : Prop := ∀ c ∈ cs, 0x20 ≤ c.toNat

lemma printed_append {a b : List Char} : Printed (a ++ b) ↔ Printed a ∧ Printed b := List.forall_mem_append

lemma printed_nil : Printed [] := List.forall_mem_nil _

lemma printed_cons {c : Char} {cs : List Char} : Printed (c :: cs) ↔ 0x20 ≤ c.toNat ∧ Printed cs := List.forall_mem_cons

lemma printed_of_numeric {cs : List Char} (h : ∀ c ∈ cs, isNumeric c = true) : Printed cs := by
  intro c hc
  have hn := h c hc
  simp only [isNumeric, Char.isDigit, Bool.or_eq_true, Bool.and_eq_true, decide_eq_true_eq, List.mem_cons,
    List.not_mem_nil, or_false] at hn
  rcases hn with ⟨hlow, _⟩ | rfl | rfl | rfl | rfl
  · have hzero : 48 ≤ c.toNat := hlow
    omega
  all_goals decide

lemma printed_escape (c : Char) : Printed (escape c) := by
  have hdigit : ∀ d < 16, 0x20 ≤ (Nat.digitChar d).toNat := by decide
  have htwo (d : Char) (h : 0x20 ≤ d.toNat) : Printed ['\\', d] :=
    printed_cons.2 ⟨by decide, printed_cons.2 ⟨h, printed_nil⟩⟩
  unfold escape
  split
  · exact htwo _ (by decide)
  split
  · exact htwo _ (by decide)
  split
  · exact htwo _ (by decide)
  split
  · exact htwo _ (by decide)
  split
  · exact htwo _ (by decide)
  split
  · exact htwo _ (by decide)
  split
  · exact htwo _ (by decide)
  split <;> rename_i hlow
  · simp only [hexPair, printed_cons]
    exact ⟨by decide, by decide, by decide, by decide, hdigit _ (by omega), hdigit _ (by omega), printed_nil⟩
  · exact printed_cons.2 ⟨Nat.le_of_not_lt hlow, printed_nil⟩

lemma printed_quoted (s : String) : Printed (quoted s) := by
  refine printed_cons.2 ⟨by decide, printed_append.2 ⟨?_, printed_cons.2 ⟨by decide, printed_nil⟩⟩⟩
  intro c hc
  obtain ⟨d, _, hd⟩ := List.mem_flatMap.1 hc
  exact printed_escape d c hd

lemma printed_renderItems {items : List Json} (h : ∀ v ∈ items, Printed (render v)) : Printed (renderItems items) := by
  induction items with
  | nil => exact printed_cons.2 ⟨by decide, printed_nil⟩
  | cons v rest ih =>
    refine printed_cons.2 ⟨by decide, printed_append.2 ⟨h v List.mem_cons_self, ?_⟩⟩
    exact ih fun v hv => h v (List.mem_cons_of_mem _ hv)

lemma printed_renderFields {fields : List (String × Json)} (h : ∀ f ∈ fields, Printed (render f.2)) :
    Printed (renderFields fields) := by
  induction fields with
  | nil => exact printed_cons.2 ⟨by decide, printed_nil⟩
  | cons f rest ih =>
    refine printed_cons.2 ⟨by decide, printed_append.2 ⟨printed_quoted f.1, printed_cons.2 ⟨by decide, ?_⟩⟩⟩
    exact printed_append.2 ⟨h f List.mem_cons_self, ih fun f hf => h f (List.mem_cons_of_mem _ hf)⟩

/-- No text has a control character in it. -/
theorem printed_render (v : Json) : Printed (render v) := by
  induction v using Json.induction with
  | null => simp [render, Printed]
  | bool b => cases b <;> simp [render, Printed]
  | int n => exact printed_of_numeric (isNumeric_integer n)
  | float x => exact printed_of_numeric Decimal.isNumeric_text
  | str s => exact printed_quoted s
  | arr items ih =>
    cases items with
    | nil => simp [render, Printed]
    | cons v rest => exact printed_cons.2 ⟨by decide, (printed_cons.1 (printed_renderItems ih)).2⟩
  | obj fields ih =>
    rcases fields with _ | ⟨⟨name, v⟩, rest⟩
    · simp [render, Printed]
    · exact printed_cons.2 ⟨by decide, (printed_cons.1 (printed_renderFields ih)).2⟩

end Serving.Json
