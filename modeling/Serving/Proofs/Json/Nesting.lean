import Serving.Proofs.Json.Reading

/-! How deep values are nested, and that every value is read back that is not nested too deep. The length of the text
is fuel enough, since each step of the parser has a character of its own. -/

namespace Serving.Json

open Decimal (isNumeric)

mutual

/-- How many arrays and objects lie one within another. -/
def nesting : Json → Nat
  | .null | .bool _ | .int _ | .float _ | .str _ => 0
  | .arr items => nestingItems items + 1
  | .obj fields => nestingFields fields + 1

def nestingItems : List Json → Nat
  | [] => 0
  | v :: rest => max (nesting v) (nestingItems rest)

def nestingFields : List (String × Json) → Nat
  | [] => 0
  | (_, v) :: rest => max (nesting v) (nestingFields rest)

end

lemma nestingItems_le {items : List Json} {n : ℕ} : nestingItems items ≤ n ↔ ∀ v ∈ items, v.nesting ≤ n := by
  induction items with
  | nil => simp [nestingItems]
  | cons v rest ih => rw [nestingItems, Nat.max_le, ih, List.forall_mem_cons]

lemma nestingFields_le {fields : List (String × Json)} {n : ℕ} :
    nestingFields fields ≤ n ↔ ∀ f ∈ fields, f.2.nesting ≤ n := by
  induction fields with
  | nil => simp [nestingFields]
  | cons f rest ih => rw [nestingFields, Nat.max_le, ih, List.forall_mem_cons]

lemma nesting_canonical_le (v : Json) : (canonical v).nesting ≤ v.nesting := by
  induction v using Json.induction with
  | null | bool | int | float | str => exact Nat.le_refl 0
  | arr items ih =>
    refine Nat.succ_le_succ (nestingItems_le.2 ?_)
    intro w hw
    obtain ⟨v, hv, rfl⟩ := mem_canonicalItems hw
    exact Nat.le_trans (ih v hv) (nestingItems_le.1 (Nat.le_refl _) v hv)
  | obj fields ih =>
    refine Nat.succ_le_succ (nestingFields_le.2 ?_)
    intro f hf
    obtain ⟨g, hg, he⟩ := mem_canonicalFields hf
    rw [he]
    exact Nat.le_trans (ih g hg) (nestingFields_le.1 (Nat.le_refl _) g hg)

variable {rest : List Char} {fuel depth : ℕ}

/-- The value is read from the front of a text, if there is fuel for its characters and depth for its nesting. -/
def Accepted (v : Json) : Prop :=
  ∀ fuel depth rest, Follows rest → (render v).length ≤ fuel → v.nesting < depth →
    value fuel depth (render v ++ rest) = some (v, rest)

lemma length_render_pos (v : Json) : 0 < (render v).length := by
  obtain ⟨c, cs, hrender, _⟩ := first_render v
  rw [hrender]
  exact Nat.succ_pos _

/-- Some fuel there always is. -/
lemma accepted_of_succ {v : Json}
    (h : ∀ fuel depth rest, Follows rest → (render v).length ≤ fuel + 1 → v.nesting < depth →
      value (fuel + 1) depth (render v ++ rest) = some (v, rest)) : Accepted v := by
  intro fuel depth rest hrest hfuel hdepth
  obtain ⟨more, rfl⟩ := Nat.exists_eq_add_one.2 (Nat.lt_of_lt_of_le (length_render_pos v) hfuel)
  exact h more depth rest hrest hfuel hdepth

lemma length_renderItems_pos (items : List Json) : 0 < (renderItems items).length := by
  cases items <;> exact Nat.succ_pos _

lemma items_accepted {v : Json} {more : List Json} (hv : ∀ w ∈ v :: more, Accepted w)
    (hfuel : (render v ++ renderItems more).length ≤ fuel) (hdepth : ∀ w ∈ v :: more, w.nesting < depth) :
    items fuel depth (render v ++ (renderItems more ++ rest)) = some (v :: more, rest) := by
  induction more generalizing v fuel with
  | nil =>
    rw [List.length_append] at hfuel
    have hclose := length_renderItems_pos []
    cases fuel with
    | zero => omega
    | succ fuel =>
      have hfirst := hv v List.mem_cons_self fuel depth (renderItems [] ++ rest) (follows_renderItems []) (by omega)
        (hdepth v List.mem_cons_self)
      simp only [items, hfirst, Option.bind_eq_bind, Option.bind_some, skipBlanks_renderItems]
      rfl
  | cons w more ih =>
    rw [List.length_append] at hfuel
    have hlater := length_renderItems_pos (w :: more)
    cases fuel with
    | zero => omega
    | succ fuel =>
      have hfirst := hv v List.mem_cons_self fuel depth (renderItems (w :: more) ++ rest)
        (follows_renderItems (w :: more)) (by omega) (hdepth v List.mem_cons_self)
      rw [renderItems, List.length_cons] at hfuel
      have hrest := ih (fun u hu => hv u (List.mem_cons_of_mem _ hu))
        (show (render w ++ renderItems more).length ≤ fuel by omega) (fun u hu => hdepth u (List.mem_cons_of_mem _ hu))
      simp only [items, hfirst, Option.bind_eq_bind, Option.bind_some, skipBlanks_renderItems]
      simp only [renderItems, List.cons_append, List.append_assoc, hrest, Option.bind_some]
      rfl

lemma fields_accepted {name : String} {v : Json} {more : List (String × Json)}
    (hv : ∀ f ∈ (name, v) :: more, Accepted f.2)
    (hfuel : (quoted name ++ ':' :: (render v ++ renderFields more)).length ≤ fuel)
    (hdepth : ∀ f ∈ (name, v) :: more, f.2.nesting < depth) :
    fields fuel depth (quoted name ++ ':' :: (render v ++ (renderFields more ++ rest))) =
      some ((name, v) :: more, rest) := by
  induction more generalizing name v fuel with
  | nil =>
    simp only [List.length_append, List.length_cons] at hfuel
    cases fuel with
    | zero => omega
    | succ fuel =>
      have hfirst := hv (name, v) List.mem_cons_self fuel depth (renderFields [] ++ rest) (follows_renderFields [])
        (by dsimp only; omega) (hdepth (name, v) List.mem_cons_self)
      rw [fields_quoted, hfirst, Option.bind_some, skipBlanks_renderFields]
      rfl
  | cons f more ih =>
    obtain ⟨other, w⟩ := f
    simp only [List.length_append, List.length_cons] at hfuel
    cases fuel with
    | zero => omega
    | succ fuel =>
      have hfirst := hv (name, v) List.mem_cons_self fuel depth (renderFields ((other, w) :: more) ++ rest)
        (follows_renderFields ((other, w) :: more)) (by dsimp only; omega) (hdepth (name, v) List.mem_cons_self)
      rw [renderFields, List.length_cons] at hfuel
      have hrest := ih (fun g hg => hv g (List.mem_cons_of_mem _ hg))
        (show (quoted other ++ ':' :: (render w ++ renderFields more)).length ≤ fuel by omega)
        (fun g hg => hdepth g (List.mem_cons_of_mem _ hg))
      rw [fields_quoted, hfirst, Option.bind_some, skipBlanks_renderFields]
      simp only [renderFields, List.cons_append, List.append_assoc, hrest, Option.bind_some]

lemma accepted_int {n : ℤ} (low : -9223372036854775808 ≤ n) (high : n ≤ largestWord) : Accepted (.int n) := by
  refine accepted_of_succ fun fuel depth rest hrest _ _ => ?_
  have hread := number_integer low high hrest
  rw [render]
  cases hi : integer n with
  | nil => exact absurd hi (integer_ne_nil n)
  | cons c cs =>
    have hc : isNumeric c = true := isNumeric_integer n c (hi ▸ List.mem_cons_self)
    rw [hi, List.cons_append] at hread
    rw [List.cons_append, value_numeric hc, hread]

lemma accepted_str (s : String) : Accepted (.str s) := by
  refine accepted_of_succ fun fuel depth rest _ _ _ => ?_
  have hquoted : quoted s ++ rest = '"' :: (s.toList.flatMap escape ++ '"' :: rest) := by simp [quoted]
  rw [render, hquoted, value, skipBlanks_cons rfl]
  simp only [string_quoted, Option.map_some]

lemma accepted_arr {items : List Json} (hv : ∀ v ∈ items, Accepted v) : Accepted (.arr items) := by
  refine accepted_of_succ fun fuel depth rest _ hfuel hdepth => ?_
  have hdeep : ¬depth ≤ 1 := by
    rw [nesting] at hdepth
    omega
  cases items with
  | nil =>
    rw [render, List.cons_append, value, skipBlanks_cons rfl]
    simp only [List.cons_append, List.nil_append, skipBlanks_cons (c := ']') rfl, if_neg hdeep]
  | cons v more =>
    rw [render, List.length_cons] at hfuel
    have hinner : ∀ w ∈ v :: more, w.nesting < depth - 1 := by
      intro w hw
      have hle := nestingItems_le.1 (Nat.le_refl _) w hw
      rw [nesting] at hdepth
      omega
    have hread : Json.items fuel (depth - 1) (render v ++ (renderItems more ++ rest)) = some (v :: more, rest) :=
      items_accepted hv (Nat.le_of_succ_le_succ hfuel) hinner
    rw [render, List.cons_append, List.append_assoc, value, skipBlanks_cons rfl]
    simp only [skipBlanks_render, if_neg hdeep]
    split
    · rename_i heq
      exact absurd heq (render_ne_bracket v _)
    · rw [hread, Option.map_some]

lemma accepted_obj {fields : List (String × Json)} (hv : ∀ f ∈ fields, Accepted f.2) : Accepted (.obj fields) := by
  refine accepted_of_succ fun fuel depth rest _ hfuel hdepth => ?_
  have hdeep : ¬depth ≤ 1 := by
    rw [nesting] at hdepth
    omega
  rcases fields with _ | ⟨⟨name, v⟩, more⟩
  · rw [render, List.cons_append, value, skipBlanks_cons rfl]
    simp only [List.cons_append, List.nil_append, skipBlanks_cons (c := '\x7d') rfl, if_neg hdeep]
  · rw [render, List.length_cons] at hfuel
    have hinner : ∀ f ∈ (name, v) :: more, f.2.nesting < depth - 1 := by
      intro f hf
      have hle := nestingFields_le.1 (Nat.le_refl _) f hf
      rw [nesting] at hdepth
      omega
    have hread : Json.fields fuel (depth - 1)
        (quoted name ++ ':' :: (render v ++ (renderFields more ++ rest))) = some ((name, v) :: more, rest) :=
      fields_accepted hv (Nat.le_of_succ_le_succ hfuel) hinner
    have hskip (cs : List Char) : skipBlanks (quoted name ++ cs) = quoted name ++ cs := skipBlanks_cons rfl _
    have hquote (cs : List Char) : quoted name ++ cs = '"' :: (name.toList.flatMap escape ++ '"' :: cs) := by
      simp [quoted]
    rw [render, List.cons_append, List.append_assoc, value, skipBlanks_cons rfl]
    simp only [hskip, if_neg hdeep]
    split
    · rename_i heq
      rw [hquote] at heq
      cases heq
    · rw [List.cons_append, List.append_assoc, hread, Option.map_some]

theorem accepted {v : Json} (h : Whole v) : Accepted v := by
  induction h with
  | null => exact accepted_of_succ fun _ _ _ _ _ _ => rfl
  | bool b => exact accepted_of_succ fun _ _ _ _ _ _ => by cases b <;> rfl
  | int low high => exact accepted_int low high
  | str s => exact accepted_str s
  | arr _ ih => exact accepted_arr ih
  | obj _ ih => exact accepted_obj ih

/-- The compact text of a canonical form is parsed to that form, down to 127 levels of arrays and objects. -/
theorem parse_compact {v : Json} (h : Whole v) (hn : v.nesting < depthLimit) :
    parse (compact (canonical v)) = some (canonical v) := by
  have hend : Follows [] := by rintro c ⟨⟩
  have hfuel : (render (canonical v)).length ≤ 2 * (render (canonical v)).length + 2 := by omega
  have hread := accepted h.canonical _ depthLimit [] hend hfuel (Nat.lt_of_le_of_lt (nesting_canonical_le v) hn)
  rw [List.append_nil] at hread
  rw [parse, read, readChars, compact, String.toList_ofList, hread]
  exact congrArg some (canonical_of_content (content_canonical v))

end Serving.Json
