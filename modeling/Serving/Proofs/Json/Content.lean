import Mathlib.Data.List.Sort
import Mathlib.Data.String.Basic
import Serving.Json.Basic

/-! What a JSON value says, apart from how it is written: an object says for each name what its last member of that
name says. Two values say the same exactly when they have one canonical form. -/

namespace Serving.Json

/-- What is left of a value when the order of its members and the members that later ones replace are taken away. Floats
are told apart as they are stored, so a zero and a negative zero are two. -/
inductive Content
  | null
  | bool (b : Bool)
  | int (n : Int)
  | float (x : Float)
  | str (s : String)
  | arr (items : List Content)
  | obj (fields : String → Option Content)

mutual

def content : Json → Content
  | null => .null
  | bool b => .bool b
  | int n => .int n
  | float x => .float x
  | str s => .str s
  | arr items => .arr (contentItems items)
  | obj fields => .obj (contentFields fields)

def contentItems : List Json → List Content
  | [] => []
  | v :: rest => content v :: contentItems rest

/-- What the last member of a name says. -/
def contentFields : List (String × Json) → String → Option Content
  | [], _ => none
  | (name, v) :: rest, n => (contentFields rest n).or (if n = name then some (content v) else none)

end

variable {name : String} {v w : Json} {fields fields' : List (String × Json)}

/-! ### Members by name -/

/-- The members stand in the order of their names, no two of one name. -/
def Strict (fields : List (String × Json)) : Prop := fields.Pairwise fun f g => f.1 < g.1

lemma contentFields_none : contentFields fields name = none ↔ ∀ f ∈ fields, f.1 ≠ name := by
  induction fields with
  | nil => simp [contentFields]
  | cons f rest ih =>
    obtain ⟨n, v⟩ := f
    simp only [contentFields, Option.or_eq_none_iff, ih, List.forall_mem_cons, ite_eq_right_iff, reduceCtorEq,
      imp_false]
    exact ⟨fun h => ⟨Ne.symm h.2, h.1⟩, fun h => ⟨h.2, Ne.symm h.1⟩⟩

/-- A strict list has one member of a name at the most, and the content of the name is what that member says. -/
lemma contentFields_some {c : Content} (h : Strict fields) :
    contentFields fields name = some c ↔ ∃ v, (name, v) ∈ fields ∧ content v = c := by
  induction fields with
  | nil => simp [contentFields]
  | cons f rest ih =>
    obtain ⟨n, v⟩ := f
    obtain ⟨hfirst, hrest⟩ := List.pairwise_cons.1 h
    by_cases hn : name = n
    · subst hn
      have hnone : contentFields rest name = none :=
        contentFields_none.2 fun f hf => (ne_of_lt (hfirst f hf)).symm
      have hfresh (w : Json) : (name, w) ∉ rest := fun hw => lt_irrefl name (hfirst (name, w) hw)
      simp [contentFields, hnone, hfresh]
    · simp [contentFields, hn, ih hrest]

lemma mem_placeField {f : String × Json} : f ∈ placeField name v fields ↔ f = (name, v) ∨ f ∈ fields := by
  induction fields with
  | nil => simp [placeField]
  | cons g rest ih =>
    unfold placeField
    split
    · simp
    · rw [List.mem_cons, ih, List.mem_cons, or_left_comm]

lemma strict_placeField (h : Strict fields) (hname : ∀ f ∈ fields, f.1 ≠ name) : Strict (placeField name v fields) := by
  induction fields with
  | nil => exact List.pairwise_singleton _ _
  | cons g rest ih =>
    obtain ⟨hfirst, hrest⟩ := List.pairwise_cons.1 h
    obtain ⟨hg, hnames⟩ := List.forall_mem_cons.1 hname
    unfold placeField
    split
    · rename_i hlt
      refine List.pairwise_cons.2 ⟨fun f hf => ?_, h⟩
      rcases List.mem_cons.1 hf with rfl | hf
      · exact hlt
      · exact hlt.trans (hfirst f hf)
    · rename_i hle
      refine List.pairwise_cons.2 ⟨fun f hf => ?_, ih hrest hnames⟩
      rcases mem_placeField.1 hf with rfl | hf
      · exact lt_of_le_of_ne (le_of_not_gt hle) hg
      · exact hfirst f hf

lemma contentFields_placeField (h : Strict fields) (hname : ∀ f ∈ fields, f.1 ≠ name) (n : String) :
    contentFields (placeField name v fields) n = if n = name then some (content v) else contentFields fields n := by
  refine Option.ext fun c => ?_
  rw [contentFields_some (strict_placeField h hname)]
  split
  · subst_vars
    have hfresh (w : Json) : (n, w) ∉ fields := fun hw => hname _ hw rfl
    simp [mem_placeField, hfresh]
  · rename_i hn
    simp [mem_placeField, contentFields_some h, hn]

/-! ### Canonical forms -/

lemma any_name : fields.any (·.1 == name) = true ↔ ¬∀ f ∈ fields, f.1 ≠ name := by
  simp only [List.any_eq_true, beq_iff_eq, not_forall, not_not, exists_prop]

lemma strict_canonicalFields : Strict (canonicalFields fields) := by
  induction fields with
  | nil => exact .nil
  | cons f rest ih =>
    unfold canonicalFields
    dsimp only
    split
    · exact ih
    · rename_i hany
      exact strict_placeField ih (not_not.1 fun h => hany (any_name.2 h))

/-- The values of the canonical members are canonical forms of values that were there. -/
lemma mem_canonicalFields {f : String × Json} (h : f ∈ canonicalFields fields) : ∃ g ∈ fields, f.2 = canonical g.2 := by
  induction fields with
  | nil => cases h
  | cons g rest ih =>
    unfold canonicalFields at h
    dsimp only at h
    split at h
    · obtain ⟨g', hg', hf⟩ := ih h
      exact ⟨g', List.mem_cons_of_mem _ hg', hf⟩
    · rcases mem_placeField.1 h with rfl | h
      · exact ⟨g, List.mem_cons_self, rfl⟩
      · obtain ⟨g', hg', hf⟩ := ih h
        exact ⟨g', List.mem_cons_of_mem _ hg', hf⟩

lemma contentFields_canonicalFields (h : ∀ f ∈ fields, content (canonical f.2) = content f.2) :
    contentFields (canonicalFields fields) = contentFields fields := by
  induction fields with
  | nil => rfl
  | cons f rest ih =>
    obtain ⟨name, v⟩ := f
    obtain ⟨hv, hrest⟩ := List.forall_mem_cons.1 h
    funext n
    unfold canonicalFields
    dsimp only
    split
    · rename_i hany
      rw [contentFields, ih hrest]
      by_cases hn : n = name
      · -- a later member of the name wins
        have hsome : contentFields rest n ≠ none := by
          rw [← ih hrest, Ne, contentFields_none, hn]
          exact any_name.1 hany
        obtain ⟨c, hc⟩ := Option.ne_none_iff_exists'.1 hsome
        rw [hc, Option.some_or]
      · rw [if_neg hn, Option.or_none]
    · rename_i hany
      have hfresh : ∀ f ∈ canonicalFields rest, f.1 ≠ name := not_not.1 fun h => hany (any_name.2 h)
      rw [contentFields_placeField strict_canonicalFields hfresh, contentFields, ih hrest]
      by_cases hn : n = name
      · have hnone : contentFields rest n = none := by
          rw [← ih hrest, hn]
          exact contentFields_none.2 hfresh
        rw [if_pos hn, if_pos hn, hnone, Option.none_or, hv]
      · rw [if_neg hn, if_neg hn, Option.or_none]

theorem content_canonical (v : Json) : content (canonical v) = content v := by
  induction v using Json.induction with
  | arr items ih =>
    have hitems : contentItems (canonicalItems items) = contentItems items := by
      induction items with
      | nil => rfl
      | cons v rest ihr =>
        obtain ⟨hv, hrest⟩ := List.forall_mem_cons.1 ih
        rw [canonicalItems, contentItems, contentItems, hv, ihr hrest]
    simp only [canonical, content, hitems]
  | obj fields ih => simp only [canonical, content, contentFields_canonicalFields ih]
  | null | bool | int | float | str => rfl

lemma eq_of_contentFields (hs : Strict fields) (hs' : Strict fields')
    (hv : ∀ f ∈ fields, ∀ g ∈ fields', content f.2 = content g.2 → f.2 = g.2)
    (h : contentFields fields = contentFields fields') : fields = fields' := by
  have hirrefl : Std.Irrefl fun f g : String × Json => f.1 < g.1 := ⟨fun f => lt_irrefl f.1⟩
  have hantisymm : Std.Antisymm fun f g : String × Json => f.1 < g.1 :=
    ⟨fun f g hfg hgf => absurd hgf (lt_asymm hfg)⟩
  refine List.Pairwise.eq_of_mem_iff hs hs' fun f => ⟨fun hf => ?_, fun hf => ?_⟩
  · obtain ⟨w, hw, hc⟩ := (contentFields_some hs').1 (h ▸ (contentFields_some hs).2 ⟨f.2, hf, rfl⟩)
    have hfw := hv f hf _ hw hc.symm
    subst hfw
    exact hw
  · obtain ⟨w, hw, hc⟩ := (contentFields_some hs).1 (h ▸ (contentFields_some hs').2 ⟨f.2, hf, rfl⟩)
    have hwf := hv _ hw f hf hc
    subst hwf
    exact hw

lemma canonical_of_content (h : content v = content w) : canonical v = canonical w := by
  induction v using Json.induction generalizing w with
  | arr items ih =>
    cases w with
    | arr items' =>
      have hitems : contentItems items = contentItems items' := Content.arr.inj h
      have hcanonical : canonicalItems items = canonicalItems items' := by
        clear h
        induction items generalizing items' with
        | nil =>
          cases items' with
          | nil => rfl
          | cons w rest' => cases hitems
        | cons v rest ihr =>
          cases items' with
          | nil => cases hitems
          | cons w rest' =>
            obtain ⟨hv, hrest⟩ := List.forall_mem_cons.1 ih
            obtain ⟨hhead, htail⟩ := List.cons.inj hitems
            rw [canonicalItems, canonicalItems, hv hhead, ihr hrest _ htail]
      rw [canonical, canonical, hcanonical]
    | null | bool | int | float | str | obj => simp [content] at h
  | obj fields ih =>
    cases w with
    | obj fields' =>
      have hfields : contentFields (canonicalFields fields) = contentFields (canonicalFields fields') := by
        rw [contentFields_canonicalFields fun f _ => content_canonical f.2,
          contentFields_canonicalFields fun f _ => content_canonical f.2]
        exact Content.obj.inj h
      refine congrArg obj (eq_of_contentFields strict_canonicalFields strict_canonicalFields ?_ hfields)
      intro f hf g hg hfg
      obtain ⟨f', hf', hcf⟩ := mem_canonicalFields hf
      obtain ⟨g', _, hcg⟩ := mem_canonicalFields hg
      rw [hcf, hcg, content_canonical, content_canonical] at hfg
      rw [hcf, hcg, ih f' hf' hfg]
    | null | bool | int | float | str | arr => simp [content] at h
  | null | bool | int | float | str => cases w <;> simp_all [content, canonical]

/-- Values have one canonical form exactly when they say the same. -/
theorem canonical_eq_iff : canonical v = canonical w ↔ content v = content w := by
  refine ⟨fun h => ?_, canonical_of_content⟩
  rw [← content_canonical v, h, content_canonical]

end Serving.Json
