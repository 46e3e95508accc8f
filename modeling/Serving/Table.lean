/-!
# Tables

A table maps names to values and remembers the order in which the names came in. Writing to a name
that is already there keeps its place; a name that was erased and comes back goes to the end.
Main statements: what `find?` answers after each operation, and what the names become.
-/

namespace Serving

structure Table (α : Type) where
  toList : List (String × α)

namespace Table

variable {α β : Type}

def empty : Table α := ⟨[]⟩

instance : EmptyCollection (Table α) := ⟨empty⟩

instance : Inhabited (Table α) := ⟨empty⟩

def names (t : Table α) : List String := t.toList.map (·.1)

def values (t : Table α) : List α := t.toList.map (·.2)

def size (t : Table α) : Nat := t.toList.length

def find? (t : Table α) (name : String) : Option α := t.toList.lookup name

def contains (t : Table α) (name : String) : Bool := (t.find? name).isSome

/-- Writes `value` at `name` in a list of entries: in place, or at the end. -/
def put (name : String) (value : α) : List (String × α) → List (String × α)
  | [] => [(name, value)]
  | (n, v) :: rest => if n = name then (name, value) :: rest else (n, v) :: put name value rest

def insert (t : Table α) (name : String) (value : α) : Table α := ⟨put name value t.toList⟩

def erase (t : Table α) (name : String) : Table α := ⟨t.toList.filter (·.1 != name)⟩

/-- Changes the value at `name`, if there is one. -/
def modify (t : Table α) (name : String) (f : α → α) : Table α :=
  ⟨t.toList.map fun (n, v) => if n = name then (n, f v) else (n, v)⟩

def map (t : Table α) (f : String → α → β) : Table β := ⟨t.toList.map fun (n, v) => (n, f n v)⟩

def filter (t : Table α) (keep : String → α → Bool) : Table α :=
  ⟨t.toList.filter fun (n, v) => keep n v⟩

/-- The entries of a list, a later one replacing an earlier one of the same name. -/
def ofList (entries : List (String × α)) : Table α :=
  entries.foldl (fun t (n, v) => t.insert n v) empty

@[simp]
theorem find?_empty (name : String) : (empty : Table α).find? name = none := rfl

theorem lookup_put (name other : String) (value : α) (l : List (String × α)) :
    (put name value l).lookup other = if other = name then some value else l.lookup other := by
  induction l with
  | nil =>
    by_cases h : other = name
    · simp [put, h]
    · have h' : (other == name) = false := by simp [h]
      simp [put, List.lookup_cons, h, h']
  | cons e rest ih =>
    obtain ⟨n, v⟩ := e
    by_cases hn : n = name
    · subst hn
      by_cases h : other = n
      · simp [put, h]
      · have h' : (other == n) = false := by simp [h]
        simp [put, List.lookup_cons, h, h']
    · by_cases h : other = n
      · subst h
        simp [put, hn]
      · have h' : (other == n) = false := by simp [h]
        simp [put, List.lookup_cons, hn, h', ih]

theorem find?_insert (t : Table α) (name other : String) (value : α) :
    (t.insert name value).find? other = if other = name then some value else t.find? other :=
  lookup_put name other value t.toList

theorem lookup_filter (keep : String → Bool) (name : String) (l : List (String × α)) :
    (l.filter fun e => keep e.1).lookup name = if keep name then l.lookup name else none := by
  induction l with
  | nil => simp
  | cons e rest ih =>
    obtain ⟨n, v⟩ := e
    by_cases hn : name = n
    · subst hn
      by_cases hk : keep name = true <;> simp [hk, ih]
    · have hne : (name == n) = false := beq_eq_false_iff_ne.2 hn
      by_cases hk : keep n = true <;> simp [List.lookup_cons, hk, hne, ih]

theorem lookup_filter_ne (name other : String) (l : List (String × α)) :
    (l.filter (·.1 != name)).lookup other = if other = name then none else l.lookup other := by
  rw [lookup_filter (· != name)]
  by_cases h : other = name <;> simp [h]

theorem find?_erase (t : Table α) (name other : String) :
    (t.erase name).find? other = if other = name then none else t.find? other :=
  lookup_filter_ne name other t.toList

theorem find?_filter (keep : String → Bool) (t : Table α) (name : String) :
    (t.filter fun n _ => keep n).find? name = if keep name then t.find? name else none :=
  lookup_filter keep name t.toList

theorem map_fst_put (name : String) (value : α) (l : List (String × α)) :
    (put name value l).map (·.1) =
      if name ∈ l.map (·.1) then l.map (·.1) else l.map (·.1) ++ [name] := by
  induction l with
  | nil => simp [put]
  | cons e rest ih =>
    obtain ⟨n, v⟩ := e
    by_cases hn : n = name
    · simp [put, hn]
    · have hn' : ¬ name = n := fun h => hn h.symm
      simp only [put, hn, if_false, List.map_cons, ih, List.mem_cons, hn', false_or]
      split <;> simp

theorem names_insert (t : Table α) (name : String) (value : α) :
    (t.insert name value).names = if name ∈ t.names then t.names else t.names ++ [name] :=
  map_fst_put name value t.toList

theorem nodup_names_insert {t : Table α} (h : t.names.Nodup) (name : String) (value : α) :
    (t.insert name value).names.Nodup := by
  rw [names_insert]
  split
  · exact h
  · rename_i hn
    refine List.nodup_append.2 ⟨h, List.pairwise_singleton _ _, ?_⟩
    rintro a ha b hb rfl
    exact hn (List.mem_singleton.1 hb ▸ ha)

theorem names_erase (t : Table α) (name : String) :
    (t.erase name).names = t.names.filter (· != name) := by
  simp [names, erase, List.filter_map, Function.comp_def]

theorem names_filter (keep : String → Bool) (t : Table α) :
    (t.filter fun n _ => keep n).names = t.names.filter keep := by
  simp [names, filter, List.filter_map, Function.comp_def]

theorem names_modify (t : Table α) (name : String) (f : α → α) :
    (t.modify name f).names = t.names := by
  simp only [names, modify, List.map_map]
  apply List.map_congr_left
  rintro ⟨n, v⟩ _
  by_cases h : n = name <;> simp [h]

theorem mem_put {name : String} {value : α} {l : List (String × α)} {e : String × α}
    (h : e ∈ put name value l) : e = (name, value) ∨ e ∈ l := by
  induction l with
  | nil => exact .inl (List.mem_singleton.1 h)
  | cons a rest ih =>
    by_cases hn : a.1 = name
    · simp only [put, hn, if_true, List.mem_cons] at h ⊢
      exact h.imp_right .inr
    · simp only [put, hn, if_false, List.mem_cons] at h ⊢
      rcases h with h | h
      · exact .inr (.inl h)
      · exact (ih h).imp_right .inr

theorem mem_insert {t : Table α} {name : String} {value : α} {e : String × α}
    (h : e ∈ (t.insert name value).toList) : e = (name, value) ∨ e ∈ t.toList := mem_put h

theorem put_put (name : String) (v w : α) (l : List (String × α)) :
    put name w (put name v l) = put name w l := by
  induction l with
  | nil => simp [put]
  | cons e rest ih =>
    obtain ⟨n, u⟩ := e
    by_cases hn : n = name
    · simp [put, hn]
    · simp [put, hn, ih]

theorem insert_insert (t : Table α) (name : String) (v w : α) :
    (t.insert name v).insert name w = t.insert name w :=
  congrArg Table.mk (put_put name v w t.toList)

theorem find?_modify (t : Table α) (name other : String) (f : α → α) :
    (t.modify name f).find? other = if other = name then (t.find? name).map f else t.find? other := by
  simp only [find?, modify]
  induction t.toList with
  | nil => simp
  | cons e rest ih =>
    obtain ⟨n, v⟩ := e
    by_cases ho : other = n
    · subst ho
      by_cases hn : other = name
      · subst hn
        simp
      · simp [hn]
    · have ho' : (other == n) = false := by simp [ho]
      by_cases hn : n = name
      · subst hn
        simpa [List.lookup_cons, ho', ho] using ih
      · have hn' : (name == n) = false := by simpa using Ne.symm hn
        simpa [List.lookup_cons, hn, ho', hn'] using ih

theorem find?_map (t : Table α) (f : String → α → β) (name : String) :
    (t.map f).find? name = (t.find? name).map (f name) := by
  simp only [find?, map]
  induction t.toList with
  | nil => rfl
  | cons e rest ih =>
    obtain ⟨n, v⟩ := e
    by_cases h : name = n
    · subst h
      simp
    · have h' : (name == n) = false := by simp [h]
      simpa [List.lookup_cons, h'] using ih

theorem names_map (t : Table α) (f : String → α → β) : (t.map f).names = t.names := by
  simp [names, map, Function.comp_def]

theorem map_insert (t : Table α) (f : String → α → β) (name : String) (value : α) :
    (t.insert name value).map f = (t.map f).insert name (f name value) := by
  simp only [map, insert]
  congr 1
  induction t.toList with
  | nil => rfl
  | cons e rest ih =>
    obtain ⟨n, v⟩ := e
    by_cases hn : n = name
    · simp [put, hn]
    · simpa [put, hn] using ih

theorem map_erase (t : Table α) (f : String → α → β) (name : String) :
    (t.erase name).map f = (t.map f).erase name := by
  simp [map, erase, List.filter_map, Function.comp_def]

theorem map_modify (t : Table α) (f : String → α → β) (name : String) {g : α → α} {g' : β → β}
    (h : ∀ v, f name (g v) = g' (f name v)) : (t.modify name g).map f = (t.map f).modify name g' := by
  simp only [map, modify, List.map_map]
  congr 1
  refine List.map_congr_left ?_
  rintro ⟨n, v⟩ _
  by_cases hn : n = name
  · subst hn
    simp [h]
  · simp [hn]

theorem modify_id (t : Table α) (name : String) : t.modify name id = t := by
  simp [modify]

theorem mem_of_find? {t : Table α} {name : String} {v : α} (h : t.find? name = some v) :
    (name, v) ∈ t.toList := by
  obtain ⟨l₁, l₂, hl, _⟩ := List.lookup_eq_some_iff.1 h
  simp [hl]

theorem mem_names_of_find? {t : Table α} {name : String} {v : α} (h : t.find? name = some v) :
    name ∈ t.names := List.mem_map.2 ⟨(name, v), mem_of_find? h, rfl⟩

theorem contains_iff {t : Table α} {name : String} : t.contains name = true ↔ name ∈ t.names := by
  have hnone : t.find? name = none ↔ name ∉ t.names := by
    rw [find?, List.lookup_eq_none_iff, names, List.mem_map]
    constructor
    · rintro h ⟨e, he, rfl⟩
      simpa using h e he
    · intro h e he
      exact bne_iff_ne.2 fun heq => h ⟨e, he, heq.symm⟩
  rw [contains, Option.isSome_iff_ne_none, ne_eq, hnone, Decidable.not_not]

theorem find?_of_mem {t : Table α} (h : t.names.Nodup) {name : String} {v : α}
    (hm : (name, v) ∈ t.toList) : t.find? name = some v := by
  simp only [names, find?] at h ⊢
  generalize t.toList = l at h hm
  induction l with
  | nil => cases hm
  | cons e rest ih =>
    obtain ⟨hn, hr⟩ := List.nodup_cons.1 h
    rcases List.mem_cons.1 hm with rfl | hm
    · simp
    · have hne : (name == e.1) = false := by
        refine beq_eq_false_iff_ne.2 ?_
        rintro rfl
        exact hn (List.mem_map.2 ⟨_, hm, rfl⟩)
      rw [List.lookup_cons, hne]
      exact ih hr hm

end Table

end Serving
