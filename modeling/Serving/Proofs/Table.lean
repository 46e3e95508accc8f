import Mathlib.Algebra.BigOperators.Group.List.Basic
import Mathlib.Algebra.GroupWithZero.Nat
import Serving.Proofs.Numbered
import Serving.Table

/-! What changes of a table do to the list of its entries, and to counts and sums over its values. -/

namespace Serving.Table

variable {α β : Type} {t : Table α} {name : String} {v : α}

lemma toList_insert (h : name ∉ t.names) (v : α) : (t.insert name v).toList = t.toList ++ [(name, v)] := by
  simp only [names, insert] at h ⊢
  generalize t.toList = l at h
  induction l with
  | nil => rfl
  | cons e rest ih =>
    obtain ⟨hne, hr⟩ := List.ne_and_not_mem_of_not_mem_cons h
    rw [put, if_neg (Ne.symm hne), ih hr, List.cons_append]

lemma perm_erase (hn : t.names.Nodup) (hv : t.find? name = some v) :
    t.toList.Perm ((name, v) :: (t.erase name).toList) := Numbered.perm_of_mem hn (mem_of_find? hv)

lemma erase_modify (t : Table α) (name : String) (f : α → α) : (t.modify name f).erase name = t.erase name := by
  simp only [erase, modify]
  congr 1
  induction t.toList with
  | nil => rfl
  | cons e rest ih =>
    by_cases hn : e.1 = name
    · simpa [hn] using ih
    · simpa [hn] using ih

lemma erase_insert (t : Table α) (name : String) (v : α) : (t.insert name v).erase name = t.erase name := by
  simp only [erase, insert]
  congr 1
  induction t.toList with
  | nil => simp [put]
  | cons e rest ih =>
    by_cases hn : e.1 = name
    · simp [put, hn]
    · simpa [put, hn] using ih

lemma erase_of_find?_none (h : t.find? name = none) : t.erase name = t := by
  obtain ⟨l⟩ := t
  refine congrArg Table.mk (List.filter_eq_self.2 fun e he => bne_iff_ne.2 ?_)
  rintro rfl
  simpa using List.lookup_eq_none_iff.1 h e he

lemma map_modify_of_find? (hn : t.names.Nodup) {f : α → α} {g : String → α → β}
    (h : ∀ v, t.find? name = some v → g name (f v) = g name v) : (t.modify name f).map g = t.map g := by
  simp only [map, modify, List.map_map]
  congr 1
  refine List.map_congr_left ?_
  rintro ⟨n, v⟩ hm
  by_cases he : n = name
  · subst he
    simp [h v (find?_of_mem hn hm)]
  · simp [he]

section Counts

variable {p : α → Bool}

lemma countP_insert (h : name ∉ t.names) (v : α) :
    (t.insert name v).values.countP p = t.values.countP p + if p v then 1 else 0 := by
  rw [values, toList_insert h, List.map_append, List.countP_append, List.map_singleton, List.countP_singleton]
  rfl

lemma countP_erase (hn : t.names.Nodup) (hv : t.find? name = some v) :
    t.values.countP p = (t.erase name).values.countP p + if p v then 1 else 0 := by
  rw [values, ((perm_erase hn hv).map _).countP_eq, List.map_cons, List.countP_cons]
  rfl

lemma countP_modify (hn : t.names.Nodup) (hv : t.find? name = some v) (f : α → α) :
    (t.modify name f).values.countP p = (t.erase name).values.countP p + if p (f v) then 1 else 0 := by
  have hn' : (t.modify name f).names.Nodup := by rwa [names_modify]
  have hv' : (t.modify name f).find? name = some (f v) := by rw [find?_modify, if_pos rfl, hv, Option.map_some]
  rw [countP_erase hn' hv', erase_modify]

end Counts

section Sums

variable (f : α → Nat)

lemma sum_erase (hn : t.names.Nodup) (name : String) :
    (t.values.map f).sum = ((t.erase name).values.map f).sum + ((t.find? name).map f).getD 0 := by
  cases hv : t.find? name with
  | none => rw [erase_of_find?_none hv, Option.map_none, Option.getD_none, Nat.add_zero]
  | some v =>
    rw [values, (((perm_erase hn hv).map _).map f).sum_eq, List.map_cons, List.map_cons, List.sum_cons, Nat.add_comm]
    rfl

lemma sum_insert (hn : t.names.Nodup) (name : String) (v : α) :
    ((t.insert name v).values.map f).sum = ((t.erase name).values.map f).sum + f v := by
  rw [sum_erase f (nodup_names_insert hn name v) name, erase_insert, find?_insert, if_pos rfl, Option.map_some,
    Option.getD_some]

end Sums

end Serving.Table
