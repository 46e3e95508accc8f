import Mathlib.Data.List.Induction
import Serving.Proofs.Balancer.Turns
import Serving.Proofs.Table

/-! The tables of a balancer beside one another. Instances and breakers come and go together, what is kept of the
choices is of instances that are there, and the instances stand in the order in which they came. A choice that is
forgotten was one of an instance that has been removed since. -/

namespace Serving.Balancer

lemma names_admitted (now : Instant) (l : List Instance) (breakers : Table Breaker) :
    (admitted now l breakers).2.names = breakers.names := by
  induction l generalizing breakers with
  | nil => rfl
  | cons i rest ih =>
    simp only [admitted]
    cases hb : breakers.find? i.id with
    | none => exact ih breakers
    | some breaker =>
      refine (ih _).trans ?_
      rw [Table.names_insert, if_pos (Table.mem_names_of_find? hb)]

lemma mem_breakers_perform {b : Balancer} {now : Instant} (h : ∀ id, id ∈ b.breakers.names ↔ id ∈ b.instances.names)
    (o : Operation) (id : String) :
    id ∈ (b.perform now o).breakers.names ↔ id ∈ (b.perform now o).instances.names := by
  cases o with
  | register i =>
    simp only [perform, register, Table.names_insert, h]
    split <;> simp [h]
  | unregister gone => simp only [perform, unregister, Table.names_erase, List.mem_filter, h]
  | select service key => rw [perform, select_breakers, names_admitted, select_instances, h]
  | endRequest target success took =>
    simp only [perform, endRequest]
    split
    · rename_i hc
      rw [Table.names_modify, Table.names_insert, if_pos ((h target).2 (Table.contains_iff.1 hc)), h]
    · exact h id
  | recordProbe target healthy cpu memory =>
    simp only [perform, recordProbe]
    split
    · exact h id
    · rw [Table.names_modify, h]
  | startRequest target | setHealth target status | updateResources target cpu memory =>
    refine (h id).trans ?_
    rw [perform]
    exact (modify_names b target _).symm ▸ Iff.rfl
  | setAlgorithm a =>
    simp only [perform, setAlgorithm]
    split <;> exact h id
  | timePasses d => exact h id

lemma select_cases (b : Balancer) (now : Instant) (service : String) (key : Option String) :
    (∃ i, (b.select now service key).1 = some i ∧ (b.select now service key).2.selections =
      b.selections.insert i.id ⟨((b.selections.find? i.id).getD {}).count + 1, some (.ofNanos now)⟩) ∨
    (b.select now service key).1 = none ∧ (b.select now service key).2.selections = b.selections := by
  simp only [select]
  split
  · exact .inl ⟨_, rfl, rfl⟩
  · exact .inr ⟨rfl, rfl⟩

lemma perform_selections (b : Balancer) (now : Instant) (o : Operation) :
    (b.perform now o).selections = match o with
      | .unregister id => b.selections.erase id
      | .select service key =>
        match (b.select now service key).1 with
        | some i => b.selections.insert i.id
            ⟨((b.selections.find? i.id).getD {}).count + 1, some (.ofNanos now)⟩
        | none => b.selections
      | _ => b.selections := by
  cases o with
  | select service key =>
    rcases select_cases b now service key with ⟨i, hi, hs⟩ | ⟨hn, hs⟩
    · simp only [perform, hi, hs]
    · simp only [perform, hn, hs]
  | setAlgorithm a =>
    simp only [perform, setAlgorithm]
    split <;> rfl
  | recordProbe id healthy cpu memory =>
    simp only [perform, recordProbe]
    split <;> rfl
  | endRequest id success took =>
    simp only [perform, endRequest]
    split <;> rfl
  | register | unregister | startRequest | setHealth | updateResources | timePasses => rfl

def counted (b : Balancer) : Nat := (b.selections.values.map (·.count)).sum

def Operation.isSelect : Operation → Bool
  | .select _ _ => true
  | _ => false

lemma perform_asked (b : Balancer) (now : Instant) (o : Operation) :
    (b.perform now o).selected + (b.perform now o).unserved =
      b.selected + b.unserved + if o.isSelect then 1 else 0 := by
  cases o with
  | select service key =>
    simp only [perform, select]
    split <;> simp only [Operation.isSelect, if_true] <;> omega
  | setAlgorithm a =>
    simp only [perform, setAlgorithm]
    split <;> rfl
  | recordProbe id healthy cpu memory =>
    simp only [perform, recordProbe]
    split <;> rfl
  | endRequest id success took =>
    simp only [perform, endRequest]
    split <;> rfl
  | register | unregister | startRequest | setHealth | updateResources | timePasses => rfl

namespace Past

/-- When an instance came that is still there, as the number of the operations before. An instance that is registered
anew has been there all the time. -/
def arrival (id : String) : Past → Option Nat
  | [] => none
  | (_, .register i) :: past => if i.id = id then some ((arrival id past).getD past.length) else arrival id past
  | (_, .unregister other) :: past => if other = id then none else arrival id past
  | _ :: past => arrival id past

variable {id : String} {past : Past}

lemma arrival_lt {n : Nat} (h : past.arrival id = some n) : n < past.length := by
  induction past generalizing n with
  | nil => cases h
  | cons e past ih =>
    obtain ⟨t, o⟩ := e
    have hlater (h : arrival id past = some n) : n < past.length + 1 := Nat.lt_succ_of_lt (ih h)
    cases o with
    | register i =>
      rw [arrival] at h
      split at h
      · obtain rfl := Option.some.inj h
        cases ha : arrival id past with
        | none => exact Nat.lt_succ_self _
        | some m => exact Nat.lt_succ_of_lt (ih ha)
      · exact hlater h
    | unregister other =>
      rw [arrival] at h
      split at h
      · cases h
      · exact hlater h
    | select | startRequest | endRequest | recordProbe | setHealth | updateResources | setAlgorithm | timePasses =>
      exact hlater h

lemma mem_order_iff : id ∈ past.order ↔ (past.arrival id).isSome = true := by
  induction past with
  | nil => simp [order, arrival]
  | cons e past ih =>
    obtain ⟨t, o⟩ := e
    cases o with
    | register i =>
      rw [order, arrival]
      by_cases hid : i.id = id
      · rw [if_pos hid]
        split <;> simp_all
      · rw [if_neg hid, ← ih]
        split <;> simp [Ne.symm hid]
    | unregister other =>
      rw [order, arrival, List.mem_filter, bne_iff_ne, ih]
      by_cases hid : other = id
      · simp [hid]
      · simp [hid, Ne.symm hid]
    | select | startRequest | endRequest | recordProbe | setHealth | updateResources | setAlgorithm | timePasses =>
      exact ih

lemma pairwise_order (past : Past) : past.order.Pairwise fun id other => past.arrival id < past.arrival other := by
  induction past with
  | nil => exact .nil
  | cons e past ih =>
    obtain ⟨t, o⟩ := e
    cases o with
    | register i =>
      rw [order]
      by_cases hid : i.id ∈ order past
      · -- Who is there keeps the time of arrival, the one that is registered anew included.
        have hsame (id : String) : arrival id ((t, .register i) :: past) = arrival id past := by
          rw [arrival]
          split
          · rename_i he
            obtain ⟨n, hn⟩ := Option.isSome_iff_exists.1 (mem_order_iff.1 (he ▸ hid))
            rw [hn, Option.getD_some]
          · rfl
        simp only [if_pos hid, hsame]
        exact ih
      · have hother {id : String} (h : id ∈ order past) : arrival id ((t, .register i) :: past) = arrival id past := by
          rw [arrival, if_neg]
          rintro rfl
          exact hid h
        have hnew : arrival i.id ((t, .register i) :: past) = some past.length := by
          rw [arrival, if_pos rfl]
          cases ha : arrival i.id past with
          | none => rfl
          | some n => exact absurd (mem_order_iff.2 (ha ▸ rfl)) hid
        rw [if_neg hid]
        refine List.pairwise_append.2 ⟨?_, List.pairwise_singleton _ _, fun id hm other ho => ?_⟩
        · exact ih.imp_of_mem fun ha hb hlt => by rwa [hother ha, hother hb]
        · obtain ⟨n, hn⟩ := Option.isSome_iff_exists.1 (mem_order_iff.1 hm)
          rw [List.mem_singleton.1 ho, hother hm, hnew, hn]
          exact arrival_lt hn
    | unregister other =>
      rw [order]
      refine (ih.filter _).imp_of_mem fun ha hb hlt => ?_
      have hne {id : String} (h : id ∈ (order past).filter (· != other)) : other ≠ id :=
        Ne.symm (bne_iff_ne.1 (List.mem_filter.1 h).2)
      rwa [arrival, arrival, if_neg (hne ha), if_neg (hne hb)]
    | select | startRequest | endRequest | recordProbe | setHealth | updateResources | setAlgorithm | timePasses =>
      exact ih

end Past

namespace History

variable {config : Config} {dice : Nat → Float} {s : History} {operations : List Operation} {o : Operation}
  {id : String}

structure InStep (config : Config) (s : History) : Prop extends Ordered config s where
  guarded : ∀ id, id ∈ s.balancer.breakers.names ↔ id ∈ s.balancer.instances.names
  known : ∀ id ∈ s.balancer.selections.names, id ∈ s.balancer.instances.names

lemma mem_names_of_choice (h : Ordered config s) {service : String} {key : Option String} {i : Instance}
    (hi : s.choice service key = some i) : i.id ∈ s.balancer.instances.names :=
  Table.mem_names_of_find? (h.mem_candidates_iff.1 (mem_of_select hi)).1

namespace InStep

lemma step (h : InStep config s) (o : Operation) : InStep config (s.step o) where
  toOrdered := h.toOrdered.step o
  guarded := mem_breakers_perform h.guarded o
  known id hid := by
    simp only [History.step, perform_selections] at hid ⊢
    cases o with
    | select service key =>
      rw [perform, select_instances]
      cases hc : (s.balancer.select s.now service key).1 with
      | none => exact h.known id (by simpa only [hc] using hid)
      | some i =>
        simp only [hc, Table.names_insert] at hid
        split at hid
        · exact h.known id hid
        · rcases List.mem_append.1 hid with hid | hid
          · exact h.known id hid
          · exact List.mem_singleton.1 hid ▸ mem_names_of_choice h.toOrdered hc
    | unregister gone =>
      rw [perform, unregister_names]
      rw [Table.names_erase] at hid
      exact List.mem_filter.2 ((List.mem_filter.1 hid).imp_left (h.known id))
    | register i =>
      rw [perform, register_names]
      split
      · exact h.known id hid
      · exact List.mem_append_left _ (h.known id hid)
    | startRequest | setHealth | updateResources =>
      rw [perform]
      exact (modify_names ..).symm ▸ h.known id hid
    | endRequest | recordProbe | setAlgorithm =>
      simp only [perform, endRequest, recordProbe, setAlgorithm]
      split <;> simpa only [Table.names_modify] using h.known id hid
    | timePasses => exact h.known id hid

theorem run (config : Config) (dice : Nat → Float) (operations : List Operation) :
    InStep config (run config dice operations) := by
  refine run_induction ?_ (fun _ o h => h.step o) operations
  exact ⟨⟨.start config dice, rfl⟩, fun _ => Iff.rfl, fun _ h => nomatch h⟩

end InStep

lemma run_concat (config : Config) (dice : Nat → Float) (operations : List Operation) (o : Operation) :
    run config dice (operations ++ [o]) = (run config dice operations).step o :=
  run_append config dice operations [o]

lemma concat_eq_append_cons {α : Type} {l before after : List α} {a b : α} :
    l ++ [a] = before ++ b :: after ↔
      after = [] ∧ l = before ∧ a = b ∨ ∃ rest, after = rest ++ [a] ∧ l = before ++ b :: rest := by
  constructor
  · intro h
    rcases List.eq_nil_or_concat' after with rfl | ⟨rest, c, rfl⟩
    · obtain ⟨hl, ha⟩ := List.append_inj' h rfl
      exact .inl ⟨rfl, hl, List.singleton_inj.1 ha⟩
    · rw [← List.cons_append, ← List.append_assoc] at h
      obtain ⟨hl, ha⟩ := List.append_inj' h rfl
      obtain rfl := List.singleton_inj.1 ha
      exact .inr ⟨rest, rfl, hl⟩
  · rintro (⟨rfl, rfl, rfl⟩ | ⟨rest, rfl, rfl⟩)
    · rfl
    · rw [List.append_assoc, List.cons_append]

def Chosen (config : Config) (dice : Nat → Float) (operations : List Operation) (id : String) : Prop :=
  ∃ before service key after i, operations = before ++ .select service key :: after ∧
    (run config dice before).choice service key = some i ∧ i.id = id

/-- No instance is removed in a run after a choice has fallen on it. -/
def KeepsChosen (config : Config) (dice : Nat → Float) (operations : List Operation) : Prop :=
  ∀ before id after, operations = before ++ .unregister id :: after → ¬Chosen config dice before id

lemma chosen_concat : Chosen config dice (operations ++ [o]) id ↔ Chosen config dice operations id ∨
    ∃ service key i, o = .select service key ∧ (run config dice operations).choice service key = some i ∧
      i.id = id := by
  constructor
  · rintro ⟨before, service, key, after, i, he, hi, hid⟩
    rcases concat_eq_append_cons.1 he with ⟨_, rfl, ho⟩ | ⟨rest, _, rfl⟩
    · exact .inr ⟨service, key, i, ho, hi, hid⟩
    · exact .inl ⟨before, service, key, rest, i, rfl, hi, hid⟩
  · rintro (⟨before, service, key, after, i, rfl, hi, hid⟩ | ⟨service, key, i, rfl, hi, hid⟩)
    · exact ⟨before, service, key, after ++ [o], i, by rw [List.append_assoc, List.cons_append], hi, hid⟩
    · exact ⟨operations, service, key, [], i, rfl, hi, hid⟩

lemma keepsChosen_concat : KeepsChosen config dice (operations ++ [o]) ↔
    KeepsChosen config dice operations ∧ ∀ id, o = .unregister id → ¬Chosen config dice operations id := by
  constructor
  · intro h
    refine ⟨fun before id after he => h before id (after ++ [o]) ?_, fun id ho => h operations id [] (ho ▸ rfl)⟩
    rw [he, List.append_assoc, List.cons_append]
  · rintro ⟨h, hlast⟩ before id after he
    rcases concat_eq_append_cons.1 he with ⟨_, rfl, ho⟩ | ⟨rest, _, hrest⟩
    · exact hlast id ho
    · exact h before id rest hrest

lemma keepsChosen_concat_of_ne (ho : ∀ id, o ≠ .unregister id) :
    KeepsChosen config dice (operations ++ [o]) ↔ KeepsChosen config dice operations :=
  keepsChosen_concat.trans (and_iff_left fun id he => absurd he (ho id))

/-- What is kept of the choices of a run: those of an instance that is removed are forgotten, and no others. -/
structure Accounted (config : Config) (dice : Nat → Float) (operations : List Operation) (b : Balancer) : Prop where
  names : b.selections.names.Nodup
  positive : ∀ id c, b.selections.find? id = some c → 0 < c.count
  chosen : ∀ id ∈ b.selections.names, Chosen config dice operations id
  kept : KeepsChosen config dice operations → ∀ id, Chosen config dice operations id → id ∈ b.selections.names
  le : b.counted ≤ b.selected
  eq_iff : b.counted = b.selected ↔ KeepsChosen config dice operations

namespace Accounted

variable {b b' : Balancer}

lemma start (config : Config) (dice : Nat → Float) (b : Balancer) (hs : b.selections = ∅) (hn : b.selected = 0) :
    Accounted config dice [] b where
  names := hs ▸ List.nodup_nil
  positive _ _ h := by
    rw [hs] at h
    cases h
  chosen _ h := by
    rw [hs] at h
    cases h
  kept _ _ := by
    rintro ⟨before, _, _, _, _, he, _⟩
    cases before <;> cases he
  le := by
    rw [counted, hs, hn]
    exact Nat.le_refl 0
  eq_iff := by
    rw [counted, hs, hn]
    refine iff_of_true rfl fun before id after he => ?_
    cases before <;> cases he

lemma idle (h : Accounted config dice operations b) (hs : b'.selections = b.selections) (hn : b'.selected = b.selected)
    (hc : ∀ id, Chosen config dice (operations ++ [o]) id ↔ Chosen config dice operations id)
    (ho : ∀ id, o ≠ .unregister id) : Accounted config dice (operations ++ [o]) b' := by
  have hk : KeepsChosen config dice (operations ++ [o]) ↔ KeepsChosen config dice operations :=
    keepsChosen_concat_of_ne ho
  constructor
  case names => exact hs ▸ h.names
  case positive => exact hs ▸ h.positive
  case chosen => exact fun id hid => (hc id).2 (h.chosen id (hs ▸ hid))
  case kept => exact fun hkept id hid => hs ▸ h.kept (hk.1 hkept) id ((hc id).1 hid)
  case le => rw [counted, hs, hn]; exact h.le
  case eq_iff => rw [counted, hs, hn, hk]; exact h.eq_iff

lemma choose (h : Accounted config dice operations b) {i : Instance} {last : Option Timestamp}
    (hs : b'.selections = b.selections.insert i.id ⟨((b.selections.find? i.id).getD {}).count + 1, last⟩)
    (hn : b'.selected = b.selected + 1)
    (hc : ∀ id, Chosen config dice (operations ++ [o]) id ↔ Chosen config dice operations id ∨ i.id = id)
    (ho : ∀ id, o ≠ .unregister id) : Accounted config dice (operations ++ [o]) b' := by
  have hk : KeepsChosen config dice (operations ++ [o]) ↔ KeepsChosen config dice operations :=
    keepsChosen_concat_of_ne ho
  have hcounted : b'.counted = b.counted + 1 := by
    rw [counted, counted, hs, Table.sum_insert _ h.names, Table.sum_erase _ h.names i.id]
    cases b.selections.find? i.id with
    | none => rfl
    | some c => rw [Option.map_some, Option.getD_some, Option.getD_some, Nat.add_assoc]
  have hmem (id : String) : id ∈ b'.selections.names ↔ id ∈ b.selections.names ∨ i.id = id := by
    rw [hs, Table.names_insert]
    split
    · rename_i hi
      exact (or_iff_left_of_imp fun he => he ▸ hi).symm
    · rw [List.mem_append, List.mem_singleton, eq_comm]
  constructor
  case names => exact hs ▸ Table.nodup_names_insert h.names _ _
  case positive =>
    intro id c hid
    rw [hs, Table.find?_insert] at hid
    split at hid
    · obtain rfl := Option.some.inj hid
      exact Nat.succ_pos _
    · exact h.positive id c hid
  case chosen => exact fun id hid => (hc id).2 (((hmem id).1 hid).imp_left (h.chosen id))
  case kept => exact fun hkept id hid => (hmem id).2 (((hc id).1 hid).imp_left (h.kept (hk.1 hkept) id))
  case le =>
    rw [hcounted, hn]
    exact Nat.succ_le_succ h.le
  case eq_iff => rw [hcounted, hn, hk, Nat.add_right_cancel_iff, h.eq_iff]

lemma remove (h : Accounted config dice operations b) {gone : String}
    (hs : b'.selections = b.selections.erase gone) (hn : b'.selected = b.selected)
    (hc : ∀ id, Chosen config dice (operations ++ [.unregister gone]) id ↔ Chosen config dice operations id) :
    Accounted config dice (operations ++ [.unregister gone]) b' := by
  have hk : KeepsChosen config dice (operations ++ [.unregister gone]) ↔
      KeepsChosen config dice operations ∧ ¬Chosen config dice operations gone :=
    keepsChosen_concat.trans (and_congr_right fun _ =>
      ⟨fun hlast => hlast gone rfl, fun hgone id he => Operation.unregister.inj he ▸ hgone⟩)
  have hcounted : b.counted = b'.counted + ((b.selections.find? gone).map (·.count)).getD 0 := by
    rw [counted, counted, hs, Table.sum_erase _ h.names gone]
  have hle := h.le
  constructor
  case names =>
    rw [hs, Table.names_erase]
    exact h.names.filter _
  case positive =>
    intro id c hid
    rw [hs, Table.find?_erase] at hid
    split at hid
    · cases hid
    · exact h.positive id c hid
  case chosen =>
    intro id hid
    rw [hs, Table.names_erase] at hid
    exact (hc id).2 (h.chosen id (List.mem_filter.1 hid).1)
  case kept =>
    intro hkept id hid
    obtain ⟨hkept, hgone⟩ := hk.1 hkept
    have hid := (hc id).1 hid
    rw [hs, Table.names_erase, List.mem_filter, bne_iff_ne]
    exact ⟨h.kept hkept id hid, fun he => hgone (he ▸ hid)⟩
  case le => omega
  case eq_iff =>
    -- What is forgotten with the one that goes is nothing just in case no choice has fallen on it.
    rw [hk, ← h.eq_iff]
    cases hf : b.selections.find? gone with
    | none =>
      rw [hf, Option.map_none, Option.getD_none] at hcounted
      have hout : gone ∉ b.selections.names := by
        rw [← Table.contains_iff, Table.contains, hf]
        exact Bool.false_ne_true
      rw [hcounted, hn, Nat.add_zero]
      refine (and_iff_left_of_imp fun heq hgone => hout ?_).symm
      exact h.kept (h.eq_iff.1 (by omega)) gone hgone
    | some c =>
      rw [hf, Option.map_some, Option.getD_some] at hcounted
      have hpos := h.positive gone c hf
      refine iff_of_false (by omega) fun hboth => hboth.2 ?_
      exact h.chosen gone (Table.mem_names_of_find? hf)

end Accounted

theorem accounted (config : Config) (dice : Nat → Float) (operations : List Operation) :
    Accounted config dice operations (run config dice operations).balancer := by
  induction operations using List.reverseRecOn with
  | nil => exact .start config dice _ rfl rfl
  | append_singleton operations o ih =>
    have hselections := (run config dice operations).balancer.perform_selections (run config dice operations).now o
    have hselected := (run config dice operations).balancer.perform_selected (run config dice operations).now o
    rw [run_concat, step]
    cases o with
    | select service key =>
      cases hi : (run config dice operations).choice service key with
      | none =>
        rw [choice] at hi
        simp only [hi] at hselections hselected
        refine ih.idle hselections hselected (fun id => chosen_concat.trans (or_iff_left ?_)) (by simp)
        rintro ⟨_, _, i, ho, hsome, _⟩
        obtain ⟨rfl, rfl⟩ := Operation.select.inj ho
        rw [choice, hi] at hsome
        cases hsome
      | some i =>
        have hchoice := hi
        rw [choice] at hi
        simp only [hi] at hselections hselected
        refine ih.choose hselections hselected (fun id => chosen_concat.trans (or_congr_right ?_)) (by simp)
        constructor
        · rintro ⟨_, _, j, ho, hsome, hid⟩
          obtain ⟨rfl, rfl⟩ := Operation.select.inj ho
          obtain rfl := Option.some.inj (hchoice.symm.trans hsome)
          exact hid
        · exact fun hid => ⟨service, key, i, rfl, hchoice, hid⟩
    | unregister gone =>
      exact ih.remove hselections hselected fun id => chosen_concat.trans (or_iff_left (by simp))
    | register | startRequest | endRequest | recordProbe | setHealth | updateResources | setAlgorithm | timePasses =>
      exact ih.idle hselections hselected (fun id => chosen_concat.trans (or_iff_left (by simp))) (by simp)

lemma asked_run (config : Config) (dice : Nat → Float) (operations : List Operation) :
    (run config dice operations).balancer.selected + (run config dice operations).balancer.unserved =
      operations.countP (·.isSelect) := by
  induction operations using List.reverseRecOn with
  | nil => rfl
  | append_singleton operations o ih =>
    rw [run_concat, step, perform_asked, ih, List.countP_append, List.countP_singleton]

/-- In every run, on whatever ids: those who have a breaker are those who are registered, and they are those who have
come and not gone since; choices are counted for nobody else; the instances stand in the order in which they came; every
call for a choice is counted once; and no more choices are counted for the instances than there were, as many just in
case nobody was removed after a choice had fallen on them. -/
theorem tables_stay_in_step (config : Config) (dice : Nat → Float) (operations : List Operation) :
    let s := run config dice operations
    let b := s.balancer
    ((∀ id, id ∈ b.breakers.names ↔ id ∈ b.instances.names) ∧
      (∀ id, id ∈ b.instances.names ↔ (s.past.arrival id).isSome = true) ∧
      ∀ id ∈ b.selections.names, id ∈ b.instances.names) ∧
    b.instances.values.Pairwise (fun i other => s.past.arrival i.id < s.past.arrival other.id) ∧
    b.selected + b.unserved = operations.countP (·.isSelect) ∧
    b.counted ≤ b.selected ∧ (b.counted = b.selected ↔ KeepsChosen config dice operations) := by
  intro s b
  have h : InStep config s := .run config dice operations
  have ha := accounted config dice operations
  have horder : b.instances.values.map (·.id) = s.past.order := h.ids.trans h.order
  refine ⟨⟨h.guarded, fun id => ?_, h.known⟩, ?_, asked_run config dice operations, ha.le, ha.eq_iff⟩
  · rw [h.order, Past.mem_order_iff]
  · have hpairwise := Past.pairwise_order s.past
    rwa [← horder, List.pairwise_map] at hpairwise

/-- One that goes and comes back goes to the end, and the choice that fell on it before is forgotten. -/
example :
    let b := (run {} (fun _ => 0.0) [healthy "a" "chat", healthy "b" "chat", .select "chat" none, .unregister "a",
      healthy "a" "chat", healthy "b" "chat", .select "chat" none, .select "audio" none]).balancer
    b.instances.names = ["b", "a"] ∧ b.counted = 1 ∧ b.selected = 2 ∧ b.unserved = 1 := by
  decide +kernel

end History

end Serving.Balancer
