import Mathlib.Data.List.Induction
import Serving.Balancer.Probe
import Serving.Proofs.Balancer.History
import Serving.Proofs.FloatOrder

/-! What the balancer is told of the use of processor and memory. Figures that a metrics source reports are brought into
the range from 0 to 100; those of a probe are taken as they come. So the figures of an instance are percentages unless
the last word on them was a probe's, and are then what that probe found. -/

namespace Serving

namespace Balancer

def IsPercentage (x : Float) : Prop := 0.0 ≤ x ∧ x ≤ 100.0

instance (x : Float) : Decidable (IsPercentage x) := inferInstanceAs (Decidable (_ ∧ _))

lemma isPercentage_percentage {x : Float} (hx : x.isNaN = false) : IsPercentage (percentage x) := by
  rw [percentage]
  split
  · decide +kernel
  · rename_i hlow
    split
    · decide +kernel
    · rename_i hhigh
      exact ⟨FloatOrder.le_of_not_lt hx (by decide +kernel) hlow, FloatOrder.le_of_not_lt (by decide +kernel) hx hhigh⟩

def figures (i : Instance) : Float × Float := (i.cpu, i.memory)

def ArePercentages (f : Float × Float) : Prop := IsPercentage f.1 ∧ IsPercentage f.2

instance (f : Float × Float) : Decidable (ArePercentages f) := inferInstanceAs (Decidable (_ ∧ _))

lemma map_figures_modify (b : Balancer) (target id : String) {f : Instance → Instance}
    {g : Float × Float → Float × Float} (h : ∀ i, figures (f i) = g (figures i)) :
    ((b.instances.modify target f).find? id).map figures =
      if target = id then ((b.instance? id).map figures).map g else (b.instance? id).map figures := by
  rw [Table.find?_modify, instance?]
  by_cases hid : target = id
  · subst hid
    simp only [if_pos, Option.map_map]
    exact congrArg (Option.map · _) (funext h)
  · rw [if_neg hid, if_neg (Ne.symm hid)]

lemma map_figures_modify_of_eq (b : Balancer) (target id : String) {f : Instance → Instance}
    (h : ∀ i, figures (f i) = figures i) :
    ((b.instances.modify target f).find? id).map figures = (b.instance? id).map figures := by
  rw [map_figures_modify b target id (g := fun x => x) h, Option.map_id', ite_self]

namespace Past

def figures (id : String) : Past → Option (Float × Float)
  | [] => none
  | (_, .register i) :: past => if i.id = id then some (Balancer.figures i) else figures id past
  | (_, .unregister other) :: past => if other = id then none else figures id past
  | (_, .recordProbe other _ cpu memory) :: past =>
    if other = id then (figures id past).map fun _ => (cpu, memory) else figures id past
  | (_, .updateResources other cpu memory) :: past =>
    if other = id then (figures id past).map fun _ => (percentage cpu, percentage memory) else figures id past
  | _ :: past => figures id past

/-- What a probe found, if the last word on the figures of an instance is a probe's. -/
def found (id : String) : Past → Option (Float × Float)
  | [] => none
  | (_, .register i) :: past => if i.id = id then none else found id past
  | (_, .unregister other) :: past => if other = id then none else found id past
  | (_, .recordProbe other _ cpu memory) :: past => if other = id then some (cpu, memory) else found id past
  | (_, .updateResources other _ _) :: past => if other = id then none else found id past
  | _ :: past => found id past

end Past

lemma map_figures_perform (b : Balancer) (now : Instant) (o : Operation) (id : String) :
    ((b.perform now o).instance? id).map figures = match o with
      | .register i => if i.id = id then some (figures i) else (b.instance? id).map figures
      | .unregister other => if other = id then none else (b.instance? id).map figures
      | .recordProbe other _ cpu memory =>
        if other = id then ((b.instance? id).map figures).map fun _ => (cpu, memory)
        else (b.instance? id).map figures
      | .updateResources other cpu memory =>
        if other = id then ((b.instance? id).map figures).map fun _ => (percentage cpu, percentage memory)
        else (b.instance? id).map figures
      | _ => (b.instance? id).map figures := by
  cases o with
  | register i =>
    simp only [perform, register, instance?, Table.find?_insert, eq_comm (a := id)]
    split <;> rfl
  | unregister other =>
    simp only [perform, unregister, instance?, Table.find?_erase, eq_comm (a := id)]
    split <;> rfl
  | recordProbe other healthy cpu memory =>
    simp only [perform, recordProbe]
    cases hi : b.instances.find? other with
    | none =>
      by_cases hid : other = id
      · simp only [instance?, ← hid, hi, if_pos, Option.map_none]
      · simp only [instance?, if_neg hid]
    | some i => exact map_figures_modify b other id fun _ => rfl
  | updateResources other cpu memory => exact map_figures_modify b other id fun _ => rfl
  | startRequest other | setHealth other status => exact map_figures_modify_of_eq b other id fun _ => rfl
  | endRequest other success took =>
    simp only [perform, endRequest]
    split
    · exact map_figures_modify_of_eq b other id fun _ => rfl
    · rfl
  | select service key => simp only [perform, instance?, select_instances]
  | setAlgorithm a =>
    simp only [perform, setAlgorithm]
    split <;> rfl
  | timePasses d => rfl

/-- Whoever is registered comes with percentages, and a metrics source reports numbers. -/
def Operation.Sound : Operation → Prop
  | .register i => ArePercentages (figures i)
  | .updateResources _ cpu memory => cpu.isNaN = false ∧ memory.isNaN = false
  | _ => True

def Operation.FindsPercentages : Operation → Prop
  | .recordProbe _ _ cpu memory => ArePercentages (cpu, memory)
  | _ => True

namespace Past

variable {id : String} {past : Past} {f : Float × Float}

lemma arePercentages_of_found (hs : ∀ e ∈ past, e.2.Sound) (hf : past.figures id = some f) :
    past.found id = none ∧ ArePercentages f ∨ past.found id = some f := by
  induction past generalizing f with
  | nil => cases hf
  | cons e past ih =>
    obtain ⟨t, o⟩ := e
    obtain ⟨ho, hrest⟩ := List.forall_mem_cons.1 hs
    cases o with
    | register i =>
      rw [figures] at hf
      rw [found]
      split at hf
      · obtain rfl := Option.some.inj hf
        exact .inl ⟨if_pos ‹_›, ho⟩
      · rw [if_neg ‹_›]
        exact ih hrest hf
    | unregister other =>
      rw [figures] at hf
      rw [found]
      split at hf
      · cases hf
      · rw [if_neg ‹_›]
        exact ih hrest hf
    | recordProbe other healthy cpu memory =>
      rw [figures] at hf
      rw [found]
      split at hf
      · obtain ⟨_, _, rfl⟩ := Option.map_eq_some_iff.1 hf
        exact .inr (if_pos ‹_›)
      · rw [if_neg ‹_›]
        exact ih hrest hf
    | updateResources other cpu memory =>
      rw [figures] at hf
      rw [found]
      split at hf
      · obtain ⟨_, _, rfl⟩ := Option.map_eq_some_iff.1 hf
        exact .inl ⟨if_pos ‹_›, isPercentage_percentage ho.1, isPercentage_percentage ho.2⟩
      · rw [if_neg ‹_›]
        exact ih hrest hf
    | select | startRequest | endRequest | setHealth | setAlgorithm | timePasses => exact ih hrest hf

lemma arePercentages_found (hp : ∀ e ∈ past, e.2.FindsPercentages) (hf : past.found id = some f) :
    ArePercentages f := by
  induction past with
  | nil => cases hf
  | cons e past ih =>
    obtain ⟨t, o⟩ := e
    obtain ⟨ho, hrest⟩ := List.forall_mem_cons.1 hp
    cases o with
    | recordProbe other healthy cpu memory =>
      rw [found] at hf
      split at hf
      · exact Option.some.inj hf ▸ ho
      · exact ih hrest hf
    | register i =>
      rw [found] at hf
      split at hf
      · cases hf
      · exact ih hrest hf
    | unregister | updateResources =>
      rw [found] at hf
      split at hf
      · cases hf
      · exact ih hrest hf
    | select | startRequest | endRequest | setHealth | setAlgorithm | timePasses => exact ih hrest hf

end Past

/-- Something happens to the balancer by itself, or a pass looks at the whole pool. -/
inductive Move
  | operation (o : Operation)
  | pass (probe : Probe)

namespace Move

def Sound : Move → Prop
  | operation o => o.Sound
  | pass _ => True

def FindsPercentages : Move → Prop
  | operation o => o.FindsPercentages
  | pass probe => ∀ i, ArePercentages ((probe i).cpu, (probe i).memory)

def FindsNumbers : Move → Prop
  | operation (.recordProbe _ _ cpu memory) => cpu.isNaN = false ∧ memory.isNaN = false
  | operation _ => True
  | pass probe => ∀ i, (probe i).cpu.isNaN = false ∧ (probe i).memory.isNaN = false

end Move

/-- The reports of a pass over the listed instances, which are one for each that is still there and does not stop. -/
def reports (probe : Probe) (now : Instant) : List String → Balancer → List Operation
  | [], _ => []
  | id :: rest, b =>
    match b.instance? id with
    | none => reports probe now rest b
    | some i =>
      if i.health = .stopping then reports probe now rest b
      else
        let report := .recordProbe id (probe i).healthy (probe i).cpu (probe i).memory
        report :: reports probe now rest (b.perform now report)

lemma exists_of_mem_reports {probe : Probe} {now : Instant} {ids : List String} {b : Balancer} {o : Operation}
    (h : o ∈ reports probe now ids b) :
    ∃ id i, o = .recordProbe id (probe i).healthy (probe i).cpu (probe i).memory := by
  induction ids generalizing b with
  | nil => cases h
  | cons id rest ih =>
    rw [reports] at h
    split at h
    · exact ih h
    · split at h
      · exact ih h
      · rcases List.mem_cons.1 h with rfl | h
        · exact ⟨id, _, rfl⟩
        · exact ih h

namespace History

variable {config : Config} {dice : Nat → Float} {s : History} {id : String} {i : Instance}

def move (s : History) : Move → History
  | .operation o => s.step o
  | .pass probe =>
    { s with
      balancer := (s.balancer.probeAll probe s.now).2
      past := (reports probe s.now s.balancer.instances.names s.balancer).reverse.map (s.now, ·) ++ s.past }

def course (config : Config) (dice : Nat → Float) (moves : List Move) : History :=
  moves.foldl move (start config dice)

lemma move_pass (s : History) (probe : Probe) :
    s.move (.pass probe) = s.after (reports probe s.now s.balancer.instances.names s.balancer) := by
  rw [move, probeAll]
  generalize s.balancer.instances.names = ids
  induction ids generalizing s with
  | nil => rfl
  | cons id rest ih =>
    simp only [probeEach, reports]
    cases s.balancer.instance? id with
    | none => exact ih s
    | some i =>
      by_cases hstop : i.health = .stopping
      · simp only [if_pos hstop]
        exact ih s
      · simp only [if_neg hstop, List.reverse_cons, List.map_append, List.append_assoc]
        exact ih (s.step (.recordProbe id (probe i).healthy (probe i).cpu (probe i).memory))

lemma map_figures_run (config : Config) (dice : Nat → Float) (operations : List Operation) (id : String) :
    let s := run config dice operations
    (s.balancer.instance? id).map figures = s.past.figures id := by
  refine run_induction (P := fun s => (s.balancer.instance? id).map figures = s.past.figures id) rfl ?_ operations
  intro s o h
  rw [step, map_figures_perform, h]
  cases o <;> rfl

/-- An operation is one of the moves by itself or the report of a pass. -/
def StemsFrom (moves : List Move) (o : Operation) : Prop :=
  .operation o ∈ moves ∨
    ∃ probe id i, .pass probe ∈ moves ∧ o = .recordProbe id (probe i).healthy (probe i).cpu (probe i).memory

lemma StemsFrom.append {moves : List Move} {o : Operation} (h : StemsFrom moves o) (later : List Move) :
    StemsFrom (moves ++ later) o := by
  rcases h with h | ⟨probe, id, i, h, rfl⟩
  · exact .inl (List.mem_append_left _ h)
  · exact .inr ⟨probe, id, i, List.mem_append_left _ h, rfl⟩

lemma exists_run (config : Config) (dice : Nat → Float) (moves : List Move) :
    ∃ operations, course config dice moves = run config dice operations ∧ ∀ o ∈ operations, StemsFrom moves o := by
  induction moves using List.reverseRecOn with
  | nil => exact ⟨[], rfl, nofun⟩
  | append_singleton moves m ih =>
    obtain ⟨operations, hrun, hops⟩ := ih
    cases m with
    | operation o =>
      refine ⟨operations ++ [o], ?_, fun o' ho' => ?_⟩
      · rw [run_append, ← hrun, course, List.foldl_append]
        rfl
      · rcases List.mem_append.1 ho' with ho' | ho'
        · exact (hops o' ho').append _
        · exact .inl (List.mem_singleton.1 ho' ▸ List.mem_append_right _ List.mem_cons_self)
    | pass probe =>
      let s := run config dice operations
      refine ⟨operations ++ reports probe s.now s.balancer.instances.names s.balancer, ?_, fun o ho => ?_⟩
      · rw [run_append, ← move_pass, ← hrun, course, List.foldl_append]
        rfl
      · rcases List.mem_append.1 ho with ho | ho
        · exact (hops o ho).append _
        · obtain ⟨id, i, rfl⟩ := exists_of_mem_reports ho
          exact .inr ⟨probe, id, i, List.mem_append_right _ List.mem_cons_self, rfl⟩

lemma mem_past_run {e : Instant × Operation} {operations : List Operation}
    (h : e ∈ (run config dice operations).past) : e.2 ∈ operations := by
  induction operations using List.reverseRecOn with
  | nil => cases h
  | append_singleton operations o ih =>
    rw [run_append] at h
    rcases List.mem_cons.1 h with rfl | h
    · exact List.mem_append_right _ List.mem_cons_self
    · exact List.mem_append_left _ (ih h)

/-- In every course in which instances are registered with percentages and a metrics source reports numbers: the figures
of a registered instance are percentages, or a probe had the last word on them and they are what it found. So all of
them are percentages if all that probes find are. -/
theorem figures_are_percentages (config : Config) (dice : Nat → Float) (moves : List Move)
    (hs : ∀ m ∈ moves, m.Sound) :
    let s := course config dice moves
    (∀ id i, s.balancer.instance? id = some i →
      s.past.found id = none ∧ ArePercentages (figures i) ∨ s.past.found id = some (figures i)) ∧
    ((∀ m ∈ moves, m.FindsPercentages) →
      ∀ id i, s.balancer.instance? id = some i → ArePercentages (figures i)) := by
  obtain ⟨operations, hrun, hops⟩ := exists_run config dice moves
  simp only [hrun]
  have hsound : ∀ e ∈ (run config dice operations).past, e.2.Sound := by
    intro e he
    rcases hops e.2 (mem_past_run he) with hm | ⟨probe, id, i, _, ho⟩
    · exact hs _ hm
    · rw [ho]
      trivial
  have hlast {id : String} {i : Instance} (hi : (run config dice operations).balancer.instance? id = some i) :=
    Past.arePercentages_of_found hsound ((map_figures_run config dice operations id).symm.trans (congrArg _ hi))
  refine ⟨fun id i hi => hlast hi, fun hp id i hi => ?_⟩
  rcases hlast hi with ⟨_, h⟩ | h
  · exact h
  · refine Past.arePercentages_found (fun e he => ?_) h
    rcases hops e.2 (mem_past_run he) with hm | ⟨probe, id, i, hm, ho⟩
    · exact hp _ hm
    · rw [ho]
      exact hp _ hm i

abbrev lightlyUsed : Instance :=
  { id := "a", service := "chat", host := "localhost", port := 1, health := .healthy, cpu := 5.0, memory := 5.0 }

abbrev passedThenReported : List Move :=
  [.operation (.register lightlyUsed), .pass .healthy, .operation (.updateResources "a" 250.0 (-3.0))]

theorem figures_are_percentages_reported :
    let s := course {} (fun _ => 0.0) passedThenReported
    s.past.found "a" = none ∧ (s.balancer.instance? "a").isSome = true ∧
      ∀ i, s.balancer.instance? "a" = some i → ArePercentages (figures i) := by
  have hused : ArePercentages (figures lightlyUsed) := by decide +kernel
  have hnumbers : (250.0 : Float).isNaN = false ∧ (-3.0 : Float).isNaN = false := by decide +kernel
  have hfound : ArePercentages (10.0, 10.0) := by decide +kernel
  have hs : ∀ m ∈ passedThenReported, m.Sound :=
    List.forall_mem_cons.2 ⟨hused, List.forall_mem_cons.2 ⟨trivial, List.forall_mem_singleton.2 hnumbers⟩⟩
  have hp : ∀ m ∈ passedThenReported, m.FindsPercentages :=
    List.forall_mem_cons.2 ⟨trivial, List.forall_mem_cons.2 ⟨fun _ => hfound, List.forall_mem_singleton.2 trivial⟩⟩
  exact ⟨rfl, rfl, (figures_are_percentages {} (fun _ => 0.0) passedThenReported hs).2 hp "a"⟩

abbrev overstated : List Move := [.operation (.register lightlyUsed), .operation (.recordProbe "a" true 150.0 20.0)]

theorem figures_leave_the_range :
    ¬∀ config dice moves, (∀ m ∈ moves, m.Sound ∧ m.FindsNumbers) →
      ∀ id i, (course config dice moves).balancer.instance? id = some i → ArePercentages (figures i) := by
  intro h
  have hused : ArePercentages (figures lightlyUsed) := by decide +kernel
  have hnumbers : (150.0 : Float).isNaN = false ∧ (20.0 : Float).isNaN = false := by decide +kernel
  have hbeyond : ¬ArePercentages (150.0, 20.0) := by decide +kernel
  have hm : ∀ m ∈ overstated, m.Sound ∧ m.FindsNumbers :=
    List.forall_mem_cons.2 ⟨⟨hused, trivial⟩, List.forall_mem_singleton.2 ⟨trivial, hnumbers⟩⟩
  have hfigures : ((course {} (fun _ => 0.0) overstated).balancer.instance? "a").map figures = some (150.0, 20.0) := rfl
  obtain ⟨i, hi, hf⟩ := Option.map_eq_some_iff.1 hfigures
  exact hbeyond (hf ▸ h {} (fun _ => 0.0) overstated hm "a" i hi)

end History

end Balancer

end Serving
