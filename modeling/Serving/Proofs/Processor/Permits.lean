import Serving.Proofs.Numbered
import Serving.Proofs.Processor.History

/-! Where the permits of a model are. Each is free, or with one call, or on its way from a call that gave it
back to the next; and nobody waits while one is free. -/

namespace Serving.Processor

open Batch

structure Share (limit owed holders : Nat) (waiting : List Nat) (permits : Permits) : Prop where
  whole : permits.free + holders + owed = limit
  line : permits.line = waiting
  busy : waiting ≠ [] → permits.free = 0

def setPermits (p : Processor) (model : String) (permits : Permits) : Processor :=
  { p with permits := p.permits.insert model permits }

@[simp]
lemma setPermits_running (p : Processor) (model : String) (permits : Permits) :
    (p.setPermits model permits).running = p.running := rfl

lemma begin_begun {p p' : Processor} {b b' : Balancer} {now : Instant} {number : Nat} {model : String}
    {items : List Item} {run : Run} (h : p.begin b now number model items = (.begun run, p', b')) :
    (b.select now model).1 = some run.target ∧ run.number = number ∧ run.model = model ∧
      p' = { p with running := p.running ++ [run] } ∧
      b' = ((b.select now model).2.startRequest run.target.id).2 := by
  simp only [begin] at h
  split at h
  · cases h
  · rename_i i hi
    cases h
    exact ⟨hi, rfl, rfl, rfl, rfl⟩

lemma begin_noCapacity {p p' : Processor} {b b' : Balancer} {now : Instant} {number : Nat} {model : String}
    {items : List Item} {results : List (Except Error Json)} {next : Option Nat}
    (h : p.begin b now number model items = (.noCapacity results next, p', b')) :
    ∃ counts, next = ({ p with counts }.release model).1 ∧ p' = ({ p with counts }.release model).2 ∧
      b' = (b.select now model).2 := by
  simp only [begin] at h
  split at h
  · cases h
    exact ⟨_, rfl, rfl, rfl⟩
  · cases h

lemma finish_eq (p : Processor) (b : Balancer) (now : Instant) (run : Run) (verdict : Verdict) :
    ∃ counts success,
      let after := { p with counts, running := p.running.filter (·.number != run.number) }
      (p.finish b now run verdict).1.next = (after.release run.model).1 ∧
        (p.finish b now run verdict).2.1 = (after.release run.model).2 ∧
        (p.finish b now run verdict).2.2 = b.endRequest now run.target.id success (now - run.started) := by
  simp only [finish]
  split
  · exact ⟨_, _, rfl, rfl, rfl⟩
  · exact ⟨_, _, rfl, rfl, rfl⟩

namespace History

variable {models : Table Model} {owed owed' : String → Nat} {s s' : History} {model : String} {m : Model}
  {number : Nat}

def lineOf (s : History) (model : String) : List Nat := (s.line.filter (·.model == model)).map (·.number)

lemma lineOf_without (s : History) (number : Nat) (model : String) :
    lineOf { s with line := s.line.filter (·.number != number) } model =
      (s.lineOf model).filter (· != number) := by
  simp only [lineOf, List.filter_map, List.filter_filter, Function.comp_def, Bool.and_comm]

def onlyOf (model : String) : String → Nat := fun other => if other = model then 1 else 0

/-- The permits of every model are accounted for, but for so many that are in nobody's hands. -/
structure Staffed (models : Table Model) (owed : String → Nat) (s : History) : Prop where
  shares : ∀ model m, models.find? model = some m → ∃ permits, s.processor.permits.find? model = some permits ∧
    Share (max 1 m.concurrency) (owed model) (s.holders model) (s.lineOf model) permits
  unknown : ∀ model, models.find? model = none →
    s.processor.permits.find? model = none ∧ s.holders model = 0 ∧ s.lineOf model = []
  distinct : s.numbers.Nodup
  below : ∀ n ∈ s.numbers, n < s.calls

namespace Staffed

lemma start (models : Table Model) (config : Balancer.Config) (dice : Nat → Float) :
    Staffed models (fun _ => 0) (start models config dice) where
  shares model m hm := by
    refine ⟨{ free := max m.concurrency 1 }, ?_, ?_⟩
    · simp only [History.start, new, Table.find?_map, hm, Option.map_some]
    · exact ⟨Nat.max_comm .., rfl, fun h => absurd rfl h⟩
  unknown model hm := by
    refine ⟨?_, rfl, rfl⟩
    simp only [History.start, new, Table.find?_map, hm, Option.map_none]
  distinct := List.nodup_nil
  below n hn := by cases hn

/-- What happens to the calls of one model leaves the other models alone. -/
lemma change (h : Staffed models owed s) (hm : models.find? model = some m) {permits : Permits}
    (hp : ∀ other, s'.processor.permits.find? other =
      if other = model then some permits else s.processor.permits.find? other)
    (hs : Share (max 1 m.concurrency) (owed' model) (s'.holders model) (s'.lineOf model) permits)
    (ho : ∀ other, other ≠ model → s'.holders other = s.holders other ∧ s'.lineOf other = s.lineOf other ∧
      owed' other = owed other)
    (hn : s'.numbers.Nodup) (hb : ∀ n ∈ s'.numbers, n < s'.calls) : Staffed models owed' s' where
  shares other m' hm' := by
    by_cases he : other = model
    · subst he
      obtain rfl : m = m' := Option.some.inj (hm.symm.trans hm')
      exact ⟨permits, by rw [hp, if_pos rfl], hs⟩
    · obtain ⟨hh, hl, hw⟩ := ho other he
      rw [hp, if_neg he, hh, hl, hw]
      exact h.shares other m' hm'
  unknown other hm' := by
    have he : other ≠ model := by
      rintro rfl
      rw [hm] at hm'
      cases hm'
    obtain ⟨hh, hl, _⟩ := ho other he
    rw [hp, if_neg he, hh, hl]
    exact h.unknown other hm'
  distinct := hn
  below := hb

lemma nodup_line (h : Staffed models owed s) : (s.line.map (·.number)).Nodup :=
  h.distinct.of_append_left.of_append_left

lemma nodup_admitted (h : Staffed models owed s) : (s.admitted.map (·.number)).Nodup :=
  h.distinct.of_append_left.of_append_right

lemma nodup_running (h : Staffed models owed s) : (s.processor.running.map (·.number)).Nodup :=
  h.distinct.of_append_right

lemma other_number (h : Staffed models owed s) {c : Call} (hc : c ∈ s.line) {other : String}
    (hne : other ≠ c.model) {n : Nat} (hn : n ∈ s.lineOf other) : (n != c.number) = true := by
  obtain ⟨d, hd, rfl⟩ := List.mem_map.1 hn
  obtain ⟨hd, hdm⟩ := List.mem_filter.1 hd
  rw [bne_iff_ne]
  intro hnum
  obtain rfl := List.inj_on_of_nodup_map h.nodup_line hd hc hnum
  exact hne (beq_iff_eq.1 hdm).symm

lemma handBack_freed (h : Staffed models (onlyOf model) s) (hm : models.find? model = some m)
    {permits : Permits} (hp : s.processor.permits.find? model = some permits) (hl : permits.line = []) :
    Staffed models (fun _ => 0) (s.handBack model) := by
  obtain ⟨_, hp', hs⟩ := h.shares model m hm
  obtain rfl := Option.some.inj (hp.symm.trans hp')
  have hw := hs.whole
  rw [onlyOf, if_pos rfl] at hw
  have hline : s.lineOf model = [] := by rw [← hs.line, hl]
  have he : s.handBack model = { s with
      processor := s.processor.setPermits model { permits with free := permits.free + 1 } } := by
    simp only [History.handBack, release, setPermits, hp, hl, passOn]
  rw [he]
  refine h.change hm (fun other => Table.find?_insert ..) ⟨?_, hs.line, ?_⟩ ?_ h.distinct h.below
  · change permits.free + 1 + s.holders model + 0 = _
    omega
  · exact fun hne => absurd hline hne
  · intro other hne
    rw [onlyOf, if_neg hne]
    exact ⟨rfl, rfl, rfl⟩

lemma handBack_passed {c : Call} (h : Staffed models (onlyOf c.model) s) (hm : models.find? c.model = some m)
    {permits : Permits} (hp : s.processor.permits.find? c.model = some permits) (hc : c ∈ s.line)
    {rest : List Nat} (hl : permits.line = c.number :: rest) :
    Staffed models (fun _ => 0) (s.handBack c.model) := by
  obtain ⟨_, hp', hs⟩ := h.shares c.model m hm
  obtain rfl := Option.some.inj (hp.symm.trans hp')
  have hw := hs.whole
  rw [onlyOf, if_pos rfl] at hw
  have hline : s.lineOf c.model = c.number :: rest := by rw [← hs.line, hl]
  have hperm := Numbered.perm_of_mem h.nodup_line hc
  have he : s.handBack c.model = { s with
      processor := s.processor.setPermits c.model { permits with line := rest }
      line := s.line.filter (·.number != c.number)
      admitted := s.admitted ++ [c] } := by
    simp only [History.handBack, release, setPermits, hp, hl, passOn, Numbered.find?_of_mem h.nodup_line hc]
  have hholders (other : String) : (s.handBack c.model).holders other =
      s.holders other + if c.model = other then 1 else 0 := by
    rw [he]
    simp only [holders, List.countP_append, List.countP_singleton, beq_iff_eq, setPermits_running]
    omega
  have hlines (other : String) : (s.handBack c.model).lineOf other =
      (s.lineOf other).filter (· != c.number) := by
    rw [he]
    exact lineOf_without s c.number other
  have hnumbers : (s.handBack c.model).numbers.Perm s.numbers := by
    rw [he]
    simp only [numbers, List.map_append, List.map_cons, List.map_nil]
    refine List.Perm.append_right _ ?_
    refine .trans ?_ ((hperm.map (·.number)).append_right _).symm
    rw [← List.append_assoc]
    exact List.perm_append_comm
  have hshare : Share (max 1 m.concurrency) 0 ((s.handBack c.model).holders c.model)
      ((s.handBack c.model).lineOf c.model) { permits with line := rest } := by
    refine ⟨?_, ?_, fun _ => hs.busy (by simp [hline])⟩
    · rw [hholders, if_pos rfl]
      change permits.free + _ + 0 = _
      omega
    · have hnodup : (s.lineOf c.model).Nodup := h.nodup_line.sublist (List.filter_sublist.map _)
      rw [hline] at hnodup
      obtain ⟨hnot, _⟩ := List.nodup_cons.1 hnodup
      rw [hlines, hline, List.filter_cons, if_neg (by simp)]
      refine (List.filter_eq_self.2 fun n hn => ?_).symm
      rw [bne_iff_ne]
      rintro rfl
      exact hnot hn
  refine h.change hm (fun other => ?_) hshare ?_ (hnumbers.nodup_iff.2 h.distinct) ?_
  · rw [he]
    exact Table.find?_insert ..
  · intro other hne
    rw [hholders, hlines, if_neg (Ne.symm hne), onlyOf, if_neg hne]
    exact ⟨rfl, List.filter_eq_self.2 fun n hn => h.other_number hc hne hn, rfl⟩
  · intro n hn
    rw [he]
    exact h.below n (hnumbers.mem_iff.1 hn)

/-- A permit that comes back goes to the first in line. -/
lemma handBack (h : Staffed models (onlyOf model) s) (hm : models.find? model = some m) :
    Staffed models (fun _ => 0) (s.handBack model) := by
  obtain ⟨permits, hp, hs⟩ := h.shares model m hm
  cases hl : permits.line with
  | nil => exact h.handBack_freed hm hp hl
  | cons next rest =>
    have hfirst : next ∈ s.lineOf model := by
      rw [← hs.line, hl]
      exact List.mem_cons_self
    obtain ⟨c, hof, rfl⟩ := List.mem_map.1 hfirst
    obtain ⟨hc, hmodel⟩ := List.mem_filter.1 hof
    obtain rfl : c.model = model := beq_iff_eq.1 hmodel
    exact h.handBack_passed hm hp hc hl

lemma configured (h : Staffed models owed s) (hc : s.holders model ≠ 0 ∨ s.lineOf model ≠ []) :
    ∃ m, models.find? model = some m := by
  cases hm : models.find? model with
  | some m => exact ⟨m, rfl⟩
  | none =>
    obtain ⟨_, hh, hl⟩ := h.unknown model hm
    rcases hc with hc | hc
    · exact absurd hh hc
    · exact absurd hl hc

lemma given_up (h : Staffed models (fun _ => 0) s)
    (hh : ∀ other, s.holders other = s'.holders other + if model = other then 1 else 0)
    (hn : s.numbers.Perm (number :: s'.numbers)) (hp : s'.processor.permits = s.processor.permits)
    (hl : s'.line = s.line) (hc : s'.calls = s.calls) :
    (∃ m, models.find? model = some m) ∧ number < s.calls ∧ number ∉ s'.numbers ∧
      Staffed models (onlyOf model) s' := by
  obtain ⟨hnot, hnodup⟩ := List.nodup_cons.1 (hn.nodup_iff.1 h.distinct)
  have hpos : s.holders model ≠ 0 := by
    rw [hh, if_pos rfl]
    omega
  have hline (other : String) : s'.lineOf other = s.lineOf other := by rw [lineOf, lineOf, hl]
  obtain ⟨m, hm⟩ := h.configured (Or.inl hpos)
  obtain ⟨permits, hf, hs⟩ := h.shares model m hm
  refine ⟨⟨m, hm⟩, h.below _ (hn.mem_iff.2 List.mem_cons_self), hnot, ?_⟩
  rw [← hline] at hs
  refine h.change hm (fun other => ?_) ⟨?_, hs.line, hs.busy⟩ ?_ hnodup ?_
  · rw [hp]
    split
    · rename_i he
      rw [he, hf]
    · rfl
  · have hw := hs.whole
    rw [hh, if_pos rfl] at hw
    rw [onlyOf, if_pos rfl]
    omega
  · intro other hne
    rw [hh other, if_neg (Ne.symm hne), onlyOf, if_neg hne]
    exact ⟨rfl, hline other, rfl⟩
  · intro n hmem
    rw [hc]
    exact h.below n (hn.mem_iff.2 (List.mem_cons_of_mem _ hmem))

lemma taken_up (h : Staffed models (onlyOf model) s) (hm : models.find? model = some m)
    (hh : ∀ other, s'.holders other = s.holders other + if model = other then 1 else 0)
    (hn : s'.numbers.Perm (number :: s.numbers)) (hnot : number ∉ s.numbers) (hlt : number < s.calls)
    (hp : s'.processor.permits = s.processor.permits) (hl : s'.line = s.line) (hc : s'.calls = s.calls) :
    Staffed models (fun _ => 0) s' := by
  have hline (other : String) : s'.lineOf other = s.lineOf other := by rw [lineOf, lineOf, hl]
  obtain ⟨permits, hf, hs⟩ := h.shares model m hm
  rw [← hline] at hs
  refine h.change hm (fun other => ?_) ⟨?_, hs.line, hs.busy⟩ ?_
    (hn.nodup_iff.2 (List.nodup_cons.2 ⟨hnot, h.distinct⟩)) ?_
  · rw [hp]
    split
    · rename_i he
      rw [he, hf]
    · rfl
  · have hw := hs.whole
    rw [onlyOf, if_pos rfl] at hw
    rw [hh, if_pos rfl]
    omega
  · intro other hne
    rw [hh, if_neg (Ne.symm hne), onlyOf, if_neg hne]
    exact ⟨rfl, hline other, rfl⟩
  · intro n hmem
    rw [hc]
    rcases List.mem_cons.1 (hn.mem_iff.1 hmem) with rfl | hmem
    · exact hlt
    · exact h.below n hmem

lemma drop_admitted (h : Staffed models (fun _ => 0) s) {c : Call}
    (hc : s.admitted.find? (·.number == number) = some c) :
    (∃ m, models.find? c.model = some m) ∧ number < s.calls ∧
      number ∉ ({ s with admitted := s.admitted.filter (·.number != number) } : History).numbers ∧
      Staffed models (onlyOf c.model) { s with admitted := s.admitted.filter (·.number != number) } := by
  obtain ⟨hmem, rfl⟩ := Numbered.of_find? hc
  have hperm := Numbered.perm_of_mem h.nodup_admitted hmem
  refine h.given_up ?_ ?_ rfl rfl rfl
  · intro other
    simp only [holders, hperm.countP_eq, List.countP_cons, beq_iff_eq]
    omega
  · refine (((hperm.map _).append_left _).append_right _).trans ?_
    simp only [numbers, List.map_cons, List.append_assoc, List.cons_append]
    exact List.perm_middle

lemma drop_running (h : Staffed models (fun _ => 0) s) {run : Run}
    (hr : s.processor.running.find? (·.number == number) = some run) (counts : Table RunCounts) (b : Balancer) :
    (∃ m, models.find? run.model = some m) ∧ Staffed models (onlyOf run.model) { s with
      processor := { s.processor with counts, running := s.processor.running.filter (·.number != run.number) }
      balancer := b } := by
  obtain ⟨hmem, rfl⟩ := Numbered.of_find? hr
  have hperm := Numbered.perm_of_mem h.nodup_running hmem
  let s' : History := { s with
    processor := { s.processor with counts, running := s.processor.running.filter (·.number != run.number) }
    balancer := b }
  have hholders (other : String) : s.holders other = s'.holders other + if run.model = other then 1 else 0 := by
    simp only [holders, hperm.countP_eq, List.countP_cons, beq_iff_eq, s']
    omega
  have hnumbers : s.numbers.Perm (run.number :: s'.numbers) :=
    ((hperm.map _).append_left _).trans List.perm_middle
  obtain ⟨hm, _, _, hs⟩ := h.given_up hholders hnumbers rfl rfl rfl
  exact ⟨hm, hs⟩

lemma newcomer (h : Staffed models owed s) (hn : s'.numbers.Perm (s.calls :: s.numbers))
    (hc : s'.calls = s.calls + 1) : s'.numbers.Nodup ∧ ∀ n ∈ s'.numbers, n < s'.calls := by
  have hfresh : s.calls ∉ s.numbers := fun hn => Nat.lt_irrefl _ (h.below _ hn)
  refine ⟨hn.nodup_iff.2 (List.nodup_cons.2 ⟨hfresh, h.distinct⟩), fun n hmem => ?_⟩
  rw [hc]
  rcases List.mem_cons.1 (hn.mem_iff.1 hmem) with rfl | hmem
  · exact Nat.lt_succ_self _
  · exact Nat.lt_succ_of_lt (h.below n hmem)

lemma call_waits (h : Staffed models (fun _ => 0) s) (hm : models.find? model = some m) {items : List Item}
    {permits : Permits} (hp : s.processor.permits.find? model = some permits) (hi : ¬items.isEmpty = true)
    (hf : permits.free = 0) : Staffed models (fun _ => 0) (s.call model items) := by
  obtain ⟨_, hp', hs⟩ := h.shares model m hm
  obtain rfl := Option.some.inj (hp.symm.trans hp')
  have he : s.call model items = { s with
      processor := s.processor.setPermits model { permits with line := permits.line ++ [s.calls] }
      calls := s.calls + 1, line := s.line ++ [⟨s.calls, model, items⟩] } := by
    simp only [History.call, setPermits, requestPermit, hi, hp, hf, if_true, Bool.false_eq_true, if_false]
  have hline : (s.call model items).lineOf model = s.lineOf model ++ [s.calls] := by
    rw [he]
    simp [lineOf]
  have hnumbers : (s.call model items).numbers.Perm (s.calls :: s.numbers) := by
    rw [he]
    simp only [numbers, setPermits_running, List.map_append, List.map_cons, List.map_nil,
      List.append_assoc, List.singleton_append]
    exact List.perm_middle
  have hshare : Share (max 1 m.concurrency) 0 (s.holders model) ((s.call model items).lineOf model)
      { permits with line := permits.line ++ [s.calls] } := by
    refine ⟨hs.whole, ?_, fun _ => hf⟩
    rw [hline, hs.line]
  obtain ⟨hnodup, hbelow⟩ := h.newcomer hnumbers (by rw [he])
  refine h.change hm (fun other => ?_) (by rwa [he] at hshare ⊢) (fun other hne => ?_) hnodup hbelow
  · rw [he]
    exact Table.find?_insert ..
  · rw [he]
    refine ⟨rfl, ?_, rfl⟩
    simp [lineOf, Ne.symm hne]

lemma call_granted (h : Staffed models (fun _ => 0) s) (hm : models.find? model = some m) {items : List Item}
    {permits : Permits} (hp : s.processor.permits.find? model = some permits) (hi : ¬items.isEmpty = true)
    (hf : permits.free ≠ 0) : Staffed models (fun _ => 0) (s.call model items) := by
  obtain ⟨_, hp', hs⟩ := h.shares model m hm
  obtain rfl := Option.some.inj (hp.symm.trans hp')
  have he : s.call model items = { s with
      processor := s.processor.setPermits model { permits with free := permits.free - 1 }
      calls := s.calls + 1, admitted := s.admitted ++ [⟨s.calls, model, items⟩] } := by
    simp only [History.call, setPermits, requestPermit, hi, hp, hf, Bool.false_eq_true, if_false]
  have hholders (other : String) : (s.call model items).holders other =
      s.holders other + if model = other then 1 else 0 := by
    rw [he]
    simp only [holders, setPermits_running, List.countP_append, List.countP_singleton, beq_iff_eq]
    omega
  have hnumbers : (s.call model items).numbers.Perm (s.calls :: s.numbers) := by
    rw [he]
    simp only [numbers, setPermits_running, List.map_append, List.map_cons, List.map_nil,
      ← List.append_assoc]
    rw [List.append_assoc _ [s.calls]]
    exact List.perm_middle
  have hshare : Share (max 1 m.concurrency) 0 ((s.call model items).holders model) (s.lineOf model)
      { permits with free := permits.free - 1 } := by
    refine ⟨?_, hs.line, fun hne => absurd (hs.busy hne) hf⟩
    have hw := hs.whole
    rw [hholders, if_pos rfl]
    change permits.free - 1 + _ + 0 = _
    omega
  obtain ⟨hnodup, hbelow⟩ := h.newcomer hnumbers (by rw [he])
  refine h.change hm (fun other => ?_) (by rwa [he] at hshare ⊢) (fun other hne => ?_) hnodup hbelow
  · rw [he]
    exact Table.find?_insert ..
  · rw [hholders, if_neg (Ne.symm hne), he]
    exact ⟨rfl, rfl, rfl⟩

lemma call (h : Staffed models (fun _ => 0) s) (model : String) (items : List Item) :
    Staffed models (fun _ => 0) (s.call model items) := by
  have hskip : Staffed models (fun _ => 0) { s with calls := s.calls + 1 } :=
    ⟨h.shares, h.unknown, h.distinct, fun n hn => Nat.lt_succ_of_lt (h.below n hn)⟩
  by_cases hi : items.isEmpty = true
  · simp only [History.call, requestPermit, hi, if_true]
    exact hskip
  · cases hm : models.find? model with
    | none =>
      obtain ⟨hp, _, _⟩ := h.unknown model hm
      simp only [History.call, requestPermit, hi, hp]
      exact hskip
    | some m =>
      obtain ⟨permits, hp, _⟩ := h.shares model m hm
      by_cases hf : permits.free = 0
      · exact h.call_waits hm hp hi hf
      · exact h.call_granted hm hp hi hf

lemma begins (h : Staffed models (fun _ => 0) s) (number : Nat) :
    Staffed models (fun _ => 0) (s.begins number) := by
  simp only [History.begins]
  split
  · exact h
  · rename_i c hc
    obtain ⟨⟨m, hm⟩, hlt, hnot, hs⟩ := h.drop_admitted hc
    split
    · rename_i results next p b hb
      obtain ⟨counts, rfl, rfl, _⟩ := begin_noCapacity hb
      have hs' : Staffed models (onlyOf c.model) { s with
          admitted := s.admitted.filter (·.number != number), processor := { s.processor with counts }
          balancer := b } := ⟨hs.shares, hs.unknown, hs.distinct, hs.below⟩
      exact hs'.handBack hm
    · rename_i run p b hb
      obtain ⟨_, rfl, hmodel, rfl, _⟩ := begin_begun hb
      refine hs.taken_up hm ?_ ?_ hnot hlt rfl rfl rfl
      · intro other
        simp only [holders, List.countP_append, List.countP_singleton, beq_iff_eq, hmodel]
        omega
      · simp only [numbers, List.map_append, List.map_cons, List.map_nil, ← List.append_assoc]
        exact List.perm_append_singleton ..

lemma ends (h : Staffed models (fun _ => 0) s) (number : Nat) (verdict : Verdict) :
    Staffed models (fun _ => 0) (s.ends number verdict) := by
  rw [History.ends]
  split
  · exact h
  · rename_i run hr
    obtain ⟨counts, success, hnext, hp, _⟩ := finish_eq s.processor s.balancer s.now run verdict
    obtain ⟨⟨m, hm⟩, hs⟩ := h.drop_running hr counts (s.processor.finish s.balancer s.now run verdict).2.2
    simp only [hnext, hp]
    exact hs.handBack hm

lemma leaveLine (h : Staffed models (fun _ => 0) s) {c : Call}
    (hc : s.line.find? (·.number == number) = some c) : Staffed models (fun _ => 0) { s with
      line := s.line.filter (·.number != number), processor := s.processor.leaveLine number c.model } := by
  obtain ⟨hmem, rfl⟩ := Numbered.of_find? hc
  have hin : c.number ∈ s.lineOf c.model :=
    List.mem_map.2 ⟨c, List.mem_filter.2 ⟨hmem, beq_self_eq_true _⟩, rfl⟩
  obtain ⟨m, hm⟩ := h.configured (Or.inr (List.ne_nil_of_mem hin))
  obtain ⟨permits, hp, hs⟩ := h.shares c.model m hm
  have hshare : Share (max 1 m.concurrency) 0 (s.holders c.model)
      (lineOf { s with line := s.line.filter (·.number != c.number) } c.model)
      { permits with line := permits.line.filter (· != c.number) } := by
    refine ⟨hs.whole, ?_, fun _ => hs.busy (List.ne_nil_of_mem hin)⟩
    rw [lineOf_without, hs.line]
  have hsub : (numbers { s with line := s.line.filter (·.number != c.number) }).Sublist s.numbers :=
    ((List.filter_sublist.map _).append_right _).append_right _
  refine h.change hm (fun other => ?_) hshare (fun other hne => ⟨rfl, ?_, rfl⟩) (h.distinct.sublist hsub)
    fun n hn => h.below n (hsub.subset hn)
  · simp only [Processor.leaveLine, Table.find?_modify, hp]
    split <;> rfl
  · refine (lineOf_without s c.number other).trans (List.filter_eq_self.2 fun n hn => ?_)
    exact h.other_number hmem hne hn

lemma cancelled (h : Staffed models (fun _ => 0) s) (number : Nat) :
    Staffed models (fun _ => 0) (s.cancelled number) := by
  rw [History.cancelled]
  split
  · rename_i c hc
    exact h.leaveLine hc
  · rename_i c _ hc
    obtain ⟨⟨m, hm⟩, _, _, hs⟩ := h.drop_admitted hc
    exact hs.handBack hm
  · exact h.ends number .crashed

theorem step (h : Staffed models (fun _ => 0) s) (e : Event) : Staffed models (fun _ => 0) (s.step e) := by
  cases e with
  | call model items => exact h.call model items
  | begins number => exact h.begins number
  | ends number verdict => exact h.ends number verdict
  | cancelled number => exact h.cancelled number
  | elsewhere o => exact ⟨h.shares, h.unknown, h.distinct, h.below⟩

lemma available (h : Staffed models (fun _ => 0) s) (hm : models.find? model = some m) :
    s.holders model ≤ max 1 m.concurrency ∧
      s.processor.available model = some (max 1 m.concurrency - s.holders model) := by
  obtain ⟨permits, hp, hs⟩ := h.shares model m hm
  have hw := hs.whole
  refine ⟨by omega, ?_⟩
  rw [Processor.available, hp, Option.map_some]
  congr 1
  omega

lemma nobody_waits (h : Staffed models (fun _ => 0) s) (hz : s.holders model = 0) :
    ∀ c ∈ s.line, c.model ≠ model := by
  rintro c hc rfl
  have hline : s.lineOf c.model ≠ [] :=
    List.ne_nil_of_mem (List.mem_map.2 ⟨c, List.mem_filter.2 ⟨hc, beq_self_eq_true _⟩, rfl⟩)
  obtain ⟨m, hm⟩ := h.configured (Or.inr hline)
  obtain ⟨permits, hp, hs⟩ := h.shares c.model m hm
  have hw := hs.whole
  have hfree := hs.busy hline
  omega

end Staffed

end History

end Serving.Processor
