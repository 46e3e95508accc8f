import Serving.Proofs.Processor.Answers

/-! What becomes of the calls of a run. Each call that is made is answered once, unless somebody gives it up, and never
stays where it is; and what a model's counts say of its batches is what its answers say. -/

namespace Serving

namespace Processor

open Batch

lemma release_counts (p : Processor) (model : String) : (p.release model).2.counts = p.counts := by
  simp only [release]
  split
  · rfl
  · split <;> rfl

lemma requestPermit_counts (p : Processor) (number : Nat) (model : String) (items : List Item) :
    (p.requestPermit number model items).2.counts = p.counts := by
  simp only [requestPermit]
  split
  · rfl
  · split
    · rfl
    · split <;> rfl

def countsOf (p : Processor) (model : String) : RunCounts := (p.counts.find? model).getD {}

def tally (p : Processor) (model : String) : Nat := (p.countsOf model).batches + (p.countsOf model).noCapacity

variable {p p' : Processor} {b b' : Balancer} {now : Instant} {model : String}

lemma tally_eq (h : p'.counts = p.counts) : p'.tally model = p.tally model := by simp only [tally, countsOf, h]

lemma tally_countRun (p : Processor) {f : RunCounts → RunCounts}
    (hf : ∀ c, (f c).batches + (f c).noCapacity = c.batches + c.noCapacity + 1) (other : String) :
    (p.countRun model f).tally other = p.tally other + if model = other then 1 else 0 := by
  simp only [tally, countsOf, countRun, Table.find?_insert]
  by_cases h : other = model
  · subst h
    simp only [if_true, Option.getD_some, hf]
  · simp only [if_neg h, if_neg (Ne.symm h), Nat.add_zero]

lemma counts_of_noCapacity {number : Nat} {items : List Item} {results : List (Except Error Json)} {next : Option Nat}
    (h : p.begin b now number model items = (.noCapacity results next, p', b')) :
    p'.counts = (p.countRun model fun c => { c with noCapacity := c.noCapacity + 1 }).counts := by
  simp only [begin] at h
  split at h
  · cases h
    exact release_counts ..
  · cases h

lemma tally_finish (p : Processor) (b : Balancer) (now : Instant) (run : Run) (verdict : Verdict) (other : String) :
    (p.finish b now run verdict).2.1.tally other =
      p.tally other + if run.model = other ∧ (resultOf run verdict).isSome = true then 1 else 0 := by
  simp only [finish]
  rw [tally_eq (release_counts ..)]
  split
  · rename_i hsome
    simp only [hsome, and_true]
    refine tally_countRun _ (fun c => ?_) other
    simp only [RunCounts.add]
    omega
  · rename_i hnone
    rw [if_neg fun h => hnone h.2]
    rfl

namespace History

variable {models : Table Model} {config : Balancer.Config} {dice : Nat → Float} {owed : String → Nat} {s s' : History}
  {events : List Event} {e : Event} {a : Answer} {c : Call} {r : Run} {number : Nat}

lemma underWay_passOn (h : (s.line.map (·.number)).Nodup) (next : Option Nat) :
    (s.passOn next).underWay.Perm s.underWay := by
  cases next with
  | none => exact .refl _
  | some n =>
    simp only [passOn]
    split
    · rename_i c hc
      obtain ⟨hm, rfl⟩ := Numbered.of_find? hc
      refine .append_right _ ?_
      calc s.line.filter (·.number != c.number) ++ (s.admitted ++ [c])
        _ = s.line.filter (·.number != c.number) ++ s.admitted ++ [c] := (List.append_assoc ..).symm
        List.Perm _ (c :: (s.line.filter (·.number != c.number) ++ s.admitted)) := List.perm_append_singleton ..
        List.Perm _ (s.line ++ s.admitted) := ((Numbered.perm_of_mem h hm).append_right _).symm
    · exact .refl _

lemma underWay_handBack (h : (s.line.map (·.number)).Nodup) (model : String) :
    (s.handBack model).underWay.Perm s.underWay := by
  have hr := release_running s.processor model
  rw [handBack]
  generalize s.processor.release model = released at hr
  refine (underWay_passOn ?_ _).trans ?_
  · exact h
  · simp only [underWay, hr]
    exact .refl _

lemma underWay_call (s : History) (model : String) (items : List Item) :
    ((s.answer? (.call model items)).toList.map (·.call) ++ (s.call model items).underWay).Perm
      (⟨s.calls, model, items⟩ :: s.underWay) := by
  obtain ⟨⟨admission, p⟩, hp⟩ : ∃ r, r = s.processor.requestPermit s.calls model items := ⟨_, rfl⟩
  have hr : p.running = s.processor.running :=
    (congrArg (·.2.running) hp).trans (requestPermit_running ..)
  simp only [answer?, call, ← hp]
  cases admission with
  | «over» results =>
    simp only [underWay, hr]
    exact .refl _
  | granted =>
    simp only [underWay, hr, ← List.append_assoc, Option.toList_none, List.map_nil, List.nil_append]
    rw [List.append_assoc _ [_]]
    exact List.perm_middle
  | waits =>
    simp only [underWay, hr, List.append_assoc, Option.toList_none, List.map_nil, List.nil_append]
    exact List.perm_middle

lemma call_of_begun {p p' : Processor} {b b' : Balancer} {now : Instant} {number : Nat} {model : String}
    {items : List Item} {run : Run} (h : p.begin b now number model items = (.begun run, p', b')) :
    run.call = ⟨number, model, items⟩ := by
  simp only [begin] at h
  split at h
  · cases h
  · cases h
    rfl

lemma Staffed.underWay_admitted (hs : Staffed models owed s) (hc : c ∈ s.admitted) :
    s.underWay.Perm (c :: { s with admitted := s.admitted.filter (·.number != c.number) }.underWay) :=
  (((Numbered.perm_of_mem hs.nodup_admitted hc).append_left _).trans List.perm_middle).append_right _

lemma underWay_begins (hs : Staffed models owed s) (number : Nat) :
    ((s.answer? (.begins number)).toList.map (·.call) ++ (s.begins number).underWay).Perm s.underWay := by
  simp only [answer?, begins]
  cases hc : s.admitted.find? (·.number == number) with
  | none => exact .refl _
  | some c =>
    obtain ⟨hm, rfl⟩ := Numbered.of_find? hc
    obtain ⟨⟨beginning, p, b⟩, hb⟩ : ∃ r, s.processor.begin s.balancer s.now c.number c.model c.items = r := ⟨_, rfl⟩
    simp only [Option.bind_some, hb]
    cases beginning with
    | noCapacity results next =>
      obtain ⟨_, _, rfl, _⟩ := begin_noCapacity hb
      refine .trans (.cons c ?_) (hs.underWay_admitted hm).symm
      refine (underWay_passOn ?_ next).trans ?_
      · exact hs.nodup_line
      · simp only [underWay, release_running]
        exact .refl _
    | begun run =>
      obtain ⟨_, _, _, rfl, _⟩ := begin_begun hb
      refine .trans ?_ (hs.underWay_admitted hm).symm
      simp only [underWay, Option.toList_none, List.map_nil, List.nil_append, List.map_append, List.map_cons,
        call_of_begun hb, ← List.append_assoc]
      exact List.perm_append_singleton ..

lemma underWay_ends (hs : Staffed models owed s) (hr : s.processor.running.find? (·.number == number) = some r)
    (verdict : Verdict) : (r.call :: (s.ends number verdict).underWay).Perm s.underWay := by
  obtain ⟨hm, rfl⟩ := Numbered.of_find? hr
  have hperm : s.underWay.Perm (r.call :: (s.line ++ s.admitted ++
      (s.processor.running.filter (·.number != r.number)).map (·.call))) :=
    (((Numbered.perm_of_mem hs.nodup_running hm).map _).append_left _).trans List.perm_middle
  obtain ⟨counts, _, _, hp, _⟩ := finish_eq s.processor s.balancer s.now r verdict
  simp only [ends, hr]
  refine .trans (.cons _ ?_) hperm.symm
  refine (underWay_passOn ?_ _).trans ?_
  · exact hs.nodup_line
  · simp only [underWay, hp, release_running]
    exact .refl _

lemma find?_underWay (s : History) (number : Nat) : s.underWay.find? (·.number == number) =
    ((s.line.find? (·.number == number)).or (s.admitted.find? (·.number == number))).or
      ((s.processor.running.find? (·.number == number)).map (·.call)) := by
  rw [underWay, List.find?_append, List.find?_append, List.find?_map]
  rfl

lemma underWay_cancelled (hs : Staffed models owed s) (number : Nat) :
    ((s.abandoned? (.cancelled number)).toList ++ (s.cancelled number).underWay).Perm s.underWay := by
  rw [abandoned?, find?_underWay, cancelled]
  cases hl : s.line.find? (·.number == number) with
  | some c =>
    obtain ⟨hm, rfl⟩ := Numbered.of_find? hl
    exact (((Numbered.perm_of_mem hs.nodup_line hm).append_right _).append_right _).symm
  | none =>
    cases ha : s.admitted.find? (·.number == number) with
    | some c =>
      obtain ⟨hm, rfl⟩ := Numbered.of_find? ha
      refine .trans (.cons c (underWay_handBack ?_ c.model)) (hs.underWay_admitted hm).symm
      exact hs.nodup_line
    | none =>
      cases hr : s.processor.running.find? (·.number == number) with
      | none =>
        simp only [ends, hr]
        exact .refl _
      | some r => exact underWay_ends hs hr .crashed

/-- No call is lost, and none is answered that is not under way. -/
lemma underWay_step (hs : Staffed models owed s) (e : Event) :
    ((s.answer? e).toList.map (·.call) ++ (s.abandoned? e).toList ++ (s.step e).underWay).Perm
      (s.asked e ++ s.underWay) := by
  cases e with
  | call model items =>
    simp only [abandoned?, Option.toList_none, List.append_nil]
    exact s.underWay_call model items
  | begins number =>
    simp only [abandoned?, Option.toList_none, List.append_nil]
    exact underWay_begins hs number
  | ends number verdict =>
    simp only [answer?, step]
    cases hr : s.processor.running.find? (·.number == number) with
    | none =>
      simp only [ends, hr]
      cases verdict <;> simp only [abandoned?, hr] <;> exact .refl _
    | some r =>
      have hperm := underWay_ends hs hr verdict
      cases verdict with
      | answered | failed => exact hperm
      | crashed =>
        simp only [abandoned?, hr]
        exact hperm
  | cancelled number => exact underWay_cancelled hs number
  | elsewhere o => exact .refl _

def after (s : History) (events : List Event) : History := events.foldl step s

def collect {α : Type} (f : History → Event → List α) : History → List Event → List α
  | _, [] => []
  | s, e :: events => f s e ++ collect f (s.step e) events

lemma collect_concat {α : Type} (f : History → Event → List α) (s : History) (events : List Event) (e : Event) :
    collect f s (events ++ [e]) = collect f s events ++ f (s.after events) e := by
  induction events generalizing s with
  | nil => exact List.append_nil _
  | cons e' events ih =>
    rw [List.cons_append, collect, ih, collect, List.append_assoc]
    rfl

def answers (s : History) (events : List Event) : List Answer := collect (fun s e => (s.answer? e).toList) s events

def abandoned (s : History) (events : List Event) : List Call := collect (fun s e => (s.abandoned? e).toList) s events

lemma calls_accounted (hs : Staffed models (fun _ => 0) s) (events : List Event) :
    ((s.answers events).map (·.call) ++ s.abandoned events ++ (s.after events).underWay).Perm
      (collect asked s events ++ s.underWay) := by
  induction events generalizing s with
  | nil => exact .refl _
  | cons e events ih =>
    have hstep := underWay_step hs e
    have hlater := ih (hs.step e)
    -- The answers and those given up change places with what is still under way, so each call is counted.
    classical
    simp only [List.perm_iff_count, List.count_append] at hstep hlater ⊢
    intro c
    have h₁ := hstep c
    have h₂ := hlater c
    simp only [answers, abandoned, after, collect, List.foldl_cons, List.map_append, List.count_append] at h₂ ⊢
    omega

lemma calls_passOn (s : History) (next : Option Nat) : (s.passOn next).calls = s.calls := by
  cases next with
  | none => rfl
  | some n =>
    simp only [passOn]
    split <;> rfl

lemma calls_ends (s : History) (number : Nat) (verdict : Verdict) : (s.ends number verdict).calls = s.calls := by
  simp only [ends]
  split
  · rfl
  · exact calls_passOn ..

lemma calls_step (s : History) (e : Event) : (s.step e).calls = s.calls + (s.asked e).length := by
  cases e with
  | call model items =>
    simp only [step, call]
    split <;> rfl
  | begins number =>
    simp only [step, begins]
    split
    · rfl
    · split
      · exact calls_passOn ..
      · rfl
  | ends number verdict => exact calls_ends ..
  | cancelled number =>
    simp only [step, cancelled]
    split
    · rfl
    · exact calls_passOn ..
    · exact calls_ends ..
  | elsewhere o => rfl

def made (events : List Event) : List Call := (events.filterMap Event.asks?).mapIdx fun n q => ⟨n, q.1, q.2⟩

lemma collect_asked (s : History) (events : List Event) :
    collect asked s events = (events.filterMap Event.asks?).mapIdx fun n q => ⟨s.calls + n, q.1, q.2⟩ := by
  induction events generalizing s with
  | nil => rfl
  | cons e events ih =>
    rw [collect, ih, calls_step]
    cases e with
    | call model items =>
      simp only [asked, Event.asks?, List.filterMap_cons, List.mapIdx_cons, List.length_singleton, Nat.add_assoc,
        Nat.add_comm 1]
      rfl
    | begins | ends | cancelled | elsewhere => rfl

lemma collect_asked_start (models : Table Model) (config : Balancer.Config) (dice : Nat → Float)
    (events : List Event) : collect asked (start models config dice) events = made events := by
  rw [collect_asked, made]
  congr 1
  funext n q
  exact congrArg (Call.mk · q.1 q.2) (Nat.zero_add n)

lemma tally_passOn (s : History) (next : Option Nat) (model : String) :
    (s.passOn next).processor.tally model = s.processor.tally model := by rw [(passOn_eq s next).2.2]

lemma tally_step (hn : ∀ c ∈ s.underWay, c.items ≠ []) (e : Event) (model : String) :
    (s.step e).processor.tally model = s.processor.tally model + (s.answer? e).toList.countP (·.counts model) := by
  cases e with
  | call asked items =>
    obtain ⟨⟨admission, p⟩, hp⟩ : ∃ r, r = s.processor.requestPermit s.calls asked items := ⟨_, rfl⟩
    have hcounts : p.counts = s.processor.counts := (congrArg (·.2.counts) hp).trans (requestPermit_counts ..)
    simp only [step, call, answer?, ← hp]
    cases admission with
    | «over» results =>
      simp only [Option.toList_some, List.countP_singleton, Answer.counts, Answer.hadPermit, Bool.and_false]
      exact tally_eq hcounts
    | granted | waits => exact tally_eq hcounts
  | begins number =>
    simp only [step, begins, answer?]
    cases hc : s.admitted.find? (·.number == number) with
    | none => rfl
    | some c =>
      obtain ⟨hm, rfl⟩ := Numbered.of_find? hc
      have hitems := hn c (List.mem_append_left _ (List.mem_append_right _ hm))
      obtain ⟨⟨beginning, p, b⟩, hb⟩ : ∃ r, s.processor.begin s.balancer s.now c.number c.model c.items = r := ⟨_, rfl⟩
      simp only [Option.bind_some, hb]
      cases beginning with
      | noCapacity results next =>
        simp only [tally_passOn, Option.toList_some, List.countP_singleton]
        rw [tally_eq (counts_of_noCapacity hb), tally_countRun _ fun _ => rfl]
        simp [Answer.counts, Answer.hadPermit, hitems]
      | begun run =>
        obtain ⟨_, _, _, rfl, _⟩ := begin_begun hb
        rfl
  | ends number verdict =>
    simp only [step, ends, answer?]
    cases hr : s.processor.running.find? (·.number == number) with
    | none => rfl
    | some r =>
      obtain ⟨hm, rfl⟩ := Numbered.of_find? hr
      have hitems : r.items ≠ [] := hn r.call (List.mem_append_right _ (List.mem_map_of_mem hm))
      simp only [Option.bind_some, tally_passOn, tally_finish]
      cases verdict with
      | answered | failed => simp [finish, resultOf, Answer.counts, Answer.hadPermit, hitems, Run.call]
      | crashed => simp [finish, resultOf]
  | cancelled number =>
    simp only [step, cancelled, answer?]
    split
    · rfl
    · simp only [handBack, tally_passOn]
      exact tally_eq (release_counts ..)
    · simp only [ends]
      split
      · rfl
      · simp [tally_passOn, tally_finish, resultOf]
  | elsewhere o => rfl

/-- The balancer chose the instance for a call when it began. -/
def Chosen (models : Table Model) (config : Balancer.Config) (dice : Nat → Float) (events : List Event) (c : Call)
    (target : Instance) : Prop :=
  ∃ before after, events = before ++ .begins c.number :: after ∧
    let s := run models config dice before
    (s.balancer.select s.now c.model).1 = some target

lemma Chosen.append {target : Instance} (h : Chosen models config dice events c target) (later : List Event) :
    Chosen models config dice (events ++ later) c target := by
  obtain ⟨before, after, rfl, hc⟩ := h
  exact ⟨before, after ++ later, by rw [List.append_assoc, List.cons_append], hc⟩

lemma mem_running_ends {verdict : Verdict} (hr : r ∈ (s.ends number verdict).processor.running) :
    r ∈ s.processor.running := by
  simp only [ends] at hr
  split at hr
  · exact hr
  · rename_i run _
    obtain ⟨counts, _, _, hp, _⟩ := finish_eq s.processor s.balancer s.now run verdict
    rw [(passOn_eq ..).2.2, hp, release_running] at hr
    exact List.mem_of_mem_filter hr

lemma mem_running_step (hr : r ∈ (s.step e).processor.running) :
    r ∈ s.processor.running ∨ e = .begins r.number ∧ (s.balancer.select s.now r.model).1 = some r.target := by
  cases e with
  | call model items =>
    refine .inl ?_
    have hrunning := requestPermit_running s.processor s.calls model items
    simp only [step, call] at hr
    split at hr <;> exact hrunning ▸ hr
  | begins number =>
    simp only [step, begins] at hr
    split at hr
    · exact .inl hr
    · rename_i c hc
      split at hr
      · rename_i results next p b hb
        obtain ⟨_, _, rfl, _⟩ := begin_noCapacity hb
        rw [(passOn_eq _ next).2.2, release_running] at hr
        exact .inl hr
      · rename_i run p b hb
        obtain ⟨hchosen, hnumber, hmodel, rfl, _⟩ := begin_begun hb
        rcases List.mem_append.1 hr with hr | hr
        · exact .inl hr
        · obtain rfl := List.mem_singleton.1 hr
          exact .inr ⟨congrArg _ hnumber.symm, hmodel ▸ hchosen⟩
  | ends number verdict => exact .inl (mem_running_ends hr)
  | cancelled number =>
    simp only [step, cancelled] at hr
    split at hr
    · exact .inl hr
    · rw [handBack, (passOn_eq ..).2.2, release_running] at hr
      exact .inl hr
    · exact .inl (mem_running_ends hr)
  | elsewhere o => exact .inl hr

/-- What is known of the calls that are under way: they have items, and each batch executes on the instance that the
balancer chose when it began. -/
structure Kept (models : Table Model) (config : Balancer.Config) (dice : Nat → Float) (events : List Event) :
    Prop where
  staffed : Staffed models (fun _ => 0) (run models config dice events)
  items : ∀ c ∈ (run models config dice events).underWay, c.items ≠ []
  chosen : ∀ r ∈ (run models config dice events).processor.running, Chosen models config dice events r.call r.target

lemma items_step (hs : Staffed models owed s) (hn : ∀ c ∈ s.underWay, c.items ≠ []) (e : Event) :
    ∀ c ∈ (s.step e).underWay, c.items ≠ [] := by
  intro c hc
  have hmem := (underWay_step hs e).subset (List.mem_append_right _ hc)
  rcases List.mem_append.1 hmem with hasked | hold
  · cases e with
    | call model items =>
      rcases eq_or_ne items [] with rfl | hitems
      · exact hn c hc
      · exact List.mem_singleton.1 hasked ▸ hitems
    | begins | ends | cancelled | elsewhere => cases hasked
  · exact hn c hold

theorem kept (models : Table Model) (config : Balancer.Config) (dice : Nat → Float) (events : List Event) :
    Kept models config dice events := by
  induction events using List.reverseRecOn with
  | nil => exact ⟨.start models config dice, nofun, nofun⟩
  | append_singleton events e ih =>
    have hstep := run_append models config dice events e
    refine ⟨?_, ?_, ?_⟩
    · rw [hstep]
      exact ih.staffed.step e
    · rw [hstep]
      exact items_step ih.staffed ih.items e
    · intro r hr
      rw [hstep] at hr
      rcases mem_running_step hr with hr | ⟨rfl, hc⟩
      · exact (ih.chosen r hr).append _
      · exact ⟨events, [], rfl, hc⟩

lemma Kept.refused_iff (h : Kept models config dice events)
    (ha : Answered (run models config dice events) e a) :
    a.fate = .refused ↔ a.call.items = [] ∨ models.find? a.call.model = none := by
  have hadmitted (hne : a.call.items ≠ []) (hm : ∃ m, models.find? a.call.model = some m) :
      ¬(a.call.items = [] ∨ models.find? a.call.model = none) := by
    obtain ⟨m, hm⟩ := hm
    rw [hm]
    exact fun hno => hno.elim hne nofun
  cases ha with
  | @refused model items _ hno =>
    refine ⟨fun _ => hno.imp_right fun hnone => ?_, fun _ => rfl⟩
    cases hm : models.find? model with
    | none => rfl
    | some m =>
      obtain ⟨permits, hp, _⟩ := h.staffed.shares model m hm
      rw [hp] at hnone
      cases hnone
  | unserved hc _ =>
    obtain ⟨hm, _⟩ := h.staffed.drop_admitted hc
    obtain ⟨hmem, _⟩ := Numbered.of_find? hc
    have hitems := h.items _ (List.mem_append_left _ (List.mem_append_right _ hmem))
    exact ⟨nofun, fun hno => absurd hno (hadmitted hitems hm)⟩
  | executed hr _ =>
    obtain ⟨hm, _⟩ := h.staffed.drop_running hr ∅ (run models config dice events).balancer
    obtain ⟨hmem, _⟩ := Numbered.of_find? hr
    have hitems := h.items _ (List.mem_append_right _ (List.mem_map_of_mem hmem))
    exact ⟨nofun, fun hno => absurd hno (hadmitted hitems hm)⟩

/-- No call stays where it is: it is answered or gets further. -/
structure Proceeds (s : History) : Prop where
  calls : ∀ model items, (∃ a, s.answer? (.call model items) = some a ∧ a.call = ⟨s.calls, model, items⟩) ∨
    ⟨s.calls, model, items⟩ ∈ (s.step (.call model items)).line ++ (s.step (.call model items)).admitted
  line : ∀ c ∈ s.line, s.holders c.model ≠ 0
  begins : ∀ c ∈ s.admitted, (∃ a, s.answer? (.begins c.number) = some a ∧ a.call = c) ∨
    ∃ r ∈ (s.step (.begins c.number)).processor.running, r.call = c
  ends : ∀ r ∈ s.processor.running, ∀ verdict, verdict ≠ .crashed →
    ∃ results, s.answer? (.ends r.number verdict) = some ⟨r.call, .executed r.target verdict, results⟩

lemma proceeds_of_staffed (h : Staffed models (fun _ => 0) s) : s.Proceeds where
  calls model items := by
    simp only [answer?, step, call]
    cases (s.processor.requestPermit s.calls model items).1 with
    | «over» results => exact .inl ⟨_, rfl, rfl⟩
    | granted => exact .inr (by simp)
    | waits => exact .inr (by simp)
  line c hc hz := h.nobody_waits hz c hc rfl
  begins c hc := by
    simp only [answer?, step, begins, Numbered.find?_of_mem h.nodup_admitted hc, Option.bind_some]
    obtain ⟨⟨beginning, p, b⟩, hb⟩ : ∃ r, s.processor.begin s.balancer s.now c.number c.model c.items = r := ⟨_, rfl⟩
    simp only [hb]
    cases beginning with
    | noCapacity results next => exact .inl ⟨_, rfl, rfl⟩
    | begun run =>
      obtain ⟨_, _, _, rfl, _⟩ := begin_begun hb
      exact .inr ⟨run, by simp, call_of_begun hb⟩
  ends r hr verdict hv := by
    simp only [answer?, Numbered.find?_of_mem h.nodup_running hr, Option.bind_some]
    cases verdict with
    | answered | failed => exact ⟨_, rfl⟩
    | crashed => exact absurd rfl hv

lemma tally_run (models : Table Model) (config : Balancer.Config) (dice : Nat → Float) (events : List Event)
    (model : String) : (run models config dice events).processor.tally model =
      ((start models config dice).answers events).countP (·.counts model) := by
  induction events using List.reverseRecOn with
  | nil => rfl
  | append_singleton events e ih =>
    rw [run_append, tally_step (kept models config dice events).items, ih, answers, answers, collect_concat,
      List.countP_append]
    rfl

/-- In every run each call that is made is answered once, is given up once, or is under way and proceeds. Whatever
answer comes next has one result for each item, which are the executor's own or all the same error; the instance that
the balancer chose for the call is charged with one success or one failure, and nobody if the executor was not asked;
and the call was refused just in case it had no items or its model is not known. The batches and the batches without an
instance that are counted for a model are as many as the answers to calls of the model that had items and a permit. -/
theorem batches_fail_as_a_whole (models : Table Model) (config : Balancer.Config) (dice : Nat → Float)
    (events : List Event) :
    let first := start models config dice
    let s := run models config dice events
    ((first.answers events).map (·.call) ++ first.abandoned events ++ s.underWay).Perm (made events) ∧ s.Proceeds ∧
    (∀ e a, s.answer? e = some a →
      a.Whole ∧ a.Charge s.balancer (s.step e).balancer s.now ∧
      (∀ target verdict, a.fate = .executed target verdict → Chosen models config dice events a.call target) ∧
      (a.fate = .refused ↔ a.call.items = [] ∨ models.find? a.call.model = none)) ∧
    ∀ model, (s.processor.countsOf model).batches + (s.processor.countsOf model).noCapacity =
      (first.answers events).countP (·.counts model) := by
  intro first s
  have h := kept models config dice events
  refine ⟨?_, proceeds_of_staffed h.staffed, fun e a ha => ?_, tally_run models config dice events⟩
  · have hperm := calls_accounted (.start models config dice) events
    have hnone : (start models config dice).underWay = [] := rfl
    rwa [collect_asked_start, hnone, List.append_nil] at hperm
  · have hanswered := answered ha
    refine ⟨hanswered.whole, hanswered.charge, fun target verdict hf => ?_, h.refused_iff hanswered⟩
    obtain ⟨r, hr, hcall, rfl⟩ := hanswered.exists_run hf
    exact hcall ▸ h.chosen r hr

def healthyInstance : Instance :=
  { id := "a", service := "chat", host := "localhost", port := 1, health := .healthy }

def underExecution : List Event :=
  [.elsewhere (.register healthyInstance), .call "chat" [⟨"x", .null⟩, ⟨"y", .null⟩], .begins 0]

/-- An item that fails by itself neither spoils the others nor counts against the instance. -/
theorem batches_fail_as_a_whole_but_for_items :
    let s := run alone {} (fun _ => 0.0) underExecution
    let e := Event.ends 0 (.answered [⟨"x", .ok .null⟩, ⟨"y", .error .shuttingDown⟩])
    ∃ a, s.answer? e = some a ∧ a.results = [.ok .null, .error .shuttingDown] ∧
      ∃ took, s.balancer.Charged (s.step e).balancer s.now "a" true took := by
  intro s e
  obtain ⟨a, ha, hf, hids⟩ : ∃ a, s.answer? e = some a ∧
      a.fate = .executed healthyInstance (.answered [⟨"x", .ok .null⟩, ⟨"y", .error .shuttingDown⟩]) ∧
      a.call.items.map (·.id) = ["x", "y"] := ⟨_, rfl, rfl, rfl⟩
  have hitemized : a.Itemized [⟨"x", .ok .null⟩, ⟨"y", .error .shuttingDown⟩] := ⟨⟨_, hf⟩, hids.symm⟩
  obtain ⟨hwhole, hcharge, _⟩ := (batches_fail_as_a_whole alone {} (fun _ => 0.0) underExecution).2.2.1 e a ha
  rw [Answer.Charge, hf] at hcharge
  obtain ⟨success, took, hsuccess, hcharged⟩ := hcharge
  obtain rfl := hsuccess.2 ⟨_, hitemized⟩
  exact ⟨a, ha, hwhole.own _ hitemized, took, hcharged⟩

end History

end Processor

end Serving
