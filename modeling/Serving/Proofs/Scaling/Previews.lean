import Serving.Proofs.Scaling.Cooldowns

/-! Evaluations for show. What is decided does not depend on whether it is to be carried out. All that an evaluation
for show leaves behind is a record without the samples that have outlived the window, and every later evaluation
would have dropped those as well; so as long as the policies stay, evaluations for show can be put anywhere into a
run, and it decides and does what it does without them. -/

namespace Serving.Scaling

lemma dropWhile_dropWhile {α : Type} {p q : α → Bool} (h : ∀ a, p a = true → q a = true) (l : List α) :
    (l.dropWhile p).dropWhile q = l.dropWhile q := by
  induction l with
  | nil => rfl
  | cons a l ih =>
    cases hp : p a with
    | true => rw [List.dropWhile_cons_of_pos hp, List.dropWhile_cons_of_pos (h a hp), ih]
    | false => rw [List.dropWhile_cons_of_neg (by simp [hp])]

lemma Record.prune_prune (r : Record) {now later : Instant} (h : now ≤ later) (window : Duration) :
    (r.prune now window).prune later window = r.prune later window := by
  have hold (a : Sample) : decide (window < now - a.time) = true → decide (window < later - a.time) = true := by
    simp only [decide_eq_true_eq, Instant, Duration] at *
    omega
  rw [prune, prune, prune, dropWhile_dropWhile hold]

namespace Fleet

variable {s t u : Fleet} {now : Instant}

/-- Fleets with different samples, which no evaluation from a time on tells apart. -/
structure Alike (now : Instant) (s t : Fleet) : Prop where
  rest : ∃ records, t = { s with records }
  times : ∀ service, (t.record service).times = (s.record service).times
  samples : ∀ service p, s.policy service = some p → ∀ later, now ≤ later →
    (t.record service).prune later p.window = (s.record service).prune later p.window

namespace Alike

lemma refl (now : Instant) (s : Fleet) : s.Alike now s := ⟨⟨_, rfl⟩, fun _ => rfl, fun _ _ _ _ _ => rfl⟩

lemma policy (h : s.Alike now t) (service : String) : t.policy service = s.policy service := by
  obtain ⟨records, rfl⟩ := h.rest
  rfl

lemma trans (h : s.Alike now t) (h' : t.Alike now u) : s.Alike now u where
  rest := by
    obtain ⟨records, rfl⟩ := h.rest
    obtain ⟨records', rfl⟩ := h'.rest
    exact ⟨records', rfl⟩
  times service := (h'.times service).trans (h.times service)
  samples service p hp later hl :=
    (h'.samples service p ((h.policy service).trans hp) later hl).trans (h.samples service p hp later hl)

/-- What is done to both and leaves the records and the policies alone keeps them alike. -/
lemma change (h : s.Alike now t) {s' t' : Fleet} {now' : Instant} (hn : now ≤ now')
    (hrest : ∃ records, t' = { s' with records }) (hs : s'.records = s.records) (ht : t'.records = t.records)
    (hp : ∀ service, s'.policy service = s.policy service) : s'.Alike now' t' where
  rest := hrest
  times service := by
    simp only [record, hs, ht]
    exact h.times service
  samples service p hpolicy later hl := by
    simp only [record, hs, ht]
    exact h.samples service p (by rw [← hp, hpolicy]) later (Nat.le_trans hn hl)

end Alike

lemma alike_insert {R R' : Table Record} (h : Alike now { s with records := R } { s with records := R' })
    (service : String) (r : Record) :
    Alike now { s with records := R.insert service r } { s with records := R'.insert service r } where
  rest := ⟨_, rfl⟩
  times other := by
    have hother := h.times other
    simp only [record, Table.find?_insert] at hother ⊢
    split
    · rfl
    · exact hother
  samples other p hp later hl := by
    have hother := h.samples other p hp later hl
    simp only [record, Table.find?_insert] at hother ⊢
    split
    · rfl
    · exact hother

/-- Alike fleets come to the same decision, and remain alike whether or not it is carried out. -/
lemma Alike.decide (h : s.Alike now t) (service : String) (isFinal : Bool) :
    (t.decide service now isFinal).1 = (s.decide service now isFinal).1 ∧
      (s.decide service now isFinal).2.Alike now (t.decide service now isFinal).2 := by
  obtain ⟨records, rfl⟩ := h.rest
  have hpolicy : { s with records }.policy service = s.policy service := rfl
  have hsample : { s with records }.sample service now = s.sample service now := rfl
  have hactive : { s with records }.activeCount service = s.activeCount service := rfl
  rw [Fleet.decide, Fleet.decide, hpolicy]
  cases hp : s.policy service with
  | none => exact ⟨rfl, h⟩
  | some p =>
    -- What was kept by the one record alone has outlived the window.
    have hkept := h.samples service p hp now (Nat.le_refl now)
    dsimp only
    rw [hkept, hsample, hactive]
    exact ⟨rfl, alike_insert h service _⟩

lemma alike_decide (s : Fleet) (service : String) (now : Instant) :
    s.Alike now (s.decide service now false).2 := by
  rw [Fleet.decide]
  cases hp : s.policy service with
  | none => exact .refl now s
  | some p =>
    refine ⟨⟨_, rfl⟩, fun other => ?_, fun other p' hp' later hl => ?_⟩ <;>
      simp only [record, Table.find?_insert, Bool.false_eq_true, if_false]
    · split
      · subst_vars
        rfl
      · rfl
    · split
      · subst_vars
        rw [hp] at hp'
        obtain rfl := Option.some.inj hp'
        exact (s.record other).prune_prune hl p.window
      · rfl

/-- Operations that have come equally far, with fleets that are alike. -/
inductive Abreast (now : Instant) : Operation Step → Operation Step → Prop
  | done {f f' : Fleet} (step : Step) (h : f.Alike now f') : Abreast now (.done step f) (.done step f')
  | call {f f' : Fleet} (service : String) (resume : Except Error Instance → Fleet → Instant → Operation Step)
      (h : f.Alike now f') : Abreast now (.call service f resume) (.call service f' resume)

namespace Alike

lemma evaluateAndScale (h : s.Alike now t) (service : String) :
    Abreast now (s.evaluateAndScale service now) (t.evaluateAndScale service now) := by
  obtain ⟨hd, ha⟩ := h.decide service true
  rw [Fleet.evaluateAndScale, Fleet.evaluateAndScale]
  generalize t.decide service now true = b at hd ha ⊢
  generalize s.decide service now true = a at hd ha ⊢
  obtain ⟨d, f⟩ := a
  obtain ⟨d', f'⟩ := b
  dsimp only at hd ha ⊢
  subst hd
  obtain ⟨records, rfl⟩ := ha.rest
  cases d' with
  | none => exact .done _ ha
  | up asked reason =>
    dsimp only
    rw [scaleUp_eq, scaleUp_eq]
    exact .call asked _ ha
  | down asked reason =>
    have hvictim : { f with records }.victim? asked = f.victim? asked := rfl
    dsimp only [scaleDown]
    rw [hvictim]
    cases f.victim? asked with
    | none => exact .done _ ha
    | some v => exact .done _ (ha.change (Nat.le_refl now) ⟨_, rfl⟩ rfl rfl fun _ => rfl)

lemma takeIn (h : s.Alike now t) (d : Decision) (service : String) (reason : Reason) (before : Nat)
    (made : Except Error Instance) :
    Abreast now (Fleet.takeIn d service reason before made s now)
      (Fleet.takeIn d service reason before made t now) := by
  obtain ⟨records, rfl⟩ := h.rest
  cases made with
  | error e => exact .done _ h
  | ok i => exact .done _ (h.change (Nat.le_refl now) ⟨_, rfl⟩ rfl rfl fun _ => rfl)

lemma finishStart (h : s.Alike now t) (id : String) : (s.finishStart id).Alike now (t.finishStart id) := by
  obtain ⟨records, rfl⟩ := h.rest
  simp only [Fleet.finishStart]
  split
  · exact h
  · have hfind : ({ s with records } : Fleet).balancer.instance? id = s.balancer.instance? id := rfl
    split
    · exact h.change (Nat.le_refl now) ⟨records, rfl⟩ rfl rfl fun _ => rfl
    · exact h

end Alike

/-- An evaluation that is carried out ends with a decision, or with the error of the provisioner. -/
def EndsWith (d : Decision) : Operation Step → Prop
  | .done step _ => step.outcome = .ok d
  | .call _ _ resume => ∀ (made : Except Error Instance) (u : Fleet) (later : Instant),
    ∃ step v, resume made u later = .done step v ∧ step.outcome = made.map fun _ => d

lemma evaluate_fst (s : Fleet) (service : String) (now : Instant) :
    (s.evaluate service now).1 = (s.decide service now true).1 := by
  rw [evaluate, Fleet.decide, Fleet.decide]
  cases s.policy service <;> rfl

lemma endsWith_evaluate (s : Fleet) (service : String) (now : Instant) :
    EndsWith (s.evaluate service now).1 (s.evaluateAndScale service now) := by
  rw [evaluate_fst]
  have hc := s.conducted service now
  generalize s.evaluateAndScale service now = operation at hc ⊢
  cases hc with
  | rests decided | misses decided | retires decided =>
    rw [decided]
    rfl
  | asks decided =>
    rw [decided]
    intro made u later
    cases made <;> exact ⟨_, _, rfl, rfl⟩

end Fleet

def Move.isUpdate : Move → Bool
  | .updatePolicy _ _ | .updateConfig _ => true
  | _ => false

namespace History

variable {π : Type} {provisioner : Provisioner π} {s s' : History π} {m : Move}

/-- Runs that have come equally far, with fleets that are alike. -/
structure Alike (s s' : History π) : Prop where
  rest : ∃ fleet, s' = { s with fleet }
  fleet : s.fleet.Alike s.now s'.fleet

def KeepsPolicies (provisioner : Provisioner π) (s : History π) (m : Move) : Prop :=
  ∀ service, (s.step provisioner m).fleet.policy service = s.fleet.policy service

lemma keepsPolicies (hw : ∀ c ∈ s.calls, c.Waits) (hm : m.isUpdate = false) : s.KeepsPolicies provisioner m := by
  intro service
  have ht : Turn provisioner s m (s.step provisioner m) := turn hw m
  generalize s.step provisioner m = t at ht
  cases ht with
  | governs | replaces => cases hm
  | shows decided | rests decided | misses decided | retires decided | asks decided =>
    obtain ⟨records, rfl⟩ := (Fleet.judged_of_decide decided).records
    rfl
  | starts =>
    simp only [Fleet.finishStart]
    split <;> try rfl
    split <;> rfl
  | nothing | fails | joins | drops | removes | probes | balances | stops => rfl

/-- A run without updates keeps its policies. -/
lemma throughout_keepsPolicies {moves : List Move} (hw : ∀ c ∈ s.calls, c.Waits)
    (hm : moves.all (!·.isUpdate) = true) : Throughout provisioner (KeepsPolicies provisioner) s moves := by
  induction moves generalizing s with
  | nil => trivial
  | cons m moves ih =>
    rw [List.all_cons, Bool.and_eq_true, Bool.not_eq_true'] at hm
    exact ⟨keepsPolicies hw hm.1, ih ((turn hw m).waits hw) hm.2⟩

namespace Alike

lemma follow {f f' : Operation Fleet.Step} (h : Fleet.Abreast s.now f f') (fleet : Fleet) (policy : Option Policy)
    (updates : ℕ) : Alike (s.follow policy updates f) ({ s with fleet }.follow policy updates f') := by
  cases h with
  | done step h => exact ⟨⟨_, rfl⟩, h⟩
  | call service resume h => exact ⟨⟨_, rfl⟩, h⟩

lemma finish (h : s.Alike s') (task : ℕ) : Alike (s.finish provisioner task) (s'.finish provisioner task) := by
  obtain ⟨⟨fleet, rfl⟩, hf⟩ := h
  simp only [History.finish]
  cases s.pending[task]? with
  | none => exact ⟨⟨fleet, rfl⟩, hf⟩
  | some e =>
    obtain ⟨due, later⟩ := e
    dsimp only
    split
    · cases later with
      | started id => exact ⟨⟨_, rfl⟩, hf.finishStart id⟩
      | retired v =>
        obtain ⟨records, rfl⟩ := hf.rest
        simp only [Fleet.finishRetirement]
        split
        · exact ⟨⟨_, rfl⟩, hf⟩
        · exact ⟨⟨_, rfl⟩, hf.change (Nat.le_refl _) ⟨records, rfl⟩ rfl rfl fun _ => rfl⟩
    · exact ⟨⟨fleet, rfl⟩, hf⟩

lemma answer (h : s.Alike s') (hw : ∀ c ∈ s.calls, c.Waits) (call : ℕ) :
    Alike (s.answer provisioner call) (s'.answer provisioner call) := by
  obtain ⟨⟨fleet, rfl⟩, hf⟩ := h
  simp only [History.answer]
  cases hc : s.calls[call]? with
  | none => exact ⟨⟨fleet, rfl⟩, hf⟩
  | some c =>
    obtain ⟨d, reason, before, hresume⟩ := hw c (List.mem_of_getElem? hc)
    simp only [hresume]
    exact follow (s := { s with ports := _, calls := s.calls.eraseIdx call })
      (hf.takeIn d c.service reason before _) fleet c.policy c.updates

/-- An update that answers both alike and gives neither another policy. -/
lemma update (h : s.Alike s') (change : Fleet → Except Error Unit × Fleet)
    (hc : ∀ f records, change { f with records } = ((change f).1, { (change f).2 with records }))
    (hr : (change s.fleet).2.records = s.fleet.records)
    (hp : ∀ service, (s.update (change s.fleet)).fleet.policy service = s.fleet.policy service) :
    Alike (s.update (change s.fleet)) (s'.update (change s'.fleet)) := by
  obtain ⟨⟨fleet, rfl⟩, hf⟩ := h
  obtain ⟨records, rfl⟩ := hf.rest
  have hsame : change { s.fleet with records } = _ := hc s.fleet records
  dsimp only
  rw [hsame]
  generalize change s.fleet = r at hr hp ⊢
  obtain ⟨answer, f⟩ := r
  cases answer <;> exact ⟨⟨_, rfl⟩, hf.change (Nat.le_refl _) ⟨records, rfl⟩ hr rfl hp⟩

theorem step (h : s.Alike s') (hw : ∀ c ∈ s.calls, c.Waits) (hk : s.KeepsPolicies provisioner m) :
    Alike (s.step provisioner m) (s'.step provisioner m) := by
  have h' := h
  obtain ⟨⟨fleet, rfl⟩, hf⟩ := h'
  obtain ⟨records, rfl⟩ := hf.rest
  cases m with
  | evaluate service => exact ⟨⟨_, rfl⟩, (hf.decide service false).2⟩
  | evaluateAndScale service =>
    exact follow (hf.evaluateAndScale service) _ (s.fleet.policy service) s.updates
  | answer call => exact h.answer hw call
  | finish task => exact h.finish task
  | updatePolicy service p =>
    refine h.update (·.updatePolicy service p) (fun f records => ?_) ?_ hk <;>
      simp only [Fleet.updatePolicy] <;> split <;> rfl
  | updateConfig config =>
    refine h.update (·.updateConfig config) (fun f records => ?_) ?_ hk <;>
      simp only [Fleet.updateConfig] <;> split <;> rfl
  | probeAll probe => exact ⟨⟨_, rfl⟩, hf.change (Nat.le_refl _) ⟨records, rfl⟩ rfl rfl fun _ => rfl⟩
  | balance o => exact ⟨⟨_, rfl⟩, hf.change (Nat.le_add_right _ _) ⟨records, rfl⟩ rfl rfl fun _ => rfl⟩
  | stop => exact ⟨⟨_, rfl⟩, hf.change (Nat.le_refl _) ⟨records, rfl⟩ rfl rfl fun _ => rfl⟩

/-- An evaluation for show puts a run that is like another one no further off it. -/
lemma preview (h : s.Alike s') (service : String) : s.Alike (s'.step provisioner (.evaluate service)) := by
  obtain ⟨⟨fleet, rfl⟩, hf⟩ := h
  exact ⟨⟨_, rfl⟩, hf.trans (fleet.alike_decide service s.now)⟩

lemma decided? (h : s.Alike s') (m : Move) : s'.decided? m = s.decided? m := by
  obtain ⟨⟨fleet, rfl⟩, hf⟩ := h
  cases m with
  | evaluateAndScale service =>
    have hd := (hf.decide service true).1
    obtain ⟨records, rfl⟩ := hf.rest
    rw [History.decided?, hd]
    rfl
  | evaluate | answer | finish | updatePolicy | updateConfig | probeAll | balance | stop => rfl

end Alike

/-- The moves of a run with evaluations for show put in. -/
inductive Interspersed : List Move → List Move → Prop
  | nil : Interspersed [] []
  | cons (m : Move) {moves moves' : List Move} (h : Interspersed moves moves') :
    Interspersed (m :: moves) (m :: moves')
  | preview (service : String) {moves moves' : List Move} (h : Interspersed moves moves') :
    Interspersed moves (.evaluate service :: moves')

lemma Alike.run {moves moves' : List Move} (h : s.Alike s') (hw : ∀ c ∈ s.calls, c.Waits)
    (hi : Interspersed moves moves') (hk : Throughout provisioner (KeepsPolicies provisioner) s moves) :
    (s.run provisioner moves).Alike (s'.run provisioner moves') ∧
      decisions provisioner s' moves' = decisions provisioner s moves := by
  induction hi generalizing s s' with
  | nil => exact ⟨h, rfl⟩
  | cons m hi ih =>
    obtain ⟨hrun, hdecisions⟩ := ih (h.step hw hk.1) ((turn hw m).waits hw) hk.2
    rw [decisions, decisions, h.decided?, hdecisions]
    exact ⟨hrun, rfl⟩
  | preview service hi ih => exact ih (h.preview service) hw hk

/-- Two runs have the same instances, the same steps behind them and the same cool-downs to wait for, and decide
the same from here on. -/
structure Agree (s s' : History π) : Prop where
  instances : s'.fleet.balancer = s.fleet.balancer
  events : s'.fleet.history = s.fleet.history
  cooldowns : ∀ service, (s'.fleet.record service).times = (s.fleet.record service).times
  decisions : ∀ service, (s'.fleet.evaluate service s'.now).1 = (s.fleet.evaluate service s.now).1
  waiting : s'.calls = s.calls ∧ s'.pending = s.pending
  outside : s'.ports = s.ports ∧ s'.now = s.now

lemma Alike.agree (h : s.Alike s') : s.Agree s' := by
  obtain ⟨⟨fleet, rfl⟩, hf⟩ := h
  have hd (service : String) := (hf.decide service false).1
  have htimes := hf.times
  obtain ⟨records, rfl⟩ := hf.rest
  exact ⟨rfl, rfl, htimes, hd, ⟨rfl, rfl⟩, rfl, rfl⟩

/-- Whatever the fleet, the policy and the time, an evaluation for show decides what an evaluation that is carried
out would decide then; and with evaluations for show put in anywhere, a run under lasting policies comes to the same
decisions, the same instances, the same history and the same cool-downs. -/
theorem previews_leave_no_trace (provisioner : Provisioner π) :
    (∀ (s : Fleet) (service : String) (now : Instant),
      Fleet.EndsWith (s.evaluate service now).1 (s.evaluateAndScale service now)) ∧
    ∀ (config : Config) (b : Balancer.History) (ports : π) (moves moves' : List Move), Interspersed moves moves' →
      Throughout provisioner (KeepsPolicies provisioner) (start config b ports) moves →
      decisions provisioner (start config b ports) moves' = decisions provisioner (start config b ports) moves ∧
        Agree ((start config b ports).run provisioner moves) ((start config b ports).run provisioner moves') := by
  refine ⟨Fleet.endsWith_evaluate, fun config b ports moves moves' hi hk => ?_⟩
  have halike : (start config b ports).Alike (start config b ports) := ⟨⟨_, rfl⟩, .refl _ _⟩
  obtain ⟨hrun, hdecisions⟩ := halike.run nofun hi hk
  exact ⟨hdecisions, hrun.agree⟩

def soloConfig : Config where
  policies := .ofList [("chat", { minInstances := 1, maxInstances := 3, window := 5 })]

/-- A busy instance gets company, and is retired when it has nothing to do any more. -/
def busyThenIdle : List Move :=
  [.balance (.register { id := "a", service := "chat", host := "localhost", port := 1, health := .healthy }),
    .balance (.updateResources "a" 95.0 95.0), .evaluateAndScale "chat", .answer 0, .balance (.timePasses 10),
    .balance (.updateResources "a" 5.0 5.0), .evaluateAndScale "chat"]

/-- By the second evaluation for show the sample of the busy time is old enough to be dropped. -/
theorem previews_leave_no_trace_between :
    let s := start soloConfig (.run {} (fun _ => 0.0) []) (.usual 1.0)
    let moves' := .evaluate "chat" :: busyThenIdle.take 5 ++
      [.evaluate "chat", .evaluate "other"] ++ busyThenIdle.drop 5
    Interspersed busyThenIdle moves' ∧
      (decisions Ports.provisioner s moves').map (fun e => (e.decision.isUp, e.decision.isDown)) =
        [(true, false), (false, true)] ∧
      Agree (s.run Ports.provisioner busyThenIdle) (s.run Ports.provisioner moves') := by
  intro s moves'
  have hi : Interspersed busyThenIdle moves' :=
    .preview _ (.cons _ (.cons _ (.cons _ (.cons _ (.cons _
      (.preview _ (.preview _ (.cons _ (.cons _ .nil)))))))))
  have hk : Throughout Ports.provisioner (KeepsPolicies Ports.provisioner) s busyThenIdle :=
    throughout_keepsPolicies nofun rfl
  have hd : (decisions Ports.provisioner s busyThenIdle).map (fun e => (e.decision.isUp, e.decision.isDown)) =
      [(true, false), (false, true)] := by
    decide +kernel
  obtain ⟨hdecisions, hagree⟩ := (previews_leave_no_trace Ports.provisioner).2 soloConfig
    (.run {} (fun _ => 0.0) []) (.usual 1.0) busyThenIdle moves' hi hk
  refine ⟨hi, ?_, hagree⟩
  rw [hdecisions]
  exact hd

end History

end Serving.Scaling
