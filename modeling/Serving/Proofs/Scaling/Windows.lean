import Mathlib.Data.List.TakeWhile
import Serving.Proofs.Scaling.Previews

/-! What an evaluation looks back on. Samples are taken in order of time, are dropped from the front only and whenever
somebody evaluates; so what is left at an evaluation is, under a lasting policy, exactly what was taken within the
window that ends there, whoever evaluated for show in between. -/

namespace Serving.Scaling

lemma dropWhile_eq_filter {α : Type} {p : α → Bool} {l : List α}
    (h : l.Pairwise fun a b => p b = true → p a = true) : l.dropWhile p = l.filter fun a => !p a := by
  induction l with
  | nil => rfl
  | cons a l ih =>
    obtain ⟨ha, hl⟩ := List.pairwise_cons.1 h
    cases hp : p a with
    | true =>
      rw [List.dropWhile_cons_of_pos hp, List.filter_cons_of_neg (by simp [hp])]
      exact ih hl
    | false =>
      rw [List.dropWhile_cons_of_neg (by simp [hp]), eq_comm, List.filter_eq_self]
      intro b hb
      rcases List.mem_cons.1 hb with rfl | hb
      · simp [hp]
      · cases hpb : p b with
        | true => exact absurd (ha b hb hpb) (by simp [hp])
        | false => rfl

def Sample.isRecent (now : Instant) (window : Duration) (x : Sample) : Bool :=
  decide (now - window ≤ x.time ∧ x.time ≤ now)

lemma Sample.isRecent_eq {now : Instant} {x : Sample} (h : x.time ≤ now) (window : Duration) :
    x.isRecent now window = !decide (window < now - x.time) := by
  rw [isRecent, ← decide_not, decide_eq_decide]
  simp only [Instant, Duration] at *
  omega

lemma Policy.decision_of_no_samples {p : Policy} {service : String} {active : Nat} {r : Record} {now : Instant}
    (h : p.minInstances ≤ active) : p.decision service active (Load.ofSamples []) r now = .none :=
  if_neg (Nat.not_lt.2 h)

namespace Fleet

variable {s t : Fleet} {service asked : String} {now : Instant} {isFinal : Bool} {d : Decision} {p : Policy}

lemma decide_of_policy (hp : s.policy service = some p) (isFinal : Bool) : (s.decide service now isFinal).1 =
    p.decision service (s.activeCount service)
      (Load.ofSamples (((s.record service).prune now p.window).samples ++ (s.sample service now).toList))
      (s.record service) now := by
  rw [decide, hp]
  rfl

lemma samples_commit (r : Record) (d : Decision) (now : Instant) : (commit r d now).samples = r.samples := by
  cases d <;> rfl

lemma time_of_sample {x : Sample} (h : s.sample service now = some x) : x.time = now := by
  rw [sample] at h
  split at h
  · cases h
  · exact Option.some.inj h ▸ rfl

/-- An evaluation drops what has outlived the window, and puts its own sample behind if it is carried out. -/
lemma samples_of_decide (h : s.decide asked now isFinal = (d, t)) (hp : s.policy service = some p) :
    (t.record service).samples =
      if asked = service then
        ((s.record service).prune now p.window).samples ++ if isFinal then (s.sample service now).toList else []
      else (s.record service).samples := by
  rw [decide] at h
  by_cases ha : asked = service
  · subst ha
    rw [hp] at h
    obtain ⟨_, rfl⟩ := Prod.mk.inj h
    rw [if_pos rfl, record, Table.find?_insert, if_pos rfl, Option.getD_some]
    cases isFinal with
    | true => exact samples_commit ..
    | false => exact (List.append_nil _).symm
  · rw [if_neg ha]
    split at h
    · obtain ⟨_, rfl⟩ := Prod.mk.inj h
      rfl
    · obtain ⟨_, rfl⟩ := Prod.mk.inj h
      rw [record, Table.find?_insert, if_neg (Ne.symm ha), record]

end Fleet

namespace History

variable {π : Type} {provisioner : Provisioner π} {s s' : History π} {m : Move} {service : String} {p : Policy}
  {moves : List Move}

lemma Throughout.imp {C D : History π → Move → Prop} (h : ∀ s m, C s m → D s m)
    (hC : Throughout provisioner C s moves) : Throughout provisioner D s moves := by
  induction moves generalizing s with
  | nil => trivial
  | cons m moves ih => exact ⟨h s m hC.1, ih hC.2⟩

def taken? (service : String) (s : History π) : Move → Option Sample
  | .evaluateAndScale asked => if asked = service then s.fleet.sample service s.now else none
  | _ => none

/-- The samples that are taken of a service in a run, the earliest first. -/
def taken (provisioner : Provisioner π) (service : String) : History π → List Move → List Sample
  | _, [] => []
  | s, m :: moves => (s.taken? service m).toList ++ taken provisioner service (s.step provisioner m) moves

/-- Those of them that are in the window that ends with the run. -/
def recent (provisioner : Provisioner π) (service : String) (window : Duration) (s : History π) (moves : List Move) :
    List Sample :=
  (taken provisioner service s moves).filter (·.isRecent (s.run provisioner moves).now window)

def KeepsPolicy (provisioner : Provisioner π) (service : String) (s : History π) (m : Move) : Prop :=
  (s.step provisioner m).fleet.policy service = s.fleet.policy service

/-- What has been taken of a service so far is in order, and what is missing in its record has outlived the window. -/
structure Windowed (p : Policy) (service : String) (s : History π) (taken : List Sample) : Prop where
  split : ∃ outlived, taken = outlived ++ (s.fleet.record service).samples ∧
    ∀ x ∈ outlived, p.window < s.now - x.time
  sorted : taken.Pairwise (·.time ≤ ·.time)
  past : ∀ x ∈ taken, x.time ≤ s.now

namespace Windowed

variable {taken : List Sample}

/-- Nothing is missing in the window, and nothing else is left after the old ones have been dropped. -/
lemma prune_samples (h : Windowed p service s taken) :
    ((s.fleet.record service).prune s.now p.window).samples = taken.filter (·.isRecent s.now p.window) := by
  obtain ⟨outlived, rfl, hold⟩ := h.split
  obtain ⟨_, hsorted, _⟩ := List.pairwise_append.1 h.sorted
  have hnone : outlived.filter (·.isRecent s.now p.window) = [] := by
    refine List.filter_eq_nil_iff.2 fun x hx => ?_
    rw [Sample.isRecent_eq (h.past x (List.mem_append_left _ hx)), decide_eq_true (hold x hx)]
    exact Bool.false_ne_true
  rw [List.filter_append, hnone, List.nil_append, Record.prune, dropWhile_eq_filter]
  · refine List.filter_congr fun x hx => ?_
    rw [Sample.isRecent_eq (h.past x (List.mem_append_right _ hx))]
  · refine hsorted.imp fun hab => ?_
    simp only [decide_eq_true_eq, Instant, Duration] at *
    omega

lemma keep (h : Windowed p service s taken) (hn : s.now ≤ s'.now)
    (hr : (s'.fleet.record service).samples = (s.fleet.record service).samples) : Windowed p service s' taken where
  split := by
    obtain ⟨outlived, ht, hold⟩ := h.split
    refine ⟨outlived, hr ▸ ht, fun x hx => Nat.lt_of_lt_of_le (hold x hx) (Nat.sub_le_sub_right hn _)⟩
  sorted := h.sorted
  past x hx := Nat.le_trans (h.past x hx) hn

lemma evaluate (h : Windowed p service s taken) {new : Option Sample} (hnew : ∀ x ∈ new, x.time = s.now)
    (hn : s'.now = s.now)
    (hr : (s'.fleet.record service).samples =
      ((s.fleet.record service).prune s.now p.window).samples ++ new.toList) :
    Windowed p service s' (taken ++ new.toList) := by
  have htime {x : Sample} (hx : x ∈ new.toList) : x.time = s.now := hnew x (Option.mem_toList.1 hx)
  constructor
  case split =>
    obtain ⟨outlived, rfl, hold⟩ := h.split
    let old (x : Sample) : Bool := decide (p.window < s.now - x.time)
    let samples := (s.fleet.record service).samples
    have hsplit : samples.takeWhile old ++ ((s.fleet.record service).prune s.now p.window).samples = samples :=
      List.takeWhile_append_dropWhile
    refine ⟨outlived ++ samples.takeWhile old, ?_, fun x hx => ?_⟩
    · rw [hr, List.append_assoc, List.append_assoc, ← List.append_assoc (samples.takeWhile old), hsplit]
    · rw [hn]
      rcases List.mem_append.1 hx with hx | hx
      · exact hold x hx
      · have hgone : old x = true := List.mem_takeWhile_imp hx
        exact of_decide_eq_true hgone
  case sorted =>
    refine List.pairwise_append.2 ⟨h.sorted, ?_, fun x hx y hy => htime hy ▸ h.past x hx⟩
    cases new with
    | none => exact .nil
    | some x => exact List.pairwise_singleton ..
  case past =>
    intro x hx
    rw [hn]
    rcases List.mem_append.1 hx with hx | hx
    · exact h.past x hx
    · exact Nat.le_of_eq (htime hx)

lemma decide (h : Windowed p service s taken) (hp : s.fleet.policy service = some p) {asked : String} {isFinal : Bool}
    {d : Decision} {fleet : Fleet} (hd : s.fleet.decide asked s.now isFinal = (d, fleet)) (hn : s'.now = s.now)
    (hr : s'.fleet.records = fleet.records) :
    Windowed p service s'
      (taken ++ (if asked = service ∧ isFinal = true then s.fleet.sample service s.now else none).toList) := by
  have hsamples := Fleet.samples_of_decide hd hp
  have hrecord : s'.fleet.record service = fleet.record service := by rw [Fleet.record, hr, Fleet.record]
  rw [← hrecord] at hsamples
  by_cases ha : asked = service
  · rw [if_pos ha] at hsamples
    refine h.evaluate (fun x hx => ?_) hn ?_
    · split at hx
      · exact Fleet.time_of_sample hx
      · cases hx
    · rw [hsamples]
      cases isFinal <;> simp [ha]
  · rw [if_neg ha] at hsamples
    rw [if_neg fun h => ha h.1, Option.toList_none, List.append_nil]
    exact h.keep (Nat.le_of_eq hn.symm) hsamples

lemma turned (h : Windowed p service s taken) (hp : s.fleet.policy service = some p)
    (ht : Turn provisioner s m s') : Windowed p service s' (taken ++ (s.taken? service m).toList) := by
  have hfinal {asked : String} {d : Decision} {fleet : Fleet}
      (hd : s.fleet.decide asked s.now true = (d, fleet)) (hn : s'.now = s.now)
      (hr : s'.fleet.records = fleet.records) :
      Windowed p service s' (taken ++ (s.taken? service (.evaluateAndScale asked)).toList) := by
    have hdecide := h.decide hp hd hn hr
    simp only [and_true] at hdecide
    exact hdecide
  have hpass (hm : ∀ asked, m ≠ .evaluateAndScale asked) (hw : Windowed p service s' taken) :
      Windowed p service s' (taken ++ (s.taken? service m).toList) := by
    have hnone : s.taken? service m = none := by
      cases m with
      | evaluateAndScale asked => exact absurd rfl (hm asked)
      | evaluate | answer | finish | updatePolicy | updateConfig | probeAll | balance | stop => rfl
    rw [hnone, Option.toList_none, List.append_nil]
    exact hw
  cases ht with
  | rests decided | misses decided | retires decided | asks decided => exact hfinal decided rfl rfl
  | nothing idle => exact hpass idle h
  | @shows asked d fleet decided =>
    have hdecide : Windowed p service { s with fleet } _ := h.decide hp decided rfl rfl
    exact hpass (by simp) (by simpa using hdecide)
  | starts =>
    refine hpass (by simp) (h.keep (Nat.le_refl _) ?_)
    rw [Fleet.record, Fleet.records_finishStart, Fleet.record]
  | balances => exact hpass (by simp) (h.keep (Nat.le_add_right _ _) rfl)
  | fails | joins | drops | removes | governs | replaces | probes | stops =>
    exact hpass (by simp) (h.keep (Nat.le_refl _) rfl)

lemma run (h : Windowed p service s taken) (hw : ∀ c ∈ s.calls, c.Waits) (hp : s.fleet.policy service = some p)
    (hk : Throughout provisioner (KeepsPolicy provisioner service) s moves) :
    Windowed p service (s.run provisioner moves) (taken ++ History.taken provisioner service s moves) ∧
      (s.run provisioner moves).fleet.policy service = some p := by
  -- On the moves: what has been taken so far becomes more at the end.
  induction moves generalizing s taken with
  | nil =>
    rw [History.taken, List.append_nil]
    exact ⟨h, hp⟩
  | cons m moves ih =>
    obtain ⟨hkeeps, hk⟩ := hk
    have ht : Turn provisioner s m (s.step provisioner m) := turn hw m
    rw [History.taken, ← List.append_assoc]
    exact ih (h.turned hp ht) (ht.waits hw) (hkeeps.trans hp) hk

end Windowed

lemma now_evaluateAndScale (hw : ∀ c ∈ s.calls, c.Waits) (asked : String) :
    (s.step provisioner (.evaluateAndScale asked)).now = s.now := by
  have ht : Turn provisioner s (.evaluateAndScale asked) (s.step provisioner (.evaluateAndScale asked)) := turn hw _
  generalize s.step provisioner (.evaluateAndScale asked) = t at ht
  cases ht <;> rfl

lemma taken_concat (provisioner : Provisioner π) (service : String) (s : History π) (moves : List Move) (m : Move) :
    taken provisioner service s (moves ++ [m]) =
      taken provisioner service s moves ++ ((s.run provisioner moves).taken? service m).toList := by
  induction moves generalizing s with
  | nil => exact List.append_nil _
  | cons m' moves ih =>
    rw [List.cons_append, taken, ih, taken, List.append_assoc]
    rfl

lemma recent_concat (hw : ∀ c ∈ (s.run provisioner moves).calls, c.Waits) (window : Duration) :
    recent provisioner service window s (moves ++ [.evaluateAndScale service]) =
      recent provisioner service window s moves ++
        ((s.run provisioner moves).fleet.sample service (s.run provisioner moves).now).toList := by
  have hrun : s.run provisioner (moves ++ [.evaluateAndScale service]) =
      (s.run provisioner moves).step provisioner (.evaluateAndScale service) := List.foldl_append
  rw [recent, recent, hrun, now_evaluateAndScale hw, taken_concat, List.filter_append, taken?, if_pos rfl]
  congr 1
  refine List.filter_eq_self.2 fun x hx => ?_
  have ht := Fleet.time_of_sample (Option.mem_toList.1 hx)
  exact decide_eq_true ⟨ht ▸ Nat.sub_le .., Nat.le_of_eq ht⟩

lemma waits_run (hw : ∀ c ∈ s.calls, c.Waits) (moves : List Move) :
    ∀ c ∈ (s.run provisioner moves).calls, c.Waits :=
  List.foldlRecOn (motive := fun (s : History π) => ∀ c ∈ s.calls, c.Waits) moves _ hw fun _ hw m _ =>
    (turn hw m).waits hw

/-- At the end of every run in which a service keeps its policy, whatever else goes on in it: an evaluation for show
decides on the means over the samples that the evaluations that were carried out have taken of the service within the
window, and over the pool as it is; one that is carried out decides on the means over those samples, its own among
them. Without any, neither does a thing unless instances are missing. -/
theorem decides_on_the_window (provisioner : Provisioner π) (config : Config) (b : Balancer.History) (ports : π)
    (moves : List Move) (service : String) (p : Policy) (hp : config.policies.find? service = some p)
    (hk : Throughout provisioner (KeepsPolicy provisioner service) (start config b ports) moves) :
    let first := start config b ports
    let s := first.run provisioner moves
    let pool := (s.fleet.sample service s.now).toList
    let decision samples := p.decision service (s.fleet.activeCount service) (Load.ofSamples samples)
      (s.fleet.record service) s.now
    (s.fleet.evaluate service s.now).1 = decision (recent provisioner service p.window first moves ++ pool) ∧
    Fleet.EndsWith (decision (recent provisioner service p.window first (moves ++ [.evaluateAndScale service])))
      (s.fleet.evaluateAndScale service s.now) ∧
    (recent provisioner service p.window first moves ++ pool = [] → p.minInstances ≤ s.fleet.activeCount service →
      (s.fleet.evaluate service s.now).1 = .none ∧
        Fleet.EndsWith .none (s.fleet.evaluateAndScale service s.now)) := by
  intro first s pool decision
  have hfirst : Windowed p service first [] := ⟨⟨[], rfl, nofun⟩, .nil, nofun⟩
  obtain ⟨hwindowed, hpolicy⟩ := hfirst.run nofun hp hk
  have hshown : (s.fleet.evaluate service s.now).1 =
      decision (recent provisioner service p.window first moves ++ pool) := by
    rw [Fleet.evaluate, Fleet.decide_of_policy hpolicy, hwindowed.prune_samples]
    rfl
  have hdone := s.fleet.endsWith_evaluate service s.now
  refine ⟨hshown, ?_, fun hnone hmin => ?_⟩
  · have hwaits : ∀ c ∈ s.calls, c.Waits := waits_run (nofun : ∀ c ∈ first.calls, c.Waits) moves
    rw [recent_concat hwaits]
    exact hshown ▸ hdone
  · rw [hnone] at hshown
    have hrest : (s.fleet.evaluate service s.now).1 = .none := hshown.trans (Policy.decision_of_no_samples hmin)
    exact ⟨hrest, hrest ▸ hdone⟩

def watched : List Move :=
  [.balance (.register { id := "a", service := "chat", host := "localhost", port := 1, health := .healthy }),
    .evaluateAndScale "chat", .balance (.timePasses 2), .balance (.updateResources "a" 60.0 60.0), .evaluate "chat",
    .evaluateAndScale "chat", .balance (.timePasses 5), .balance (.updateResources "a" 95.0 95.0)]

/-- The second sample is as old as the window is long and counts, the first has outlived it. -/
theorem decides_on_the_window_to_its_edge :
    let p : Policy := { minInstances := 1, maxInstances := 3, window := 5 }
    let first := start soloConfig (.run {} (fun _ => 0.0) []) (.usual 1.0)
    let s := first.run Ports.provisioner watched
    let samples := recent Ports.provisioner "chat" p.window first watched ++ (s.fleet.sample "chat" s.now).toList
    (taken Ports.provisioner "chat" first watched).map (·.time) = [0, 2] ∧ samples.map (·.time) = [2, 7] ∧
      (s.fleet.evaluate "chat" s.now).1.isUp = true ∧ (s.fleet.evaluate "chat" s.now).1 =
        p.decision "chat" (s.fleet.activeCount "chat") (Load.ofSamples samples) (s.fleet.record "chat") s.now := by
  intro p first s samples
  have hp : soloConfig.policies.find? "chat" = some p := rfl
  have hk : Throughout Ports.provisioner (KeepsPolicy Ports.provisioner "chat") first watched :=
    Throughout.imp (fun _ _ h => h "chat") (throughout_keepsPolicies nofun rfl)
  refine ⟨by decide +kernel, by decide +kernel, by decide +kernel, ?_⟩
  exact (decides_on_the_window Ports.provisioner soloConfig (.run {} (fun _ => 0.0) []) (.usual 1.0) watched "chat" p
    hp hk).1

end History

end Serving.Scaling
