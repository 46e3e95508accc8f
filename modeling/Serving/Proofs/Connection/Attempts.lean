import Mathlib.Data.List.Induction
import Mathlib.Tactic.SplitIfs
import Serving.Proofs.Connection.History
import Serving.Proofs.Numbered

/-! Attempts to connect come one at a time. None begins before the one before has failed and the back-off is over, none
begins when there is a connection, and nobody who gives up disturbs an attempt or the others. The connection that is
made goes to all who still wait for one and to all who come later. -/

namespace Serving.Cache.Connection

open Numbered (getElem?_concat_eq_some)

/-- What entering comes to. -/
inductive Enters (c : Connection) (backoff : Duration) (now : Instant) (caller : Nat) : Entrance × Connection → Prop
  | connected (up : c.isUp = true) : Enters c backoff now caller (.connected, c)
  | joins (down : c.isUp = false) (busy : c.isConnecting = true) :
    Enters c backoff now caller (.waits false, { c with waiting := caller :: c.waiting })
  | refused (down : c.isUp = false) (idle : c.isConnecting = false) (early : c.isBackingOff backoff now = true) :
    Enters c backoff now caller (.refused, c)
  | starts (down : c.isUp = false) (idle : c.isConnecting = false) (rested : c.isBackingOff backoff now = false) :
    Enters c backoff now caller (.waits true, { c with isConnecting := true, waiting := caller :: c.waiting })

lemma enters (c : Connection) (backoff : Duration) (now : Instant) (caller : Nat) :
    Enters c backoff now caller (c.enter backoff now caller) := by
  rw [enter]
  split
  · exact .connected ‹_›
  · rename_i hdown
    have hdown := Bool.eq_false_iff.2 hdown
    split
    · exact .joins hdown ‹_›
    · rename_i hidle
      have hidle := Bool.eq_false_iff.2 hidle
      split
      · exact .refused hdown hidle ‹_›
      · rename_i hrested
        exact .starts hdown hidle (Bool.eq_false_iff.2 hrested)

/-- Connections that differ in who waits. -/
structure Alike (c c' : Connection) : Prop where
  isUp : c'.isUp = c.isUp
  isConnecting : c'.isConnecting = c.isConnecting
  lastFailure : c'.lastFailure = c.lastFailure
  failures : c'.failures = c.failures

lemma Alike.enter {c c' : Connection} (ha : Alike c c') (backoff : Duration) (now : Instant) (n : Nat) :
    (c'.enter backoff now n).1 = (c.enter backoff now n).1 ∧
      Alike (c.enter backoff now n).2 (c'.enter backoff now n).2 := by
  have hearly : c'.isBackingOff backoff now = c.isBackingOff backoff now := by
    rw [isBackingOff, isBackingOff, ha.lastFailure]
  rw [Connection.enter, Connection.enter, ha.isUp, ha.isConnecting, hearly]
  split_ifs
  · exact ⟨rfl, ha⟩
  · exact ⟨rfl, rfl, rfl, ha.lastFailure, ha.failures⟩
  · exact ⟨rfl, ha⟩
  · exact ⟨rfl, rfl, rfl, ha.lastFailure, ha.failures⟩

lemma Alike.giveUp {c c' : Connection} (ha : Alike c c') (n : Nat) : Alike (c.giveUp n) c' :=
  ⟨ha.isUp, ha.isConnecting, ha.lastFailure, ha.failures⟩

lemma Alike.finish {c c' : Connection} (ha : Alike c c') (now : Instant) (success : Bool) :
    Alike (c.finish now success).2 (c'.finish now success).2 := by
  cases success with
  | false => exact ⟨ha.isUp, rfl, rfl, congrArg (· + 1) ha.failures⟩
  | true => exact ⟨rfl, rfl, rfl, ha.failures⟩

namespace History

variable {backoff : Duration} {h h' : History} {m : Move} {moves : List Move} {k n : Nat}

/-- Attempts failed before now, and the last time that one did is remembered. -/
def AllFailed (h : History) (attempts : List Attempt) : Prop := ∀ a ∈ attempts, ∃ t ≤ h.now, a.Failed t

/-- How far it has come with the connection. -/
inductive Phase (h : History) : Prop
  | idle (down : h.connection.isUp = false) (still : h.connection.isConnecting = false) (nobody : h.maker = none)
      (left : h.connection.waiting = []) (failed : AllFailed h h.attempts)
      (last : ∀ a ∈ h.attempts, ∀ t, a.Failed t → ∃ t', h.connection.lastFailure = some t' ∧ t ≤ t')
  | busy (earlier : List Attempt) (began : Instant) (down : h.connection.isUp = false)
      (connecting : h.connection.isConnecting = true) (nobody : h.maker = none)
      (attempts : h.attempts = earlier ++ [⟨began, none⟩]) (failed : AllFailed h earlier)
  | up (earlier : List Attempt) (began time : Instant) (up : h.connection.isUp = true)
      (still : h.connection.isConnecting = false) (maker : h.maker = some earlier.length)
      (left : h.connection.waiting = []) (attempts : h.attempts = earlier ++ [⟨began, some (time, .made)⟩])
      (failed : AllFailed h earlier)

/-- An attempt failed, and the back-off was over when another one began. -/
def Precedes (backoff : Duration) (a b : Attempt) : Prop := ∃ t, a.Failed t ∧ t + backoff ≤ b.began

structure Sound (backoff : Duration) (h : History) : Prop where
  spaced : h.attempts.Pairwise (Precedes backoff)
  failures : h.connection.failures = h.attempts.countP Attempt.hasFailed
  waiting : ∀ n, n ∈ h.connection.waiting ↔ h.callers[n]? = some .waits
  past : ∀ t, h.connection.lastFailure = some t → t ≤ h.now
  phase : Phase h

lemma AllFailed.not_running {attempts : List Attempt} (hf : AllFailed h attempts) {began : Instant} :
    attempts[k]? ≠ some ⟨began, none⟩ := by
  intro hk
  obtain ⟨t, -, e, he, -⟩ := hf _ (List.mem_of_getElem? hk)
  cases he

/-- Only the last attempt runs, and only as long as there is no connection. -/
lemma Phase.of_running (hp : Phase h) {began : Instant} (hk : h.attempts[k]? = some ⟨began, none⟩) :
    ∃ earlier, h.connection.isUp = false ∧ h.connection.isConnecting = true ∧ h.maker = none ∧ k = earlier.length ∧
      h.attempts = earlier ++ [⟨began, none⟩] ∧ AllFailed h earlier := by
  cases hp with
  | idle _ _ _ _ hfailed => exact absurd hk hfailed.not_running
  | busy earlier began' hdown hconnecting hmaker hattempts hfailed =>
    rw [hattempts, getElem?_concat_eq_some] at hk
    obtain ⟨rfl, heq⟩ := hk.resolve_left hfailed.not_running
    obtain rfl := congrArg Attempt.began heq
    exact ⟨earlier, hdown, hconnecting, hmaker, rfl, hattempts, hfailed⟩
  | up earlier began' t _ _ _ _ hattempts hfailed =>
    rw [hattempts, getElem?_concat_eq_some] at hk
    rcases hk with hk | ⟨-, heq⟩
    · exact absurd hk hfailed.not_running
    · cases heq

/-- An attempt that made the connection is the last one, and the connection is there. -/
lemma Phase.of_made (hp : Phase h) {began t : Instant} (hk : h.attempts[k]? = some ⟨began, some (t, .made)⟩) :
    h.connection.isUp = true ∧ h.maker = some k ∧ h.connection.waiting = [] := by
  have hnot {attempts : List Attempt} (hf : AllFailed h attempts) : attempts[k]? ≠ some ⟨began, some (t, .made)⟩ := by
    intro hk
    obtain ⟨t', -, e, he, hne⟩ := hf _ (List.mem_of_getElem? hk)
    cases he
    exact hne rfl
  cases hp with
  | idle _ _ _ _ hfailed => exact absurd hk (hnot hfailed)
  | busy earlier began' _ _ _ hattempts hfailed =>
    rw [hattempts, getElem?_concat_eq_some] at hk
    rcases hk with hk | ⟨-, heq⟩
    · exact absurd hk (hnot hfailed)
    · cases heq
  | up earlier began' t' hup _ hmaker hleft hattempts hfailed =>
    rw [hattempts, getElem?_concat_eq_some] at hk
    obtain ⟨rfl, -⟩ := hk.resolve_left (hnot hfailed)
    exact ⟨hup, hmaker, hleft⟩

/-! ### One move -/

lemma sound_start (backoff : Duration) : Sound backoff {} where
  spaced := .nil
  failures := rfl
  waiting := by simp
  past := by simp
  phase := .idle rfl rfl rfl rfl (List.forall_mem_nil _) (List.forall_mem_nil _)

/-- What concerns the callers only. -/
lemma Sound.congr (hs : Sound backoff h) (hc : ∃ waiting, h'.connection = { h.connection with waiting } ∧
      (h.connection.waiting = [] → waiting = []) ∧ ∀ n, n ∈ waiting ↔ h'.callers[n]? = some .waits)
    (hnow : h.now ≤ h'.now) (ha : h'.attempts = h.attempts) (hm : h'.maker = h.maker) : Sound backoff h' := by
  obtain ⟨waiting, hc, hleft, hwaiting⟩ := hc
  have hfailed {attempts : List Attempt} (hf : AllFailed h attempts) : AllFailed h' attempts := fun a ha =>
    let ⟨t, ht, hat⟩ := hf a ha
    ⟨t, Nat.le_trans ht hnow, hat⟩
  refine ⟨ha ▸ hs.spaced, ?_, ?_, ?_, ?_⟩
  · rw [hc, ha]
    exact hs.failures
  · rw [hc]
    exact hwaiting
  · rw [hc]
    exact fun t ht => Nat.le_trans (hs.past t ht) hnow
  · cases hs.phase with
    | idle hdown hstill hmaker hempty hf hlast =>
      refine .idle ?_ ?_ (hm.trans hmaker) ?_ (ha ▸ hfailed hf) ?_
      · rw [hc]
        exact hdown
      · rw [hc]
        exact hstill
      · rw [hc]
        exact hleft hempty
      · rw [ha, hc]
        exact hlast
    | busy earlier began hdown hconnecting hmaker hattempts hf =>
      refine .busy earlier began ?_ ?_ (hm.trans hmaker) (ha.trans hattempts) (hfailed hf)
      · rw [hc]
        exact hdown
      · rw [hc]
        exact hconnecting
    | up earlier began t hup hstill hmaker hempty hattempts hf =>
      refine .up earlier began t ?_ ?_ (hm.trans hmaker) ?_ (ha.trans hattempts) (hfailed hf)
      · rw [hc]
        exact hup
      · rw [hc]
        exact hstill
      · rw [hc]
        exact hleft hempty

lemma sound_starts (hs : Sound backoff h) (hdown : h.connection.isUp = false)
    (hidle : h.connection.isConnecting = false) (hrested : h.connection.isBackingOff backoff h.now = false) :
    Sound backoff { h with
      connection := { h.connection with isConnecting := true, waiting := h.callers.length :: h.connection.waiting }
      callers := h.callers ++ [.waits]
      attempts := h.attempts ++ [{ began := h.now }] } := by
  cases hs.phase with
  | idle _ _ hmaker hempty hfailed hlast =>
    refine ⟨?_, ?_, ?_, hs.past, .busy h.attempts h.now hdown rfl hmaker rfl hfailed⟩
    · refine List.pairwise_append.2 ⟨hs.spaced, List.pairwise_singleton _ _, fun a ha b hb => ?_⟩
      obtain rfl := List.mem_singleton.1 hb
      obtain ⟨t, ht, hat⟩ := hfailed a ha
      obtain ⟨t', hlast, hle⟩ := hlast a ha t hat
      have hpast := hs.past t' hlast
      have hlong : backoff ≤ h.now - t' := by simpa [isBackingOff, hlast] using hrested
      refine ⟨t, hat, ?_⟩
      simp only [Instant, Duration] at *
      omega
    · simp only [List.countP_append, hs.failures]
      rfl
    · intro n
      rw [getElem?_concat_eq_some, List.mem_cons, hs.waiting, or_comm]
      simp
  | busy _ _ _ hconnecting => exact absurd (hidle.symm.trans hconnecting) Bool.false_ne_true
  | up _ _ _ hup => exact absurd (hdown.symm.trans hup) Bool.false_ne_true

lemma sound_arrival (hs : Sound backoff h) : Sound backoff (h.step backoff .arrival) := by
  have hserved (there : Option Nat) : Sound backoff { h with callers := h.callers ++ [.served there] } := by
    refine hs.congr ⟨h.connection.waiting, rfl, id, fun n => ?_⟩ (Nat.le_refl _) rfl rfl
    rw [getElem?_concat_eq_some, hs.waiting]
    simp
  have henters := enters h.connection backoff h.now h.callers.length
  simp only [step]
  generalize h.connection.enter backoff h.now h.callers.length = e at henters
  cases henters with
  | connected => exact hserved _
  | refused => exact hserved _
  | starts hdown hidle hrested => exact sound_starts hs hdown hidle hrested
  | joins hdown hbusy =>
    cases hs.phase with
    | idle _ hstill => exact absurd (hstill.symm.trans hbusy) Bool.false_ne_true
    | up _ _ _ hup => exact absurd (hdown.symm.trans hup) Bool.false_ne_true
    | busy earlier began _ _ hmaker hattempts hfailed =>
      refine ⟨hs.spaced, hs.failures, fun n => ?_, hs.past, .busy earlier began hdown hbusy hmaker hattempts hfailed⟩
      rw [getElem?_concat_eq_some, List.mem_cons, hs.waiting, or_comm]
      simp

lemma giveUp_ne_waits (stage : Stage) : stage.giveUp ≠ .waits := by
  cases stage <;> simp [Stage.giveUp]

lemma sound_givesUp (hs : Sound backoff h) (n : Nat) : Sound backoff (h.step backoff (.givesUp n)) := by
  refine hs.congr ⟨h.connection.waiting.filter (· != n), rfl, fun hw => by rw [hw]; rfl, fun i => ?_⟩
    (Nat.le_refl _) rfl rfl
  simp only [step, List.mem_filter, hs.waiting, List.getElem?_modify]
  by_cases hi : n = i
  · subst hi
    simp [giveUp_ne_waits]
  · simp [hi, Ne.symm hi]

lemma sound_goesOn (hs : Sound backoff h) (n : Nat) : Sound backoff (h.step backoff (.goesOn n)) := by
  simp only [step]
  split
  · rename_i hn
    refine hs.congr ⟨h.connection.waiting, rfl, id, fun i => ?_⟩ (Nat.le_refl _) rfl rfl
    rw [hs.waiting, List.getElem?_set]
    split
    · rename_i hi
      subst hi
      simp [hn]
    · rfl
  · exact hs

/-- What becomes of the callers when an attempt ends. -/
lemma callers_ends (hs : Sound backoff h) {success : Bool} : (h.callers.mapIdx fun n stage =>
      if n ∈ (h.connection.finish h.now success).1.map Prod.fst then .called else stage) =
    h.callers.map fun stage => if stage = .waits then .called else stage := by
  refine List.ext_getElem? fun n => ?_
  rw [List.getElem?_mapIdx, List.getElem?_map]
  cases hn : h.callers[n]? with
  | none => rfl
  | some stage =>
    have hmem : n ∈ (h.connection.finish h.now success).1.map Prod.fst ↔ stage = .waits := by
      simp [finish, Function.comp_def, hs.waiting, hn]
    simp [hmem]

lemma called_ne_waits (callers : List Stage) (n : Nat) :
    (callers.map fun stage => if stage = .waits then Stage.called else stage)[n]? ≠ some .waits := by
  rw [List.getElem?_map]
  cases callers[n]? with
  | none => simp
  | some stage => by_cases hw : stage = .waits <;> simp [hw]

/-- When an attempt ends plays no part in what came before it. -/
lemma spaced_ended {earlier : List Attempt} {began : Instant} {ended : Option (Instant × Ending)}
    (hs : List.Pairwise (Precedes backoff) (earlier ++ [⟨began, none⟩])) :
    List.Pairwise (Precedes backoff) (earlier ++ [⟨began, ended⟩]) := by
  rw [List.pairwise_append] at hs
  refine List.pairwise_append.2 ⟨hs.1, List.pairwise_singleton _ _, fun a ha b hb => ?_⟩
  obtain rfl := List.mem_singleton.1 hb
  exact hs.2.2 a ha ⟨began, none⟩ (List.mem_singleton_self _)

lemma AllFailed.concat {earlier : List Attempt} (hf : AllFailed h earlier) {began : Instant} {ending : Ending}
    (he : ending ≠ .made) : AllFailed h (earlier ++ [⟨began, some (h.now, ending)⟩]) := by
  intro a ha
  rcases List.mem_append.1 ha with ha | ha
  · exact hf a ha
  · exact ⟨h.now, Nat.le_refl _, ending, by rw [List.mem_singleton.1 ha], he⟩

lemma AllFailed.le {attempts : List Attempt} (hf : AllFailed h attempts) {a : Attempt} (ha : a ∈ attempts)
    {t : Instant} (hat : a.Failed t) : t ≤ h.now := by
  obtain ⟨t', ht', e, he, -⟩ := hf a ha
  obtain ⟨e', hat, -⟩ := hat
  rw [he] at hat
  cases hat
  exact ht'

lemma sound_ends (hs : Sound backoff h) (k : Nat) (ending : Ending) :
    Sound backoff (h.step backoff (.ends k ending)) := by
  simp only [step]
  split
  · rename_i began hk
    obtain ⟨earlier, hdown, hconnecting, hmaker, rfl, hattempts, hfailed⟩ := hs.phase.of_running hk
    have hset : h.attempts.set earlier.length ⟨began, some (h.now, ending)⟩ =
        earlier ++ [⟨began, some (h.now, ending)⟩] := by simp [hattempts]
    have hspaced : List.Pairwise (Precedes backoff) (earlier ++ [⟨began, some (h.now, ending)⟩]) :=
      spaced_ended (hattempts ▸ hs.spaced)
    have hcount : h.connection.failures = earlier.countP Attempt.hasFailed := by
      rw [hs.failures, hattempts, List.countP_append]
      rfl
    simp only [callers_ends hs, hset]
    by_cases he : ending = .made
    · subst he
      refine ⟨hspaced, ?_, fun n => ?_, by simp [finish], .up earlier began h.now rfl rfl rfl rfl rfl hfailed⟩
      · rw [List.countP_append, ← hcount]
        rfl
      · simpa [finish] using called_ne_waits h.callers n
    · simp only [he, decide_false, if_false]
      have hall : AllFailed h (earlier ++ [⟨began, some (h.now, ending)⟩]) := hfailed.concat he
      refine ⟨hspaced, ?_, fun n => ?_, fun t ht => ?_, .idle hdown rfl hmaker rfl hall fun a ha t hat => ?_⟩
      · rw [List.countP_append, ← hcount, List.countP_singleton]
        simp [finish, Attempt.hasFailed, he]
      · simpa [finish] using called_ne_waits h.callers n
      · exact Nat.le_of_eq (Option.some.inj ht).symm
      · exact ⟨h.now, rfl, hall.le ha hat⟩
  · exact hs

lemma sound_step (hs : Sound backoff h) (m : Move) : Sound backoff (h.step backoff m) := by
  cases m with
  | arrival => exact sound_arrival hs
  | givesUp n => exact sound_givesUp hs n
  | ends k ending => exact sound_ends hs k ending
  | goesOn n => exact sound_goesOn hs n
  | timePasses d =>
    exact hs.congr ⟨h.connection.waiting, rfl, id, hs.waiting⟩ (Nat.le_add_right _ _) rfl rfl

lemma sound_run (backoff : Duration) (moves : List Move) : Sound backoff (run backoff moves) := by
  induction moves using List.reverseRecOn with
  | nil => exact sound_start backoff
  | append_singleton moves m ih =>
    rw [run_concat]
    exact sound_step ih m

/-! ### Once there is a connection -/

/-- What is left of a history with a connection: nothing is attempted, and callers leave or take the connection. -/
structure Settled (k : Nat) (h h' : History) : Prop where
  attempts : h'.attempts = h.attempts
  callers : ∀ (n : Nat) (stage : Stage), h'.callers[n]? = some stage →
    h.callers[n]? = some stage ∨ stage = .gone ∨ stage = .served (some k)

lemma settled_refl (h : History) : Settled k h h := ⟨rfl, fun _ _ => .inl⟩

lemma Settled.trans {h'' : History} (hk : Settled k h h') (hk' : Settled k h' h'') : Settled k h h'' where
  attempts := hk'.attempts.trans hk.attempts
  callers n stage hn := (hk'.callers n stage hn).elim (hk.callers n stage) .inr

lemma settled_step (hs : Sound backoff h) (hup : h.connection.isUp = true) (hm : h.maker = some k) (m : Move) :
    Settled k h (h.step backoff m) := by
  have hthere : h.there = some k := by rw [there, hup, if_pos rfl, hm]
  cases m with
  | arrival =>
    simp only [step, enter, hup, if_true, hthere]
    refine ⟨rfl, fun n stage hn => ?_⟩
    rw [getElem?_concat_eq_some] at hn
    exact hn.imp_right fun hn => .inr hn.2.symm
  | givesUp n =>
    refine ⟨rfl, fun i stage hi => ?_⟩
    simp only [step, List.getElem?_modify] at hi
    obtain ⟨old, hold, rfl⟩ := Option.map_eq_some_iff.1 hi
    split
    · cases old with
      | waits | called => exact .inr (.inl rfl)
      | gone | served => exact .inl hold
    · exact .inl hold
  | ends i ending =>
    simp only [step]
    split
    · obtain ⟨-, hdown, -⟩ := hs.phase.of_running ‹_›
      exact absurd (hdown.symm.trans hup) Bool.false_ne_true
    · exact settled_refl h
  | goesOn n =>
    simp only [step]
    split
    · refine ⟨rfl, fun i stage hi => ?_⟩
      rw [List.getElem?_set, hthere] at hi
      split at hi
      · split at hi
        · exact .inr (.inr (Option.some.inj hi).symm)
        · cases hi
      · exact .inl hi
    · exact settled_refl h
  | timePasses d => exact ⟨rfl, fun _ _ => .inl⟩

lemma settled_run {began t : Instant} (hk : (run backoff moves).attempts[k]? = some ⟨began, some (t, .made)⟩)
    (later : List Move) : Settled k (run backoff moves) (run backoff (moves ++ later)) := by
  induction later using List.reverseRecOn with
  | nil =>
    rw [List.append_nil]
    exact settled_refl _
  | append_singleton later m ih =>
    have hs := sound_run backoff (moves ++ later)
    obtain ⟨hup, hm, -⟩ := hs.phase.of_made (ih.attempts ▸ hk)
    rw [← List.append_assoc, run_concat]
    exact ih.trans (settled_step hs hup hm m)

/-! ### Callers who give up -/

/-- Two histories that differ in callers who gave up in the first one. -/
structure Undisturbed (h h' : History) : Prop where
  connection : Alike h.connection h'.connection
  now : h'.now = h.now
  attempts : h'.attempts = h.attempts
  maker : h'.maker = h.maker
  length : h'.callers.length = h.callers.length
  callers : ∀ n : Nat, h'.callers[n]? = h.callers[n]? ∨ h.callers[n]? = some .gone

namespace Undisturbed

lemma there (hu : Undisturbed h h') : h'.there = h.there := by
  rw [History.there, History.there, hu.connection.isUp, hu.maker]

/-- One more caller comes. -/
lemma concat (hu : Undisturbed h h') (stage : Stage) :
    Undisturbed { h with callers := h.callers ++ [stage] } { h' with callers := h'.callers ++ [stage] } := by
  refine { hu with length := by simp [hu.length], callers := fun n => ?_ }
  rcases Nat.lt_or_ge n h.callers.length with hn | hn
  · rw [List.getElem?_append_left hn, List.getElem?_append_left (hu.length ▸ hn)]
    exact hu.callers n
  · rw [List.getElem?_append_right hn, List.getElem?_append_right (hu.length ▸ hn), hu.length]
    exact .inl rfl

lemma arrival (hu : Undisturbed h h') : Undisturbed (h.step backoff .arrival) (h'.step backoff .arrival) := by
  obtain ⟨hentrance, halike⟩ := hu.connection.enter backoff h.now h.callers.length
  simp only [step, hu.there, hu.now, hu.attempts, hu.length]
  generalize h.connection.enter backoff h.now h.callers.length = e at hentrance halike
  generalize h'.connection.enter backoff h.now h.callers.length = e' at hentrance halike
  obtain ⟨entrance, c⟩ := e
  obtain ⟨entrance', c'⟩ := e'
  obtain rfl : entrance' = entrance := hentrance
  cases entrance' with
  | connected => exact { hu.concat _ with connection := halike, now := rfl, attempts := rfl }
  | refused => exact { hu.concat _ with connection := halike, now := rfl, attempts := rfl }
  | waits starts => exact { hu.concat _ with connection := halike, now := rfl, attempts := rfl }

lemma givesUp (hu : Undisturbed h h') (n : Nat) : Undisturbed (h.step backoff (.givesUp n)) h' := by
  refine { hu with
    connection := hu.connection.giveUp n
    length := hu.length.trans (List.length_modify ..).symm
    callers := fun i => ?_ }
  simp only [step, List.getElem?_modify]
  rcases hu.callers i with hi | hi
  · rw [hi]
    cases h.callers[i]? with
    | none => exact .inl rfl
    | some stage =>
      by_cases hn : n = i
      · cases stage <;> simp [hn, Stage.giveUp]
      · simp [hn]
  · by_cases hn : n = i <;> simp [hn, hi, Stage.giveUp]

lemma ends (hs : Sound backoff h) (hs' : Sound backoff h') (hu : Undisturbed h h') (k : Nat) (ending : Ending) :
    Undisturbed (h.step backoff (.ends k ending)) (h'.step backoff (.ends k ending)) := by
  simp only [step, hu.attempts]
  split
  · rw [callers_ends hs, callers_ends hs', hu.maker, hu.now]
    refine ⟨hu.connection.finish _ _, rfl, rfl, rfl, by simp [hu.length], fun n => ?_⟩
    rw [List.getElem?_map, List.getElem?_map]
    rcases hu.callers n with hn | hn
    · exact .inl (by rw [hn])
    · exact .inr (by simp [hn])
  · exact hu

lemma goesOn (hu : Undisturbed h h') (n : Nat) :
    Undisturbed (h.step backoff (.goesOn n)) (h'.step backoff (.goesOn n)) := by
  have hset {l : List Stage} (i : Nat) (stage : Stage) (hi : n ≠ i) : (l.set n stage)[i]? = l[i]? :=
    List.getElem?_set_ne hi
  simp only [step, hu.there]
  rcases hu.callers n with hn | hn
  · rw [hn]
    split
    · rename_i hcalled
      refine { hu with length := by simp [hu.length], callers := fun i => ?_ }
      by_cases hi : n = i
      · subst hi
        obtain ⟨hlt, -⟩ := List.getElem?_eq_some_iff.1 hcalled
        simp [hlt, hu.length]
      · rw [hset i _ hi, hset i _ hi]
        exact hu.callers i
    · exact hu
  · simp only [hn]
    split
    · refine { hu with length := by simp [hu.length], callers := fun i => ?_ }
      by_cases hi : n = i
      · exact .inr (hi ▸ hn)
      · rw [hset i _ hi]
        exact hu.callers i
    · exact hu

end Undisturbed

/-- Without those who give up, all else would be as it is. -/
lemma undisturbed_run (backoff : Duration) (moves : List Move) :
    Undisturbed (run backoff moves) (run backoff (moves.filter fun m => !m.isGivesUp)) := by
  induction moves using List.reverseRecOn with
  | nil => exact ⟨⟨rfl, rfl, rfl, rfl⟩, rfl, rfl, rfl, rfl, fun _ => .inl rfl⟩
  | append_singleton moves m ih =>
    have hm : [m].filter (fun m => !m.isGivesUp) = if m.isGivesUp then [] else [m] := by cases m <;> rfl
    rw [List.filter_append, hm, run_concat]
    cases m with
    | givesUp n => simpa [Move.isGivesUp] using ih.givesUp n
    | arrival => simpa [Move.isGivesUp, run_concat] using ih.arrival
    | ends k ending =>
      simpa [Move.isGivesUp, run_concat] using ih.ends (sound_run backoff moves) (sound_run backoff _) k ending
    | goesOn n => simpa [Move.isGivesUp, run_concat] using ih.goesOn n
    | timePasses d =>
      simpa [Move.isGivesUp, run_concat] using { ih with now := congrArg (· + d) ih.now }

/-! ### All of it -/

lemma running_le_one (hs : Sound backoff h) : h.attempts.countP Attempt.isRunning ≤ 1 := by
  have hnone {attempts : List Attempt} (hf : AllFailed h attempts) : attempts.countP Attempt.isRunning = 0 := by
    refine List.countP_eq_zero.2 fun a ha => ?_
    obtain ⟨t, -, hat⟩ := hf a ha
    simp [hat.not_running]
  cases hs.phase with
  | idle _ _ _ _ hfailed =>
    rw [hnone hfailed]
    exact Nat.zero_le 1
  | busy earlier began _ _ _ hattempts hfailed =>
    rw [hattempts, List.countP_append, hnone hfailed, Nat.zero_add]
    exact List.countP_le_length
  | up earlier began t _ _ _ _ hattempts hfailed =>
    rw [hattempts, List.countP_append, hnone hfailed, Nat.zero_add]
    exact List.countP_le_length

lemma running_of_waits (hs : Sound backoff h) (hn : h.callers[n]? = some .waits) :
    ∃ (k : Nat) (began : Instant), h.attempts[k]? = some ⟨began, none⟩ := by
  have hw := (hs.waiting n).2 hn
  cases hs.phase with
  | idle _ _ _ hleft => simp [hleft] at hw
  | busy earlier began _ _ _ hattempts => exact ⟨earlier.length, began, by simp [hattempts]⟩
  | up _ _ _ _ _ _ hleft => simp [hleft] at hw

lemma called_of_ends (hs : Sound backoff h) {began : Instant} (hk : h.attempts[k]? = some ⟨began, none⟩)
    (hn : h.callers[n]? = some .waits) (ending : Ending) :
    (h.step backoff (.ends k ending)).callers[n]? = some .called := by
  simp only [step, hk]
  rw [callers_ends hs, List.getElem?_map, hn]
  rfl

/-- What an attempt's connection is to the callers: nobody is left to wait for one, whoever goes on or comes gets this
one, and so it stays. -/
structure Supplies (backoff : Duration) (moves : List Move) (k : Nat) : Prop where
  nobody_waits : .waits ∉ (run backoff moves).callers
  going_on : ∀ n : Nat, (run backoff moves).callers[n]? = some .called →
    (run backoff (moves ++ [.goesOn n])).callers[n]? = some (.served (some k))
  coming : (run backoff (moves ++ [.arrival])).callers = (run backoff moves).callers ++ [.served (some k)]
  settled : ∀ later, Settled k (run backoff moves) (run backoff (moves ++ later))

lemma supplies_of_made {began t : Instant} (hk : (run backoff moves).attempts[k]? = some ⟨began, some (t, .made)⟩) :
    Supplies backoff moves k := by
  have hs := sound_run backoff moves
  obtain ⟨hup, hm, hleft⟩ := hs.phase.of_made hk
  have hthere : (run backoff moves).there = some k := by rw [there, hup, if_pos rfl, hm]
  refine ⟨fun hw => ?_, fun n hn => ?_, ?_, settled_run hk⟩
  · obtain ⟨n, hn⟩ := List.getElem?_of_mem hw
    simpa [hleft] using (hs.waiting n).2 hn
  · obtain ⟨hlt, -⟩ := List.getElem?_eq_some_iff.1 hn
    rw [run_concat]
    simp only [step, hn, hthere]
    simp [hlt]
  · rw [run_concat]
    simp only [step, enter, hup, if_true, hthere]

/-- One attempt to connect at a time serves all callers: no other begins before it has failed and the back-off is over,
each one that fails is counted once, those who give up change nothing for it and for the others, all who wait are called
when it ends, and the connection that it makes is the one that they and all later callers get. -/
theorem one_attempt_for_all (backoff : Duration) (moves : List Move) :
    let h := run backoff moves
    h.attempts.countP Attempt.isRunning ≤ 1 ∧ h.attempts.Pairwise (Precedes backoff) ∧
      h.connection.failures = h.attempts.countP Attempt.hasFailed ∧
      Undisturbed h (run backoff (moves.filter fun m => !m.isGivesUp)) ∧
      (∀ n : Nat, h.callers[n]? = some .waits → ∃ (k : Nat) (began : Instant), h.attempts[k]? = some ⟨began, none⟩ ∧
        ∀ ending, (run backoff (moves ++ [.ends k ending])).callers[n]? = some .called) ∧
      ∀ (k : Nat) (began t : Instant), h.attempts[k]? = some ⟨began, some (t, .made)⟩ → Supplies backoff moves k := by
  intro h
  have hs := sound_run backoff moves
  refine ⟨running_le_one hs, hs.spaced, hs.failures, undisturbed_run backoff moves, fun n hn => ?_, fun k began t hk =>
    supplies_of_made hk⟩
  obtain ⟨k, began, hk⟩ := running_of_waits hs hn
  refine ⟨k, began, hk, fun ending => ?_⟩
  rw [run_concat]
  exact called_of_ends hs hk hn ending

/-- Of two callers one gives up before the attempt has taken too long. The next one comes too early, and the one after
that starts the attempt that makes the connection. -/
def retried : List Move :=
  [.arrival, .arrival, .givesUp 0, .timePasses 2, .ends 0 .timedOut, .arrival, .timePasses 5, .arrival, .timePasses 1,
    .ends 1 .made, .goesOn 1]

theorem one_attempt_for_all_retried :
    let h := run 5 retried
    (h.attempts = [⟨0, some (2, .timedOut)⟩, ⟨7, some (8, .made)⟩] ∧
      h.callers = [.gone, .served (some 1), .served none, .called] ∧ h.connection.failures = 1) ∧
      h.attempts.Pairwise (Precedes 5) ∧ Undisturbed h (run 5 (retried.filter fun m => !m.isGivesUp)) ∧
      Supplies 5 retried 1 :=
  ⟨by decide, (one_attempt_for_all 5 retried).2.1, (one_attempt_for_all 5 retried).2.2.2.1,
    (one_attempt_for_all 5 retried).2.2.2.2.2 1 7 8 (by decide)⟩

end History

end Serving.Cache.Connection
