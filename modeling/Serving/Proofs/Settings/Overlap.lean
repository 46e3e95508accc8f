import Mathlib.Data.List.Nodup
import Serving.Proofs.Numbered
import Serving.Proofs.Settings.Feed
import Serving.Proofs.Settings.Reloads

/-! Calls to a settings manager that overlap. A call puts its settings into force and announces them after that, and in
between others may do the same. So each of them announces what it has stored, but the last one to announce need not be
the last one to have stored. -/

namespace Serving.SettingsManager.Overlap

/-- How far a call has come. -/
inductive Stage
  | accepted (s : Settings)
  | stored (s : Settings)
  /-- It has announced what it stored, or it was turned down. -/
  | ended

namespace Stage

def isOver : Stage → Bool
  | ended => true
  | _ => false

def isStored : Stage → Bool
  | stored _ => true
  | _ => false

end Stage

/-- Calls are numbered as they come. -/
inductive Move
  | begins (c : Call)
  | stores (call : Nat)
  | sends (call : Nat)
  | environment (env : Environment)

structure History where
  manager : SettingsManager
  calls : List Stage := []
  /-- The settings that came into force, with the numbers of their calls. -/
  stored : List (Nat × Settings) := []
  sent : List (Nat × Settings) := []

namespace History

def step (h : History) : Move → History
  | .begins c =>
    match c.offer h.manager.env h.manager.path with
    | .ok s => { h with calls := h.calls ++ [.accepted s] }
    | .error _ => { h with calls := h.calls ++ [.ended] }
  | .stores n =>
    match h.calls[n]? with
    | some (.accepted s) =>
      { h with manager := h.manager.put s, calls := h.calls.set n (.stored s), stored := h.stored ++ [(n, s)] }
    | _ => h
  | .sends n =>
    match h.calls[n]? with
    | some (.stored s) =>
      { h with manager := h.manager.announce s, calls := h.calls.set n .ended, sent := h.sent ++ [(n, s)] }
    | _ => h
  | .environment env => { h with manager := { h.manager with env } }

/-- Somebody subscribes to the feed, and no call is on its way. -/
def start (m : SettingsManager) : History := { manager := { m with feed := { capacity := feedCapacity } } }

def run (m : SettingsManager) (moves : List Move) : History := moves.foldl step (start m)

/-- All calls have come to their ends. -/
abbrev IsIdle (h : History) : Prop := h.calls.all Stage.isOver = true

/-- The last settings that were announced are the ones in force. -/
def Agrees (m : SettingsManager) (h : History) : Prop :=
  h.manager.feed.kept.getLast?.getD m.current = h.manager.current

/-- A call has stored settings and has yet to announce them. -/
def Owes (h : History) (p : Nat × Settings) : Prop := h.calls[p.1]? = some (.stored p.2)

/-- Nobody stores settings before the last call that did so has announced its own. -/
def Orderly (h : History) : List Move → Prop
  | [] => True
  | move :: moves =>
    (match move with
      | .stores _ => h.calls.any Stage.isStored = false
      | _ => True) ∧ Orderly (h.step move) moves

variable {m : SettingsManager} {h : History} {n : Nat} {s : Settings} {p : Nat × Settings}

/-- A call that others leave alone has the effect that it has by itself. -/
lemma alone (h : History) (c : Call) :
    ([.begins c, .stores h.calls.length, .sends h.calls.length].foldl step h).manager = (h.manager.perform c).2 := by
  rcases c.offer_cases h.manager.env h.manager.path with ⟨e, ho, -⟩ | ⟨s, ho, -⟩
  · rw [perform_refused ho]
    simp [step, ho]
  · rw [perform_accepted ho]
    simp [step, ho, apply, put, announce]

/-- What comes of a move. -/
inductive Turn (h : History) : Move → History → Prop
  | begins (c : Call) (stage : Stage) (hstage : stage.isStored = false) :
    Turn h (.begins c) { h with calls := h.calls ++ [stage] }
  | stores (n : Nat) (s : Settings) (hn : h.calls[n]? = some (.accepted s)) :
    Turn h (.stores n)
      { h with manager := h.manager.put s, calls := h.calls.set n (.stored s), stored := h.stored ++ [(n, s)] }
  | sends (n : Nat) (s : Settings) (hn : h.Owes (n, s)) :
    Turn h (.sends n)
      { h with manager := h.manager.announce s, calls := h.calls.set n .ended, sent := h.sent ++ [(n, s)] }
  | environment (env : Environment) : Turn h (.environment env) { h with manager := { h.manager with env } }
  | nothing (move : Move) : Turn h move h

lemma turn (h : History) (move : Move) : Turn h move (h.step move) := by
  cases move with
  | begins c =>
    rw [step]
    split
    · exact .begins c _ rfl
    · exact .begins c _ rfl
  | stores n =>
    rw [step]
    split
    · exact .stores n _ ‹_›
    · exact .nothing _
  | sends n =>
    rw [step]
    split
    · exact .sends n _ ‹_›
    · exact .nothing _
  | environment env => exact .environment env

section Owes

lemma owes_begins {stage : Stage} (hstage : stage.isStored = false) :
    Owes { h with calls := h.calls ++ [stage] } p ↔ h.Owes p := by
  rw [Owes, Numbered.getElem?_concat_eq_some]
  constructor
  · rintro (hp | ⟨-, rfl⟩)
    · exact hp
    · cases hstage
  · exact .inl

lemma owes_stores {manager : SettingsManager} {stored : List (Nat × Settings)}
    (hn : h.calls[n]? = some (.accepted s)) :
    Owes { h with manager, calls := h.calls.set n (.stored s), stored } p ↔ h.Owes p ∨ p = (n, s) := by
  obtain ⟨k, s'⟩ := p
  have hlt : n < h.calls.length := (List.getElem?_eq_some_iff.1 hn).1
  simp only [Owes]
  by_cases hk : n = k
  · subst hk
    rw [List.getElem?_set_self hlt, hn]
    simp [eq_comm]
  · rw [List.getElem?_set_ne hk]
    simp [Ne.symm hk]

lemma owes_sends {manager : SettingsManager} {sent : List (Nat × Settings)} (hn : h.Owes (n, s)) :
    Owes { h with manager, calls := h.calls.set n .ended, sent } p ↔ h.Owes p ∧ p ≠ (n, s) := by
  obtain ⟨k, s'⟩ := p
  have hlt : n < h.calls.length := (List.getElem?_eq_some_iff.1 hn).1
  simp only [Owes] at hn ⊢
  by_cases hk : n = k
  · subst hk
    rw [List.getElem?_set_self hlt, hn]
    simp [eq_comm]
  · rw [List.getElem?_set_ne hk]
    simp [Ne.symm hk]

lemma not_owes_of_none (hnone : h.calls.any Stage.isStored = false) (p : Nat × Settings) : ¬h.Owes p := by
  intro hp
  have hstored := List.any_eq_false.1 hnone _ (List.mem_of_getElem? hp)
  exact hstored rfl

lemma not_owes_of_isIdle (hidle : h.IsIdle) (p : Nat × Settings) : ¬h.Owes p := by
  intro hp
  have hended := List.all_eq_true.1 hidle _ (List.mem_of_getElem? hp)
  cases hended

end Owes

/-! ### What holds all the time -/

/-- What has been stored and what has been announced, and what this says of the manager. -/
structure Tracked (m : SettingsManager) (h : History) : Prop where
  current : (h.stored.getLast?.map Prod.snd).getD m.current = h.manager.current
  heard : h.manager.feed.kept.getLast? = h.sent.getLast?.map Prod.snd
  capacity : 0 < h.manager.feed.capacity
  once : (h.stored.map Prod.fst).Nodup ∧ (h.sent.map Prod.fst).Nodup
  ended : ∀ p ∈ h.sent, h.calls[p.1]? = some .ended
  stored : ∀ p, p ∈ h.stored ↔ p ∈ h.sent ∨ h.Owes p

lemma tracked_start (m : SettingsManager) : Tracked m (start m) where
  current := by simp only [start, List.getLast?_nil, Option.map_none, Option.getD_none]
  heard := by simp only [start, List.getLast?_nil, Option.map_none]
  capacity := by simp only [start, feedCapacity, Nat.zero_lt_succ]
  once := by simp only [start, List.map_nil, List.nodup_nil, and_self]
  ended p hp := by
    rw [start] at hp
    cases hp
  stored p := by simp only [start, Owes, List.getElem?_nil, List.not_mem_nil, reduceCtorEq, or_self]

namespace Tracked

lemma getElem?_of_stored (hh : Tracked m h) (hp : p ∈ h.stored) :
    h.calls[p.1]? = some .ended ∨ h.calls[p.1]? = some (.stored p.2) :=
  ((hh.stored p).1 hp).imp (hh.ended p) id

lemma begins (hh : Tracked m h) {stage : Stage} (hstage : stage.isStored = false) :
    Tracked m { h with calls := h.calls ++ [stage] } where
  current := hh.current
  heard := hh.heard
  capacity := hh.capacity
  once := hh.once
  ended p hp := Numbered.getElem?_concat_eq_some.2 (.inl (hh.ended p hp))
  stored p := by rw [owes_begins hstage, hh.stored]

lemma stores (hh : Tracked m h) (hn : h.calls[n]? = some (.accepted s)) :
    Tracked m
      { h with manager := h.manager.put s, calls := h.calls.set n (.stored s), stored := h.stored ++ [(n, s)] } where
  current := by
    rw [List.getLast?_concat]
    rfl
  heard := hh.heard
  capacity := hh.capacity
  once := by
    refine ⟨Numbered.nodup_concat hh.once.1 fun p hp hpn => ?_, hh.once.2⟩
    have hstage := hh.getElem?_of_stored hp
    rw [hpn, hn] at hstage
    rcases hstage with h | h <;> cases h
  ended p hp := by
    have hended := hh.ended p hp
    rw [List.getElem?_set_ne, hended]
    rintro rfl
    rw [hn] at hended
    cases hended
  stored p := by
    rw [owes_stores hn, List.mem_append, hh.stored, List.mem_singleton, or_assoc]

lemma sends (hh : Tracked m h) (hn : h.Owes (n, s)) :
    Tracked m
      { h with manager := h.manager.announce s, calls := h.calls.set n .ended, sent := h.sent ++ [(n, s)] } where
  current := hh.current
  heard := by
    rw [List.getLast?_concat]
    exact Feed.getLast?_publish hh.capacity s
  capacity := hh.capacity
  once := by
    refine ⟨hh.once.1, Numbered.nodup_concat hh.once.2 fun p hp hpn => ?_⟩
    have hended := hh.ended p hp
    rw [hpn, hn] at hended
    cases hended
  ended p hp := by
    have hlt : n < h.calls.length := (List.getElem?_eq_some_iff.1 hn).1
    by_cases hpn : n = p.1
    · rw [← hpn, List.getElem?_set_self hlt]
    · rw [List.getElem?_set_ne hpn]
      rcases List.mem_append.1 hp with hp | hp
      · exact hh.ended p hp
      · rw [List.mem_singleton.1 hp] at hpn
        exact absurd rfl hpn
  stored p := by
    rw [owes_sends hn, List.mem_append, List.mem_singleton, hh.stored]
    by_cases hp : p = (n, s)
    · subst hp
      simp [hn]
    · simp [hp]

lemma step (hh : Tracked m h) (move : Move) : Tracked m (h.step move) := by
  have hturn := turn h move
  generalize h.step move = h' at hturn ⊢
  cases hturn with
  | begins c stage hstage => exact hh.begins hstage
  | stores n s hn => exact hh.stores hn
  | sends n s hn => exact hh.sends hn
  | environment env => exact ⟨hh.current, hh.heard, hh.capacity, hh.once, hh.ended, hh.stored⟩
  | nothing => exact hh

lemma steps (hh : Tracked m h) (moves : List Move) : Tracked m (moves.foldl History.step h) := by
  induction moves generalizing h with
  | nil => exact hh
  | cons move moves ih => exact ih (hh.step move)

lemma perm (hh : Tracked m h) (hidle : h.IsIdle) : h.sent.Perm h.stored := by
  apply (List.perm_ext_iff_of_nodup (.of_map _ hh.once.2) (.of_map _ hh.once.1)).2
  intro p
  rw [hh.stored]
  constructor
  · exact .inl
  · rintro (hp | howes)
    · exact hp
    · exact absurd howes (not_owes_of_isIdle hidle p)

lemma agrees (hh : Tracked m h) (hlast : h.sent.getLast? = h.stored.getLast?) : Agrees m h := by
  rw [Agrees, hh.heard, hlast]
  exact hh.current

end Tracked

/-- Nobody has anything to announce, or it is one call that has stored its settings last. -/
inductive InStep (h : History) : Prop
  | settled (hsent : h.sent = h.stored) (hnone : ∀ p, ¬h.Owes p)
  | behind (p : Nat × Settings) (hsent : h.sent ++ [p] = h.stored) (hp : h.Owes p) (hone : ∀ q, h.Owes q → q = p)

lemma inStep_start (m : SettingsManager) : InStep (start m) :=
  .settled (by simp only [start]) fun p => by
    simp only [start, Owes, List.getElem?_nil, reduceCtorEq, not_false_eq_true]

namespace InStep

lemma step (hh : InStep h) {move : Move} {moves : List Move} (ho : Orderly h (move :: moves)) :
    InStep (h.step move) := by
  have hnow := ho.1
  have hturn := turn h move
  generalize h.step move = h' at hturn ⊢
  cases hturn with
  | begins c stage hstage =>
    cases hh with
    | settled hsent hnone => exact .settled hsent fun p hp => hnone p ((owes_begins hstage).1 hp)
    | behind p hsent hp hone =>
      exact .behind p hsent ((owes_begins hstage).2 hp) fun q hq => hone q ((owes_begins hstage).1 hq)
  | stores n s hn =>
    have hnone := not_owes_of_none hnow
    cases hh with
    | settled hsent _ =>
      refine .behind (n, s) (by rw [hsent]) ((owes_stores hn).2 (.inr rfl)) fun q hq => ?_
      exact ((owes_stores hn).1 hq).resolve_left (hnone q)
    | behind p _ hp _ => exact absurd hp (hnone p)
  | sends n s hn =>
    cases hh with
    | settled _ hnone => exact absurd hn (hnone _)
    | behind p hsent hp hone =>
      obtain rfl := hone _ hn
      refine .settled hsent fun q hq => ?_
      obtain ⟨hq, hne⟩ := (owes_sends hn).1 hq
      exact hne (hone q hq)
  | environment env =>
    cases hh with
    | settled hsent hnone => exact .settled hsent hnone
    | behind p hsent hp hone => exact .behind p hsent hp hone
  | nothing => exact hh

lemma steps (hh : InStep h) {moves : List Move} (ho : Orderly h moves) : InStep (moves.foldl History.step h) := by
  induction moves generalizing h with
  | nil => exact hh
  | cons move moves ih => exact ih (hh.step ho) ho.2

lemma sent_eq_stored (hh : InStep h) (hidle : h.IsIdle) : h.sent = h.stored := by
  cases hh with
  | settled hsent _ => exact hsent
  | behind p _ hp _ => exact absurd hp (not_owes_of_isIdle hidle p)

end InStep

/-- Each call announces what it has stored, and does so once. What is in force was stored last, and what a subscriber
hears last was announced last. These are the same if one call was the last in both, and so they are if nobody stores
anything while another has yet to announce. -/
theorem broadcasts_agree_in_order (m : SettingsManager) (moves : List Move) (hidle : (run m moves).IsIdle) :
    let h := run m moves
    (h.sent.Perm h.stored ∧ (h.sent.map Prod.fst).Nodup) ∧
      (h.stored.getLast?.map Prod.snd).getD m.current = h.manager.current ∧
      h.manager.feed.kept.getLast? = h.sent.getLast?.map Prod.snd ∧
      (h.sent.getLast? = h.stored.getLast? → Agrees m h) ∧
      (Orderly (start m) moves → h.sent = h.stored ∧ Agrees m h) := by
  intro h
  have htracked : Tracked m h := (tracked_start m).steps moves
  refine ⟨⟨htracked.perm hidle, htracked.once.2⟩, htracked.current, htracked.heard, htracked.agrees, fun horderly => ?_⟩
  have hsame : h.sent = h.stored := ((inStep_start m).steps horderly).sent_eq_stored hidle
  exact ⟨hsame, htracked.agrees (by rw [hsame])⟩

def choosing (a : Algorithm) : Move := .begins (.update { balancing := { algorithm := a } })

/-- Two calls and a change of the file overlap, but each announces its settings before the next ones are stored. -/
def orderly : List Move :=
  [choosing .weighted, choosing .ipHash, .stores 1, .begins (.change none), .sends 1, .environment blank,
    .stores 0, .sends 0]

theorem broadcasts_agree_in_order_of_two :
    let h := run begun orderly
    (h.IsIdle ∧ Orderly (start begun) orderly) ∧
      h.manager.current.balancing.algorithm = .weighted ∧ h.sent = h.stored ∧ Agrees begun h := by
  intro h
  have hidle : h.IsIdle := by decide +kernel
  have horderly : Orderly (start begun) orderly :=
    ⟨True.intro, True.intro, rfl, True.intro, True.intro, True.intro, rfl, True.intro, True.intro⟩
  obtain ⟨-, -, -, -, hagree⟩ := broadcasts_agree_in_order begun orderly hidle
  exact ⟨⟨hidle, horderly⟩, by decide +kernel, hagree horderly⟩

/-- The call that stores first announces last. -/
def overtaken : List Move :=
  [choosing .weighted, choosing .ipHash, .stores 0, .stores 1, .sends 1, .sends 0]

/-- A subscriber is left with settings that are no longer in force. -/
theorem broadcasts_disagree_overtaken :
    (run begun overtaken).IsIdle ∧
      (run begun overtaken).manager.current.balancing.algorithm = .ipHash ∧
      (run begun overtaken).manager.feed.kept.map (·.balancing.algorithm) = [.ipHash, .weighted] ∧
      ¬Agrees begun (run begun overtaken) := by
  have hcurrent : (run begun overtaken).manager.current.balancing.algorithm = .ipHash := by decide +kernel
  have hheard : (run begun overtaken).manager.feed.kept.getLast?.map (·.balancing.algorithm) = some .weighted := by
    decide +kernel
  refine ⟨by decide +kernel, hcurrent, by decide +kernel, fun hagrees => ?_⟩
  obtain ⟨s, hs, halgorithm⟩ := Option.map_eq_some_iff.1 hheard
  rw [Agrees, hs, Option.getD_some] at hagrees
  rw [hagrees, hcurrent] at halgorithm
  cases halgorithm

end History

end Serving.SettingsManager.Overlap
