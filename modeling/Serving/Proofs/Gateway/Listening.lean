import Serving.Gateway.Lifecycle
import Serving.Proofs.Scaling.Roster
import Serving.Proofs.Settings.Feed
import Serving.Proofs.Settings.History
import Serving.Proofs.Settings.Validity
import Serving.Rehearsal.Parties

/-! A gateway that listens to a settings manager. It may fall behind and miss settings that came into force, but never
the last ones: whatever it took over before, once there is nothing left to hear it goes by these. -/

namespace Serving.Gateway

open SettingsManager (Call)

variable {τ π : Type}

/-- The scaler and the balancer do as some settings say. -/
structure GoesBy (g : Gateway τ π) (s : Settings) : Prop where
  scaling : g.fleet.config = s.scaling
  algorithm : g.balancer.algorithm = s.balancing.algorithm

/-- There is nothing left to hear. -/
def IsUpToDate (g : Gateway τ π) : Prop := ∃ feed, g.feed = some feed ∧ feed.kept = []

/-- Hears one thing that the feed has to tell. -/
def hear (g : Gateway τ π) : Gateway τ π :=
  match g.feed with
  | some feed =>
    match feed.next with
    | (.value s, feed) => { g with feed := some feed }.adopt s
    | (_, feed) => { g with feed := some feed }
  | none => g

namespace Listening

inductive Move (τ π : Type)
  | call (c : Call)
  | environment (env : Environment)
  /-- The gateway hears one thing only, and may be interrupted then. -/
  | hear
  /-- The gateway hears all there is. -/
  | turn
  | other (change : Gateway τ π → Gateway τ π)

/-- If it is something else that happens to the gateway, then settings are not its business. -/
def Move.IsUnrelated : Move τ π → Prop
  | .other change => ∀ g, (change g).feed = g.feed ∧ (change g).fleet.config = g.fleet.config ∧
      (change g).balancer.algorithm = g.balancer.algorithm
  | _ => True

structure History (τ π : Type) where
  manager : SettingsManager
  gateway : Gateway τ π
  accepted : List Settings := []

namespace History

def step (h : History τ π) : Move τ π → History τ π
  | .call c =>
    { manager := (h.manager.perform c).2
      gateway := (h.manager.brought c).foldl (fun g s => g.announce [s]) h.gateway
      accepted := h.accepted ++ h.manager.brought c }
  | .environment env => { h with manager := { h.manager with env } }
  | .hear => { h with gateway := h.gateway.hear }
  | .turn => { h with gateway := h.gateway.handle .feedArrives }
  | .other change => { h with gateway := change h.gateway }

/-- The gateway begins to listen, and then the moves take place. -/
def run (m : SettingsManager) (g : Gateway τ π) (moves : List (Move τ π)) : History τ π :=
  moves.foldl step { manager := m, gateway := g.listen { capacity := SettingsManager.feedCapacity } }

end History

end Listening

variable {g : Gateway τ π} {feed : Feed Settings} {s : Settings}

lemma algorithm_setAlgorithm (b : Balancer) (a : Algorithm) : (b.setAlgorithm a).algorithm = a := by
  rw [Balancer.setAlgorithm]
  split
  · assumption
  · rfl

lemma goesBy_adopt (g : Gateway τ π) (hs : s.IsValid) : (g.adopt s).GoesBy s where
  scaling := by
    simp only [adopt, setBalancer, Scaling.Fleet.updateConfig, (Scaling.Config.problems_eq_nil_iff.1 hs.scaling).2]
  algorithm := algorithm_setAlgorithm ..

lemma hear_nothing (hf : g.feed = some feed) (hm : feed.missed = 0) (hk : feed.kept = []) : g.hear = g := by
  simp only [hear, hf, Feed.next, hm, hk, if_true]
  rw [← hf]

lemma hear_value {rest : List Settings} (hf : g.feed = some feed) (hm : feed.missed = 0) (hk : feed.kept = s :: rest) :
    g.hear = { g with feed := some { feed with kept := rest } }.adopt s := by
  simp only [hear, hf, Feed.next, hm, hk, if_true]

lemma hear_gap (hf : g.feed = some feed) (hm : feed.missed ≠ 0) :
    g.hear = { g with feed := some { feed with missed := 0 } } := by
  simp only [hear, hf, Feed.next, hm, if_false]

/-! ### One turn of the listener -/

lemma readFeed_hear (g : Gateway τ π) : g.hear.readFeed = g.readFeed := by
  cases hf : g.feed with
  | none => simp only [hear, hf]
  | some feed =>
    by_cases hm : feed.missed = 0
    · cases hk : feed.kept with
      | nil => rw [hear_nothing hf hm hk]
      | cons s rest =>
        rw [hear_value hf hm hk]
        simp only [readFeed, hf, Feed.drain, hk, List.foldl_cons]
        rfl
    · rw [hear_gap hf hm]
      simp only [readFeed, hf, Feed.drain]

/-- What the gateway keeps by hearing one thing, it keeps in a turn. -/
lemma turn_induction {P : Gateway τ π → Prop} (step : ∀ g, P g → P g.hear) (h : P g) : P g.readFeed := by
  cases hf : g.feed with
  | none =>
    simp only [readFeed, hf]
    exact h
  | some feed =>
    -- the gap comes first, and then one value after the other
    have heard {g : Gateway τ π} {feed : Feed Settings} (h : P g) (hf : g.feed = some feed) (hm : feed.missed = 0) :
        P g.readFeed := by
      induction hk : feed.kept generalizing g feed with
      | nil =>
        have hrest : ({ feed with kept := [], missed := 0 } : Feed Settings) = feed := by
          rw [← hm, ← hk]
        simp only [readFeed, hf, Feed.drain, hk, List.foldl_nil, hrest]
        rw [← hf]
        exact h
      | cons s rest ih =>
        rw [← readFeed_hear]
        have hrest : g.hear.feed = some { feed with kept := rest } := by
          rw [hear_value hf hm hk]
          rfl
        exact ih (step g h) hrest hm rfl
    by_cases hm : feed.missed = 0
    · exact heard h hf hm
    · rw [← readFeed_hear]
      have hgap : g.hear.feed = some { feed with missed := 0 } := by rw [hear_gap hf hm]
      exact heard (step g h) hgap rfl

lemma feed_foldl_adopt (news : List Settings) (g : Gateway τ π) : (news.foldl adopt g).feed = g.feed := by
  induction news generalizing g with
  | nil => rfl
  | cons s news ih => exact ih _

lemma isUpToDate_readFeed (hf : g.feed = some feed) : g.readFeed.IsUpToDate := by
  simp only [readFeed, hf]
  exact ⟨_, feed_foldl_adopt _ _, rfl⟩

/-! ### What holds all the time -/

/-- The gateway will yet hear of the settings that were accepted last, or it goes by them. -/
structure Heeds (g : Gateway τ π) (accepted : List Settings) : Prop where
  valid : ∀ s ∈ accepted, s.IsValid
  listens : ∃ feed, g.feed = some feed ∧ 0 < feed.capacity ∧ feed.kept <:+ accepted
  settled : g.IsUpToDate → ∀ s, accepted.getLast? = some s → g.GoesBy s

namespace Heeds

variable {accepted : List Settings}

lemma hear (h : Heeds g accepted) : Heeds g.hear accepted := by
  obtain ⟨feed, hf, hcapacity, hsuffix⟩ := h.listens
  by_cases hm : feed.missed = 0
  · cases hk : feed.kept with
    | nil =>
      rw [hear_nothing hf hm hk]
      exact h
    | cons s rest =>
      rw [hk] at hsuffix
      rw [hear_value hf hm hk]
      refine ⟨h.valid, ⟨{ feed with kept := rest }, rfl, hcapacity, (List.suffix_cons s rest).trans hsuffix⟩, ?_⟩
      rintro ⟨_, ⟨⟩, hrest⟩ latest hlatest
      -- it was the last value in the feed, so it was accepted last
      obtain rfl : rest = [] := hrest
      obtain ⟨before, rfl⟩ := hsuffix
      rw [List.getLast?_concat] at hlatest
      cases hlatest
      exact goesBy_adopt _ (h.valid s (List.mem_append_right _ List.mem_cons_self))
  · rw [hear_gap hf hm]
    refine ⟨h.valid, ⟨_, rfl, hcapacity, hsuffix⟩, ?_⟩
    rintro ⟨_, ⟨⟩, hk⟩ latest hlatest
    have hsettled := h.settled ⟨feed, hf, hk⟩ latest hlatest
    exact ⟨hsettled.scaling, hsettled.algorithm⟩

lemma turn (h : Heeds g accepted) : Heeds g.readFeed accepted := by
  have hstep (g : Gateway τ π) : Heeds g accepted → Heeds g.hear accepted := hear
  exact turn_induction hstep h

lemma announce (h : Heeds g accepted) (hs : s.IsValid) : Heeds (g.announce [s]) (accepted ++ [s]) := by
  obtain ⟨feed, hf, hcapacity, hsuffix⟩ := h.listens
  have hfeed : (g.announce [s]).feed = some (feed.publish s) := by
    simp only [Gateway.announce, hf, List.foldl_cons, List.foldl_nil]
    rfl
  refine ⟨fun given hgiven => ?_, ⟨_, hfeed, hcapacity, Feed.suffix_publish hsuffix s⟩, ?_⟩
  · rcases List.mem_append.1 hgiven with hgiven | hgiven
    · exact h.valid given hgiven
    · rw [List.mem_singleton.1 hgiven]
      exact hs
  · rintro ⟨feed', hf', hk⟩
    rw [hfeed] at hf'
    cases hf'
    exact absurd hk (Feed.kept_publish_ne_nil hcapacity s)

lemma congr {g' : Gateway τ π} (h : Heeds g accepted) (hfeed : g'.feed = g.feed)
    (hconfig : g'.fleet.config = g.fleet.config) (halgorithm : g'.balancer.algorithm = g.balancer.algorithm) :
    Heeds g' accepted where
  valid := h.valid
  listens := by
    rw [hfeed]
    exact h.listens
  settled := by
    rw [IsUpToDate, hfeed]
    intro hup latest hlatest
    obtain ⟨hscaling, hchoice⟩ := h.settled hup latest hlatest
    exact ⟨hconfig.trans hscaling, halgorithm.trans hchoice⟩

end Heeds

namespace Listening.History

variable {h : History τ π}

/-- The gateway heeds what the manager accepts, and the manager has in force what it accepted last. -/
structure Coupled (h : History τ π) : Prop where
  heeds : h.gateway.Heeds h.accepted
  latest : ∀ s, h.accepted.getLast? = some s → h.manager.current = s

lemma coupled_step (hh : Coupled h) {move : Move τ π} (hm : move.IsUnrelated) : Coupled (h.step move) := by
  cases move with
  | call c =>
    rcases c.offer_cases h.manager.env h.manager.path with ⟨e, ho, -⟩ | ⟨s, ho, haccepted⟩
    · rw [step, SettingsManager.brought_refused ho, SettingsManager.perform_refused ho, List.append_nil]
      exact hh
    · rw [step, SettingsManager.brought_accepted ho, SettingsManager.perform_accepted ho]
      refine ⟨hh.heeds.announce haccepted.isValid, fun latest hlatest => ?_⟩
      rw [List.getLast?_concat] at hlatest
      exact Option.some.inj hlatest
  | environment env => exact ⟨hh.heeds, hh.latest⟩
  | hear => exact ⟨hh.heeds.hear, hh.latest⟩
  | turn => exact ⟨hh.heeds.turn, hh.latest⟩
  | other change =>
    obtain ⟨hfeed, hconfig, halgorithm⟩ := hm h.gateway
    exact ⟨hh.heeds.congr hfeed hconfig halgorithm, hh.latest⟩

lemma coupled_steps (hh : Coupled h) {moves : List (Move τ π)} (hm : ∀ move ∈ moves, move.IsUnrelated) :
    Coupled (moves.foldl step h) := by
  induction moves generalizing h with
  | nil => exact hh
  | cons move moves ih =>
    rw [List.forall_mem_cons] at hm
    exact ih (coupled_step hh hm.1) hm.2

lemma coupled_start (m : SettingsManager) (hg : g.isShutDown = false) :
    Coupled { manager := m, gateway := g.listen { capacity := SettingsManager.feedCapacity } } := by
  have hfeed : (g.listen { capacity := SettingsManager.feedCapacity }).feed =
      some { capacity := SettingsManager.feedCapacity } := by
    simp only [listen, hg, Bool.false_eq_true, if_false]
    rfl
  have hnone (s : Settings) : ([] : List Settings).getLast? ≠ some s := by simp
  refine ⟨⟨fun s hs => ?_, ⟨_, hfeed, ?_, List.suffix_refl _⟩, fun _ s hs => ?_⟩, fun s hs => ?_⟩
  · cases hs
  · exact Nat.succ_pos 15
  · exact absurd hs (hnone s)
  · exact absurd hs (hnone s)

/-- A gateway that has heard all there is to hear goes by the settings that were accepted last, which are the ones in
force, no matter how many were accepted between two of its turns and which of them it missed. After a turn it has heard
all there is. -/
theorem settings_converge (m : SettingsManager) (hg : g.isShutDown = false) (moves : List (Move τ π))
    (hm : ∀ move ∈ moves, move.IsUnrelated) :
    let h := run m g moves
    ∀ s, h.accepted.getLast? = some s → h.manager.current = s ∧ (h.gateway.IsUpToDate → h.gateway.GoesBy s) ∧
      h.gateway.readFeed.IsUpToDate ∧ h.gateway.readFeed.GoesBy s := by
  intro h s hs
  have hcoupled : Coupled h := coupled_steps (coupled_start m hg) hm
  obtain ⟨feed, hf, -⟩ := hcoupled.heeds.listens
  have hup := isUpToDate_readFeed hf
  exact ⟨hcoupled.latest s hs, fun hup => hcoupled.heeds.settled hup s hs, hup, hcoupled.heeds.turn.settled hup s hs⟩

def quiet : Parties Cache.Memory Scaling.Ports where
  store := .ofMemory
  provisioner := Scaling.Ports.provisioner
  executor := Rehearsal.executor 0
  database := Rehearsal.database
  handler := Rehearsal.handler
  probe _ := ⟨true, 10, 10⟩

def usual : Gateway Cache.Memory Scaling.Ports := .assemble quiet {} true (.new 1) (.usual 1.0)

def choose (a : Algorithm) : Move Cache.Memory Scaling.Ports := .call (.update { balancing := { algorithm := a } })

/-- Settings are heard, then more come than are kept, then some that are turned down; a loop sweeps the cache while the
gateway catches up. -/
def hurried : List (Move Cache.Memory Scaling.Ports) :=
  [choose .weighted, .hear] ++ List.replicate 16 (choose .ipHash) ++
    [choose .leastConnections, .call (.reload none), .hear, .other fun g => g.setCache (g.cache.sweep g.now).2]

def usualManager : SettingsManager :=
  { env := fun _ => none, path := "c.yaml", current := {}, feed := { capacity := SettingsManager.feedCapacity } }

/-- The gateway still does as the first settings said, although it has noticed the gap. -/
theorem settings_converge_hurried :
    let h := run usualManager usual hurried
    (usual.isShutDown = false ∧ (∀ move ∈ hurried, move.IsUnrelated)) ∧
      (h.accepted.length = 18 ∧ h.gateway.balancer.algorithm = .weighted) ∧
      ∃ s, (h.accepted.getLast? = some s ∧ s.balancing.algorithm = .leastConnections) ∧
        h.manager.current = s ∧ (h.gateway.IsUpToDate → h.gateway.GoesBy s) ∧ h.gateway.readFeed.IsUpToDate ∧
          h.gateway.readFeed.GoesBy s := by
  intro h
  have hunrelated : ∀ move ∈ hurried, move.IsUnrelated := by
    intro move hmove
    simp only [hurried, List.mem_append, List.mem_cons, List.not_mem_nil, or_false, List.mem_replicate] at hmove
    rcases hmove with ((rfl | rfl) | ⟨-, rfl⟩) | rfl | rfl | rfl | rfl
    case inr.inr.inr.inr => exact fun _ => ⟨rfl, rfl, rfl⟩
    all_goals exact True.intro
  have hlatest : h.accepted.getLast?.map (·.balancing.algorithm) = some .leastConnections := by decide +kernel
  obtain ⟨s, hs, halgorithm⟩ := Option.map_eq_some_iff.1 hlatest
  exact ⟨⟨rfl, hunrelated⟩, by decide +kernel, s, ⟨hs, halgorithm⟩,
    settings_converge usualManager rfl hurried hunrelated s hs⟩

end Listening.History

end Serving.Gateway
