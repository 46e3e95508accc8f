import Serving.Proofs.Settings.Feed
import Serving.Proofs.Settings.History

/-! Settings come into force as a whole or not at all. What is in force is valid and was accepted last, a call that is
turned down changes nothing, and the feed carries what was accepted and nothing else. -/

namespace Serving.SettingsManager

variable {m : SettingsManager} {first : Settings} {h : History} {env : Environment} {path : String}
  {text : Option String}

lemma intact_start (hm : start env path text = .ok m) :
    m.current.IsValid ∧ m.feed = { capacity := feedCapacity } := by
  rw [start] at hm
  rcases Settings.load_cases env path text with ⟨e, hload, -⟩ | ⟨s, hload, hs⟩
  · rw [hload] at hm
    cases hm
  · rw [hload] at hm
    cases hm
    cases hs with
    | intact _ _ hvalid => exact ⟨hvalid, rfl⟩

/-- What becomes of a call: it fails at one of the stages of loading and then everything is as before, or its settings
come into force. -/
inductive Decided (h : History) (c : Call) : Prop
  | refused (e : Error) (hwhy : c.Refused h.manager.env h.manager.path e)
    (hanswer : (h.manager.perform c).1 = .error e) (hkept : h.step (.call c) = h)
  | accepted (s : Settings) (hwhy : c.Accepted h.manager.env h.manager.path s)
    (hanswer : (h.manager.perform c).1 = .ok ()) (hcurrent : (h.step (.call c)).manager.current = s)
    (hcounted : (h.step (.call c)).accepted = h.accepted ++ [s])

lemma decided (h : History) (c : Call) : Decided h c := by
  rcases c.offer_cases h.manager.env h.manager.path with ⟨e, ho, hrefused⟩ | ⟨s, ho, haccepted⟩
  · exact .refused e hrefused (by rw [perform_refused ho]) (History.step_refused ho)
  · have hstep := History.step_accepted ho
    exact .accepted s haccepted (by rw [perform_accepted ho]) (by rw [hstep]; rfl) (by rw [hstep])

/-- What a manager keeps to that began with some settings. -/
structure Atomic (first : Settings) (h : History) : Prop where
  valid : h.manager.current.IsValid
  latest : (first :: h.accepted).getLast? = some h.manager.current
  /-- The subscriber is told of the settings that were accepted, in that order, and of no others. -/
  broadcast : h.manager.feed.Follows h.log h.accepted
  capacity : h.manager.feed.capacity = feedCapacity

namespace Atomic

lemma call (hh : Atomic first h) (c : Call) : Atomic first (h.step (.call c)) := by
  rcases c.offer_cases h.manager.env h.manager.path with ⟨e, ho, -⟩ | ⟨s, ho, haccepted⟩
  · rw [History.step_refused ho]
    exact hh
  · rw [History.step_accepted ho]
    refine ⟨haccepted.isValid, ?_, hh.broadcast.publish s, hh.capacity⟩
    rw [← List.cons_append, List.getLast?_concat]
    rfl

lemma look (hh : Atomic first h) : Atomic first (h.step .look) where
  valid := hh.valid
  latest := hh.latest
  broadcast := hh.broadcast.next
  capacity := (Feed.capacity_next _).trans hh.capacity

lemma step (hh : Atomic first h) (move : Move) : Atomic first (h.step move) := by
  cases move with
  | call c => exact hh.call c
  | environment env => exact ⟨hh.valid, hh.latest, hh.broadcast, hh.capacity⟩
  | look => exact hh.look

lemma steps (hh : Atomic first h) (moves : List Move) : Atomic first (moves.foldl History.step h) := by
  induction moves generalizing h with
  | nil => exact hh
  | cons move moves ih => exact ih (hh.step move)

end Atomic

def blank : Environment := fun _ => none

/-- A manager that has found an empty file. -/
def begun : SettingsManager :=
  { env := blank, path := "c.yaml", current := {}, feed := { capacity := feedCapacity } }

def hostile : Environment := fun name => if name = "OPTIMIZER_REDIS_PORT" then some "none" else none

def choosing (algorithm : String) : String := "load_balancing:\n  algorithm: " ++ algorithm ++ "\n"

/-- A good file, no file, a file that cannot be read as settings, a variable that cannot be read, settings that are not
valid, and a good file again. -/
def restless : List Move :=
  [.call (.reload (some (choosing "ip_hash"))), .look, .call (.reload none), .call (.change (some "[]")),
    .environment hostile, .call (.reload (some (choosing "weighted"))), .environment blank,
    .call (.update { routing := { defaultModel := "" } }), .call (.change (some (choosing "weighted"))), .look]

end Serving.SettingsManager
