import Mathlib.Tactic.Lemma
import Serving.Settings.Manager

/-! Runs of a settings manager that is called again and again. Between two calls the variables of the environment may
change, and each reload finds the file as it is at that time. A subscriber looks at the feed when it likes, and notes
what it sees. -/

namespace Serving

namespace Settings

variable {env : Environment} {path : String} {text : Option String} {s : Settings} {e : Error}

/-- What stands against the settings in a file, by the stage of loading at which it is found. -/
inductive Faulty (env : Environment) (path : String) : Option String → Error → Prop
  | unreadable : Faulty env path none (.configuration LoadError.unreadable.message)
  | malformed {text : String} {e : LoadError} (hparse : parse (isJsonFile path) text = .error e) :
    Faulty env path (some text) (.configuration e.message)
  | override {text : String} {given : Settings} {e : Error} (hparse : parse (isJsonFile path) text = .ok given)
    (happly : given.applyOverrides env = .error e) : Faulty env path (some text) e
  | invalid {text : String} {given s : Settings} {e : Error} (hparse : parse (isJsonFile path) text = .ok given)
    (happly : given.applyOverrides env = .ok s) (hcheck : s.validate = .error e) : Faulty env path (some text) e

/-- The settings in a file, with the variables applied, if nothing is wrong with them. -/
inductive Loads (env : Environment) (path : String) : Option String → Settings → Prop
  | intact {text : String} {given s : Settings} (hparse : parse (isJsonFile path) text = .ok given)
    (happly : given.applyOverrides env = .ok s) (hvalid : s.IsValid) : Loads env path (some text) s

lemma load_parsed {text : String} {given : Settings} (hparse : parse (isJsonFile path) text = .ok given) :
    load env path (some text) = (given.applyOverrides env).bind fun s => s.validate.map fun _ => s := by
  simp only [load, hparse, bind, Except.bind]
  cases given.applyOverrides env with
  | error e => rfl
  | ok s =>
    dsimp only
    cases s.validate <;> rfl

lemma load_cases (env : Environment) (path : String) (text : Option String) :
    (∃ e, load env path text = .error e ∧ Faulty env path text e) ∨
      ∃ s, load env path text = .ok s ∧ Loads env path text s := by
  cases text with
  | none => exact .inl ⟨_, rfl, .unreadable⟩
  | some text =>
    cases hparse : parse (isJsonFile path) text with
    | error e => exact .inl ⟨_, by rw [load, hparse], .malformed hparse⟩
    | ok given =>
      rw [load_parsed hparse]
      cases happly : given.applyOverrides env with
      | error e => exact .inl ⟨e, rfl, .override hparse happly⟩
      | ok s =>
        cases hcheck : s.validate with
        | error e => exact .inl ⟨e, by rw [Except.bind, hcheck]; rfl, .invalid hparse happly hcheck⟩
        | ok u =>
          refine .inr ⟨s, by rw [Except.bind, hcheck]; rfl, .intact hparse happly ?_⟩
          exact (validate_eq_ok_iff s).1 hcheck

end Settings

namespace SettingsManager

open Settings (Faulty Loads)

/-- What asks for settings to come into force. Where a file is read, it comes with the text found there. -/
inductive Call
  | reload (text : Option String)
  | update (s : Settings)
  /-- Somebody who watches the file has seen that it changed. -/
  | change (text : Option String)

namespace Call

/-- The settings that are asked for, or what stands against them. -/
def offer (env : Environment) (path : String) : Call → Except Error Settings
  | reload text | change text => Settings.load env path text
  | update s => s.validate.map fun _ => s

def Refused (env : Environment) (path : String) : Call → Error → Prop
  | reload text, e | change text, e => Faulty env path text e
  | update s, e => s.validate = .error e

def Accepted (env : Environment) (path : String) : Call → Settings → Prop
  | reload text, s | change text, s => Loads env path text s
  | update given, s => given = s ∧ s.IsValid

variable {env : Environment} {path : String}

lemma Accepted.isValid {c : Call} {s : Settings} (h : c.Accepted env path s) : s.IsValid := by
  cases c with
  | reload text | change text =>
    cases h with
    | intact _ _ hvalid => exact hvalid
  | update given => exact h.2

lemma offer_cases (env : Environment) (path : String) (c : Call) :
    (∃ e, c.offer env path = .error e ∧ c.Refused env path e) ∨
      ∃ s, c.offer env path = .ok s ∧ c.Accepted env path s := by
  cases c with
  | reload text | change text => exact Settings.load_cases env path text
  | update s =>
    cases hcheck : s.validate with
    | error e => exact .inl ⟨e, by rw [offer, hcheck]; rfl, hcheck⟩
    | ok u => exact .inr ⟨s, by rw [offer, hcheck]; rfl, rfl, (Settings.validate_eq_ok_iff s).1 hcheck⟩

end Call

def perform (m : SettingsManager) : Call → Except Error Unit × SettingsManager
  | .reload text => m.reload text
  | .update s => m.update s
  | .change text => ((Settings.load m.env m.path text).map fun _ => (), m.noticeChange text)

variable {m : SettingsManager} {c : Call} {s : Settings} {e : Error}

lemma perform_refused (h : c.offer m.env m.path = .error e) : m.perform c = (.error e, m) := by
  cases c with
  | reload text =>
    simp only [Call.offer] at h
    simp only [perform, reload, h]
  | change text =>
    simp only [Call.offer] at h
    simp only [perform, noticeChange, h]
    rfl
  | update s =>
    cases hcheck : s.validate with
    | error e' =>
      simp only [Call.offer, hcheck] at h
      cases h
      simp only [perform, update, hcheck]
    | ok u =>
      simp only [Call.offer, hcheck] at h
      cases h

lemma perform_accepted (h : c.offer m.env m.path = .ok s) : m.perform c = (.ok (), m.apply s) := by
  have hvalid : s.validate = .ok () := by
    rcases c.offer_cases m.env m.path with ⟨e, he, -⟩ | ⟨s', hs, haccepted⟩
    · rw [h] at he
      cases he
    · rw [h] at hs
      cases hs
      exact (Settings.validate_eq_ok_iff s).2 haccepted.isValid
  cases c with
  | reload text =>
    simp only [Call.offer] at h
    simp only [perform, reload, h, update, hvalid]
  | change text =>
    simp only [Call.offer] at h
    simp only [perform, noticeChange, h]
    rfl
  | update given =>
    cases hcheck : given.validate with
    | error e =>
      simp only [Call.offer, hcheck] at h
      cases h
    | ok u =>
      simp only [Call.offer, hcheck] at h
      cases h
      simp only [perform, update, hvalid]

/-- The settings that a call brings into force. -/
def brought (m : SettingsManager) (c : Call) : List Settings :=
  match (m.perform c).1 with
  | .ok () => (c.offer m.env m.path).toOption.toList
  | .error _ => []

lemma brought_refused (h : c.offer m.env m.path = .error e) : m.brought c = [] := by
  rw [brought, perform_refused h]

lemma brought_accepted (h : c.offer m.env m.path = .ok s) : m.brought c = [s] := by
  rw [brought, perform_accepted h, h]
  rfl

inductive Move
  | call (c : Call)
  | environment (env : Environment)
  /-- The subscriber looks at the feed once. -/
  | look

structure History where
  manager : SettingsManager
  /-- What calls have brought into force. -/
  accepted : List Settings := []
  /-- What the subscriber has seen. -/
  log : List (Feed.Look Settings) := []

namespace History

def step (h : History) : Move → History
  | .call c => { h with manager := (h.manager.perform c).2, accepted := h.accepted ++ h.manager.brought c }
  | .environment env => { h with manager := { h.manager with env } }
  | .look =>
    let (look, feed) := h.manager.feed.next
    { h with manager := { h.manager with feed }, log := h.log ++ [look] }

def run (m : SettingsManager) (moves : List Move) : History := moves.foldl step { manager := m }

variable {h : History}

lemma step_refused (ho : c.offer h.manager.env h.manager.path = .error e) : h.step (.call c) = h := by
  rw [step, perform_refused ho, brought_refused ho, List.append_nil]

lemma step_accepted (ho : c.offer h.manager.env h.manager.path = .ok s) :
    h.step (.call c) = { h with manager := h.manager.apply s, accepted := h.accepted ++ [s] } := by
  rw [step, perform_accepted ho, brought_accepted ho]

end History

end SettingsManager

end Serving
