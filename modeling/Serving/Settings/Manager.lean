import Serving.Settings.Document
import Serving.Settings.Feed

/-!
# Current settings

The settings in force, and a feed of all settings that came into force since. Settings come into force
by a reload of the file or by an update, and only if nothing is wrong with them; otherwise the ones in
force stay, and the feed carries nothing.
-/

namespace Serving

structure SettingsManager where
  env : Environment
  path : String
  current : Settings
  feed : Feed Settings

namespace SettingsManager

def feedCapacity : Nat := 16

def start (env : Environment) (path : String) (text : Option String) : Except Error SettingsManager :=
  (Settings.load env path text).map fun current => { env, path, current, feed := { capacity := feedCapacity } }

def put (m : SettingsManager) (s : Settings) : SettingsManager := { m with current := s }

def announce (m : SettingsManager) (s : Settings) : SettingsManager := { m with feed := m.feed.publish s }

def apply (m : SettingsManager) (s : Settings) : SettingsManager := (m.put s).announce s

/-- Puts settings into force if nothing is wrong with them. -/
def update (m : SettingsManager) (s : Settings) : Except Error Unit × SettingsManager :=
  match s.validate with
  | .error e => (.error e, m)
  | .ok () => (.ok (), m.apply s)

def reload (m : SettingsManager) (text : Option String) : Except Error Unit × SettingsManager :=
  match Settings.load m.env m.path text with
  | .error e => (.error e, m)
  | .ok s => m.update s

/-- The file was changed while it was being watched; settings that cannot be loaded are passed over. -/
def noticeChange (m : SettingsManager) (text : Option String) : SettingsManager :=
  match Settings.load m.env m.path text with
  | .error _ => m
  | .ok s => m.apply s

/-- The settings that came into force since the subscriber last looked, as far as they were kept. -/
def news (m : SettingsManager) : List Settings × SettingsManager :=
  let (events, feed) := m.feed.takeAll
  (events, { m with feed })

theorem current_of_rejected (m : SettingsManager) (s : Settings) (e : Error) (h : s.validate = .error e) :
    (m.update s).2 = m := by simp [update, h]

end SettingsManager

end Serving
