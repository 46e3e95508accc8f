import Serving.Json.Parser
import Serving.Settings.Overrides
import Serving.Yaml.Reader

/-!
# Settings in files

A file holds settings as JSON if its name says so, and as YAML otherwise. Settings that are loaded have
had the variables of the environment applied, and nothing is wrong with them.
-/

namespace Serving

namespace Settings

/-- What can go wrong before settings are looked at. -/
inductive LoadError
  | unreadable
  | malformedYaml
  | malformedJson
  deriving DecidableEq, Repr

def LoadError.message : LoadError → String
  | unreadable => "Failed to read config file"
  | malformedYaml => "Failed to parse config"
  | malformedJson => "Failed to parse JSON config"

/-- The last part of a path. -/
def fileName (path : String) : List Char := (path.toList.reverse.takeWhile (· != '/')).reverse

/-- Whether a file holds JSON: its name ends in `.json`, with something in front. -/
def isJsonFile (path : String) : Bool :=
  let name := fileName path
  let ending := ".json".toList
  ending.length < name.length && name.drop (name.length - ending.length) == ending

/-- Reads settings from the text of a file. -/
def parse (isJson : Bool) (text : String) : Except LoadError Settings :=
  if isJson then
    match (Json.read text).bind fun v => read (.json v) with
    | some s => .ok s
    | none => .error .malformedJson
  else
    match (Yaml.read text).bind fun v => read (.yaml v) with
    | some s => .ok s
    | none => .error .malformedYaml

/-- Loads settings from a file that may not be there. -/
def load (env : Environment) (path : String) (text : Option String) : Except Error Settings :=
  match text with
  | none => .error (.configuration LoadError.unreadable.message)
  | some text =>
    match parse (isJsonFile path) text with
    | .error e => .error (.configuration e.message)
    | .ok s => do
      let s ← s.applyOverrides env
      s.validate
      return s

end Settings

end Serving
