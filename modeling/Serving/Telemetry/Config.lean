import Serving.Error
import Serving.LogFilter
import Serving.SocketAddress
import Serving.Source

/-!
# Settings of logging and metrics

The filter and format of the log, and the address at which metrics are offered.
-/

namespace Serving

inductive LogFormat
  | json
  | text
  deriving DecidableEq, Repr, Inhabited

namespace LogFormat

def name : LogFormat → String
  | json => "json"
  | text => "text"

def ofName? : String → Option LogFormat
  | "json" => some json
  | "text" => some text
  | _ => none

/-- Reads a format in any case of letters; `pretty` is another word for `text`. -/
def parse (s : String) : Except Error LogFormat :=
  match Text.lower s with
  | "json" => .ok json
  | "text" | "pretty" => .ok text
  | other => .error (.configuration ("Unknown log format: " ++ other))

end LogFormat

namespace Logging

structure Config where
  level : String := "info"
  format : LogFormat := .json
  deriving Inhabited

/-- A level that is no log filter, and why. -/
structure Problem where
  level : String
  cause : LogFilter.Problem
  deriving DecidableEq, Repr

def Problem.message (p : Problem) : String :=
  "logging: invalid level '" ++ p.level ++ "': " ++ p.cause.message

namespace Config

def problems (c : Config) : List Problem := ((LogFilter.problem? c.level).map (⟨c.level, ·⟩)).toList

def read : Reader Config := fun s => do
  let given ← Source.fields ["level", "format"] s
  return {
    level := ← given.get "level" Source.text "info"
    format := ← given.get "format" (Source.choice LogFormat.ofName?) .json }

def toJson (c : Config) : Json := .obj [("level", .str c.level), ("format", .str c.format.name)]

end Config

end Logging

namespace Metrics

structure Config where
  /-- Whether metrics are offered at all. -/
  enabled : Bool := false
  address : String := "0.0.0.0:9090"
  deriving Inhabited

/-- An address that is no socket address. -/
structure Problem where
  address : String
  deriving DecidableEq, Repr

def Problem.message (p : Problem) : String :=
  "metrics: invalid listen_address '" ++ p.address ++ "': " ++ SocketAddress.syntaxMessage

namespace Config

def problems (c : Config) : List Problem := if SocketAddress.isValid c.address then [] else [⟨c.address⟩]

def read : Reader Config := fun s => do
  let given ← Source.fields ["prometheus_enabled", "listen_address"] s
  return {
    enabled := ← given.get "prometheus_enabled" Source.bool false
    address := ← given.get "listen_address" Source.text "0.0.0.0:9090" }

def toJson (c : Config) : Json :=
  .obj [("prometheus_enabled", .bool c.enabled), ("listen_address", .str c.address)]

end Config

end Metrics

end Serving
