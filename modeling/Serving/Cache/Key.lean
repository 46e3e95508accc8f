import Serving.Digest.Sha256
import Serving.Json.Printer

/-!
# Cache keys

An entry is found by its cache type and a set of named parameters. The key spells out the type and
ends in a digest of type and parameters; parameters count as a set of names with values, so their
order does not matter and the last of several values of one name wins.
-/

namespace Serving

namespace Cache

abbrev Params := List (String × Json)

namespace Key

/-- What every key starts with. -/
def space : String := "cache"

/-- Hexadecimal digits of the digest that go into a key. -/
def digestLength : Nat := 32

/-- The text that is digested: the type, a zero character, and the parameters as an object. -/
def preimage (type : String) (params : Params) : String :=
  type ++ "\x00" ++ Json.compact (Json.canonical (.obj params))

/-- What all keys of a type start with. -/
def ofType (type : String) : String := space ++ ":" ++ type ++ ":"

/-- The pattern that all keys of a type match. -/
def pattern (type : String) : String := ofType type ++ "*"

def digest (text : String) : String :=
  String.ofList ((Digest.hex (Digest.sha256 (Digest.utf8 text))).take digestLength)

def derive (type : String) (params : Params) : String := ofType type ++ digest (preimage type params)

end Key

end Cache

end Serving
