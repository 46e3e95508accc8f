import Serving.Json.Pointer

/-!
# Parts and changes of JSON values

Views of parts of a value, and changes at single members or at all texts.
-/

namespace Serving.Json

/-- The parts that pointers lead to, each under its pointer. -/
def pick (v : Json) (pointers : List String) : Json := .obj (pointers.map fun p => (p, (v.at? p).getD .null))

/-- Changes the member called `name`. -/
def modifyField (name : String) (f : Json → Json) : Json → Json
  | .obj fields => .obj (fields.map fun (n, v) => if n = name then (n, f v) else (n, v))
  | v => v

/-- Leaves the member called `name` out. -/
def eraseField (name : String) : Json → Json
  | .obj fields => .obj (fields.filter (·.1 != name))
  | v => v

mutual

/-- Changes every text in a value; names stay. -/
def mapTexts (f : String → String) : Json → Json
  | .str s => .str (f s)
  | .arr items => .arr (mapItemTexts f items)
  | .obj fields => .obj (mapFieldTexts f fields)
  | v => v

def mapItemTexts (f : String → String) : List Json → List Json
  | [] => []
  | v :: rest => mapTexts f v :: mapItemTexts f rest

def mapFieldTexts (f : String → String) : List (String × Json) → List (String × Json)
  | [] => []
  | (name, v) :: rest => (name, mapTexts f v) :: mapFieldTexts f rest

end

end Serving.Json
