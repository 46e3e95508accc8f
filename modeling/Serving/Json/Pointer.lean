import Serving.Json.Basic

/-!
# JSON pointers

A pointer is empty, for the whole value, or a `/` and the steps of a path. `~1` stands for a slash
and `~0` for a tilde inside a step. A step into an array is a decimal index without leading zeros.
-/

namespace Serving.Json

namespace Pointer

def unescape : List Char → List Char
  | '~' :: '1' :: rest => '/' :: unescape rest
  | '~' :: '0' :: rest => '~' :: unescape rest
  | c :: rest => c :: unescape rest
  | [] => []

def steps : List Char → List (List Char)
  | [] => [[]]
  | '/' :: rest => [] :: steps rest
  | c :: rest => match steps rest with
    | [] => [[c]]
    | step :: more => (c :: step) :: more

def path? (pointer : String) : Option (List String) :=
  match pointer.toList with
  | [] => some []
  | '/' :: rest => some ((steps rest).map fun s => String.ofList (unescape s))
  | _ => none

def index? (step : String) : Option Nat :=
  let cs := step.toList
  if cs.isEmpty || !cs.all Char.isDigit || (cs.head? == some '0' && 1 < cs.length) then none
  else some (Nat.ofDigitChars 10 cs 0)

def child? (v : Json) (step : String) : Option Json :=
  match v with
  | .obj fields => fields.lookup step
  | .arr items => (index? step).bind (items[·]?)
  | _ => none

def follow : Json → List String → Option Json
  | v, [] => some v
  | v, step :: rest => (child? v step).bind (follow · rest)

/-- Puts `new` at the end of a path, if the path exists. -/
def replaceAt (new : Json) : Json → List String → Option Json
  | _, [] => some new
  | v, step :: rest => do
    let inner ← replaceAt new (← child? v step) rest
    match v with
    | .obj fields => return .obj (fields.map fun (n, w) => if n = step then (n, inner) else (n, w))
    | .arr items => (index? step).map fun i => .arr (items.set i inner)
    | _ => none

end Pointer

def at? (v : Json) (pointer : String) : Option Json := (Pointer.path? pointer).bind (Pointer.follow v)

/-- The value with `new` in place of what the pointer leads to. -/
def setAt? (v : Json) (pointer : String) (new : Json) : Option Json :=
  (Pointer.path? pointer).bind (Pointer.replaceAt new v)

end Serving.Json
