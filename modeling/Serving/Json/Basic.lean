import Serving.Decimal.Binary

/-!
# JSON values

A value as it was read keeps its members in the order of the text, repetitions included. Its
canonical form sorts the members of every object by name and lets the last of several members of one
name win; two values are the same value when their canonical forms are.
-/

namespace Serving

inductive Json
  | null
  | bool (b : Bool)
  | int (n : Int)
  | float (x : Float)
  | str (s : String)
  | arr (items : List Json)
  | obj (fields : List (String × Json))

namespace Json

instance : Inhabited Json := ⟨.null⟩

/-- A number, or `null` where JSON has no number for it. -/
def ofFloat (x : Float) : Json := if Decimal.isNumber x then .float x else .null

def ofNat (n : Nat) : Json := .int n

def ofOption {α : Type} (f : α → Json) : Option α → Json
  | none => .null
  | some a => f a

/-- Places a member in front of the first member with a larger name. -/
def placeField (name : String) (v : Json) : List (String × Json) → List (String × Json)
  | [] => [(name, v)]
  | (n, w) :: rest => if name < n then (name, v) :: (n, w) :: rest else (n, w) :: placeField name v rest

mutual

/-- Sorts the members of every object and drops all but the last of one name. -/
def canonical : Json → Json
  | .null => .null
  | .bool b => .bool b
  | .int n => .int n
  | .float x => .float x
  | .str s => .str s
  | .arr items => .arr (canonicalItems items)
  | .obj fields => .obj (canonicalFields fields)

def canonicalItems : List Json → List Json
  | [] => []
  | v :: rest => canonical v :: canonicalItems rest

def canonicalFields : List (String × Json) → List (String × Json)
  | [] => []
  | (name, v) :: rest =>
    let later := canonicalFields rest
    if later.any (·.1 == name) then later else placeField name (canonical v) later

end

/-- What holds of an array or an object whenever it holds of the parts, and of everything else, holds of all values. -/
@[elab_as_elim]
theorem induction {motive : Json → Prop} (null : motive .null) (bool : ∀ b, motive (.bool b))
    (int : ∀ n, motive (.int n)) (float : ∀ x, motive (.float x)) (str : ∀ s, motive (.str s))
    (arr : ∀ items, (∀ v ∈ items, motive v) → motive (.arr items))
    (obj : ∀ fields, (∀ f ∈ fields, motive f.2) → motive (.obj fields)) : ∀ v, motive v
  | .null => null
  | .bool b => bool b
  | .int n => int n
  | .float x => float x
  | .str s => str s
  | .arr items => arr items fun v _ => induction null bool int float str arr obj v
  | .obj fields => obj fields fun f _ => induction null bool int float str arr obj f.2
termination_by v => v
decreasing_by
  · rename_i h
    have := List.sizeOf_lt_of_mem h
    simp
    omega
  · rename_i h
    have := List.sizeOf_lt_of_mem h
    cases f
    simp at *
    omega

/-- The member called `name`, if the value is an object that has one. -/
def field? (v : Json) (name : String) : Option Json :=
  match v with
  | .obj fields => fields.lookup name
  | _ => none

def text? : Json → Option String
  | .str s => some s
  | _ => none

end Json

end Serving
