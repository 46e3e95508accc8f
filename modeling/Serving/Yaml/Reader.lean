import Serving.Yaml.Scalar

/-!
# Reading YAML documents

Block and flow mappings and sequences with plain and quoted scalars; anchors, tags, block scalars and
complex keys are refused. A text holds at most one document, and an empty document is a missing node.
-/

namespace Serving.Yaml

open Cursor

/-- Whether a `key:` stands at the cursor. -/
def atKey (c : Cursor) : Bool :=
  match key? false c with
  | some (_, c) => isColon false c.spaces.rest
  | none => false

/-- Whether nothing but a comment follows on the line. -/
def atLineEnd (c : Cursor) : Bool :=
  let ahead := c.spaces
  ahead.rest.isEmpty || ahead.rest.head? == some '\n' ||
    (ahead.rest.head? == some '#' && ahead.column != c.column)

/-- Refuses a node with a colon behind it: it would have to be a key. -/
def notKey (flow : Bool) (c : Cursor) (v : Yaml) : Option (Yaml × Cursor) :=
  if isColon flow c.spaces.rest then none else some (v, c)

mutual

def flowNode (fuel : Nat) (c : Cursor) : Option (Yaml × Cursor) :=
  match fuel with
  | 0 => none
  | fuel + 1 =>
    match c.rest with
    | '[' :: _ => flowItems fuel (c.skip 1)
    | '\x7b' :: _ => flowEntries fuel (c.skip 1)
    | _ =>
      if atQuote c then (quoted? c).map fun (s, c) => (.scalar s false, c)
      else (plain? true (-1) c).map fun (s, c) => (.scalar s true, c)
termination_by structural fuel

/-- The items of a flow sequence behind `[` or a comma. -/
def flowItems (fuel : Nat) (c : Cursor) : Option (Yaml × Cursor) :=
  match fuel with
  | 0 => none
  | fuel + 1 => do
    let c ← c.gap true
    match c.rest with
    | ']' :: _ => return (.seq [], c.skip 1)
    | _ =>
      let (v, c) ← flowNode fuel c
      let c ← c.gap true
      match c.rest with
      | ']' :: _ => return (.seq [v], c.skip 1)
      | ',' :: _ =>
        match ← flowItems fuel (c.skip 1) with
        | (.seq vs, c) => return (.seq (v :: vs), c)
        | _ => none
      | _ => none
termination_by structural fuel

def flowValue (fuel : Nat) (quoted : Bool) (c : Cursor) : Option (Yaml × Cursor) :=
  match fuel with
  | 0 => none
  | fuel + 1 => do
    let c ← c.gap true
    match c.rest with
    | ':' :: rest =>
      if quoted || endsToken rest || (rest.head?.map isFlowMark).getD false then
        let c ← (c.skip 1).gap true
        match c.rest with
        | ',' :: _ | '\x7d' :: _ => return (missing, c)
        | _ => flowNode fuel c
      else none
    | _ => return (missing, c)
termination_by structural fuel

/-- The entries of a flow mapping behind `{` or a comma. -/
def flowEntries (fuel : Nat) (c : Cursor) : Option (Yaml × Cursor) :=
  match fuel with
  | 0 => none
  | fuel + 1 => do
    let c ← c.gap true
    match c.rest with
    | '\x7d' :: _ => return (.map [], c.skip 1)
    | _ =>
      let quoted := atQuote c
      let (name, c) ← key? true c
      let (v, c) ← flowValue fuel quoted c
      let c ← c.gap true
      match c.rest with
      | '\x7d' :: _ => return (.map [(name, v)], c.skip 1)
      | ',' :: _ =>
        match ← flowEntries fuel (c.skip 1) with
        | (.map es, c) => return (.map ((name, v) :: es), c)
        | _ => none
      | _ => none
termination_by structural fuel

end

/-- A node that stays on the line of its key or dash: a flow collection or a scalar. -/
def inlineNode (fuel : Nat) (parent : Int) (c : Cursor) : Option (Yaml × Cursor) :=
  if c.rest.head? == some '[' || c.rest.head? == some '\x7b' then
    (flowNode fuel c).bind fun (v, c) => notKey false c v
  else if atQuote c then (quoted? c).bind fun (s, c) => notKey false c (.scalar s false)
  else (plain? false parent c).bind fun (s, c) => notKey false c (.scalar s true)

mutual

/-- A node in block context. It has to be indented more than `parent`, except that a sequence may
stand below a key in the same column. -/
def blockNode (fuel : Nat) (parent : Int) (sameColumn : Bool) (c : Cursor) : Option (Yaml × Cursor) :=
  match fuel with
  | 0 => none
  | fuel + 1 => do
    let c ← c.gap false
    let column : Int := c.column
    if c.atEnd then return (missing, c)
    else if c.atDash && (parent < column || (sameColumn && column = parent)) then
      let (items, c) ← sequence fuel c.column c
      return (.seq items, c)
    else if column ≤ parent then return (missing, c)
    else content fuel parent c
termination_by structural fuel

/-- A mapping if there is a key at the cursor, else a node on the line. -/
def content (fuel : Nat) (parent : Int) (c : Cursor) : Option (Yaml × Cursor) :=
  match fuel with
  | 0 => none
  | fuel + 1 =>
    if atKey c then (mapping fuel c.column c).map fun (entries, c) => (.map entries, c)
    else inlineNode (fuel + 1) parent c
termination_by structural fuel

/-- The entries of a block mapping whose keys stand in `column`. -/
def mapping (fuel : Nat) (column : Nat) (c : Cursor) : Option (List (String × Yaml) × Cursor) :=
  match fuel with
  | 0 => none
  | fuel + 1 => do
    let (name, c) ← key? false c
    let c := c.spaces
    if !isColon false c.rest then none
    else
      let c := c.skip 1
      let (v, c) ←
        if atLineEnd c then blockNode fuel column true c
        else inlineNode (fuel + 1) column c.spaces
      let c ← c.gap false
      if c.atEnd || c.column < column then return ([(name, v)], c)
      else if c.column = column then
        let (entries, c) ← mapping fuel column c
        return ((name, v) :: entries, c)
      else none
termination_by structural fuel

/-- The items of a block sequence whose dashes stand in `column`. -/
def sequence (fuel : Nat) (column : Nat) (c : Cursor) : Option (List Yaml × Cursor) :=
  match fuel with
  | 0 => none
  | fuel + 1 => do
    let c := c.skip 1
    let (v, c) ← blockNode fuel column false c
    let c ← c.gap false
    if c.atEnd || c.column < column then return ([v], c)
    else if c.column = column then
      if c.atDash then
        let (items, c) ← sequence fuel column c
        return (v :: items, c)
      else return ([v], c)
    else none
termination_by structural fuel

end

/-- One kind of line end for all. -/
def unixLines : List Char → List Char
  | '\r' :: '\n' :: rest => '\n' :: unixLines rest
  | '\r' :: rest => '\n' :: unixLines rest
  | ch :: rest => ch :: unixLines rest
  | [] => []

def read (text : String) : Option Yaml := do
  let cs := unixLines text.toList
  let c ← Cursor.gap ⟨cs, 0⟩ false
  let c := if c.isMarker && c.rest.head? == some '-' then c.skip 3 else c
  let (v, c) ← blockNode (4 * cs.length + 4) (-1) false c
  let c ← c.gap false
  if c.rest.isEmpty then some v
  else if c.isMarker && c.rest.head? == some '.' then
    let c ← (c.skip 3).gap false
    if c.rest.isEmpty then some v else none
  else none

end Serving.Yaml
