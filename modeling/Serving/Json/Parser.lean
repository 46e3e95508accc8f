import Serving.Json.Number

/-!
# Reading JSON text

`read` takes a whole text, blanks around the value allowed, and refuses arrays and objects nested
more than 127 deep. It keeps members as written; `parse` puts the value into canonical form.
-/

namespace Serving.Json

def isBlank (c : Char) : Bool := c = ' ' || c = '\n' || c = '\t' || c = '\r'

def skipBlanks (cs : List Char) : List Char := cs.dropWhile isBlank

def hexValue? (c : Char) : Option Nat :=
  if c.isDigit then some (c.toNat - '0'.toNat)
  else if 'a' ≤ c ∧ c ≤ 'f' then some (c.toNat - 'a'.toNat + 10)
  else if 'A' ≤ c ∧ c ≤ 'F' then some (c.toNat - 'A'.toNat + 10)
  else none

/-- Four hexadecimal digits as one unit of sixteen bits. -/
def unit? : List Char → Option (Nat × List Char)
  | a :: b :: c :: d :: rest => do
    let a ← hexValue? a
    let b ← hexValue? b
    let c ← hexValue? c
    let d ← hexValue? d
    return (((a * 16 + b) * 16 + c) * 16 + d, rest)
  | _ => none

/-- The character a `\u` escape stands for. A high surrogate needs a low one behind it, and a low one
may not stand alone. -/
def unicode? (cs : List Char) : Option (Char × List Char) := do
  let (high, rest) ← unit? cs
  if 0xD800 ≤ high ∧ high ≤ 0xDBFF then
    match rest with
    | '\\' :: 'u' :: rest =>
      let (low, rest) ← unit? rest
      if 0xDC00 ≤ low ∧ low ≤ 0xDFFF then
        return (Char.ofNat (0x10000 + (high - 0xD800) * 0x400 + (low - 0xDC00)), rest)
      else none
    | _ => none
  else if 0xDC00 ≤ high ∧ high ≤ 0xDFFF then none
  else return (Char.ofNat high, rest)

def escaped? : List Char → Option (Char × List Char)
  | '"' :: rest => some ('"', rest)
  | '\\' :: rest => some ('\\', rest)
  | '/' :: rest => some ('/', rest)
  | 'b' :: rest => some ('\x08', rest)
  | 'f' :: rest => some ('\x0c', rest)
  | 'n' :: rest => some ('\n', rest)
  | 'r' :: rest => some ('\r', rest)
  | 't' :: rest => some ('\t', rest)
  | 'u' :: rest => unicode? rest
  | _ => none

/-- The characters up to the closing quote, with what follows it. The first argument bounds the
number of characters. -/
def characters : Nat → List Char → Option (List Char × List Char)
  | 0, _ => none
  | _ + 1, '"' :: rest => some ([], rest)
  | n + 1, '\\' :: rest => do
    let (c, rest) ← escaped? rest
    let (cs, rest) ← characters n rest
    return (c :: cs, rest)
  | n + 1, c :: rest =>
    if c.toNat < 0x20 then none
    else (characters n rest).map fun (cs, rest) => (c :: cs, rest)
  | _ + 1, [] => none

def string? (cs : List Char) : Option (String × List Char) :=
  (characters (cs.length + 1) cs).map fun (s, rest) => (String.ofList s, rest)

def depthLimit : Nat := 128

mutual

/-- A value and what follows it. `fuel` bounds the number of steps, `depth` the nesting left. -/
def value (fuel depth : Nat) (cs : List Char) : Option (Json × List Char) :=
  match fuel with
  | 0 => none
  | fuel + 1 =>
    match skipBlanks cs with
    | 'n' :: 'u' :: 'l' :: 'l' :: rest => some (.null, rest)
    | 't' :: 'r' :: 'u' :: 'e' :: rest => some (.bool true, rest)
    | 'f' :: 'a' :: 'l' :: 's' :: 'e' :: rest => some (.bool false, rest)
    | '"' :: rest => (string? rest).map fun (s, rest) => (.str s, rest)
    | '[' :: rest =>
      if depth ≤ 1 then none
      else match skipBlanks rest with
        | ']' :: rest => some (.arr [], rest)
        | rest => (items fuel (depth - 1) rest).map fun (vs, rest) => (.arr vs, rest)
    | '\x7b' :: rest =>
      if depth ≤ 1 then none
      else match skipBlanks rest with
        | '\x7d' :: rest => some (.obj [], rest)
        | rest => (fields fuel (depth - 1) rest).map fun (fs, rest) => (.obj fs, rest)
    | rest => number? rest
termination_by structural fuel

/-- One or more items up to the closing bracket. -/
def items (fuel depth : Nat) (cs : List Char) : Option (List Json × List Char) :=
  match fuel with
  | 0 => none
  | fuel + 1 => do
    let (v, rest) ← value fuel depth cs
    match skipBlanks rest with
    | ',' :: rest =>
      let (vs, rest) ← items fuel depth rest
      return (v :: vs, rest)
    | ']' :: rest => return ([v], rest)
    | _ => none
termination_by structural fuel

/-- One or more members up to the closing brace. -/
def fields (fuel depth : Nat) (cs : List Char) : Option (List (String × Json) × List Char) :=
  match fuel with
  | 0 => none
  | fuel + 1 =>
    match skipBlanks cs with
    | '"' :: rest => do
      let (name, rest) ← string? rest
      match skipBlanks rest with
      | ':' :: rest =>
        let (v, rest) ← value fuel depth rest
        match skipBlanks rest with
        | ',' :: rest =>
          let (fs, rest) ← fields fuel depth rest
          return ((name, v) :: fs, rest)
        | '\x7d' :: rest => return ([(name, v)], rest)
        | _ => none
      | _ => none
    | _ => none
termination_by structural fuel

end

/-- The value a list of characters is the text of, members as written. -/
def readChars (cs : List Char) : Option Json := do
  let (v, rest) ← value (2 * cs.length + 2) depthLimit cs
  if (skipBlanks rest).isEmpty then some v else none

def read (s : String) : Option Json := readChars s.toList

def parse (s : String) : Option Json := (read s).map canonical

end Serving.Json
