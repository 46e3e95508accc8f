/-!
# Socket addresses

The written form of a network address with a port: `192.0.2.1:80`, or for the longer addresses
`[2001:db8::1]:80`, with an optional zone number as in `[fe80::1%2]:80`. Each reader takes a form off
the front of a text and yields the rest.
-/

namespace Serving.SocketAddress

/-- The value of a digit up to base sixteen. -/
def digit? (c : Char) : Option Nat :=
  if c.isDigit then some (c.toNat - '0'.toNat)
  else if 'a' ≤ c ∧ c ≤ 'f' then some (c.toNat - 'a'.toNat + 10)
  else if 'A' ≤ c ∧ c ≤ 'F' then some (c.toNat - 'A'.toNat + 10)
  else none

def isDigitOf (base : Nat) (c : Char) : Bool := (digit? c).any (· < base)

def valueOf (base : Nat) (digits : List Char) : Nat :=
  digits.foldl (fun n c => n * base + (digit? c).getD 0) 0

/-- A number up to `limit`, of at most `most` digits if that is given, with or without zeros in front. -/
def number (base limit : Nat) (most : Option Nat) (zeros : Bool) (cs : List Char) : Option (List Char) :=
  let digits := cs.takeWhile (isDigitOf base)
  let isShort := most.all (digits.length ≤ ·)
  let isPlain := zeros || digits.length ≤ 1 || digits.head? != some '0'
  if !digits.isEmpty && isShort && isPlain && valueOf base digits ≤ limit then
    some (cs.drop digits.length)
  else none

def mark (c : Char) : List Char → Option (List Char)
  | d :: rest => if d = c then some rest else none
  | [] => none

def octet : List Char → Option (List Char) := number 10 255 (some 3) false

def shortAddress (cs : List Char) : Option (List Char) := do
  let cs ← octet cs
  let cs ← octet (← mark '.' cs)
  let cs ← octet (← mark '.' cs)
  octet (← mark '.' cs)

def port (cs : List Char) : Option (List Char) := do number 10 65535 none true (← mark ':' cs)

/-- How far a series of groups came: their number, whether a short address closed it, and the rest. -/
structure Groups where
  count : Nat
  hasShort : Bool
  rest : List Char

/-- Reads groups of four digits between colons, at most `room` of them. Where there is room for two, a
short address may stand in their place. -/
def groups : (room : Nat) → (isFirst : Bool) → List Char → Groups
  | 0, _, cs => ⟨0, false, cs⟩
  | room + 1, isFirst, cs =>
    let start := if isFirst then some cs else mark ':' cs
    match if 0 < room then start.bind shortAddress else none with
    | some rest => ⟨2, true, rest⟩
    | none =>
      match start.bind (number 16 65535 (some 4) true) with
      | some rest =>
        let more := groups room false rest
        { more with count := more.count + 1 }
      | none => ⟨0, false, cs⟩

/-- A long address: eight groups, or fewer around a double colon that stands for zeros. -/
def longAddress (cs : List Char) : Option (List Char) :=
  let head := groups 8 true cs
  if head.count = 8 then some head.rest
  else if head.hasShort then none
  else do
    let cs ← mark ':' (← mark ':' head.rest)
    return (groups (7 - head.count) true cs).rest

/-- The zone of a long address, if one is given. -/
def zone (cs : List Char) : List Char :=
  ((mark '%' cs).bind (number 10 4294967295 none true)).getD cs

def shortSocket (cs : List Char) : Option (List Char) := do port (← shortAddress cs)

def longSocket (cs : List Char) : Option (List Char) := do
  let cs ← longAddress (← mark '[' cs)
  port (← mark ']' (zone cs))

def isValid (s : String) : Bool :=
  ((shortSocket s.toList).orElse fun _ => longSocket s.toList) == some []

def syntaxMessage : String := "invalid socket address syntax"

end Serving.SocketAddress
