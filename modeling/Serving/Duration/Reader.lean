import Serving.Time
import Serving.Text.Blank

/-!
# Reading durations

A duration is written as a sum of numbers with units, such as `1h 30m` or `1h30m`. A number may have
a decimal fraction as long as the sum stays a whole number of nanoseconds. `0` alone needs no unit.
-/

namespace Serving.Duration

/-- Why a text is no duration. Offsets count bytes. -/
inductive ReadError
  | invalidCharacter (offset : Nat)
  | numberExpected (offset : Nat)
  | unknownUnit (name : String) (value : Nat)
  | unrepresentable
  | empty
  deriving DecidableEq, Repr

def ReadError.message : ReadError → String
  | .invalidCharacter offset => s!"invalid character at {offset}"
  | .numberExpected offset => s!"expected number at {offset}"
  | .unknownUnit name value =>
    if name.isEmpty then s!"time unit needed, for example {value}sec or {value}ms"
    else "unknown time unit \"" ++ name ++ "\", supported units: ns, us/µs, ms, sec, min, hours, days, " ++
      "weeks, months, years (and few variations)"
  | .unrepresentable =>
    "number is too large or cannot be represented without a lack of precision " ++
      "(values below 1ns are not supported)"
  | .empty => "value was empty"

/-- A unit of time: so many seconds, or a fraction of a second of so many nanoseconds. -/
inductive TimeUnit
  | seconds (n : Nat)
  | nanos (n : Nat)
  deriving DecidableEq, Repr

/-- The units by their names. A month is 30.44 days and a year 365.25 days. -/
def unit? (name : String) : Option TimeUnit :=
  if name ∈ ["nanos", "nsec", "ns"] then some (.nanos 1)
  else if name ∈ ["usec", "us", "µs"] then some (.nanos 1000)
  else if name ∈ ["millis", "msec", "ms"] then some (.nanos 1000000)
  else if name ∈ ["seconds", "second", "secs", "sec", "s"] then some (.seconds 1)
  else if name ∈ ["minutes", "minute", "min", "mins", "m"] then some (.seconds 60)
  else if name ∈ ["hours", "hour", "hrs", "hr", "h"] then some (.seconds 3600)
  else if name ∈ ["days", "day", "d"] then some (.seconds 86400)
  else if name ∈ ["weeks", "week", "wk", "wks", "w"] then some (.seconds 604800)
  else if name ∈ ["months", "month", "M"] then some (.seconds 2630016)
  else if name ∈ ["years", "year", "yr", "yrs", "y"] then some (.seconds 31557600)
  else none

def largestCount : Nat := 18446744073709551615

def bounded (n : Nat) : Except ReadError Nat :=
  if n ≤ largestCount then .ok n else .error .unrepresentable

/-- Adds whole seconds and nanoseconds to a sum. -/
def add (total : Duration) (secs nanos : Nat) : Except ReadError Duration := do
  let nanos ← bounded (subsecondNanos total + nanos)
  let secs ← bounded (wholeSeconds total + secs + nanos / nanosPerSecond)
  return ofSeconds secs + nanos % nanosPerSecond

def exactly (num den : Nat) : Except ReadError Nat := do
  let num ← bounded num
  if num % den = 0 then return num / den else throw .unrepresentable

/-- Adds `n` units and a fraction of one. Fractions of up to a minute are counted in nanoseconds,
longer ones in seconds. -/
def addUnits (total : Duration) (n : Nat) (fraction : Option (Nat × Nat)) (unit : TimeUnit) :
    Except ReadError Duration := do
  let total ← match unit with
    | .nanos k => add total 0 (← bounded (n * k))
    | .seconds k => add total (← bounded (n * k)) 0
  match fraction, unit with
  | none, _ => return total
  | some _, .nanos 1 => throw .unrepresentable
  | some (num, den), .nanos k => add total 0 (← exactly (num * k) den)
  | some (num, den), .seconds k =>
    if k ≤ 60 then add total 0 (← exactly (num * (k * nanosPerSecond)) den)
    else add total (← exactly (num * k) den) 0

inductive Reading
  /-- Between two parts of the sum; the flag tells whether there was one before. -/
  | gap (any : Bool)
  | whole (n : Nat)
  /-- Digits behind the point: their value, ten to their number, and where to complain. -/
  | fraction (n num den mark : Nat)
  /-- The letters of a unit, last one first. -/
  | unit (n : Nat) (fraction : Option (Nat × Nat)) (letters : List Char)

def isUnitLetter (c : Char) : Bool := ('a' ≤ c && c ≤ 'z') || ('A' ≤ c && c ≤ 'Z') || c == 'µ'

def digit (c : Char) : Nat := c.toNat - '0'.toNat

/-- Closes a part of the sum whose unit has the given letters. -/
def close (total : Duration) (n : Nat) (fraction : Option (Nat × Nat)) (letters : List Char) :
    Except ReadError Duration :=
  let name := String.ofList letters.reverse
  match unit? name with
  | some unit => addUnits total n fraction unit
  | none => .error (.unknownUnit name n)

/-- Reads on at byte `offset`, the parts so far summing up to `total`. -/
def readFrom (total : Duration) (reading : Reading) (offset : Nat) :
    List Char → Except ReadError Duration
  | [] => match reading with
    | .gap any => if any then .ok total else .error .empty
    | .whole n => close total n none []
    | .fraction n num den mark =>
      if den = 1 then .error (.invalidCharacter mark) else close total n (some (num, den)) []
    | .unit n fraction letters => close total n fraction letters
  | c :: rest =>
    let next := offset + c.utf8Size
    match reading with
    | .gap any =>
      if c.isDigit then readFrom total (.whole (digit c)) next rest
      else if Text.isBlank c then readFrom total (.gap any) next rest
      else .error (.numberExpected offset)
    | .whole n =>
      if c.isDigit then
        if largestCount < n * 10 + digit c then .error .unrepresentable
        else readFrom total (.whole (n * 10 + digit c)) next rest
      else if Text.isBlank c then readFrom total (.whole n) next rest
      else if isUnitLetter c then readFrom total (.unit n none [c]) next rest
      else if c = '.' then readFrom total (.fraction n 0 1 offset) next rest
      else .error (.invalidCharacter offset)
    | .fraction n num den mark =>
      if c.isDigit then
        if largestCount < den * 10 ∨ largestCount < num * 10 + digit c then .error .unrepresentable
        else readFrom total (.fraction n (num * 10 + digit c) (den * 10) next) next rest
      else if Text.isBlank c then readFrom total (.fraction n num den next) next rest
      else if isUnitLetter c && den != 1 then readFrom total (.unit n (some (num, den)) [c]) next rest
      else .error (.invalidCharacter mark)
    | .unit n fraction letters =>
      if isUnitLetter c then readFrom total (.unit n fraction (c :: letters)) next rest
      else if c.isDigit then
        match close total n fraction letters with
        | .ok total => readFrom total (.whole (digit c)) next rest
        | .error e => .error e
      else if Text.isBlank c then
        match close total n fraction letters with
        | .ok total => readFrom total (.gap true) next rest
        | .error e => .error e
      else .error (.invalidCharacter offset)

def read (s : String) : Except ReadError Duration :=
  if s = "0" then .ok 0 else readFrom 0 (.gap false) 0 s.toList

end Serving.Duration
