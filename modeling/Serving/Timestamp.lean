import Serving.Text.Blank

/-!
# Points in the calendar

A timestamp counts nanoseconds from the start of 1970 in universal time. It is written as
`2024-01-02T03:04:05Z`, with three, six or nine decimals of the second where they are needed. When
read, an offset from universal time is taken off, a space may stand for the `T`, and blanks may stand
around the parts.
-/

namespace Serving

/-- Seconds from the start of 1970, and nanoseconds beyond them. In a leap second the nanoseconds go
on past a thousand million. -/
structure Timestamp where
  seconds : Int
  nanos : Nat
  deriving DecidableEq, Repr, Inhabited

namespace Timestamp

/-- Days from the start of 1970 to a day of the Gregorian calendar. -/
def daysFromEpoch (year : Int) (month day : Nat) : Int :=
  let y := if month ≤ 2 then year - 1 else year
  let era := y.fdiv 400
  let yearOfEra := y - era * 400
  let monthFromMarch : Nat := (month + 9) % 12
  let dayOfYear : Nat := (153 * monthFromMarch + 2) / 5 + day - 1
  era * 146097 + (yearOfEra * 365 + yearOfEra / 4 - yearOfEra / 100 + dayOfYear) - 719468

/-- The day of the Gregorian calendar so many days after the start of 1970. -/
def dateOfDays (days : Int) : Int × Nat × Nat :=
  let z := days + 719468
  let era := z.fdiv 146097
  let dayOfEra := z - era * 146097
  let yearOfEra := (dayOfEra - dayOfEra / 1460 + dayOfEra / 36524 - dayOfEra / 146096) / 365
  let dayOfYear := dayOfEra - (365 * yearOfEra + yearOfEra / 4 - yearOfEra / 100)
  let monthFromMarch := (5 * dayOfYear + 2) / 153
  let day := (dayOfYear - (153 * monthFromMarch + 2) / 5 + 1).toNat
  let month := (if monthFromMarch < 10 then monthFromMarch + 3 else monthFromMarch - 9).toNat
  let year := yearOfEra + era * 400
  (if month ≤ 2 then year + 1 else year, month, day)

def isLeapYear (year : Int) : Bool := year % 4 == 0 && (year % 100 != 0 || year % 400 == 0)

def daysInMonth (year : Int) (month : Nat) : Nat :=
  if month == 2 then (if isLeapYear year then 29 else 28)
  else if [4, 6, 9, 11].contains month then 30 else 31

/-- The decimal digits of `n`, with zeros in front up to `width`. -/
def padded (width n : Nat) : String :=
  let digits := Nat.toDigits 10 n
  String.ofList (List.replicate (width - digits.length) '0' ++ digits)

/-- The decimals of the second: none, three, six or nine. -/
def fraction (nanos : Nat) : String :=
  if nanos == 0 then ""
  else if nanos % 1000000 == 0 then "." ++ padded 3 (nanos / 1000000)
  else if nanos % 1000 == 0 then "." ++ padded 6 (nanos / 1000)
  else "." ++ padded 9 nanos

def text (t : Timestamp) : String :=
  let (year, month, day) := dateOfDays (t.seconds.fdiv 86400)
  let ofDay := (t.seconds.fmod 86400).toNat
  let isLeap := decide (1000000000 ≤ t.nanos)
  let second := ofDay % 60 + (if isLeap then 1 else 0)
  let nanos := if isLeap then t.nanos - 1000000000 else t.nanos
  let yearText :=
    if 0 ≤ year ∧ year ≤ 9999 then padded 4 year.toNat
    else (if year < 0 then "-" else "+") ++ padded 4 year.natAbs
  yearText ++ "-" ++ padded 2 month ++ "-" ++ padded 2 day ++ "T" ++ padded 2 (ofDay / 3600) ++ ":" ++
    padded 2 (ofDay / 60 % 60) ++ ":" ++ padded 2 second ++ fraction nanos ++ "Z"

/-- A number of at least one and at most `width` digits, and what follows it. -/
def number? (width : Nat) (cs : List Char) : Option (Nat × List Char) :=
  let digits := (cs.take width).takeWhile Char.isDigit
  if digits.isEmpty then none else some (Nat.ofDigitChars 10 digits 0, cs.drop digits.length)

def skipBlanks (cs : List Char) : List Char := cs.dropWhile Text.isBlank

/-- A number of at most two digits after blanks. -/
def part? (cs : List Char) : Option (Nat × List Char) := number? 2 (skipBlanks cs)

/-- A sign character after blanks. -/
def mark? (c : Char) (cs : List Char) : Option (List Char) :=
  match skipBlanks cs with
  | d :: rest => if d == c then some rest else none
  | [] => none

/-- A year: with a sign of any length, else of at most four digits. -/
def year? (cs : List Char) : Option (Int × List Char) :=
  match skipBlanks cs with
  | '-' :: rest => (number? rest.length rest).map fun (n, r) => (-(n : Int), r)
  | '+' :: rest => (number? rest.length rest).map fun (n, r) => ((n : Int), r)
  | rest => (number? 4 rest).map fun (n, r) => ((n : Int), r)

/-- The nanoseconds of a decimal fraction of a second; digits beyond the ninth do not count. -/
def fraction? : List Char → Option (Nat × List Char)
  | '.' :: rest => (number? 9 rest).map fun (n, after) =>
    (n * Nat.pow 10 (9 - (rest.length - after.length)), after.dropWhile Char.isDigit)
  | cs => some (0, cs)

/-- The offset from universal time in seconds. -/
def offset? (cs : List Char) : Option (Int × List Char) :=
  match cs with
  | 'Z' :: rest | 'z' :: rest => some (0, rest)
  | u :: t :: c :: rest =>
    if u.toUpper == 'U' && t.toUpper == 'T' && c.toUpper == 'C' then some (0, rest) else signed? cs
  | _ => signed? cs
where
  signed? : List Char → Option (Int × List Char)
    | s :: h1 :: h2 :: rest => do
      let sign : Int ← if s == '+' then some 1 else if s == '-' || s == '\u2212' then some (-1) else none
      guard (h1.isDigit && h2.isDigit)
      match rest.dropWhile fun c => c == ':' || Text.isBlank c with
      | m1 :: m2 :: after =>
        guard (m1.isDigit && m2.isDigit && m1 ≤ '5')
        let hours := Nat.ofDigitChars 10 [h1, h2] 0
        let minutes := Nat.ofDigitChars 10 [m1, m2] 0
        guard (hours < 24)
        return (sign * ((hours * 3600 + minutes * 60 : Nat) : Int), after)
      | _ => none
    | _ => none

def parse? (s : String) : Option Timestamp := do
  let (year, r) ← year? s.toList
  let (month, r) ← part? (← mark? '-' r)
  let (day, r) ← part? (← mark? '-' r)
  let r ← match r with
    | 't' :: r | 'T' :: r | ' ' :: r => some r
    | _ => none
  let (hour, r) ← part? r
  let (minute, r) ← part? (← mark? ':' r)
  let (second, r) ← part? (← mark? ':' r)
  let (nanos, r) ← fraction? r
  let (offset, r) ← offset? (skipBlanks r)
  guard (skipBlanks r).isEmpty
  guard (-262143 ≤ year ∧ year ≤ 262142)
  guard (1 ≤ month ∧ month ≤ 12 ∧ 1 ≤ day ∧ day ≤ daysInMonth year month)
  guard (hour < 24 ∧ minute < 60 ∧ second ≤ 60)
  let ofDay := hour * 3600 + minute * 60 + min second 59
  let nanos := if second == 60 then nanos + 1000000000 else nanos
  return ⟨daysFromEpoch year month day * 86400 + ofDay - offset, nanos⟩

/-- The point on the calendar of a moment on a clock that started with 1970. -/
def ofNanos (n : Nat) : Timestamp := ⟨n / 1000000000, n % 1000000000⟩

end Timestamp

end Serving
