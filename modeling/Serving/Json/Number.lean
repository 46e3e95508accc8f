import Serving.Json.Basic

/-!
# Reading JSON numbers

A number without point and exponent is a whole number if it fits 64 bits. Every other number is a
float, built from the leading digits that fit 64 bits and a table of powers of ten: the digits are
rounded to a float, then multiplied or divided once by the rounded power. This may be off by one unit
in the last place; a decimal of at most fifteen digits and a small exponent comes out exact.
-/

namespace Serving.Json

/-- The largest value of a 64-bit word. -/
def largestWord : Nat := 18446744073709551615

def digitValue (c : Char) : Nat := c.toNat - '0'.toNat

/-- Appends digits to a number as long as it fits 64 bits. Yields the number and how many digits were
left out. -/
def appendDigits (n : Nat) : List Char → Nat × Nat
  | [] => (n, 0)
  | c :: rest =>
    if largestWord < n * 10 + digitValue c then (n, rest.length + 1)
    else appendDigits (n * 10 + digitValue c) rest

/-- `10 ^ n`, rounded. -/
def powerOfTen (n : Nat) : Float := Float.ofScientific 1 false n

/-- Divides by `10 ^ n`, at most `10 ^ 308` at a time. -/
def divideByPower (x : Float) (n : Nat) : Float :=
  if n ≤ 308 then x / powerOfTen n
  else if x == 0.0 then x
  else divideByPower (x / powerOfTen 308) (n - 308)
termination_by n

/-- The float `digits * 10 ^ exponent`; nothing where it would be infinite. -/
def scale? (digits : Nat) (exponent : Int) : Option Float :=
  let x := Float.ofNat digits
  if exponent < 0 then some (divideByPower x exponent.natAbs)
  else if exponent.natAbs ≤ 308 then
    let y := x * powerOfTen exponent.natAbs
    if y.isInf then none else some y
  else if x == 0.0 then some x
  else none

def largestExponent : Nat := 2147483647

/-- Reads the exponent behind `e`: its sign and digits, with what follows. -/
def exponent? (cs : List Char) : Option ((Bool × Nat) × List Char) :=
  let (negative, rest) := match cs with
    | '+' :: r => (false, r)
    | '-' :: r => (true, r)
    | r => (false, r)
  let digits := rest.takeWhile Char.isDigit
  if digits.isEmpty then none
  else some ((negative, Nat.ofDigitChars 10 digits 0), rest.dropWhile Char.isDigit)

/-- Keeps an exponent within 32 bits. -/
def clampExponent (e : Int) : Int := max (-2147483648) (min e largestExponent)

/-- The float of some digits with an optional exponent behind them. -/
def floatTail? (digits : Nat) (shift : Int) (cs : List Char) : Option (Float × List Char) :=
  match cs with
  | 'e' :: rest | 'E' :: rest => do
    let ((negative, n), rest) ← exponent? rest
    if largestExponent < n then
      if digits ≠ 0 ∧ ¬ negative then none else some (0.0, rest)
    else
      let e := clampExponent (if negative then shift - n else shift + n)
      return (← scale? digits e, rest)
  | _ => (scale? digits shift).map (·, cs)

/-- A number without its sign: the word it is, or the float. -/
def magnitude? (cs : List Char) : Option ((Nat ⊕ Float) × List Char) :=
  let whole := cs.takeWhile Char.isDigit
  let rest := cs.dropWhile Char.isDigit
  if whole.isEmpty || (whole.head? == some '0' && 1 < whole.length) then none
  else
    let (n, dropped) := appendDigits 0 whole
    match rest with
    | '.' :: behind =>
      let fraction := behind.takeWhile Char.isDigit
      if fraction.isEmpty then none
      else
        let (digits, cut) := appendDigits n fraction
        let shift : Int := (dropped : Int) - (fraction.length - cut : Nat)
        (floatTail? digits shift (behind.dropWhile Char.isDigit)).map fun (x, r) => (.inr x, r)
    | 'e' :: _ | 'E' :: _ => (floatTail? n dropped rest).map fun (x, r) => (.inr x, r)
    | _ =>
      if dropped = 0 then some (.inl n, rest)
      else (scale? n dropped).map fun x => (.inr x, rest)

/-- A number. A minus sign in front of zero or of more than `2 ^ 63` makes it a float. -/
def number? (cs : List Char) : Option (Json × List Char) :=
  match cs with
  | '-' :: rest => (magnitude? rest).map fun
    | (.inl n, r) => (if n = 0 ∨ 9223372036854775808 < n then .float (-(Float.ofNat n)) else .int (-(n : Int)), r)
    | (.inr x, r) => (.float (-x), r)
  | _ => (magnitude? cs).map fun
    | (.inl n, r) => (.int n, r)
    | (.inr x, r) => (.float x, r)

end Serving.Json
