import Serving.Decimal.Shortest

/-!
# Reading decimals

The float nearest to a decimal with an optional fraction and exponent.
-/

namespace Serving.Decimal

/-- The float nearest to `digits * 10 ^ exponent`. -/
def nearest (digits : Nat) (exponent : Int) : Float :=
  let top := exponent + width digits
  if digits = 0 || top < -330 then 0.0
  else if 310 < top then 1.0 / 0.0
  else Float.ofScientific digits (exponent < 0) exponent.natAbs

def exponent? : List Char → Option Int
  | [] => some 0
  | c :: rest =>
    if c = 'e' ∨ c = 'E' then
      let (negative, digits) := match rest with
        | '+' :: r => (false, r)
        | '-' :: r => (true, r)
        | r => (false, r)
      if digits.isEmpty || !digits.all Char.isDigit then none
      else
        let n : Int := Nat.ofDigitChars 10 digits 0
        some (if negative then -n else n)
    else none

/-- A decimal without sign. There has to be a digit in front of the point or behind it. -/
def unsigned? (cs : List Char) : Option Float := do
  let whole := cs.takeWhile Char.isDigit
  let rest := cs.dropWhile Char.isDigit
  let (fraction, rest) := match rest with
    | '.' :: r => (r.takeWhile Char.isDigit, r.dropWhile Char.isDigit)
    | r => ([], r)
  if whole.isEmpty && fraction.isEmpty then none
  else
    let e ← exponent? rest
    return nearest (Nat.ofDigitChars 10 (whole ++ fraction) 0) (e - fraction.length)

/-- A decimal with an optional sign. -/
def float? : List Char → Option Float
  | '-' :: rest => (unsigned? rest).map fun x => -x
  | '+' :: rest => unsigned? rest
  | cs => unsigned? cs

end Serving.Decimal
