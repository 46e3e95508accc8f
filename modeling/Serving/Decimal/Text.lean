import Serving.Decimal.Shortest

/-!
# Decimal text of floats

Two ways to write a float: with the fewest digits that read back, in the layout a `Style` record
lays down, and with a fixed number of places.
-/

namespace Serving.Decimal

/-- The layout of a float's text. A value `0.d₁d₂… * 10 ^ p` is written positionally for
`lowest ≤ p ≤ highest` and with an exponent otherwise. -/
structure Style where
  lowest : Int
  highest : Int
  pointZero : Bool
  plusSign : Bool
  deriving DecidableEq, Repr

/-- The style of stored and hashed values: positional from `1e-5` up to below `1e16`, a whole number
with `.0`, and exponents such as `e+16` and `e-6`. -/
def Style.stored : Style := ⟨-4, 16, true, true⟩

def zeros (n : Nat) : List Char := List.replicate n '0'

/-- The digits `ds` with the point after position `p`. -/
def positional (style : Style) (ds : List Char) (p : Int) : List Char :=
  if p ≤ 0 then '0' :: '.' :: (zeros (-p).toNat ++ ds)
  else
    let whole := p.toNat
    if ds.length ≤ whole then
      ds ++ zeros (whole - ds.length) ++ (if style.pointZero then ['.', '0'] else [])
    else ds.take whole ++ '.' :: ds.drop whole

/-- The digits `ds` with the point after the first one and an exponent. -/
def scientific (style : Style) (ds : List Char) (p : Int) : List Char :=
  let e := p - 1
  let sign := if e < 0 then ['-'] else if style.plusSign then ['+'] else []
  let fraction := match ds with
    | first :: second :: rest => first :: '.' :: second :: rest
    | short => short
  fraction ++ 'e' :: sign ++ Nat.toDigits 10 e.natAbs

/-- The magnitude of `x` in the fewest digits that read back. -/
def magnitude (style : Style) (x : Float) : List Char :=
  let d := shortest x
  let ds := Nat.toDigits 10 d.digits
  let p := d.exponent + ds.length
  if d.digits = 0 then positional style ['0'] 1
  else if style.lowest ≤ p && p ≤ style.highest then positional style ds p
  else scientific style ds p

/-- The text of a finite float in the fewest digits that read back. -/
def text (style : Style) (x : Float) : List Char :=
  if isSigned x then '-' :: magnitude style x else magnitude style x

/-- `num / den` rounded to the nearest whole number, a half going to the even one. -/
def roundDiv (num den : Nat) : Nat :=
  let q := num / den
  let r := num % den
  if 2 * r < den then q else if den < 2 * r then q + 1 else if q % 2 = 0 then q else q + 1

/-- The text of a float with exactly `places` digits behind the point. -/
def fixed (places : Nat) (x : Float) : String :=
  if x.isNaN then "NaN"
  else
    let sign := if isSigned x then "-" else ""
    if isNumber x then
      let r := (Binary.ofFloat x).toRatio
      let ds := Nat.toDigits 10 (roundDiv (r.num * Nat.pow 10 places) r.den)
      let padded := zeros (places + 1 - ds.length) ++ ds
      let whole := padded.take (padded.length - places)
      let fraction := padded.drop (padded.length - places)
      sign ++ String.ofList (if places = 0 then whole else whole ++ '.' :: fraction)
    else sign ++ "inf"

end Serving.Decimal
