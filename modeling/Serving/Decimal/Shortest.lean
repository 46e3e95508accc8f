import Serving.Decimal.Binary

/-!
# The shortest decimal that reads back

Every finite float owns an interval of reals that round to it. On the grid of `n`-digit decimals
only the two neighbours of the exact value have to be tried: the first grid that has a point inside
the interval wins, and of two such points the nearer one, a tie going to the even one.
-/

namespace Serving.Decimal

/-- The number `digits * 10 ^ exponent`. -/
structure Digits where
  digits : Nat
  exponent : Int
  deriving DecidableEq, Repr

/-- The reals that round to one float, over a common denominator. -/
structure Interval where
  low : Nat
  exact : Nat
  high : Nat
  den : Nat
  closed : Bool
  deriving DecidableEq, Repr

namespace Interval

/-- The interval around a float: half a gap to either side, ends included for an even mantissa. -/
def ofBinary (b : Binary) : Interval :=
  let low := if b.lowerGapIsHalf then 4 * b.mantissa - 1 else 4 * b.mantissa - 2
  let r := Binary.scaled 1 (b.exponent - 2)
  ⟨low * r.num, 4 * b.mantissa * r.num, (4 * b.mantissa + 2) * r.num, r.den, b.mantissa % 2 == 0⟩

/-- Whether `n / scale` lies in the interval, both sides brought to one denominator. -/
def holds (i : Interval) (n : Nat) : Bool :=
  if i.closed then i.low ≤ n * i.den && n * i.den ≤ i.high
  else i.low < n * i.den && n * i.den < i.high

/-- The interval divided by `10 ^ e`. -/
def shift (i : Interval) (e : Int) : Interval :=
  if 0 ≤ e then { i with den := i.den * Nat.pow 10 e.toNat }
  else
    let p := Nat.pow 10 (-e).toNat
    { i with low := i.low * p, exact := i.exact * p, high := i.high * p }

end Interval

/-- Number of decimal digits of a whole number. -/
def width (n : Nat) : Nat := (Nat.toDigits 10 n).length

/-- The `k` with `10 ^ (k - 1) ≤ num / den < 10 ^ k`. -/
def leading (num den : Nat) : Int :=
  let guess : Int := (width num : Int) - width den
  let reached :=
    if 0 ≤ guess then den * Nat.pow 10 guess.toNat ≤ num else den ≤ num * Nat.pow 10 (-guess).toNat
  if reached then guess + 1 else guess

/-- The point of the grid of step `10 ^ e` that reads back, if there is one. -/
def onGrid? (i : Interval) (e : Int) : Option Digits :=
  let s := i.shift e
  let below := s.exact / s.den
  let above := below + 1
  match s.holds below, s.holds above with
  | false, false => none
  | true, false => some ⟨below, e⟩
  | false, true => some ⟨above, e⟩
  | true, true =>
    let doubled := 2 * s.exact
    let middle := (2 * below + 1) * s.den
    if doubled < middle then some ⟨below, e⟩
    else if middle < doubled then some ⟨above, e⟩
    else if below % 2 = 0 then some ⟨below, e⟩
    else some ⟨above, e⟩

def search (i : Interval) (k : Int) : List Nat → Digits
  | [] => ⟨0, 0⟩
  | n :: rest => (onGrid? i (k - n)).getD (search i k rest)

def Digits.trim (d : Digits) : Digits :=
  if h : d.digits = 0 then ⟨0, 0⟩
  else if d.digits % 10 = 0 then trim ⟨d.digits / 10, d.exponent + 1⟩
  else d
termination_by d.digits
decreasing_by exact Nat.div_lt_self (Nat.pos_of_ne_zero h) (by decide)

/-- The shortest decimal that reads back as the magnitude of `x`. -/
def shortest (x : Float) : Digits :=
  let b := Binary.ofFloat x
  if b.mantissa = 0 then ⟨0, 0⟩
  else
    let i := Interval.ofBinary b
    (search i (leading i.exact i.den) (List.range' 1 17)).trim

end Serving.Decimal
