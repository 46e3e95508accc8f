/-!
# Floats as exact binary fractions

A finite float is a whole number times a power of two. Everything that turns floats into decimal
text works on that exact value, never on rounded arithmetic.
-/

namespace Serving.Decimal

/-- The number `mantissa * 2 ^ exponent`. -/
structure Binary where
  mantissa : Nat
  exponent : Int
  deriving DecidableEq, Repr

structure Ratio where
  num : Nat
  den : Nat
  deriving DecidableEq, Repr

namespace Binary

/-- The weight of the leading bit of a normal float's mantissa, `2 ^ 52`. -/
def leadingBit : Nat := 4503599627370496

def ofFloat (x : Float) : Binary :=
  let bits := x.toBits.toNat
  let exponent : Nat := bits / leadingBit % 2048
  let fraction : Nat := bits % leadingBit
  if exponent = 0 then ⟨fraction, -1074⟩ else ⟨fraction + leadingBit, (exponent : Int) - 1075⟩

/-- Whether the next smaller float is only half as far away as the next larger one. -/
def lowerGapIsHalf (b : Binary) : Bool := b.mantissa == leadingBit && b.exponent != -1074

/-- `n * 2 ^ e` as a fraction. -/
def scaled (n : Nat) (e : Int) : Ratio :=
  if 0 ≤ e then ⟨n * Nat.pow 2 e.toNat, 1⟩ else ⟨n, Nat.pow 2 (-e).toNat⟩

def toRatio (b : Binary) : Ratio := scaled b.mantissa b.exponent

end Binary

/-- Whether the sign bit of a float is set; this tells `-0.0` from `0.0`. -/
def isSigned (x : Float) : Bool := 9223372036854775808 ≤ x.toBits.toNat

/-- Whether a float is a number: neither an infinity nor undefined. -/
def isNumber (x : Float) : Bool := x.toBits.toNat / Binary.leadingBit % 2048 != 2047

end Serving.Decimal
