import Serving.Decimal.Binary
import Serving.Decimal.Reader

/-!
# Numbers in plain scalars

A whole number may have a sign and a base prefix; a decimal one with a leading zero is text. A float
is any decimal, or an infinity or an undefined number under its dotted name.
-/

namespace Serving.Yaml

def baseDigit? (base : Nat) (c : Char) : Option Nat :=
  let v :=
    if c.isDigit then c.toNat - 48
    else if 'a' ≤ c ∧ c ≤ 'z' then c.toNat - 87
    else if 'A' ≤ c ∧ c ≤ 'Z' then c.toNat - 55
    else 36
  if v < base then some v else none

/-- The number some digits make, at least one of them. -/
def digits? (base : Nat) (cs : List Char) : Option Nat :=
  if cs.isEmpty then none
  else cs.foldl (fun n c => n.bind fun n => (baseDigit? base c).map (n * base + ·)) (some 0)

/-- A number without sign, in the base its prefix names. -/
def magnitude? : List Char → Option Nat
  | '0' :: 'x' :: rest => digits? 16 rest
  | '0' :: 'o' :: rest => digits? 8 rest
  | '0' :: 'b' :: rest => digits? 2 rest
  | '0' :: rest => if rest.isEmpty then some 0 else none
  | cs => digits? 10 cs

def whole? (s : String) : Option Int :=
  match s.toList with
  | '+' :: rest => (magnitude? rest).map Int.ofNat
  | '-' :: rest => (magnitude? rest).map fun n => -(n : Int)
  | cs => (magnitude? cs).map Int.ofNat

/-- A whole number without a minus sign. -/
def natural? (s : String) : Option Nat :=
  match s.toList with
  | '-' :: _ => none
  | '+' :: rest => magnitude? rest
  | cs => magnitude? cs

def float? (s : String) : Option Float :=
  if s ∈ [".inf", ".Inf", ".INF", "+.inf", "+.Inf", "+.INF"] then some (1.0 / 0.0)
  else if s ∈ ["-.inf", "-.Inf", "-.INF"] then some (-1.0 / 0.0)
  else if s ∈ [".nan", ".NaN", ".NAN"] then some (0.0 / 0.0)
  else (Decimal.float? s.toList).bind fun x => if Decimal.isNumber x then some x else none

def bool? (s : String) : Option Bool :=
  if s ∈ ["true", "True", "TRUE"] then some true
  else if s ∈ ["false", "False", "FALSE"] then some false
  else none

def isNull (s : String) : Bool := s ∈ ["", "null", "Null", "NULL", "~"]

end Serving.Yaml
