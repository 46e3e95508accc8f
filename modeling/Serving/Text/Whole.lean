/-!
# Reading whole numbers

A number of digits, perhaps with a plus in front and, where negative numbers are wanted, a minus. It is
read from the left, and the first thing that is wrong counts.
-/

namespace Serving.Text

inductive WholeError
  | empty
  | invalidDigit
  | tooLarge
  | tooSmall
  deriving DecidableEq, Repr

def WholeError.message : WholeError → String
  | empty => "cannot parse integer from empty string"
  | invalidDigit => "invalid digit found in string"
  | tooLarge => "number too large to fit in target type"
  | tooSmall => "number too small to fit in target type"

/-- Reads digits on from `n`; a number above `limit` is an overflow. -/
def digits (limit : Nat) (overflow : WholeError) : Nat → List Char → Except WholeError Nat
  | n, [] => .ok n
  | n, c :: rest =>
    if c.isDigit then
      let m := n * 10 + (c.toNat - '0'.toNat)
      if m ≤ limit then digits limit overflow m rest else .error overflow
    else .error .invalidDigit

def someDigits (limit : Nat) (overflow : WholeError) (cs : List Char) : Except WholeError Nat :=
  if cs.isEmpty then .error .invalidDigit else digits limit overflow 0 cs

/-- Reads a number from 0 to `limit`. -/
def natural (limit : Nat) (s : String) : Except WholeError Nat :=
  match s.toList with
  | [] => .error .empty
  | '+' :: rest => someDigits limit .tooLarge rest
  | cs => someDigits limit .tooLarge cs

/-- Reads a number of 64 bits with a sign. -/
def integer (s : String) : Except WholeError Int :=
  match s.toList with
  | [] => .error .empty
  | '+' :: rest => (someDigits 9223372036854775807 .tooLarge rest).map Int.ofNat
  | '-' :: rest => (someDigits 9223372036854775808 .tooSmall rest).map fun n => -(n : Int)
  | cs => (someDigits 9223372036854775807 .tooLarge cs).map Int.ofNat

theorem digits_le {limit : Nat} {overflow : WholeError} {n m : Nat} {cs : List Char} (hn : n ≤ limit)
    (h : digits limit overflow n cs = .ok m) : m ≤ limit := by
  induction cs generalizing n with
  | nil =>
    simp only [digits, Except.ok.injEq] at h
    omega
  | cons c rest ih =>
    simp only [digits] at h
    split at h
    · split at h
      · rename_i hm
        exact ih hm h
      · cases h
    · cases h

end Serving.Text
