/-!
# Patterns for keys

A pattern stands for a set of keys: `*` for any characters, `?` for one character, brackets for one of
some characters or ranges (or, after `^`, for one of the others), a backslash for the next character
itself, and any other character for itself. A character here is one byte of a text.
-/

namespace Serving.Cache.Glob

inductive Token
  | any
  | one
  | this (c : Char)
  /-- One character within a range, or within none of them. -/
  | among (negated : Bool) (ranges : List (Char × Char))
  deriving DecidableEq, Repr

/-- The ranges up to a closing bracket, and what follows it. A range may be written backwards. -/
def ranges : List Char → List (Char × Char) × List Char
  | '\\' :: c :: rest =>
    let (others, rest) := ranges rest
    ((c, c) :: others, rest)
  | ']' :: rest => ([], rest)
  | a :: '-' :: b :: rest =>
    let (others, rest) := ranges rest
    ((if a ≤ b then (a, b) else (b, a)) :: others, rest)
  | c :: rest =>
    let (others, rest) := ranges rest
    ((c, c) :: others, rest)
  | [] => ([], [])

theorem length_ranges (cs : List Char) : (ranges cs).2.length ≤ cs.length := by
  fun_induction ranges cs <;> simp_all <;> omega

def tokens : List Char → List Token
  | [] => []
  | '*' :: rest => .any :: tokens rest
  | '?' :: rest => .one :: tokens rest
  | '[' :: '^' :: rest => .among true (ranges rest).1 :: tokens (ranges rest).2
  | '[' :: rest => .among false (ranges rest).1 :: tokens (ranges rest).2
  | '\\' :: c :: rest => .this c :: tokens rest
  | c :: rest => .this c :: tokens rest
termination_by cs => cs.length
decreasing_by
  all_goals simp
  all_goals have := length_ranges rest
  all_goals omega

def Token.accepts (t : Token) (c : Char) : Bool :=
  match t with
  | any | one => true
  | this d => c == d
  | among negated ranges => (ranges.any fun r => decide (r.1 ≤ c ∧ c ≤ r.2)) != negated

/-- All ends of a list, the list itself first. -/
def ends : List Char → List (List Char)
  | [] => [[]]
  | c :: rest => (c :: rest) :: ends rest

def accepts : List Token → List Char → Bool
  | [], cs => cs.isEmpty
  | .any :: ts, cs => (ends cs).any (accepts ts)
  | t :: ts, c :: cs => t.accepts c && accepts ts cs
  | _ :: _, [] => false

/-- The bytes of a text, each as the character with its number. -/
def units (s : String) : List Char := s.toUTF8.data.toList.map fun b => Char.ofNat b.toNat

def isMatch (pattern key : String) : Bool := accepts (tokens (units pattern)) (units key)

end Serving.Cache.Glob
