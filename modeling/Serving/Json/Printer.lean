import Serving.Json.Basic
import Serving.Decimal.Text

/-!
# Compact JSON text

No blanks, members in the order the value has them, floats in the stored style, and in strings only
what JSON demands is escaped.
-/

namespace Serving.Json

/-- The two low hexadecimal digits of a character below 256. -/
def hexPair (n : Nat) : List Char := [Nat.digitChar (n / 16 % 16), Nat.digitChar (n % 16)]

def escape (c : Char) : List Char :=
  if c = '"' then ['\\', '"']
  else if c = '\\' then ['\\', '\\']
  else if c = '\x08' then ['\\', 'b']
  else if c = '\x0c' then ['\\', 'f']
  else if c = '\n' then ['\\', 'n']
  else if c = '\r' then ['\\', 'r']
  else if c = '\t' then ['\\', 't']
  else if c.toNat < 0x20 then '\\' :: 'u' :: '0' :: '0' :: hexPair c.toNat
  else [c]

def quoted (s : String) : List Char := '"' :: (s.toList.flatMap escape ++ ['"'])

def integer (n : Int) : List Char :=
  if n < 0 then '-' :: Nat.toDigits 10 n.natAbs else Nat.toDigits 10 n.natAbs

mutual

def render : Json → List Char
  | .null => ['n', 'u', 'l', 'l']
  | .bool true => ['t', 'r', 'u', 'e']
  | .bool false => ['f', 'a', 'l', 's', 'e']
  | .int n => integer n
  | .float x => Decimal.text .stored x
  | .str s => quoted s
  | .arr [] => ['[', ']']
  | .arr (v :: rest) => '[' :: (render v ++ renderItems rest)
  | .obj [] => ['\x7b', '\x7d']
  | .obj ((name, v) :: rest) => '\x7b' :: (quoted name ++ ':' :: (render v ++ renderFields rest))

/-- The items behind the first one, with the closing bracket. -/
def renderItems : List Json → List Char
  | [] => [']']
  | v :: rest => ',' :: (render v ++ renderItems rest)

/-- The members behind the first one, with the closing brace. -/
def renderFields : List (String × Json) → List Char
  | [] => ['\x7d']
  | (name, v) :: rest => ',' :: (quoted name ++ ':' :: (render v ++ renderFields rest))

end

def compact (v : Json) : String := String.ofList (render v)

end Serving.Json
