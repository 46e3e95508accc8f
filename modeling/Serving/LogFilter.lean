import Serving.Text.Blank

/-!
# Log filters

A log filter is a list of directives between commas. A directive names a level, a target, or both as
`target=level`; a target may be followed by a span in brackets, `[span]` or `[span\x7bfields\x7d]`.
Only the form of a filter is checked here.
-/

namespace Serving

namespace LogFilter

inductive Problem
  /-- Something that is no directive. -/
  | malformed
  /-- A word after `=` that is no level. -/
  | unknownLevel
  deriving DecidableEq, Repr

def Problem.message : Problem → String
  | malformed => "invalid filter directive"
  | unknownLevel =>
    "error parsing level filter: expected one of \"off\", \"error\", \"warn\", \"info\", \"debug\", \"trace\", or a number 0-5"

def levelNames : List String := ["off", "error", "warn", "info", "debug", "trace"]

/-- Whether a text is a number of a level, written with or without a plus and zeros in front. -/
def isLevelNumber (cs : List Char) : Bool :=
  let digits := match cs with
    | '+' :: rest => rest
    | _ => cs
  !digits.isEmpty && digits.all Char.isDigit && Nat.ofDigitChars 10 digits 0 ≤ 5

/-- Whether a text after `=` stands for a level; nothing stands for the most detailed one. -/
def isLevel (cs : List Char) : Bool :=
  cs.isEmpty || levelNames.contains (Text.lower (String.ofList cs)) || isLevelNumber cs

/-- Whether a name can start with this character. Letters of all scripts can start one. -/
def startsName (c : Char) : Bool :=
  c == '-' || c == ':' || c == '_' || c.isAlphanum || 0x80 ≤ c.toNat

/-- What follows the target and span of a directive: nothing, or `=` and a level. -/
inductive Tail
  | none
  | level (cs : List Char)
  | malformed
  deriving DecidableEq, Repr

def afterSpan : List Char → Tail
  | [] => .none
  | '=' :: rest => .level rest
  | _ => .malformed

/-- Reads the fields of a span, of which none is empty, and what follows. -/
def fields : (isEmpty : Bool) → List Char → Tail
  | true, '\x7d' :: _ => .malformed
  | false, '\x7d' :: ']' :: rest => afterSpan rest
  | false, '\x7d' :: _ => .malformed
  | _, _ :: rest => fields false rest
  | _, [] => .malformed

def span : List Char → Tail
  | ']' :: rest => afterSpan rest
  | '\x7b' :: rest => fields true rest
  | _ :: rest => span rest
  | [] => .malformed

def name : List Char → Tail
  | '=' :: rest => .level rest
  | '[' :: rest => span rest
  | _ :: rest => name rest
  | [] => .none

/-- What follows the target and span of a directive without blanks at its ends. -/
def tail : List Char → Tail
  | '[' :: rest => span rest
  | c :: rest => if startsName c then name rest else .malformed
  | [] => .malformed

/-- What is wrong with one directive. Blanks around it are passed over, but a level is looked for as
far into the untrimmed text as it is into the trimmed one. -/
def directiveProblem? (cs : List Char) : Option Problem :=
  let trimmed := Text.trimChars cs
  match tail trimmed with
  | .none => none
  | .malformed => some .malformed
  | .level rest =>
    if isLevel (cs.drop (trimmed.length - rest.length)) then none else some .unknownLevel

/-- What is wrong with a filter: the problem of its first wrong directive. The empty filter is fine. -/
def problem? (filter : String) : Option Problem :=
  if filter.isEmpty then none
  else (filter.toList.splitOn ',').findSome? directiveProblem?

end LogFilter

end Serving
