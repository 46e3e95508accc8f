import Serving.Yaml.Basic

/-!
# Scanning YAML text

The cursor, the gaps between tokens, and the three kinds of scalars: plain, single-quoted and
double-quoted. A scalar may run over several lines; one line end in it is a blank, and of several all
but one are kept.
-/

namespace Serving.Yaml

structure Cursor where
  rest : List Char
  column : Nat

namespace Cursor

def skip (c : Cursor) (n : Nat) : Cursor := ⟨c.rest.drop n, c.column + n⟩

def isBreak (ch : Char) : Bool := ch == '\n'

def isSpace (ch : Char) : Bool := ch == ' ' || ch == '\t'

/-- Whether a token ends in front of the given text: at a blank, a line end or the end. -/
def endsToken : List Char → Bool
  | [] => true
  | ch :: _ => isSpace ch || isBreak ch

/-- A document marker: three equal characters at the start of a line. -/
def isMarker (c : Cursor) : Bool :=
  c.column == 0 && match c.rest with
    | '-' :: '-' :: '-' :: rest => endsToken rest
    | '.' :: '.' :: '.' :: rest => endsToken rest
    | _ => false

/-- Whether the document has no more content. -/
def atEnd (c : Cursor) : Bool := c.rest.isEmpty || c.isMarker

def atDash (c : Cursor) : Bool :=
  match c.rest with
  | '-' :: rest => endsToken rest
  | _ => false

def spaces (c : Cursor) : Cursor :=
  let n := (c.rest.takeWhile isSpace).length
  c.skip n

inductive Gap
  /-- Behind a token on the same line; the flag tells whether a blank came in between. -/
  | inLine (blank : Bool)
  | indent
  | comment

/-- Skips blanks, line ends and comments. In block context a tab may not indent. -/
def gapFrom (flow : Bool) (column : Nat) (state : Gap) : List Char → Option Cursor
  | [] => some ⟨[], column⟩
  | ch :: rest =>
    if ch = '\n' then gapFrom flow 0 .indent rest
    else match state with
      | .comment => gapFrom flow (column + 1) .comment rest
      | .inLine blank =>
        if isSpace ch then gapFrom flow (column + 1) (.inLine true) rest
        else if ch = '#' ∧ blank then gapFrom flow (column + 1) .comment rest
        else some ⟨ch :: rest, column⟩
      | .indent =>
        if ch = ' ' ∨ (ch = '\t' ∧ flow) then gapFrom flow (column + 1) .indent rest
        else if ch = '\t' then none
        else if ch = '#' then gapFrom flow (column + 1) .comment rest
        else some ⟨ch :: rest, column⟩

/-- Skips to the next token. At the start of a line the gap counts as indentation. -/
def gap (c : Cursor) (flow : Bool) : Option Cursor :=
  gapFrom flow c.column (if c.column = 0 then .indent else .inLine false) c.rest

end Cursor

open Cursor

/-- Characters with a meaning of their own inside flow collections. -/
def isFlowMark (ch : Char) : Bool := ch ∈ [',', '[', ']', '\x7b', '\x7d']

def startsPlain (flow : Bool) : List Char → Bool
  | [] => false
  | ch :: rest =>
    if ch ∈ ['-', '?', ':'] then !endsToken rest && !(flow && (rest.head?.map isFlowMark).getD false)
    else !(ch ∈ [',', '[', ']', '\x7b', '\x7d', '#', '&', '*', '!', '|', '>', '\'', '"', '%', '@', '\x60'])

def isColon (flow : Bool) : List Char → Bool
  | ':' :: rest => endsToken rest || (flow && (rest.head?.map isFlowMark).getD false)
  | _ => false

/-- The characters of a plain scalar on one line. `blank` tells whether a blank came just before. -/
def plainLine (flow blank : Bool) : List Char → List Char
  | [] => []
  | ch :: rest =>
    if isBreak ch || isColon flow (ch :: rest) || (blank && ch == '#') || (flow && isFlowMark ch) then []
    else ch :: plainLine flow (isSpace ch) rest

def trimEnd (cs : List Char) : List Char := (cs.reverse.dropWhile isSpace).reverse

/-- What `n` line ends inside a scalar stand for. -/
def folded (n : Nat) : List Char := if n ≤ 1 then [' '] else List.replicate (n - 1) '\n'

/-- Blanks and line ends in front of the next character: the number of line ends, and the cursor
there. -/
def lineEnds (column n : Nat) : List Char → Nat × Cursor
  | [] => (n, ⟨[], column⟩)
  | ch :: rest =>
    if isBreak ch then lineEnds 0 (n + 1) rest
    else if isSpace ch then lineEnds (column + 1) n rest
    else (n, ⟨ch :: rest, column⟩)

/-- The lines of a plain scalar behind its first one. Lines have to be indented more than `parent`. -/
def plainMore (flow : Bool) (parent : Int) : Nat → List Char → Cursor → List Char × Cursor
  | 0, text, c => (text, c)
  | fuel + 1, text, c =>
    let (n, ahead) := lineEnds c.column 0 c.rest
    if n = 0 || ahead.atEnd || (!flow && (ahead.column : Int) ≤ parent) || ahead.rest.head? == some '#' then
      (text, c)
    else
      let line := plainLine flow false ahead.rest
      if line.isEmpty then (text, c)
      else plainMore flow parent fuel (text ++ folded n ++ trimEnd line) (ahead.skip line.length)

/-- A plain scalar over one or more lines. -/
def plain? (flow : Bool) (parent : Int) (c : Cursor) : Option (String × Cursor) :=
  if startsPlain flow c.rest then
    let line := plainLine flow false c.rest
    let (text, c) := plainMore flow parent c.rest.length (trimEnd line) (c.skip line.length)
    some (String.ofList text, c)
  else none

def singleQuoted : Nat → List Char → Cursor → Option (List Char × Cursor)
  | 0, _, _ => none
  | fuel + 1, text, c =>
    match c.rest with
    | '\'' :: '\'' :: _ => singleQuoted fuel (text ++ ['\'']) (c.skip 2)
    | '\'' :: _ => some (text, c.skip 1)
    | [] => none
    | ch :: _ =>
      let (n, ahead) := lineEnds c.column 0 c.rest
      if n = 0 then singleQuoted fuel (text ++ [ch]) (c.skip 1)
      else singleQuoted fuel (text ++ folded n) ahead

/-- The value of some hexadecimal digits. -/
def hexNumber? (cs : List Char) : Option Nat :=
  cs.foldl (fun n ch => n.bind fun n =>
    if ch.isDigit then some (n * 16 + (ch.toNat - 48))
    else if 'a' ≤ ch ∧ ch ≤ 'f' then some (n * 16 + (ch.toNat - 87))
    else if 'A' ≤ ch ∧ ch ≤ 'F' then some (n * 16 + (ch.toNat - 55))
    else none) (some 0)

/-- A character given by `n` hexadecimal digits. -/
def hexEscape? (n : Nat) (rest : List Char) : Option (Char × Nat) :=
  let digits := rest.take n
  if digits.length = n then
    (hexNumber? digits).bind fun v => if v.isValidChar then some (Char.ofNat v, n + 2) else none
  else none

/-- The character of an escape behind the backslash, and how long the escape is. -/
def escape? : List Char → Option (Char × Nat)
  | '0' :: _ => some ('\x00', 2)
  | 'a' :: _ => some ('\x07', 2)
  | 'b' :: _ => some ('\x08', 2)
  | 't' :: _ | '\t' :: _ => some ('\t', 2)
  | 'n' :: _ => some ('\n', 2)
  | 'v' :: _ => some ('\x0b', 2)
  | 'f' :: _ => some ('\x0c', 2)
  | 'r' :: _ => some ('\r', 2)
  | 'e' :: _ => some ('\x1b', 2)
  | ' ' :: _ => some (' ', 2)
  | '"' :: _ => some ('"', 2)
  | '/' :: _ => some ('/', 2)
  | '\\' :: _ => some ('\\', 2)
  | 'N' :: _ => some ('\u0085', 2)
  | '_' :: _ => some ('\u00a0', 2)
  | 'L' :: _ => some ('\u2028', 2)
  | 'P' :: _ => some ('\u2029', 2)
  | 'x' :: rest => hexEscape? 2 rest
  | 'u' :: rest => hexEscape? 4 rest
  | 'U' :: rest => hexEscape? 8 rest
  | _ => none

def doubleQuoted : Nat → List Char → Cursor → Option (List Char × Cursor)
  | 0, _, _ => none
  | fuel + 1, text, c =>
    match c.rest with
    | '"' :: _ => some (text, c.skip 1)
    | '\\' :: '\n' :: rest =>
      let (n, ahead) := lineEnds 0 0 rest
      doubleQuoted fuel (text ++ List.replicate n '\n') ahead
    | '\\' :: rest => (escape? rest).bind fun (ch, n) => doubleQuoted fuel (text ++ [ch]) (c.skip n)
    | [] => none
    | ch :: _ =>
      let (n, ahead) := lineEnds c.column 0 c.rest
      if n = 0 then doubleQuoted fuel (text ++ [ch]) (c.skip 1)
      else doubleQuoted fuel (text ++ folded n) ahead

/-- A quoted scalar, if the cursor is at a quote. -/
def quoted? (c : Cursor) : Option (String × Cursor) :=
  match c.rest with
  | '\'' :: rest => (singleQuoted rest.length [] (c.skip 1)).map fun (t, c) => (String.ofList t, c)
  | '"' :: rest => (doubleQuoted rest.length [] (c.skip 1)).map fun (t, c) => (String.ofList t, c)
  | _ => none

def atQuote (c : Cursor) : Bool := c.rest.head? == some '"' || c.rest.head? == some '\''

/-- A scalar that fits on one line, as the key of a mapping has to. -/
def key? (flow : Bool) (c : Cursor) : Option (String × Cursor) :=
  if atQuote c then quoted? c
  else if startsPlain flow c.rest then
    let line := plainLine flow false c.rest
    some (String.ofList (trimEnd line), c.skip line.length)
  else none

end Serving.Yaml
