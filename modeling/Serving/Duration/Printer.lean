import Serving.Time

/-!
# Writing durations

A duration is written from years down to nanoseconds, parts that are zero left out, separated by
blanks. Years, months and days are spelt out and take a plural; zero is `0s`.
-/

namespace Serving.Duration

/-- A part spelt out, unless it is zero. -/
def spelled (name : String) (n : Nat) : List String :=
  if n = 0 then [] else if n = 1 then [s!"1{name}"] else [s!"{n}{name}s"]

/-- A part with an abbreviated unit, unless it is zero. -/
def short (name : String) (n : Nat) : List String := if n = 0 then [] else [s!"{n}{name}"]

/-- The non-zero parts of a duration, largest unit first. -/
def parts (d : Duration) : List String :=
  let secs := wholeSeconds d
  let nanos := subsecondNanos d
  let inYear := secs % 31557600
  let inMonth := inYear % 2630016
  let inDay := inMonth % 86400
  spelled "year" (secs / 31557600) ++ spelled "month" (inYear / 2630016) ++
    spelled "day" (inMonth / 86400) ++ short "h" (inDay / 3600) ++ short "m" (inDay % 3600 / 60) ++
    short "s" (inDay % 60) ++ short "ms" (nanos / 1000000) ++ short "us" (nanos / 1000 % 1000) ++
    short "ns" (nanos % 1000)

def text (d : Duration) : String := if d = 0 then "0s" else " ".intercalate (parts d)

end Serving.Duration
