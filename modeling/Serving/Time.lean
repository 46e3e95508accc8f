/-!
# Instants and durations

Time is counted in whole nanoseconds from the moment the clock starts. A timer can only go off on a
whole millisecond, so a deadline between two milliseconds is met at the later one.
-/

namespace Serving

abbrev Instant := Nat

abbrev Duration := Nat

namespace Duration

def nanosPerSecond : Nat := 1000000000

def nanosPerMilli : Nat := 1000000

def ofMillis (n : Nat) : Duration := n * nanosPerMilli

def ofSeconds (n : Nat) : Duration := n * nanosPerSecond

/-- The longest duration: one nanosecond less than `2 ^ 64` seconds. -/
def longest : Duration := 18446744073709551616 * nanosPerSecond - 1

/-- Whole seconds of a duration. -/
def wholeSeconds (d : Duration) : Nat := d / nanosPerSecond

/-- Nanoseconds beyond the whole seconds. -/
def subsecondNanos (d : Duration) : Nat := d % nanosPerSecond

def wholeMillis (d : Duration) : Nat := d / nanosPerMilli

/-- A duration as a number of seconds: the whole seconds plus the fraction, each rounded on its own. -/
def seconds (d : Duration) : Float :=
  Float.ofNat (wholeSeconds d) + Float.ofNat (subsecondNanos d) / 1000000000.0

/-- The sum, cut off at the longest duration. -/
def addCapped (a b : Duration) : Duration := min (a + b) longest

/-- The multiple, cut off at the longest duration. -/
def mulCapped (d : Duration) (n : Nat) : Duration := min (d * n) longest

end Duration

namespace Instant

/-- The first whole millisecond that is not before `t`. -/
def roundUp (t : Instant) : Instant :=
  (t + (Duration.nanosPerMilli - 1)) / Duration.nanosPerMilli * Duration.nanosPerMilli

/-- When a timer set at `now` for `d` goes off. -/
def alarm (now : Instant) (d : Duration) : Instant := roundUp (now + d)

theorem le_roundUp (t : Instant) : t ≤ roundUp t := by
  simp only [Instant, roundUp, Duration.nanosPerMilli] at *
  omega

theorem le_alarm (now : Instant) (d : Duration) : now + d ≤ alarm now d := le_roundUp _

def millis (t : Instant) : Nat := t / Duration.nanosPerMilli

end Instant

end Serving
