import Serving.Digest.Sha256
import Serving.Error
import Serving.Instance

/-!
# Choosing among instances

Four ways to choose one of several instances: in turn, by the fewest requests in flight, at random in
proportion to a score, and by a hash of the caller's key. A strategy sees only instances that may be
chosen and answers with a place in their list; a tie goes to the first.
-/

namespace Serving

inductive Algorithm
  | roundRobin
  | leastConnections
  | weighted
  | ipHash
  deriving DecidableEq, Repr, Inhabited

namespace Algorithm

def name : Algorithm → String
  | roundRobin => "round_robin"
  | leastConnections => "least_connections"
  | weighted => "weighted"
  | ipHash => "ip_hash"

def ofName? : String → Option Algorithm
  | "round_robin" => some roundRobin
  | "least_connections" => some leastConnections
  | "weighted" => some weighted
  | "ip_hash" => some ipHash
  | _ => none

def parse (s : String) : Except Error Algorithm :=
  match ofName? (Text.lower s) with
  | some a => .ok a
  | none => .error (.configuration ("Unknown load balancing algorithm: " ++ Text.lower s))

theorem ofName?_name (a : Algorithm) : ofName? a.name = some a := by cases a <;> rfl

end Algorithm

/-- The larger of a number and a bound; the bound, if there is no number. -/
def atLeast (bound x : Float) : Float := if bound < x then x else bound

namespace Instance

def leastResponseTime : Float := 0.001

/-- How much capacity an instance has to spare: its weight, more for quick answers and less for a
processor or memory in use. Never negative. -/
def score (i : Instance) : Float :=
  let cpuRoom := atLeast 0.0 (1.0 - i.cpu / 100.0)
  let memoryRoom := atLeast 0.0 (1.0 - i.memory / 100.0)
  atLeast 0.0 (atLeast 0.0 i.weight / atLeast leastResponseTime i.responseTime * cpuRoom * memoryRoom)

end Instance

/-- A way of choosing, and whose turn it is for each service. -/
structure Strategy where
  algorithm : Algorithm
  cursors : Table UInt64 := ∅

namespace Strategy

/-- The place of the first of the smallest numbers. -/
def placeOfLeast (loads : List Nat) : Option Nat := loads.min?.bind fun least => loads.idxOf? least

/-- The first place at which the running total of the scores exceeds `roll`. -/
def placeOfRoll (roll : Float) : Float → List Float → Option Nat
  | _, [] => none
  | total, score :: rest =>
    if roll < total + score then some 0 else (placeOfRoll roll (total + score) rest).map (· + 1)

/-- The last place with a positive score. -/
def lastPositive (scores : List Float) : Option Nat :=
  (scores.reverse.findIdx? fun s => decide (0.0 < s)).map (scores.length - 1 - ·)

/-- The place that a throw of the dice, from 0 up to but not including 1, falls on. Without a usable
total it is the first. -/
def weightedPlace (scores : List Float) (dice : Float) : Nat :=
  let total := scores.foldl (· + ·) 0.0
  if 0.0 < total && total.isFinite then
    ((placeOfRoll (dice * total) 0.0 scores).orElse fun _ => lastPositive scores).getD 0
  else 0

def hashKey (key : String) : UInt64 := UInt64.ofNat (Digest.leadingWord (Digest.sha256 (Digest.utf8 key)))

/-- Takes the next turn among `n` instances of a service. -/
def takeTurn (s : Strategy) (service : String) (n : Nat) : Nat × Strategy :=
  let turn := (s.cursors.find? service).getD 0
  (turn.toNat % n, { s with cursors := s.cursors.insert service (turn + 1) })

/-- Chooses a place in the list of candidates, if it has any. -/
def choose (s : Strategy) (service : String) (candidates : List Instance) (key : Option String)
    (dice : Float) : Option Nat × Strategy :=
  let n := candidates.length
  if n = 0 then (none, s)
  else match s.algorithm with
    | .roundRobin =>
      let (place, s) := s.takeTurn service n
      (some place, s)
    | .leastConnections => (placeOfLeast (candidates.map (·.active)), s)
    | .weighted => (some (weightedPlace (candidates.map (·.score)) dice), s)
    | .ipHash =>
      match key with
      | some k => (some ((hashKey k).toNat % n), s)
      | none =>
        let (place, s) := s.takeTurn service n
        (some place, s)

theorem takeTurn_lt (s : Strategy) (service : String) {n : Nat} (h : 0 < n) :
    (s.takeTurn service n).1 < n := Nat.mod_lt _ h

@[simp]
theorem takeTurn_algorithm (s : Strategy) (service : String) (n : Nat) :
    (s.takeTurn service n).2.algorithm = s.algorithm := rfl

end Strategy

end Serving
