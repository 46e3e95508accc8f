import Serving.Error
import Serving.Json.Basic
import Serving.Source
import Serving.Text.Blank

/-!
# Queries

A database answers queries. A log keeps, for each text of a query that it is told of, how often it ran
and how long that took on average, until the query has not been seen for a while.
-/

namespace Serving

/-- How a query runs: the time it takes, the result, and whether the log is told of it. -/
structure QueryRun where
  took : Duration
  result : Except Error Json
  isLogged : Bool := false

abbrev Database := String → Json → QueryRun

namespace Database

def emptyQuery : Error := .invalidRequest "database query must not be empty"

/-- The time that a simulated query takes if nothing is said. -/
def usualLatency : Duration := .ofMillis 20

/-- A database without rows, which takes the same time for every query. -/
def simulated (latency : Duration) : Database := fun query params =>
  if (Text.trim query).isEmpty then { took := 0, result := .error emptyQuery }
  else
    { took := latency
      result := .ok (.obj [("query", .str query), ("params", params), ("rows", .arr []), ("row_count", .int 0)])
      isLogged := true }

end Database

structure QueryFigures where
  runs : Nat := 0
  /-- Seconds of all runs together. -/
  totalTime : Float := 0.0
  lastSeen : Instant := 0
  deriving Inhabited

namespace QueryFigures

/-- The figures after one more run. -/
def add (f : QueryFigures) (now : Instant) (took : Duration) : QueryFigures where
  runs := f.runs + 1
  totalTime := f.totalTime + Duration.seconds took
  lastSeen := now

def meanTime (f : QueryFigures) : Float :=
  if f.runs = 0 then 0.0 else f.totalTime / Float.ofNat f.runs

def toJson (f : QueryFigures) : Json :=
  .obj [("executions", .ofNat f.runs), ("average_duration", .ofFloat f.meanTime)]

end QueryFigures

structure QueryLog where
  queries : Table QueryFigures := ∅

namespace QueryLog

def record (l : QueryLog) (now : Instant) (query : String) (took : Duration) : QueryLog where
  queries := l.queries.insert query (((l.queries.find? query).getD {}).add now took)

/-- Writes a run down if the log is told of it. -/
def note (l : QueryLog) (now : Instant) (query : String) (took : Duration) (run : QueryRun) : QueryLog :=
  if run.isLogged then l.record now query took else l

def isRecent (now : Instant) (retention : Duration) (f : QueryFigures) : Bool :=
  decide (now - f.lastSeen ≤ retention)

/-- Drops the queries that were last seen longer ago than `retention`, and counts them. -/
def prune (l : QueryLog) (now : Instant) (retention : Duration) : Nat × QueryLog :=
  let kept := l.queries.filter fun _ f => isRecent now retention f
  (l.queries.size - kept.size, ⟨kept⟩)

def toJson (l : QueryLog) : Json := .ofTable QueryFigures.toJson l.queries

def run (l : QueryLog) (database : Database) (now : Instant) (query : String) (params : Json) :
    Except Error Json × QueryLog × Instant :=
  let r := database query params
  let ends := if r.took = 0 then now else Instant.alarm now r.took
  (r.result, l.note ends query (ends - now) r, ends)

end QueryLog

end Serving
