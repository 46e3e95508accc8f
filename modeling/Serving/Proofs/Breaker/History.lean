import Serving.Proofs.Balancer.Breakers

/-! Runs of a breaker. Successes, failures and questions come in any order, and time passes between them. The breaker
changes its state only when something comes, a question included, but what it answers can be read off the failures since
the last success, and its counts are those of the answers that it gave. -/

namespace Serving.Breaker

inductive Event
  | success
  | failure
  | query
  | wait (d : Duration)
  deriving DecidableEq

namespace Event

def duration : Event → Duration
  | wait d => d
  | _ => 0

def isQuery (e : Event) : Bool := e == query

end Event

/-- What an event does to a breaker, and the answer that it gets if it gets one. -/
def perform (b : Breaker) (now : Instant) : Event → Option Bool × Breaker
  | .success => (none, b.succeed)
  | .failure => (some (b.fail now).1, (b.fail now).2)
  | .query => (some (b.admits now).1, (b.admits now).2)
  | .wait _ => (none, b)

structure Record where
  time : Instant
  event : Event
  answer : Option Bool

namespace Record

/-- A question to which the answer was no. -/
def isRefusal (r : Record) : Bool := r.event == .query && r.answer == some false

/-- A failure with which the breaker opened. -/
def isOpening (r : Record) : Bool := r.event == .failure && r.answer == some true

/-- The times of the failures since the last success, the latest first, as are the records. -/
def failures : List Record → List Instant
  | [] => []
  | ⟨_, .success, _⟩ :: _ => []
  | ⟨time, .failure, _⟩ :: past => time :: failures past
  | _ :: past => failures past

end Record

structure History where
  breaker : Breaker
  now : Instant
  past : List Record := []

namespace History

def failures (s : History) : List Instant := Record.failures s.past

def admits (s : History) : Bool := (s.breaker.admits s.now).1

def step (s : History) (e : Event) : History where
  breaker := (s.breaker.perform s.now e).2
  now := s.now + e.duration
  past := ⟨s.now, e, (s.breaker.perform s.now e).1⟩ :: s.past

def after (s : History) (events : List Event) : History := events.foldl step s

def run (config : Config) (created : Instant) (events : List Event) : History :=
  after ⟨.new config, created, []⟩ events

/-- The breaker knows of the failures what the past tells, and its counts are those of the past. -/
structure Kept (config : Config) (s : History) : Prop where
  tracks : s.breaker.Tracks config s.now s.failures
  rejections : s.breaker.rejections = s.past.countP (·.isRefusal)
  timesOpened : s.breaker.timesOpened = s.past.countP (·.isOpening)

end History

section Counts

variable (b : Breaker) (now : Instant)

lemma admits_counts : (b.admits now).2.timesOpened = b.timesOpened ∧
    (b.admits now).2.rejections = b.rejections + if (b.admits now).1 = false then 1 else 0 := by
  rw [admits]
  split
  · exact ⟨rfl, rfl⟩
  · split <;> exact ⟨rfl, rfl⟩

lemma fail_counts : (b.fail now).2.rejections = b.rejections ∧
    (b.fail now).2.timesOpened = b.timesOpened + if (b.fail now).1 = true then 1 else 0 := by
  simp only [fail]
  split <;> exact ⟨rfl, rfl⟩

end Counts

namespace History

variable {config : Config} {s s' : History}

namespace Kept

lemma start (config : Config) (created : Instant) : Kept config ⟨.new config, created, []⟩ :=
  ⟨.new config created, rfl, rfl⟩

lemma step (h : Kept config s) (e : Event) : Kept config (s.step e) := by
  cases e with
  | success => exact ⟨h.tracks.succeed, h.rejections, h.timesOpened⟩
  | failure =>
    obtain ⟨hr, ho⟩ := s.breaker.fail_counts s.now
    refine ⟨h.tracks.fail, hr.trans h.rejections, ?_⟩
    rw [History.step, perform, ho, h.timesOpened, List.countP_cons]
    simp [Record.isOpening]
  | query =>
    obtain ⟨ho, hr⟩ := s.breaker.admits_counts s.now
    refine ⟨h.tracks.admits, ?_, ho.trans h.timesOpened⟩
    rw [History.step, perform, hr, h.rejections, List.countP_cons]
    simp [Record.isRefusal]
  | wait d => exact ⟨h.tracks.later d, h.rejections, h.timesOpened⟩

lemma after (h : Kept config s) (events : List Event) : Kept config (s.after events) := by
  induction events generalizing s with
  | nil => exact h
  | cons e events ih => exact ih (h.step e)

lemma admits_eq_false_iff (h : Kept config s) : s.admits = false ↔ Blocked config s.now s.failures := by
  rw [← Bool.not_eq_true, admits, h.tracks.admits_iff, Decidable.not_not]

end Kept

/-- Two histories that tell the same of the failures, and are at the same time. -/
structure Alike (s s' : History) : Prop where
  now : s.now = s'.now
  failures : s.failures = s'.failures

namespace Alike

lemma step (h : Alike s s') (e : Event) : Alike (s.step e) (s'.step e) := by
  refine ⟨congrArg (· + e.duration) h.now, ?_⟩
  cases e with
  | success => rfl
  | failure =>
    have htimes : s.now :: s.failures = s'.now :: s'.failures := by rw [h.now, h.failures]
    exact htimes
  | query | wait => exact h.failures

lemma query (h : Alike s s') : Alike (s.step .query) s' := ⟨h.now, h.failures⟩

lemma after (h : Alike s s') (events : List Event) :
    Alike (s.after events) (s'.after (events.filter fun e => !e.isQuery)) := by
  induction events generalizing s s' with
  | nil => exact h
  | cons e events ih =>
    by_cases he : e.isQuery = true
    · obtain rfl : e = .query := by simpa [Event.isQuery] using he
      exact ih h.query
    · rw [List.filter_cons_of_pos (by simp [he])]
      exact ih (h.step e)

lemma admits (h : Alike s s') (hs : Kept config s) (hs' : Kept config s') : s.admits = s'.admits := by
  have hiff : s.admits = false ↔ s'.admits = false := by
    rw [hs.admits_eq_false_iff, hs'.admits_eq_false_iff, h.now, h.failures]
  exact Bool.eq_iff_iff.2 (by simpa using not_congr hiff)

end Alike

/-- A breaker refuses a request just when the failures since the last success are many enough and the last of them is
recent, so no earlier question makes a difference to an answer. It has counted the refusals and the failures that
opened it, and it is open only while it has counted that many failures. -/
theorem answers_follow_from_failures (config : Config) (created : Instant) (events : List Event) :
    let s := run config created events
    (s.admits = false ↔ max 1 config.maxRetries.toNat ≤ s.failures.length ∧
        ∃ last, s.failures.head? = some last ∧ s.now - last < config.cooldown) ∧
      s.admits = (run config created (events.filter fun e => !e.isQuery)).admits ∧
      s.breaker.rejections = s.past.countP (·.isRefusal) ∧ s.breaker.timesOpened = s.past.countP (·.isOpening) ∧
      s.breaker.failures = min s.failures.length mostFailures ∧
      (s.breaker.state = .opened → max 1 config.maxRetries.toNat ≤ s.breaker.failures) := by
  intro s
  have hs : Kept config s := (Kept.start config created).after events
  have hasked : Kept config (run config created (events.filter fun e => !e.isQuery)) :=
    (Kept.start config created).after _
  have halike : Alike s (run config created (events.filter fun e => !e.isQuery)) := Alike.after ⟨rfl, rfl⟩ events
  refine ⟨?_, halike.admits hs hasked, hs.rejections, hs.timesOpened, hs.tracks.count, fun ho => ?_⟩
  · rw [hs.admits_eq_false_iff]
    exact ⟨fun h => ⟨h.many, h.recent⟩, fun h => ⟨h.1, h.2⟩⟩
  · have hopen : s.breaker.isOpen = true := by
      cases hb : s.breaker.isOpen with
      | true => rfl
      | false => simp [state, hb] at ho
    have hmany := hs.tracks.opened hopen
    have hbound : config.maxRetries.toNat ≤ mostFailures := Nat.le_of_lt_succ config.maxRetries.toNat_lt
    have hone : 1 ≤ mostFailures := by decide
    rw [hs.tracks.count]
    omega

end History

end Serving.Breaker
