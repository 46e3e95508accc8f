import Serving.Balancer.Basic

/-! Runs of a balancer. Instances come and go, requests start and end on them, probes and operators change
their status, somebody asks for an instance, and time passes, in any order. A history is a balancer with its
past, and what the past says of an instance is read off the past alone. -/

namespace Serving.Balancer

inductive Operation
  | register (i : Instance)
  | unregister (id : String)
  | select (service : String) (key : Option String)
  | startRequest (id : String)
  | endRequest (id : String) (success : Bool) (took : Duration)
  | recordProbe (id : String) (healthy : Bool) (cpu memory : Float)
  | setHealth (id : String) (status : Health)
  | updateResources (id : String) (cpu memory : Float)
  | setAlgorithm (a : Algorithm)
  | timePasses (d : Duration)

def perform (b : Balancer) (now : Instant) : Operation → Balancer
  | .register i => b.register i
  | .unregister id => (b.unregister id).2
  | .select service key => (b.select now service key).2
  | .startRequest id => (b.startRequest id).2
  | .endRequest id success took => b.endRequest now id success took
  | .recordProbe id healthy cpu memory => (b.recordProbe now id healthy cpu memory).2
  | .setHealth id status => (b.setHealth id status).2
  | .updateResources id cpu memory => (b.updateResources id cpu memory).2
  | .setAlgorithm a => b.setAlgorithm a
  | .timePasses _ => b

def Operation.duration : Operation → Duration
  | .timePasses d => d
  | _ => 0

/-- What happened and when, the latest first. -/
abbrev Past := List (Instant × Operation)

/-- The service and the status of an instance that was registered and has not been removed since. -/
def Past.standing (id : String) : Past → Option (String × Health)
  | [] => none
  | (_, .register i) :: past => if i.id = id then some (i.service, i.health) else standing id past
  | (_, .unregister other) :: past => if other = id then none else standing id past
  | (_, .recordProbe other healthy _ _) :: past =>
    if other = id then (standing id past).map fun s => (s.1, s.2.afterProbe healthy) else standing id past
  | (_, .setHealth other status) :: past =>
    if other = id then (standing id past).map fun s => (s.1, status) else standing id past
  | _ :: past => standing id past

/-- How the requests ended that an instance had since it was last registered. -/
def Past.endings (id : String) : Past → List (Instant × Bool)
  | [] => []
  | (_, .register i) :: past => if i.id = id then [] else endings id past
  | (time, .endRequest other success _) :: past =>
    if other = id then (time, success) :: endings id past else endings id past
  | _ :: past => endings id past

/-- The times of the failures in a row up to now. -/
def Past.failures (id : String) (past : Past) : List Instant :=
  ((past.endings id).takeWhile fun e => !e.2).map (·.1)

theorem Past.exists_register_of_standing {id : String} {past : Past} {x : String × Health}
    (h : Past.standing id past = some x) :
    ∃ i, .register i ∈ List.map (·.2) past ∧ i.id = id := by
  induction past generalizing x with
  | nil => cases h
  | cons e past ih =>
    obtain ⟨t, o⟩ := e
    have hlater (h : ∃ x, standing id past = some x) : ∃ i, .register i ∈ List.map (·.2) ((t, o) :: past) ∧
        i.id = id := by
      obtain ⟨x, hx⟩ := h
      obtain ⟨i, hi, hid⟩ := ih hx
      exact ⟨i, List.mem_cons_of_mem _ hi, hid⟩
    cases o with
    | register i =>
      rw [standing] at h
      split at h
      · rename_i hid
        exact ⟨i, List.mem_cons_self, hid⟩
      · exact hlater ⟨_, h⟩
    | unregister other =>
      rw [standing] at h
      split at h
      · cases h
      · exact hlater ⟨_, h⟩
    | recordProbe other healthy cpu memory =>
      rw [standing] at h
      split at h
      · obtain ⟨y, hy, _⟩ := Option.map_eq_some_iff.1 h
        exact hlater ⟨y, hy⟩
      · exact hlater ⟨_, h⟩
    | setHealth other status =>
      rw [standing] at h
      split at h
      · obtain ⟨y, hy, _⟩ := Option.map_eq_some_iff.1 h
        exact hlater ⟨y, hy⟩
      · exact hlater ⟨_, h⟩
    | select | startRequest | endRequest | updateResources | setAlgorithm | timePasses => exact hlater ⟨_, h⟩

structure History where
  balancer : Balancer
  now : Instant := 0
  past : Past := []

namespace History

def step (s : History) (o : Operation) : History where
  balancer := s.balancer.perform s.now o
  now := s.now + o.duration
  past := (s.now, o) :: s.past

def start (config : Config) (dice : Nat → Float) : History := { balancer := { Balancer.new config with dice } }

def run (config : Config) (dice : Nat → Float) (operations : List Operation) : History :=
  operations.foldl step (start config dice)

def choice (s : History) (service : String) (key : Option String) : Option Instance :=
  (s.balancer.select s.now service key).1

def after (s : History) (operations : List Operation) : History := operations.foldl step s

theorem run_append (config : Config) (dice : Nat → Float) (before during : List Operation) :
    run config dice (before ++ during) = (run config dice before).after during :=
  List.foldl_append

theorem after_induction {P : History → Prop} (hs : ∀ s o, P s → P (s.step o)) {s : History} (h : P s)
    (operations : List Operation) : P (s.after operations) := by
  induction operations generalizing s with
  | nil => exact h
  | cons o operations ih => exact ih (hs s o h)

/-- What holds of a fresh balancer and survives every step holds of every run. -/
theorem run_induction {P : History → Prop} {config : Config} {dice : Nat → Float} (h₀ : P (start config dice))
    (hs : ∀ s o, P s → P (s.step o)) (operations : List Operation) : P (run config dice operations) :=
  after_induction hs h₀ operations

end History

end Serving.Balancer
