import Mathlib.Tactic.Lemma
import Serving.Cache.Computation
import Serving.Proofs.Routine

/-! Runs of a cache that one caller after the other uses. Each request is over before the next one comes, and time may
pass in between. A history is a cache with its outside store and its past: what was asked when, and what the answer
was. -/

namespace Serving.Cache

inductive Request : Type 1
  | get {α : Type} (decode : Bytes → Option α) (type : String) (params : Params)
  | set (type : String) (params : Params) (value : Except String Bytes)
  | exists? (type : String) (params : Params)
  | invalidate (type : String) (params : Params)
  | invalidateTags (tags : List String)
  | clear
  | sweep
  | compute {α : Type} (encoding : Encoding α) (type : String) (params : Params)
      (computation : Unit → Except Error α)
  | statistics
  | status
  | wait (d : Duration)

namespace Request

abbrev Answer : Request → Type
  | @get α _ _ _ => Except Error (Option α)
  | set _ _ _ => Except Error Unit
  | exists? _ _ => Except Error Bool
  | invalidate _ _ => Except Error Bool
  | invalidateTags _ => List String
  | clear => Unit
  | sweep => Nat
  | @compute α _ _ _ _ => Computed α
  | statistics => Statistics
  | status => Status
  | wait _ => Unit

def duration : Request → Duration
  | wait d => d
  | _ => 0

/-- A request that asks how the cache and its levels are doing. -/
def isReport : Request → Bool
  | statistics | status => true
  | _ => false

end Request

def perform (c : Cache) (now : Instant) : (r : Request) → Operation r.Answer
  | .get decode type params => c.get now decode type params
  | .set type params value => c.set now type params value
  | .exists? type params => c.exists? now type params
  | .invalidate type params => c.invalidate now type params
  | .invalidateTags tags => c.invalidateTags now tags
  | .clear => c.clear
  | .sweep => .done (c.sweep now).1 (c.sweep now).2
  | .compute encoding type params computation => c.compute now encoding type params computation
  | .statistics => c.statistics
  | .status => c.status
  | .wait _ => .done () c

/-- What a request wrote: the bytes of a value under the key of a type and parameters. -/
structure Write where
  type : String
  params : Params
  bytes : Bytes
  time : Instant

def Write.key (w : Write) : String := Key.derive w.type w.params

/-- A value that was set, or that was computed and has bytes, was written. -/
def Request.write? (time : Instant) : (r : Request) → r.Answer → Option Write
  | .set type params (.ok bytes), .ok _ => some ⟨type, params, bytes, time⟩
  | .compute encoding type params _, answer =>
    match answer.outcome with
    | .ok ⟨v, false⟩ => (encoding.encode v).toOption.map fun bytes => ⟨type, params, bytes, time⟩
    | _ => none
  | _, _ => none

structure Exchange where
  request : Request
  time : Instant
  answer : request.Answer

def Exchange.write? (x : Exchange) : Option Write := x.request.write? x.time x.answer

structure History (τ : Type) where
  cache : Cache
  store : τ
  now : Instant := 0
  past : List Exchange := []

namespace History

variable {τ : Type}

def play (store : Store τ) (s : History τ) (r : Request) : r.Answer × Cache × τ × Instant :=
  run store (s.cache.perform s.now r) s.cache.config.remote.operationTimeout s.store s.now

def answer (store : Store τ) (s : History τ) (r : Request) : r.Answer := (s.play store r).1

def step (store : Store τ) (s : History τ) (r : Request) : History τ :=
  let (answer, cache, t, now) := s.play store r
  { cache, store := t, now := now + r.duration, past := s.past ++ [⟨r, s.now, answer⟩] }

def start (config : Config) (isDistributed : Bool) (t : τ) : History τ where
  cache := .new config isDistributed
  store := t

def after (store : Store τ) (s : History τ) (requests : List Request) : History τ := requests.foldl (step store) s

def run (store : Store τ) (config : Config) (isDistributed : Bool) (t : τ) (requests : List Request) : History τ :=
  (start config isDistributed t).after store requests

/-- What was written by the requests since the first `n`. -/
def writesSince (s : History τ) (n : Nat) : List Write := (s.past.drop n).filterMap Exchange.write?

end History

/-- One type at both levels, of which the memory level has room for a single value. -/
def Config.tight : Config :=
  { types := .ofList [("a", { ttl := 10, capacity := some 1, levels := [.memory, .distributed] })] }

abbrev Request.write (k : Nat) (byte : UInt8) : Request := .set "a" [("k", .ofNat k)] (.ok ⟨#[byte]⟩)

abbrev Request.read (k : Nat) : Request := .get some "a" [("k", .ofNat k)]

abbrev Request.drop (k : Nat) : Request := .invalidate "a" [("k", .ofNat k)]

/-- The cache when the partition of a type has been cleared. -/
def clearType (c : Cache) (type : String) : Cache :=
  { c with partitions := c.partitions.modify type (·.clear) }

/-- Whether there is an outside store and a type uses it. -/
def reaches (c : Cache) (type : String) : Bool :=
  (c.config.types.find? type).any (fun config => config.levels.contains .distributed) && c.isDistributed

variable {α β : Type}

lemma map_ask (c : Cache) (call : Call) (next : Option call.Reply → Cache → Instant → Operation α) (f : α → β) :
    (c.ask call next).map f = c.ask call fun reply c now => (next reply c now).map f := rfl

lemma dropTypes_cons (type : String) (rest : List String) (c : Cache) (now : Instant)
    (next : Cache → Instant → Operation α) :
    dropTypes (type :: rest) c now next =
      if c.reaches type then
        (c.clearType type).ask (.deleteMatching (Key.pattern type)) fun _ c now => dropTypes rest c now next
      else dropTypes rest (c.clearType type) now next := rfl

end Serving.Cache
