import Serving.Cache.Memory
import Serving.Error

/-!
# Stores as outside parties

What a cache can ask of a store that is not its own, and what such a store is: something that takes
calls, lets each of them wait, and answers or fails. A caller waits for a bounded time only; a call
that takes longer is given up and has no effect.
-/

namespace Serving

namespace Cache

inductive Call
  | get (key : String)
  | set (key : String) (value : Bytes) (ttl : Duration)
  | delete (key : String)
  | has (key : String)
  | clear
  | deleteMatching (pattern : String)
  | stats
  | health

namespace Call

abbrev Reply : Call → Type
  | get _ => Option Bytes
  | set _ _ _ => Unit
  | delete _ => Bool
  | has _ => Bool
  | clear => Unit
  | deleteMatching _ => Nat
  | stats => Stats
  | health => Bool

def name : Call → String
  | get _ => "get"
  | set _ _ _ => "set"
  | delete _ => "delete"
  | has _ => "exists"
  | clear => "clear"
  | deleteMatching _ => "delete_by_pattern"
  | stats => "stats"
  | health => "health_check"

end Call

def Memory.answer (m : Memory) (now : Instant) : (c : Call) → c.Reply × Memory
  | .get key => m.get now key
  | .set key value ttl => ((), m.set now key value ttl)
  | .delete key => m.delete key
  | .has key => (m.exists? now key, m)
  | .clear => ((), m.clear)
  | .deleteMatching pattern => m.deleteMatching pattern
  | .stats => (m.stats, m)
  | .health => (m.isHealthy, m)

/-- A store with states `τ`. -/
structure Store (τ : Type) where
  accept : Call → τ → τ
  delay : Call → τ → Option Duration
  perform : (c : Call) → τ → Instant → Except StoreError c.Reply × τ

namespace Store

variable {τ : Type}

/-- A memory store that answers at once. -/
def ofMemory : Store Memory where
  accept _ m := m
  delay _ _ := some 0
  perform c m now :=
    let (reply, m) := m.answer now c
    (.ok reply, m)

/-- When a call that starts now ends, and whether the caller is still waiting then. -/
def ending (delay : Option Duration) (timeout : Duration) (now : Instant) : Instant × Bool :=
  match delay with
  | none => (Instant.alarm now timeout, false)
  | some d =>
    if d = 0 then (now, true)
    else if timeout = 0 then (now, false)
    else if Instant.alarm now d ≤ Instant.alarm now timeout then (Instant.alarm now d, true)
    else (Instant.alarm now timeout, false)

/-- Calls a store and waits for the answer up to `timeout`. -/
def ask (store : Store τ) (timeout : Duration) (c : Call) (t : τ) (now : Instant) :
    Option c.Reply × τ × Instant :=
  let t := store.accept c t
  let (ends, isAnswered) := ending (store.delay c t) timeout now
  if isAnswered then
    let (reply, t) := store.perform c t ends
    (reply.toOption, t, ends)
  else (none, t, ends)

end Store

end Cache

end Serving
