import Serving.Json.Basic
import Serving.Time

/-!
# The memory store

A store of bytes under keys with a bound on the number of entries. Entries lie in order of use, the
least recently used first; when a new key comes to a full store, the first entry has to go. An entry
that has outlived its time is no longer found, but stays until it is read or swept.
Main statements: what each operation does to the entries.
-/

namespace Serving

namespace Cache

abbrev Bytes := ByteArray

structure Stats where
  entries : Nat := 0
  memory : Nat := 0
  hits : Nat := 0
  misses : Nat := 0
  evictions : Nat := 0
  expired : Nat := 0
  errors : Nat := 0
  deriving DecidableEq, Repr, Inhabited

namespace Stats

def hitRatio (s : Stats) : Float :=
  if s.hits + s.misses = 0 then 0.0 else Float.ofNat s.hits / Float.ofNat (s.hits + s.misses)

def add (a b : Stats) : Stats :=
  ⟨a.entries + b.entries, a.memory + b.memory, a.hits + b.hits, a.misses + b.misses,
    a.evictions + b.evictions, a.expired + b.expired, a.errors + b.errors⟩

def toJson (s : Stats) : Json :=
  .obj [("entries", .ofNat s.entries), ("memory_usage", .ofNat s.memory), ("hits", .ofNat s.hits),
    ("misses", .ofNat s.misses), ("evictions", .ofNat s.evictions),
    ("expired_cleanups", .ofNat s.expired), ("errors", .ofNat s.errors)]

end Stats

structure Entry where
  value : Bytes
  /-- The last moment at which the entry is found. -/
  expires : Instant

namespace Entry

def overhead : Nat := 72

def size (e : Entry) : Nat := e.value.size + overhead

def isExpired (e : Entry) (now : Instant) : Bool := decide (e.expires < now)

end Entry

structure Memory where
  capacity : Nat
  /-- The least recently used entry comes first. -/
  entries : List (String × Entry) := []
  hits : Nat := 0
  misses : Nat := 0
  evictions : Nat := 0
  expired : Nat := 0

namespace Memory

def usualCapacity : Nat := 10000

/-- An empty store. It has room for one entry at least. -/
def new (capacity : Nat) : Memory := { capacity := max capacity 1 }

def find? (m : Memory) (key : String) : Option Entry := m.entries.lookup key

def others (m : Memory) (key : String) : List (String × Entry) := m.entries.filter (·.1 != key)

/-- Reads an entry, which makes it the most recently used. An expired one is dropped. -/
def get (m : Memory) (now : Instant) (key : String) : Option Bytes × Memory :=
  match m.find? key with
  | none => (none, { m with misses := m.misses + 1 })
  | some e =>
    if e.isExpired now then
      (none, { m with entries := m.others key, expired := m.expired + 1, misses := m.misses + 1 })
    else (some e.value, { m with entries := m.others key ++ [(key, e)], hits := m.hits + 1 })

def set (m : Memory) (now : Instant) (key : String) (value : Bytes) (ttl : Duration) : Memory :=
  let entries := m.others key ++ [(key, ⟨value, now + ttl⟩)]
  let excess := entries.length - m.capacity
  { m with entries := entries.drop excess, evictions := m.evictions + excess }

def delete (m : Memory) (key : String) : Bool × Memory :=
  ((m.find? key).isSome, { m with entries := m.others key })

def exists? (m : Memory) (now : Instant) (key : String) : Bool :=
  (m.find? key).any fun e => !e.isExpired now

def clear (m : Memory) : Memory := { m with entries := [] }

/-- Removes the entries whose keys have a property, and counts them. -/
def removeKeys (m : Memory) (which : String → Bool) : Nat × Memory :=
  (m.entries.countP fun e => which e.1, { m with entries := m.entries.filter fun e => !which e.1 })

/-- Removes the entries whose keys start with a text. -/
def deletePrefixed (m : Memory) (start : String) : Nat × Memory :=
  m.removeKeys fun key => start.toList.isPrefixOf key.toList

def stem? (pattern : String) : Option String :=
  match pattern.toList.reverse with
  | '*' :: rest => some (String.ofList rest.reverse)
  | _ => none

/-- Removes the entries whose keys match a pattern: a key, or the start of keys and a star. -/
def deleteMatching (m : Memory) (pattern : String) : Nat × Memory :=
  match stem? pattern with
  | some start => m.deletePrefixed start
  | none =>
    let (found, m) := m.delete pattern
    (if found then 1 else 0, m)

/-- Removes all expired entries, and counts them. -/
def sweep (m : Memory) (now : Instant) : Nat × Memory :=
  let count := m.entries.countP fun e => e.2.isExpired now
  (count,
    { m with entries := m.entries.filter fun e => !e.2.isExpired now, expired := m.expired + count })

def size (m : Memory) : Nat := m.entries.length

def stats (m : Memory) : Stats :=
  { entries := m.size
    memory := (m.entries.map fun e => e.2.size).foldr (· + ·) 0
    hits := m.hits
    misses := m.misses
    evictions := m.evictions
    expired := m.expired }

def isHealthy (m : Memory) : Bool := decide (m.size ≤ m.capacity)

theorem get_of_find_none {m : Memory} {key : String} (now : Instant) (h : m.find? key = none) :
    (m.get now key).1 = none := by simp [get, h]

theorem get_of_expired {m : Memory} {key : String} {e : Entry} {now : Instant}
    (h : m.find? key = some e) (he : e.isExpired now = true) : (m.get now key).1 = none := by
  simp [get, h, he]

theorem get_of_live {m : Memory} {key : String} {e : Entry} {now : Instant}
    (h : m.find? key = some e) (he : e.isExpired now = false) :
    (m.get now key).1 = some e.value := by simp [get, h, he]

@[simp]
theorem clear_entries (m : Memory) : m.clear.entries = [] := rfl

@[simp]
theorem delete_entries (m : Memory) (key : String) : (m.delete key).2.entries = m.others key := rfl

end Memory

end Cache

end Serving
