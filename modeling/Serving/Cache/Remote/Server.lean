import Serving.Cache.Memory
import Serving.Cache.Remote.Glob
import Serving.Sorted
import Serving.Table

/-!
# Key-value servers

A server keeps bytes under keys for one client. It can list its keys page by page, filtered by a
pattern, and it remembers the commands it got. How it deals its keys out in pages is its own affair; a
client who asks for a page gets a cursor for the next one.
-/

namespace Serving

namespace Cache

inductive Command
  | auth (password : String)
  | select (database : Int)
  | get (key : String)
  | setex (key : String) (seconds : Nat) (value : Bytes)
  | del (keys : List String)
  | has (key : String)
  | scan (cursor : Nat) (pattern : String)
  | ping

namespace Command

def scanCount : Nat := 1000

/-- The words of a command; bytes that are no text stand empty. -/
def words : Command → List String
  | auth password => ["AUTH", password]
  | select database => ["SELECT", toString database]
  | get key => ["GET", key]
  | setex key seconds value => ["SETEX", key, toString seconds, (String.fromUTF8? value).getD ""]
  | del keys => "DEL" :: keys
  | has key => ["EXISTS", key]
  | scan cursor pattern =>
    ["SCAN", toString cursor, "MATCH", pattern, "COUNT", toString scanCount]
  | ping => ["PING"]

end Command

inductive Server.Mode
  | normal
  /-- With an error to all but the commands that open a connection. -/
  | failing
  | oddGreeting
  deriving DecidableEq, Repr

/-- A way to deal keys out in pages. A cursor leads to a page, 0 to the first one. -/
structure Paging where
  page : (keys : List String) → (cursor : Nat) → List String
  /-- The cursor of the page after the one at a cursor; 0 after the last one. -/
  next : (keys : List String) → (cursor : Nat) → Nat
  /-- No fewer than the pages still to come. -/
  left : (keys : List String) → (cursor : Nat) → Nat
  left_next : ∀ keys cursor, next keys cursor ≠ 0 → left keys (next keys cursor) < left keys cursor

/-- Pages of one size, and as cursor of a page the number of keys before it. -/
def Paging.ofSize (size : Nat) : Paging where
  page keys cursor := (keys.drop cursor).take (max size 1)
  next keys cursor := if cursor + max size 1 < keys.length then cursor + max size 1 else 0
  left keys cursor := keys.length - cursor
  left_next keys cursor h := by
    split at h
    · rename_i hlt
      simp only [hlt, if_true]
      omega
    · exact absurd rfl h

structure Server where
  entries : Table Bytes := ∅
  /-- Keys of a page, if pages are of one size. -/
  pageSize : Nat
  paging : Paging := .ofSize pageSize
  mode : Server.Mode := .normal
  /-- The commands so far, the latest first. -/
  received : List Command := []

namespace Server

def sortedKeys (s : Server) : List String := Sorted.names s.entries.names

/-- Takes notice of a command, and tells whether it is going to be obeyed. -/
def receive (s : Server) (c : Command) : Bool × Server :=
  (decide (s.mode ≠ .failing), { s with received := c :: s.received })

/-- Where the page after the one at `cursor` starts; 0 after the last one. -/
def nextCursor (s : Server) (cursor : Nat) : Nat := s.paging.next s.sortedKeys cursor

/-- The keys of the page at `cursor` that match a pattern. -/
def page (s : Server) (cursor : Nat) (pattern : String) : List String :=
  (s.paging.page s.sortedKeys cursor).filter (Glob.isMatch pattern)

/-- The keys that match a pattern from the page at `cursor` on, and the commands that list them. -/
def listing (s : Server) (pattern : String) (cursor : Nat) : List String × List Command :=
  if h : s.nextCursor cursor = 0 then (s.page cursor pattern, [.scan cursor pattern])
  else
    have := s.paging.left_next s.sortedKeys cursor h
    let (keys, commands) := s.listing pattern (s.nextCursor cursor)
    (s.page cursor pattern ++ keys, .scan cursor pattern :: commands)
termination_by s.paging.left s.sortedKeys cursor

end Server

end Cache

end Serving
