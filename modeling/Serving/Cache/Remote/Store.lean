import Serving.Cache.Config
import Serving.Cache.Key
import Serving.Cache.Remote.Connection
import Serving.Cache.Remote.Server
import Serving.Cache.Store

/-!
# The store behind a server

A store that keeps its entries on a server, under keys with a prefix of its own. It connects when it is
first used. It never touches keys outside the cache's own part of the keys with its prefix.
-/

namespace Serving

namespace Cache

structure Remote where
  config : RemoteConfig
  connection : Connection := {}
  server : Server
  isReachable : Bool
  hits : Nat := 0
  misses : Nat := 0
  commandErrors : Nat := 0

namespace Remote

def name : String := "redis"

def fullKey (r : Remote) (key : String) : String := r.config.keyPrefix ++ key

/-- The pattern of all keys of this store. -/
def ownPattern (r : Remote) : String := r.fullKey (Key.space ++ ":*")

def opening (r : Remote) : List Command :=
  match r.config.url with
  | some _ => []
  | none =>
    (r.config.password.map Command.auth).toList ++
      (if r.config.database = 0 then [] else [.select r.config.database])

def connect (r : Remote) (now : Instant) : Bool × Remote :=
  let (isUp, isNew, connection) := r.connection.connect r.config.backoff now r.isReachable
  let server :=
    if isNew then { r.server with received := r.opening.reverse ++ r.server.received } else r.server
  (isUp, { r with connection, server })

/-- Sends a command, and goes on if it is obeyed. -/
def send {α : Type} (r : Remote) (c : Command) (next : Remote → α × Remote) : Except StoreError α × Remote :=
  let (isObeyed, server) := r.server.receive c
  if isObeyed then
    let (reply, r) := next { r with server }
    (.ok reply, r)
  else (.error (.server "ERR: scripted"), { r with server, commandErrors := r.commandErrors + 1 })

def keysMatching (r : Remote) (pattern : String) : Except StoreError (List String) × Remote :=
  r.send (.scan 0 pattern) fun r =>
    let (keys, commands) := r.server.listing pattern 0
    (keys, { r with server := { r.server with received := (commands.drop 1).reverse ++ r.server.received } })

/-- Removes keys from the server and counts those that were there. -/
def deleteKeys (r : Remote) (keys : List String) : Except StoreError Nat × Remote :=
  r.send (.del keys) fun r =>
    ((keys.filter r.server.entries.contains).eraseDups.length,
      { r with server := { r.server with entries := keys.foldl Table.erase r.server.entries } })

/-- Removes all keys that match a full pattern. -/
def deleteMatching (r : Remote) (pattern : String) : Except StoreError Nat × Remote :=
  match r.keysMatching pattern with
  | (.error e, r) => (.error e, r)
  | (.ok [], r) => (.ok 0, r)
  | (.ok keys, r) => r.deleteKeys keys

def stats (r : Remote) (entries : Nat) : Stats :=
  { entries, hits := r.hits, misses := r.misses, errors := r.connection.failures + r.commandErrors }

/-- Whole seconds of a time to live; a server takes no less than one. -/
def secondsToLive (ttl : Duration) : Nat := max (Duration.wholeSeconds ttl) 1

/-- Answers a call once there is a connection. -/
def answerConnected (r : Remote) : (c : Call) → Except StoreError c.Reply × Remote
  | .get key => r.send (.get (r.fullKey key)) fun r =>
    match r.server.entries.find? (r.fullKey key) with
    | some value => (some value, { r with hits := r.hits + 1 })
    | none => (none, { r with misses := r.misses + 1 })
  | .set key value ttl => r.send (.setex (r.fullKey key) (secondsToLive ttl) value) fun r =>
    ((), { r with server := { r.server with entries := r.server.entries.insert (r.fullKey key) value } })
  | .delete key =>
    let (reply, r) := r.deleteKeys [r.fullKey key]
    (reply.map fun n => decide (0 < n), r)
  | .has key => r.send (.has (r.fullKey key)) fun r => (r.server.entries.contains (r.fullKey key), r)
  | .clear =>
    let (reply, r) := r.deleteMatching r.ownPattern
    (reply.map fun _ => (), r)
  | .deleteMatching pattern => r.deleteMatching (r.fullKey pattern)
  | .stats =>
    match r.keysMatching r.ownPattern with
    | (.ok keys, r) => (.ok (r.stats keys.length), r)
    | (.error _, after) => (.ok (r.stats 0), { after with commandErrors := r.commandErrors })
  | .health =>
    match r.send .ping fun r => (decide (r.server.mode = .normal), r) with
    | (.ok isWell, r) => (.ok isWell, r)
    | (.error _, r) => (.ok false, r)

/-- Answers a call without a connection. -/
def answerUnconnected (r : Remote) : (c : Call) → Except StoreError c.Reply
  | .stats => .ok (r.stats 0)
  | .health => .ok false
  | _ => .error .unavailable

/-- Answers a call, connecting first if need be. -/
def answer (r : Remote) (now : Instant) (c : Call) : Except StoreError c.Reply × Remote :=
  let (isUp, r) := r.connect now
  if isUp then r.answerConnected c else (r.answerUnconnected c, r)

/-- A server reached without delay, as a store. -/
def store : Store Remote where
  accept _ r := r
  delay _ _ := some 0
  perform c r now := r.answer now c

end Remote

end Cache

end Serving
