import Serving.Proofs.Remote.Listing

/-! What a store behind a server answers, and what is left on the server afterwards. A call that comes through to a
server in order is obeyed; it leaves a trace among the commands, and apart from that changes no more than it says. A
call that fails leaves the entries as they are. -/

namespace Serving.Cache.Remote

variable {r : Remote} {now : Instant} {pattern key : String}

/-- With further commands received, the latest first. -/
def heard (r : Remote) (commands : List Command) : Remote :=
  { r with server := { r.server with received := commands ++ r.server.received } }

def holding (r : Remote) (entries : Table Bytes) : Remote := { r with server := { r.server with entries } }

section Commands

lemma send_obeyed {α : Type} (h : r.server.mode ≠ .failing) (c : Command) (next : Remote → α × Remote) :
    r.send c next = (.ok (next (r.heard [c])).1, (next (r.heard [c])).2) := by
  simp [send, Server.receive, h, heard]

lemma send_refused {α : Type} (h : r.server.mode = .failing) (c : Command) (next : Remote → α × Remote) :
    r.send c next = (.error (.server "ERR: scripted"), { r.heard [c] with commandErrors := r.commandErrors + 1 }) := by
  simp [send, Server.receive, h, heard]

lemma keysMatching_obeyed (h : r.server.mode ≠ .failing) (pattern : String) :
    ∃ commands, r.keysMatching pattern = (.ok (r.server.listing pattern 0).1, r.heard commands) := by
  rw [keysMatching, send_obeyed h]
  have hkeys : ((r.heard [.scan 0 pattern]).server.listing pattern 0).1 = (r.server.listing pattern 0).1 := by
    rw [Server.listing_fst, Server.listing_fst]
    rfl
  rw [← hkeys]
  refine ⟨(((r.heard [.scan 0 pattern]).server.listing pattern 0).2.drop 1).reverse ++ [.scan 0 pattern], ?_⟩
  simp [heard]

lemma deleteKeys_obeyed (h : r.server.mode ≠ .failing) (keys : List String) :
    r.deleteKeys keys = (.ok (keys.filter r.server.entries.contains).eraseDups.length,
      (r.heard [.del keys]).holding (r.server.entries.filter fun name _ => decide (name ∉ keys))) := by
  rw [deleteKeys, send_obeyed h, ← Table.foldl_erase]
  rfl

theorem nodup_eraseDups : (l : List String) → l.eraseDups.Nodup
  | [] => List.nodup_nil
  | a :: l => by
    rw [List.eraseDups_cons]
    exact List.nodup_cons.2 ⟨by simp, nodup_eraseDups _⟩
termination_by l => l.length
decreasing_by exact Nat.lt_succ_of_le (List.length_filter_le ..)

lemma length_eraseDups {l names : List String} (hn : names.Nodup) (h : ∀ name, name ∈ l ↔ name ∈ names) :
    l.eraseDups.length = names.length :=
  ((List.perm_ext_iff_of_nodup (nodup_eraseDups l) hn).2 fun name => by rw [List.mem_eraseDups, h]).length_eq

theorem deleteMatching_obeyed (h : r.server.mode ≠ .failing) (hc : r.server.paging.IsComplete)
    (hn : r.server.entries.names.Nodup) (pattern : String) :
    ∃ commands, r.deleteMatching pattern = (.ok (r.server.entries.names.filter (Glob.isMatch pattern)).length,
      (r.heard commands).holding (r.server.entries.filter fun name _ => !Glob.isMatch pattern name)) := by
  obtain ⟨commands, hkeys⟩ := keysMatching_obeyed h pattern
  have hmem (name : String) : name ∈ (r.server.listing pattern 0).1 ↔
      name ∈ r.server.entries.names ∧ Glob.isMatch pattern name = true := Server.mem_listing hc hn
  generalize (r.server.listing pattern 0).1 = keys at hkeys hmem
  have hcount : (keys.filter r.server.entries.contains).eraseDups.length =
      (r.server.entries.names.filter (Glob.isMatch pattern)).length := by
    refine length_eraseDups (hn.filter _) fun name => ?_
    rw [List.mem_filter, List.mem_filter, hmem, Table.contains_iff]
    exact ⟨fun h => h.1, fun h => ⟨h, h.1⟩⟩
  have hleft : r.server.entries.filter (fun name _ => decide (name ∉ keys)) =
      r.server.entries.filter fun name _ => !Glob.isMatch pattern name := by
    refine congrArg Table.mk (List.filter_congr fun e he => ?_)
    have hname : e.1 ∈ r.server.entries.names := List.mem_map.2 ⟨e, he, rfl⟩
    simp [hmem, hname]
  rw [deleteMatching, hkeys, ← hcount, ← hleft]
  -- No command is sent to remove nothing, which comes to the same.
  cases keys with
  | nil => exact ⟨commands, by simp [holding, heard, Table.filter]⟩
  | cons name names =>
    refine ⟨.del (name :: names) :: commands, ?_⟩
    dsimp only
    rw [deleteKeys_obeyed (r := r.heard commands) h]
    rfl

end Commands

section Connecting

lemma connect_snd (r : Remote) (now : Instant) :
    ∃ connection commands, (r.connect now).2 = { r.heard commands with connection } := by
  simp only [connect]
  split
  · exact ⟨_, r.opening.reverse, rfl⟩
  · exact ⟨_, [], rfl⟩

@[simp]
lemma connect_config (r : Remote) (now : Instant) : (r.connect now).2.config = r.config := by
  obtain ⟨_, _, h⟩ := r.connect_snd now
  rw [h]
  rfl

@[simp]
lemma connect_entries (r : Remote) (now : Instant) : (r.connect now).2.server.entries = r.server.entries := by
  obtain ⟨_, _, h⟩ := r.connect_snd now
  rw [h]
  rfl

@[simp]
lemma connect_mode (r : Remote) (now : Instant) : (r.connect now).2.server.mode = r.server.mode := by
  obtain ⟨_, _, h⟩ := r.connect_snd now
  rw [h]
  rfl

@[simp]
lemma connect_paging (r : Remote) (now : Instant) : (r.connect now).2.server.paging = r.server.paging := by
  obtain ⟨_, _, h⟩ := r.connect_snd now
  rw [h]
  rfl

lemma answer_connected (hup : (r.connect now).1 = true) (c : Call) :
    r.answer now c = (r.connect now).2.answerConnected c := by
  simp [answer, hup]

/-- Nothing keeps a server away that can be reached and always could. -/
lemma connect_ready (hr : r.isReachable = true) (hf : r.connection.lastFailure = none) (now : Instant) :
    (r.connect now).1 = true ∧ (r.connect now).2.connection.lastFailure = none := by
  simp only [connect, Connection.connect, Connection.enter, Connection.isBackingOff, hr, hf]
  by_cases hup : r.connection.isUp
  · simp [hup, hf]
  · by_cases hwait : r.connection.isConnecting <;> simp [hup, hwait, Connection.finish]

end Connecting

section Calls

/-- The entries on the server after a call that is obeyed. -/
def left (r : Remote) : Call → Table Bytes
  | .set key value _ => r.server.entries.insert (r.fullKey key) value
  | .delete key => r.server.entries.filter fun name _ => decide (name ≠ r.fullKey key)
  | .clear => r.server.entries.filter fun name _ => !Glob.isMatch r.ownPattern name
  | .deleteMatching pattern => r.server.entries.filter fun name _ => !Glob.isMatch (r.fullKey pattern) name
  | .get _ | .has _ | .stats | .health => r.server.entries

/-- The number of keys on the server that match a pattern. -/
def matching (r : Remote) (pattern : String) : Nat := (r.server.entries.names.filter (Glob.isMatch pattern)).length

/-- The answer to a call that is obeyed. -/
def reply (r : Remote) : (c : Call) → c.Reply
  | .get key => r.server.entries.find? (r.fullKey key)
  | .set _ _ _ => ()
  | .delete key => r.server.entries.contains (r.fullKey key)
  | .has key => r.server.entries.contains (r.fullKey key)
  | .clear => ()
  | .deleteMatching pattern => r.matching (r.fullKey pattern)
  | .stats => r.stats (r.matching r.ownPattern)
  | .health => decide (r.server.mode = .normal)

/-- With a read counted. -/
def counted (r : Remote) : Call → Remote
  | .get key =>
    if r.server.entries.contains (r.fullKey key) then { r with hits := r.hits + 1 }
    else { r with misses := r.misses + 1 }
  | _ => r

lemma names_left (h : r.server.entries.names.Nodup) (c : Call) : (r.left c).names.Nodup := by
  cases c with
  | set key value => exact Table.nodup_names_insert h _ value
  | delete | clear | deleteMatching =>
    rw [left, Table.names_filter]
    exact h.filter _
  | get | has | stats | health => exact h

lemma counted_eq (r : Remote) (c : Call) : ∃ hits misses, r.counted c = { r with hits, misses } := by
  cases c with
  | get key =>
    rw [counted]
    split
    · exact ⟨_, _, rfl⟩
    · exact ⟨_, _, rfl⟩
  | set | delete | has | clear | deleteMatching | stats | health => exact ⟨_, _, rfl⟩

lemma length_filter_contains (t : Table Bytes) (key : String) :
    decide (0 < ([key].filter t.contains).eraseDups.length) = t.contains key := by
  cases h : t.contains key <;> simp [h, List.eraseDups_cons]

theorem answerConnected_obeyed (h : r.server.mode ≠ .failing) (he : r.server.paging.IsExact)
    (hn : r.server.entries.names.Nodup) (c : Call) :
    ∃ commands, r.answerConnected c = (.ok (r.reply c), ((r.counted c).heard commands).holding (r.left c)) := by
  cases c with
  | get key =>
    refine ⟨[.get (r.fullKey key)], ?_⟩
    have hheard : (r.heard [.get (r.fullKey key)]).server.entries.find? ((r.heard [.get (r.fullKey key)]).fullKey key) =
        r.server.entries.find? (r.fullKey key) := rfl
    rw [answerConnected, send_obeyed h, hheard, reply, counted, Table.contains]
    cases r.server.entries.find? (r.fullKey key) <;> rfl
  | set key value ttl =>
    refine ⟨[.setex (r.fullKey key) (secondsToLive ttl) value], ?_⟩
    rw [answerConnected, send_obeyed h]
    rfl
  | delete key =>
    refine ⟨[.del [r.fullKey key]], ?_⟩
    simp only [answerConnected, deleteKeys_obeyed h, Except.map, length_filter_contains]
    simp [reply, left, counted]
  | has key =>
    refine ⟨[.has (r.fullKey key)], ?_⟩
    rw [answerConnected, send_obeyed h]
    rfl
  | clear =>
    obtain ⟨commands, hdel⟩ := deleteMatching_obeyed h he.isComplete hn r.ownPattern
    refine ⟨commands, ?_⟩
    simp only [answerConnected, hdel]
    rfl
  | deleteMatching pattern => exact deleteMatching_obeyed h he.isComplete hn (r.fullKey pattern)
  | stats =>
    obtain ⟨commands, hkeys⟩ := keysMatching_obeyed h r.ownPattern
    refine ⟨commands, ?_⟩
    rw [answerConnected, hkeys]
    simp only [(Server.perm_listing he hn _).length_eq]
    rfl
  | health =>
    refine ⟨[.ping], ?_⟩
    rw [answerConnected, send_obeyed h]
    rfl

end Calls

end Serving.Cache.Remote
