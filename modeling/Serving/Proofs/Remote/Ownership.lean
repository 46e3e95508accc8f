import Serving.Proofs.Remote.Answers
import Serving.Proofs.Remote.Patterns

/-! What a store behind a server removes. The store shares the server with others, and what is its own is told by what
a key starts with; the server is asked by a pattern, into which the prefix of the keys and the name of a type go as
they are. As long as neither has a special character, the keys removed are those that start as they should. With one,
the pattern may mean keys of others, or miss the keys of the type. -/

namespace Serving

/-- The entries whose names do not start with a text. -/
def Table.without {α : Type} (t : Table α) (start : String) : Table α :=
  t.filter fun name _ => !start.toList.isPrefixOf name.toList

namespace Cache.Remote

variable {r : Remote} {now : Instant}

section Failures

variable {keys : List String} {pattern : String} {e : StoreError}

lemma error_of_map {α β : Type} {f : α → β} {x : Except StoreError α} (h : x.map f = .error e) : x = .error e := by
  cases x with
  | error e' => exact congrArg Except.error (Except.error.inj h)
  | ok a => cases h

lemma entries_of_send_error {α : Type} {c : Command} {next : Remote → α × Remote}
    (h : (r.send c next).1 = .error e) : (r.send c next).2.server.entries = r.server.entries := by
  by_cases hm : r.server.mode = .failing
  · rw [send_refused hm]
    rfl
  · rw [send_obeyed hm] at h
    cases h

lemma entries_keysMatching (r : Remote) (pattern : String) :
    (r.keysMatching pattern).2.server.entries = r.server.entries := by
  by_cases hm : r.server.mode = .failing
  · rw [keysMatching, send_refused hm]
    rfl
  · obtain ⟨commands, h⟩ := keysMatching_obeyed hm pattern
    rw [h]
    rfl

lemma entries_of_deleteMatching_error (h : (r.deleteMatching pattern).1 = .error e) :
    (r.deleteMatching pattern).2.server.entries = r.server.entries := by
  have hlisted := r.entries_keysMatching pattern
  rw [deleteMatching] at h ⊢
  rcases hkeys : r.keysMatching pattern with ⟨_ | keys, after⟩
  · simpa [hkeys] using hlisted
  · rw [hkeys] at h hlisted
    cases keys with
    | nil => cases h
    | cons key keys => exact (entries_of_send_error h).trans hlisted

/-- A call that fails leaves the entries on the server as they are. -/
theorem entries_of_error {c : Call} (h : (r.answer now c).1 = .error e) :
    (r.answer now c).2.server.entries = r.server.entries := by
  by_cases hup : (r.connect now).1 = true
  · rw [answer_connected hup] at h ⊢
    rw [← r.connect_entries now]
    generalize (r.connect now).2 = r at h ⊢
    cases c with
    | get | set | has => exact entries_of_send_error h
    | delete key =>
      simp only [answerConnected] at h ⊢
      exact entries_of_send_error (error_of_map h)
    | clear =>
      simp only [answerConnected] at h ⊢
      exact entries_of_deleteMatching_error (error_of_map h)
    | deleteMatching pattern => exact entries_of_deleteMatching_error h
    | stats =>
      rw [answerConnected] at h
      split at h <;> cases h
    | health =>
      rw [answerConnected] at h
      split at h <;> cases h
  · simp [answer, hup]

end Failures

section Removal

lemma isMatch_fullKey (hp : Glob.IsPlain r.config.keyPrefix) {stem : String} (hs : Glob.IsPlain stem) (key : String) :
    Glob.isMatch (r.fullKey (stem ++ "*")) key = (r.fullKey stem).toList.isPrefixOf key.toList := by
  rw [Bool.eq_iff_iff, List.isPrefixOf_iff_prefix, fullKey, ← String.append_assoc, Glob.isMatch_star (hp.append hs)]
  rfl

lemma size_without (t : Table Bytes) (start : String) :
    (t.names.filter fun name => start.toList.isPrefixOf name.toList).length = t.size - (t.without start).size := by
  have hsplit := t.toList.length_eq_length_filter_add fun e => start.toList.isPrefixOf e.1.toList
  simp only [Table.names, List.filter_map, List.length_map, Table.size, Table.without, Table.filter]
  rw [hsplit, Nat.add_sub_cancel]
  rfl

variable (hp : Glob.IsPlain r.config.keyPrefix) (hc : r.server.paging.IsComplete) (hn : r.server.entries.names.Nodup)
  (hm : r.server.mode ≠ .failing)

include hp hc hn hm

lemma deleteMatching_stem {stem : String} (hs : Glob.IsPlain stem) :
    (r.deleteMatching (r.fullKey (stem ++ "*"))).1 =
        .ok (r.server.entries.size - (r.server.entries.without (r.fullKey stem)).size) ∧
      (r.deleteMatching (r.fullKey (stem ++ "*"))).2.server.entries =
        r.server.entries.without (r.fullKey stem) := by
  obtain ⟨commands, h⟩ := deleteMatching_obeyed hm hc hn (r.fullKey (stem ++ "*"))
  rw [h, funext (isMatch_fullKey hp hs), size_without]
  exact ⟨rfl, rfl⟩

/-- A store whose prefix has no special character removes, when it is cleared, the keys that start with the prefix
and the name of the cache, and no others; and by the pattern of a type without special characters those keys that
start with the prefix and with what all keys of the type start with. The reply tells their number. -/
theorem removes_what_it_owns (hup : (r.connect now).1 = true) :
    ((r.answer now .clear).1 = .ok () ∧
      (r.answer now .clear).2.server.entries = r.server.entries.without (r.fullKey (Key.space ++ ":"))) ∧
    ∀ type, Glob.IsPlain type →
      (r.answer now (.deleteMatching (Key.pattern type))).1 =
        .ok (r.server.entries.size - (r.server.entries.without (r.fullKey (Key.ofType type))).size) ∧
      (r.answer now (.deleteMatching (Key.pattern type))).2.server.entries =
        r.server.entries.without (r.fullKey (Key.ofType type)) := by
  have hfull (key : String) : (r.connect now).2.fullKey key = r.fullKey key := by rw [fullKey, connect_config, fullKey]
  have hremoved {stem : String} (hs : Glob.IsPlain stem) :=
    deleteMatching_stem (r := (r.connect now).2) (by rwa [connect_config]) (by rwa [connect_paging])
      (by rwa [connect_entries]) (by rwa [connect_mode]) hs
  simp only [connect_entries, hfull] at hremoved
  rw [answer_connected hup]
  refine ⟨?_, fun type ht => ?_⟩
  · obtain ⟨hreply, hentries⟩ := hremoved (show Glob.IsPlain (Key.space ++ ":") by decide)
    have hown : (r.connect now).2.ownPattern = r.fullKey (Key.space ++ ":" ++ "*") := by
      rw [ownPattern, hfull]
      rfl
    simp only [answerConnected, hown]
    exact ⟨by rw [hreply]; rfl, hentries⟩
  · have hplain : Glob.IsPlain (Key.ofType type) :=
      (Glob.IsPlain.append (by decide) ht).append (by decide)
    rw [answer_connected hup]
    simp only [answerConnected, hfull]
    exact hremoved hplain

end Removal

/-- A store that shares its server with others, before it has connected. -/
def shared (keyPrefix : String) (keys : List String) : Remote where
  config := { keyPrefix }
  server := { entries := ⟨keys.map (·, ⟨#[1]⟩)⟩, pageSize := 2 }
  isReachable := true

def tenant : Remote :=
  shared "a:" ["a:cache:x:1", "b:cache:x:1", "a:cache:xy:1", "a:session", "a:cache:x:2", "cache:x:3", "a:cache:x"]

/-- The keys come in four pages. Clearing takes four of them, of which two belong to the type. -/
theorem removes_what_it_owns_of_tenant :
    ((tenant.answer 0 .clear).1 = .ok () ∧
      (tenant.answer 0 .clear).2.server.entries.names = ["b:cache:x:1", "a:session", "cache:x:3"]) ∧
    (tenant.answer 0 (.deleteMatching (Key.pattern "x"))).1 = .ok 2 ∧
      (tenant.answer 0 (.deleteMatching (Key.pattern "x"))).2.server.entries.names =
        ["b:cache:x:1", "a:cache:xy:1", "a:session", "cache:x:3", "a:cache:x"] := by
  have hup : (tenant.connect 0).1 = true := by decide +kernel
  obtain ⟨⟨hclear, hleft⟩, htype⟩ := removes_what_it_owns (by decide +kernel) (Paging.isExact_ofSize 2).isComplete
    (by decide +kernel) (by decide) hup
  obtain ⟨hcount, hothers⟩ := htype "x" (by decide)
  rw [hclear, hleft, hcount, hothers]
  exact ⟨⟨rfl, by decide +kernel⟩, congrArg Except.ok (by decide +kernel), by decide +kernel⟩

def guessing : Remote := shared "t?:" ["ta:cache:1", "t?:cache:1"]

def bracketed : Remote := shared "" ["cache:a[b]:1", "cache:ab:1"]

/-- With a question mark in its prefix a store takes a key of its neighbour when it is cleared; and the pattern of a
type with brackets in its name misses the key of that type and takes one of another type. -/
theorem removes_keys_of_others :
    ((guessing.answer 0 .clear).2.server.entries.names = [] ∧
      (guessing.server.entries.without (guessing.fullKey (Key.space ++ ":"))).names = ["ta:cache:1"]) ∧
    (bracketed.answer 0 (.deleteMatching (Key.pattern "a[b]"))).2.server.entries.names = ["cache:a[b]:1"] ∧
      (bracketed.server.entries.without (bracketed.fullKey (Key.ofType "a[b]"))).names = ["cache:ab:1"] := by
  decide +kernel

end Cache.Remote

end Serving
