import Serving.Proofs.Cache.Separation
import Serving.Proofs.Memory.Inclusion
import Serving.Proofs.Remote.Answers
import Serving.Proofs.Remote.Patterns

/-! When the entries under the prefix of a store behind a server are those of a memory store, a call about keys of the
cache is answered alike by the two, and they stay so. As each key is there once and dealt out once, what the server
counts is what the memory store counts; and keys of others are neither found nor touched. -/

namespace Serving.Cache

open Memory (fits stem?)

namespace Key

/-- What every key starts with, up to the type. -/
def start : String := space ++ ":"

def InSpace (key : String) : Prop := start.toList <+: key.toList

instance : DecidablePred InSpace := fun key => inferInstanceAs (Decidable (start.toList <+: key.toList))

end Key

namespace Call

/-- A call about keys of the cache. A pattern is a text that stands for itself, with or without a star behind it. -/
def IsProper : Call → Prop
  | get key | set key _ _ | delete key | has key => Key.InSpace key
  | deleteMatching pattern =>
    ∃ stem, Glob.IsPlain stem ∧ Key.InSpace stem ∧ (pattern = stem ∨ pattern = stem ++ "*")
  | clear | stats | health => True

/-- The same answer. Of the statistics only entries, hits and misses count. -/
def Alike : (c : Call) → c.Reply → c.Reply → Prop
  | stats, a, b => a.entries = b.entries ∧ a.hits = b.hits ∧ a.misses = b.misses
  | get _, a, b | set _ _ _, a, b | delete _, a, b | has _, a, b | clear, a, b | deleteMatching _, a, b
  | health, a, b => a = b

end Call

lemma prefix_append_iff {front start name : String} :
    (front ++ start).toList <+: name.toList ↔ ∃ rest, name = front ++ rest ∧ start.toList <+: rest.toList := by
  rw [String.toList_append]
  constructor
  · rintro ⟨rest, h⟩
    refine ⟨start ++ String.ofList rest, ?_, ?_⟩
    · rw [← String.toList_inj, ← h]
      simp
    · simp
  · rintro ⟨rest, rfl, h⟩
    rw [String.toList_append]
    exact (List.prefix_append_right_inj _).2 h

namespace Memory

lemma filter_live {m : Memory} {now : Instant} (hlive : ∀ e ∈ m.entries, e.2.isExpired now = false) (key : String) :
    (m.find? key).filter (fun e => !e.isExpired now) = m.find? key := by
  cases hf : m.find? key with
  | none => rfl
  | some e =>
    have he := hlive _ (mem_of_find? hf)
    rw [Option.filter_some, he]
    rfl

/-- A pattern of which a server and a memory store have the same idea, and that means keys of the cache. -/
structure Common (pattern : String) : Prop where
  inSpace : ∀ key, fits pattern key = true → Key.InSpace key
  isMatch : ∀ keyPrefix, Glob.IsPlain keyPrefix → ∀ name,
    Glob.isMatch (keyPrefix ++ pattern) name = true ↔ ∃ key, name = keyPrefix ++ key ∧ fits pattern key = true

lemma Common.isMatch_append {keyPrefix pattern : String} (h : Common pattern) (hp : Glob.IsPlain keyPrefix)
    (key : String) : Glob.isMatch (keyPrefix ++ pattern) (keyPrefix ++ key) = fits pattern key := by
  rw [Bool.eq_iff_iff, h.isMatch keyPrefix hp]
  constructor
  · rintro ⟨key', heq, hfit⟩
    rwa [(String.append_right_inj keyPrefix).1 heq]
  · intro hfit
    exact ⟨key, rfl, hfit⟩

lemma Common.isMatch_stranger {keyPrefix pattern name : String} (h : Common pattern) (hp : Glob.IsPlain keyPrefix)
    (hname : ¬(keyPrefix ++ Key.start).toList <+: name.toList) : Glob.isMatch (keyPrefix ++ pattern) name = false := by
  rw [← Bool.not_eq_true, h.isMatch keyPrefix hp]
  rintro ⟨key, rfl, hfit⟩
  exact hname (prefix_append_iff.2 ⟨key, rfl, h.inSpace key hfit⟩)

lemma stem?_plain {pattern : String} (h : Glob.IsPlain pattern) : stem? pattern = none := by
  rw [stem?]
  split
  · rename_i rest hrev
    have hmem : '*' ∈ pattern.toList := by
      rw [← List.mem_reverse, hrev]
      exact List.mem_cons_self
    exact absurd (by decide) (h _ hmem)
  · rfl

lemma common_star {stem : String} (hs : Glob.IsPlain stem) (h : Key.InSpace stem) : Common (stem ++ "*") where
  inSpace key hk := by
    rw [fits, stem?_star] at hk
    exact h.trans (List.isPrefixOf_iff_prefix.1 hk)
  isMatch keyPrefix hp name := by
    simp only [← String.append_assoc, Glob.isMatch_star (hp.append hs), prefix_append_iff, fits, stem?_star,
      List.isPrefixOf_iff_prefix]

lemma common_plain {pattern : String} (hs : Glob.IsPlain pattern) (h : Key.InSpace pattern) : Common pattern where
  inSpace key hk := by
    rw [fits, stem?_plain hs] at hk
    rwa [beq_iff_eq.1 hk]
  isMatch keyPrefix hp name := by
    rw [Glob.isMatch_plain (hp.append hs)]
    simp [fits, stem?_plain hs]

lemma common_of_isProper {pattern : String} (h : (Call.deleteMatching pattern).IsProper) : Common pattern := by
  obtain ⟨stem, hs, hspace, rfl | rfl⟩ := h
  · exact common_plain hs hspace
  · exact common_star hs hspace

lemma common_all : Common (Key.start ++ "*") := common_star (by decide) List.prefix_rfl

lemma fits_all (key : String) : fits (Key.start ++ "*") key = true ↔ Key.InSpace key := by
  rw [fits, stem?_star]
  exact List.isPrefixOf_iff_prefix

end Memory

namespace Remote

/-- A server in order, which can be reached and always could. -/
structure InOrder (r : Remote) : Prop where
  isReachable : r.isReachable = true
  lastFailure : r.connection.lastFailure = none
  mode : r.server.mode = .normal
  paging : r.server.paging.IsExact
  names : r.server.entries.names.Nodup

/-- Under the prefix a server has the entries of a memory store, and beside them those it had to begin with. -/
structure Reflects (keyPrefix : String) (others : Table Bytes) (r : Remote) (m : Memory) : Prop extends r.InOrder where
  config : r.config.keyPrefix = keyPrefix
  keys : m.keys.Nodup
  inSpace : ∀ key ∈ m.keys, Key.InSpace key
  found : ∀ key, Key.InSpace key → r.server.entries.find? (keyPrefix ++ key) = (m.find? key).map (·.value)
  kept : ∀ name, ¬(keyPrefix ++ Key.start).toList <+: name.toList → r.server.entries.find? name = others.find? name
  hits : r.hits = m.hits
  misses : r.misses = m.misses

namespace Reflects

variable {keyPrefix : String} {others : Table Bytes} {r : Remote} {m : Memory} {now : Instant} {key pattern : String}

lemma fullKey_eq (h : Reflects keyPrefix others r m) (key : String) : r.fullKey key = keyPrefix ++ key := by
  rw [fullKey, h.config]

lemma ownPattern_eq (h : Reflects keyPrefix others r m) : r.ownPattern = keyPrefix ++ (Key.start ++ "*") := by
  rw [ownPattern, h.fullKey_eq]
  rfl

lemma connect (h : Reflects keyPrefix others r m) (now : Instant) :
    (r.connect now).1 = true ∧ Reflects keyPrefix others (r.connect now).2 m := by
  obtain ⟨hup, hfailure⟩ := connect_ready h.isReachable h.lastFailure now
  obtain ⟨connection, commands, hconnect⟩ := r.connect_snd now
  refine ⟨hup, ?_⟩
  rw [hconnect] at hfailure ⊢
  exact ⟨⟨h.isReachable, hfailure, h.mode, h.paging, h.names⟩, h.config, h.keys, h.inSpace, h.found, h.kept, h.hits,
    h.misses⟩

lemma contains_iff (h : Reflects keyPrefix others r m) (hk : Key.InSpace key) :
    r.server.entries.contains (keyPrefix ++ key) = (m.find? key).isSome := by
  rw [Table.contains, h.found key hk, Option.isSome_map]

/-- The keys on the server that match a pattern are those of the memory store that fit it, with the prefix. -/
lemma perm_matching (h : Reflects keyPrefix others r m) (hp : Glob.IsPlain keyPrefix) (hc : Memory.Common pattern) :
    (r.server.entries.names.filter (Glob.isMatch (keyPrefix ++ pattern))).Perm
      ((m.keys.filter (fits pattern)).map (keyPrefix ++ ·)) := by
  -- On neither side is a key twice, so it is enough that they have the same ones.
  have hinj : Function.Injective (keyPrefix ++ ·) := fun a b hab => (String.append_right_inj keyPrefix).1 hab
  refine (List.perm_ext_iff_of_nodup (h.names.filter _) ((h.keys.filter _).map hinj)).2 fun name => ?_
  rw [List.mem_filter, hc.isMatch keyPrefix hp, List.mem_map]
  have hmem (key : String) (hk : Key.InSpace key) : keyPrefix ++ key ∈ r.server.entries.names ↔ key ∈ m.keys := by
    rw [← Table.contains_iff, h.contains_iff hk, Memory.mem_keys_iff]
  constructor
  · rintro ⟨hname, key, rfl, hfit⟩
    exact ⟨key, List.mem_filter.2 ⟨(hmem key (hc.inSpace key hfit)).1 hname, hfit⟩, rfl⟩
  · rintro ⟨key, hkey, rfl⟩
    obtain ⟨hkey, hfit⟩ := List.mem_filter.1 hkey
    exact ⟨(hmem key (hc.inSpace key hfit)).2 hkey, key, rfl, hfit⟩

section Calls

variable {c : Call}

theorem alike_reply (h : Reflects keyPrefix others r m) (hp : Glob.IsPlain keyPrefix) (hroom : m.size < m.capacity)
    (hlive : ∀ e ∈ m.entries, e.2.isExpired now = false) (hc : c.IsProper) :
    c.Alike (r.reply c) (m.answer now c).1 := by
  cases c with
  | get key =>
    simp only [Call.Alike, reply, Memory.answer, h.fullKey_eq, h.found key hc, Memory.get_fst, Memory.filter_live hlive]
  | set key value ttl => rfl
  | delete key => simp only [Call.Alike, reply, Memory.answer, h.fullKey_eq, h.contains_iff hc, Memory.delete]
  | has key =>
    have hexists : m.exists? now key = (m.find? key).isSome := by
      rw [Memory.exists?]
      cases hf : m.find? key with
      | none => rfl
      | some e => simp [hlive _ (Memory.mem_of_find? hf)]
    simp only [Call.Alike, reply, Memory.answer, h.fullKey_eq, h.contains_iff hc, hexists]
  | clear => rfl
  | deleteMatching pattern =>
    have hcount := (h.perm_matching hp (Memory.common_of_isProper hc)).length_eq
    rw [List.length_map] at hcount
    simp only [Call.Alike, reply, matching, Memory.answer, h.fullKey_eq, hcount, Memory.deleteMatching_fst h.keys]
  | stats =>
    refine ⟨?_, h.hits, h.misses⟩
    have hall : m.keys.filter (fits (Key.start ++ "*")) = m.keys :=
      List.filter_eq_self.2 fun key hk => (Memory.fits_all key).2 (h.inSpace key hk)
    have hcount := (h.perm_matching hp Memory.common_all).length_eq
    rw [hall, List.length_map, Memory.keys, List.length_map] at hcount
    rw [reply, matching, h.ownPattern_eq]
    exact hcount
  | health =>
    have hwell : m.isHealthy = true := decide_eq_true (Nat.le_of_lt hroom)
    simp only [Call.Alike, reply, Memory.answer, h.mode, hwell, decide_true]

lemma counts_counted (h : Reflects keyPrefix others r m) (hlive : ∀ e ∈ m.entries, e.2.isExpired now = false)
    (hc : c.IsProper) :
    (r.counted c).hits = (m.answer now c).2.hits ∧ (r.counted c).misses = (m.answer now c).2.misses := by
  cases c with
  | get key =>
    rw [counted, h.fullKey_eq, h.contains_iff hc, Memory.answer]
    cases hf : m.find? key with
    | none =>
      rw [Memory.get_none now hf]
      exact ⟨h.hits, congrArg (· + 1) h.misses⟩
    | some e =>
      rw [Memory.get_live hf (hlive _ (Memory.mem_of_find? hf))]
      exact ⟨congrArg (· + 1) h.hits, h.misses⟩
  | deleteMatching pattern =>
    rw [Memory.answer, Memory.deleteMatching_eq]
    exact ⟨h.hits, h.misses⟩
  | set | delete | has | clear | stats | health => exact ⟨h.hits, h.misses⟩

theorem found_left (h : Reflects keyPrefix others r m) (hp : Glob.IsPlain keyPrefix) (hroom : m.size < m.capacity)
    (hlive : ∀ e ∈ m.entries, e.2.isExpired now = false) (hc : c.IsProper) (hk : Key.InSpace key) :
    (r.left c).find? (keyPrefix ++ key) = ((m.answer now c).2.find? key).map (·.value) := by
  rw [Memory.find?_answer hroom]
  have hfound := h.found key hk
  cases c with
  | get k =>
    rw [Memory.left, Memory.filter_live hlive, ite_self]
    exact hfound
  | set k value ttl =>
    rw [left, Table.find?_insert, h.fullKey_eq, Memory.left, hfound]
    simp only [String.append_right_inj]
    split <;> rfl
  | delete k =>
    rw [left, Table.find?_filter, h.fullKey_eq, Memory.left, hfound]
    simp only [ne_eq, String.append_right_inj, decide_not, Bool.not_eq_true', decide_eq_false_iff_not, ite_not]
    split <;> rfl
  | clear =>
    rw [left, Table.find?_filter, h.ownPattern_eq, Memory.common_all.isMatch_append hp, (Memory.fits_all key).2 hk]
    rfl
  | deleteMatching pattern =>
    rw [left, Table.find?_filter, h.fullKey_eq, (Memory.common_of_isProper hc).isMatch_append hp, Memory.left, hfound]
    cases fits pattern key <;> rfl
  | has | stats | health => exact hfound

theorem kept_left (h : Reflects keyPrefix others r m) (hp : Glob.IsPlain keyPrefix) (hc : c.IsProper) {name : String}
    (hn : ¬(keyPrefix ++ Key.start).toList <+: name.toList) : (r.left c).find? name = others.find? name := by
  have hstranger (key : String) (hk : Key.InSpace key) : name ≠ keyPrefix ++ key := by
    rintro rfl
    exact hn (prefix_append_iff.2 ⟨key, rfl, hk⟩)
  rw [← h.kept name hn]
  cases c with
  | set key value ttl =>
    rw [left, Table.find?_insert, h.fullKey_eq, if_neg (hstranger key hc)]
  | delete key =>
    rw [left, Table.find?_filter, h.fullKey_eq]
    simp [hstranger key hc]
  | clear =>
    rw [left, Table.find?_filter, h.ownPattern_eq, Memory.common_all.isMatch_stranger hp hn]
    rfl
  | deleteMatching pattern =>
    rw [left, Table.find?_filter, h.fullKey_eq, (Memory.common_of_isProper hc).isMatch_stranger hp hn]
    rfl
  | get | has | stats | health => rfl

lemma inSpace_answer (h : Reflects keyPrefix others r m) (hc : c.IsProper) :
    ∀ key ∈ (m.answer now c).2.keys, Key.InSpace key := by
  intro key hk
  obtain ⟨⟨_, e⟩, he, rfl⟩ := List.mem_map.1 hk
  rcases Memory.mem_of_mem_answer he with he | ⟨value, ttl, rfl, -⟩
  · exact h.inSpace _ (List.mem_map.2 ⟨_, he, rfl⟩)
  · exact hc

/-- A call is answered alike by the two stores, and afterwards the one still reflects the other. -/
theorem answer (h : Reflects keyPrefix others r m) (hp : Glob.IsPlain keyPrefix) (hroom : m.size < m.capacity)
    (hlive : ∀ e ∈ m.entries, e.2.isExpired now = false) (hc : c.IsProper) :
    ∃ reply, (r.answer now c).1 = .ok reply ∧ c.Alike reply (m.answer now c).1 ∧
      Reflects keyPrefix others (r.answer now c).2 (m.answer now c).2 := by
  obtain ⟨hup, h⟩ := h.connect now
  rw [answer_connected hup]
  generalize (r.connect now).2 = r at h ⊢
  obtain ⟨commands, hanswer⟩ := answerConnected_obeyed (by simp [h.mode]) h.paging h.names c
  obtain ⟨hits, misses, hcounted⟩ := counted_eq r c
  obtain ⟨hhits, hmisses⟩ := h.counts_counted hlive hc
  rw [hcounted] at hanswer hhits hmisses
  rw [hanswer]
  refine ⟨r.reply c, rfl, h.alike_reply hp hroom hlive hc, ?_⟩
  exact {
    isReachable := h.isReachable
    lastFailure := h.lastFailure
    mode := h.mode
    paging := h.paging
    names := names_left h.names c
    config := h.config
    keys := (Memory.Within.answer ⟨.refl _, h.keys, Nat.le_refl _, Nat.le_refl _⟩ now c).keys
    inSpace := h.inSpace_answer hc
    found := fun key hk => h.found_left hp hroom hlive hc hk
    kept := fun name hn => h.kept_left hp hc hn
    hits := hhits
    misses := hmisses }

end Calls

end Reflects

end Remote

end Serving.Cache
