import Mathlib.Data.List.Nodup
import Serving.Cache.Store
import Serving.Table

/-! Runs of a memory store. Callers put calls to it, somebody sweeps it, and time passes, in any order. What happens
to the entries comes in three kinds: some of them go, one of them becomes the latest, or one is written at the end
and the first give way. The past of a run is the list of its operations, each with the store as it found it. -/

namespace Serving.Cache.Memory

inductive Operation
  | call (c : Call)
  | sweep
  | timePasses (d : Duration)

structure History where
  memory : Memory
  now : Instant := 0

namespace History

def step (s : History) : Operation → History
  | .call c => { s with memory := (s.memory.answer s.now c).2 }
  | .sweep => { s with memory := (s.memory.sweep s.now).2 }
  | .timePasses d => { s with now := s.now + d }

def start (capacity : Nat) : History := { memory := .new capacity }

def run (capacity : Nat) (operations : List Operation) : History := operations.foldl step (start capacity)

end History

/-- An operation, and the store as it finds it. -/
structure Moment where
  memory : Memory
  now : Instant
  operation : Operation

namespace History

def moment (s : History) (o : Operation) : Moment := ⟨s.memory, s.now, o⟩

def moments (s : History) : List Operation → List Moment
  | [] => []
  | o :: operations => s.moment o :: (s.step o).moments operations

def past (capacity : Nat) (operations : List Operation) : List Moment := (start capacity).moments operations

theorem run_induction {capacity : Nat} {P : History → List Moment → Prop} (first : P (start capacity) [])
    (next : ∀ s past o, P s past → P (s.step o) (past ++ [s.moment o])) (operations : List Operation) :
    P (run capacity operations) (past capacity operations) := by
  have h : ∀ s before, P s before → P (operations.foldl step s) (before ++ s.moments operations) := by
    induction operations with
    | nil =>
      intro s before hs
      rwa [moments, List.append_nil]
    | cons o operations ih =>
      intro s before hs
      rw [moments, List.append_cons]
      exact ih _ _ (next s before o hs)
  exact h _ [] first

end History

def keys (m : Memory) : List String := m.entries.map (·.1)

/-- The keys that a pattern removes. -/
def fits (pattern key : String) : Bool :=
  match stem? pattern with
  | some start => start.toList.isPrefixOf key.toList
  | none => key == pattern

variable {m : Memory} {key : String} {e : Entry}

lemma mem_of_find? (h : m.find? key = some e) : (key, e) ∈ m.entries :=
  Table.mem_of_find? (t := ⟨m.entries⟩) h

lemma find?_of_mem (hm : m.keys.Nodup) (h : (key, e) ∈ m.entries) : m.find? key = some e :=
  Table.find?_of_mem (t := ⟨m.entries⟩) hm h

lemma mem_keys_iff : key ∈ m.keys ↔ (m.find? key).isSome = true := (Table.contains_iff (t := ⟨m.entries⟩)).symm

lemma others_of_find?_none (h : m.find? key = none) : m.others key = m.entries := by
  refine List.filter_eq_self.2 fun x hx => ?_
  simpa [bne_comm] using List.lookup_eq_none_iff.1 h x hx

/-- A key is found once, so without its entry there is one entry less. -/
lemma length_others (hm : m.keys.Nodup) (h : m.find? key = some e) :
    (m.others key).length + 1 = m.size := by
  have hk : key ∈ m.keys := List.mem_map.2 ⟨_, mem_of_find? h, rfl⟩
  have hone : (m.entries.filter fun x => !(x.1 != key)).length = 1 := by
    rw [← List.count_eq_one_of_mem hm hk, keys, List.count, List.countP_map, List.countP_eq_length_filter]
    congr 2
    funext x
    simp [bne]
  have hsplit := m.entries.length_eq_length_filter_add (·.1 != key)
  rw [hone] at hsplit
  exact hsplit.symm

/-- An entry that is taken out and put at the end, or written there, is the only one of its key. -/
lemma nodup_latest (hm : m.keys.Nodup) (key : String) (e : Entry) :
    ((m.others key ++ [(key, e)]).map (·.1)).Nodup := by
  rw [List.map_append]
  refine List.nodup_append.2 ⟨hm.sublist (List.filter_sublist.map _), List.nodup_singleton _, ?_⟩
  rintro a ha b hb rfl
  obtain ⟨x, hx, rfl⟩ := List.mem_map.1 ha
  have hne := (List.mem_filter.1 hx).2
  have hkey := List.mem_singleton.1 hb
  simp [hkey] at hne

lemma get_none (now : Instant) (h : m.find? key = none) :
    m.get now key = (none, { m with misses := m.misses + 1 }) := by
  simp [get, h]

lemma get_expired {now : Instant} (h : m.find? key = some e) (he : e.isExpired now = true) :
    m.get now key =
      (none, { m with entries := m.others key, expired := m.expired + 1, misses := m.misses + 1 }) := by
  simp [get, h, he]

lemma get_live {now : Instant} (h : m.find? key = some e) (he : e.isExpired now = false) :
    m.get now key = (some e.value, { m with entries := m.others key ++ [(key, e)], hits := m.hits + 1 }) := by
  simp [get, h, he]

lemma stem?_star (stem : String) : stem? (stem ++ "*") = some stem := by
  simp [stem?]

/-- Removal by the start of keys is removal by a pattern, so that a run needs no operation for it. -/
lemma deletePrefixed_eq (m : Memory) (start : String) : m.deletePrefixed start = m.deleteMatching (start ++ "*") := by
  rw [deleteMatching, stem?_star]

lemma deleteMatching_eq (m : Memory) (pattern : String) :
    (m.deleteMatching pattern).2 = { m with entries := m.entries.filter fun e => !fits pattern e.1 } := by
  cases h : stem? pattern with
  | some start => simp [deleteMatching, deletePrefixed, removeKeys, fits, h]
  | none => simp [deleteMatching, delete, others, fits, h, bne]

lemma deleteMatching_fst (hm : m.keys.Nodup) (pattern : String) :
    (m.deleteMatching pattern).1 = (m.keys.filter (fits pattern)).length := by
  cases h : stem? pattern with
  | some start =>
    have hfits : fits pattern = fun key => start.toList.isPrefixOf key.toList := funext fun key => by rw [fits, h]
    simp only [deleteMatching, deletePrefixed, removeKeys, h, hfits, keys, List.filter_map, List.length_map,
      List.countP_eq_length_filter, Function.comp_def]
  | none =>
    have hfits : fits pattern = (· == pattern) := funext fun key => by rw [fits, h]
    rw [hfits, ← List.countP_eq_length_filter, ← List.count_eq_countP]
    simp only [deleteMatching, h]
    by_cases hk : pattern ∈ m.keys
    · rw [List.count_eq_one_of_mem hm hk]
      exact if_pos (mem_keys_iff.1 hk)
    · rw [List.count_eq_zero_of_not_mem hk]
      exact if_neg (mem_keys_iff.not.1 hk)

lemma mem_of_mem_get {now : Instant} {x : String × Entry} (h : x ∈ (m.get now key).2.entries) : x ∈ m.entries := by
  cases hf : m.find? key with
  | none => simpa [get_none now hf] using h
  | some e =>
    cases he : e.isExpired now with
    | true =>
      rw [get_expired hf he] at h
      exact (List.mem_filter.1 h).1
    | false =>
      rw [get_live hf he] at h
      rcases List.mem_append.1 h with h | h
      · exact (List.mem_filter.1 h).1
      · rw [List.mem_singleton.1 h]
        exact mem_of_find? hf

lemma exists_of_get {now : Instant} {value : Bytes} (h : (m.get now key).1 = some value) :
    ∃ e, (key, e) ∈ m.entries ∧ e.value = value ∧ e.isExpired now = false := by
  cases hf : m.find? key with
  | none => simp [get_none now hf] at h
  | some e =>
    cases he : e.isExpired now with
    | true => simp [get_expired hf he] at h
    | false =>
      rw [get_live hf he] at h
      exact ⟨e, mem_of_find? hf, Option.some.inj h, he⟩

lemma mem_of_mem_set {now : Instant} {other : String} {value : Bytes} {ttl : Duration}
    (h : (other, e) ∈ (m.set now key value ttl).entries) :
    (other, e) ∈ m.others key ∨ other = key ∧ e = ⟨value, now + ttl⟩ := by
  rcases List.mem_append.1 (List.mem_of_mem_drop h) with h | h
  · exact .inl h
  · exact .inr (Prod.mk.inj (List.mem_singleton.1 h))

lemma mem_others {x : String × Entry} : x ∈ m.others key ↔ x ∈ m.entries ∧ x.1 ≠ key := by
  simp [others]

lemma mem_of_mem_answer {now : Instant} {c : Call} (h : (key, e) ∈ (m.answer now c).2.entries) :
    (key, e) ∈ m.entries ∨ ∃ value ttl, c = .set key value ttl ∧ e = ⟨value, now + ttl⟩ := by
  cases c with
  | get other => exact .inl (mem_of_mem_get h)
  | set other value ttl =>
    rcases mem_of_mem_set h with h | ⟨rfl, rfl⟩
    · exact .inl (mem_others.1 h).1
    · exact .inr ⟨value, ttl, rfl, rfl⟩
  | delete other => exact .inl (mem_others.1 h).1
  | clear => cases h
  | deleteMatching pattern =>
    simp only [answer, deleteMatching_eq] at h
    exact .inl (List.mem_filter.1 h).1
  | has | stats | health => exact .inl h

end Serving.Cache.Memory
