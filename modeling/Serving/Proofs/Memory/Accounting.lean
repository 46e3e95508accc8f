import Mathlib.Algebra.BigOperators.Group.List.Basic
import Mathlib.Algebra.GroupWithZero.Nat
import Serving.Proofs.Memory.History

/-! Where the entries of a store went. Each operation keeps a balance: what is there, what was counted as evicted or
expired, and what the operation says that it took away, together make what was there before, and one more if the
operation brought a new key. Summed over a run, every key that came in is either still there or counted once. -/

namespace Serving.Cache.Memory

variable {m : Memory} {key : String}

/-- A key that is there is written in place of what it held, or a key that is new is written behind all others; only
a full store lets its first entry go for it. -/
lemma set_cases (hm : m.keys.Nodup) (hroom : m.size ≤ m.capacity) (hpos : 1 ≤ m.capacity) (now : Instant)
    (key : String) (value : Bytes) (ttl : Duration) :
    m.set now key value ttl = { m with entries := m.others key ++ [(key, ⟨value, now + ttl⟩)] } ∧
        ((m.find? key).isNone = true → m.size < m.capacity) ∨
      m.find? key = none ∧ m.size = m.capacity ∧
        m.set now key value ttl =
          { m with entries := m.entries.tail ++ [(key, ⟨value, now + ttl⟩)], evictions := m.evictions + 1 } := by
  have hlen : (m.others key ++ [(key, (⟨value, now + ttl⟩ : Entry))]).length = (m.others key).length + 1 :=
    List.length_append
  cases hf : m.find? key with
  | some e =>
    have hone := length_others hm hf
    have hexcess : (m.others key).length + 1 - m.capacity = 0 := by omega
    left
    rw [set, hlen, hexcess]
    exact ⟨rfl, fun h => nomatch h⟩
  | none =>
    rw [set, hlen, others_of_find?_none hf]
    rcases Nat.lt_or_eq_of_le hroom with hlt | hfull
    · left
      have hexcess : m.entries.length + 1 - m.capacity = 0 := Nat.sub_eq_zero_of_le hlt
      rw [hexcess]
      exact ⟨rfl, fun _ => hlt⟩
    · right
      have hexcess : m.entries.length + 1 - m.capacity = 1 := by
        simp only [size] at hfull
        omega
      have htail : (m.entries ++ [(key, (⟨value, now + ttl⟩ : Entry))]).drop 1 =
          m.entries.tail ++ [(key, ⟨value, now + ttl⟩)] := by
        rw [List.drop_one, List.tail_append_of_ne_nil]
        rintro hnil
        simp only [size, hnil, List.length_nil] at hfull
        omega
      rw [hexcess, htail]
      exact ⟨rfl, hfull, rfl⟩

namespace Moment

def isGet (x : Moment) : Bool :=
  match x.operation with
  | .call (.get _) => true
  | _ => false

/-- A key is set that the store does not hold. -/
def isNew (x : Moment) : Bool :=
  match x.operation with
  | .call (.set key _ _) => (x.memory.find? key).isNone
  | _ => false

/-- How many entries an operation removes by what it answers: one for a delete that found its key, the number that a
pattern gives, all that are there when the store is cleared. -/
def removed (x : Moment) : Nat :=
  match x.operation with
  | .call (.delete key) => if (x.memory.delete key).1 then 1 else 0
  | .call (.deleteMatching pattern) => (x.memory.deleteMatching pattern).1
  | .call .clear => x.memory.size
  | _ => 0

/-- What an operation that finds a store as in `x` leaves. -/
structure Balanced (x : Moment) (left : Memory) : Prop where
  keys : left.keys.Nodup
  capacity : left.capacity = x.memory.capacity
  room : left.size ≤ left.capacity
  reads : left.hits + left.misses = x.memory.hits + x.memory.misses + x.isGet.toNat
  entries : left.size + left.evictions + left.expired + x.removed =
    x.memory.size + x.memory.evictions + x.memory.expired + x.isNew.toNat

end Moment

/-- A store with distinct keys, room for one at least, and no more entries than it has room for. -/
structure IsSound (m : Memory) : Prop where
  keys : m.keys.Nodup
  room : m.size ≤ m.capacity
  pos : 1 ≤ m.capacity

namespace IsSound

variable (h : m.IsSound) (now : Instant)
include h

/-- Entries go, and each of them is either counted as expired or said to be removed. -/
lemma balanced_filter {o : Operation} {left : Memory} (keep : String × Entry → Bool)
    (hentries : left.entries = m.entries.filter keep) (hcapacity : left.capacity = m.capacity)
    (hevictions : left.evictions = m.evictions)
    (hgone : left.expired + Moment.removed ⟨m, now, o⟩ = m.expired + (m.entries.filter fun e => !keep e).length)
    (hreads : left.hits + left.misses = m.hits + m.misses + (Moment.isGet ⟨m, now, o⟩).toNat)
    (hnew : Moment.isNew ⟨m, now, o⟩ = false) : Moment.Balanced ⟨m, now, o⟩ left where
  keys := by
    rw [Memory.keys, hentries]
    exact h.keys.sublist (List.filter_sublist.map _)
  capacity := hcapacity
  room := by
    rw [size, hentries, hcapacity]
    exact Nat.le_trans (List.length_filter_le ..) h.room
  reads := hreads
  entries := by
    have hsplit := m.entries.length_eq_length_filter_add keep
    simp only [size, hentries, hevictions, hnew, Bool.toNat_false]
    omega

lemma balanced_idle {o : Operation} (hget : Moment.isGet ⟨m, now, o⟩ = false)
    (hnew : Moment.isNew ⟨m, now, o⟩ = false) (hremoved : Moment.removed ⟨m, now, o⟩ = 0) :
    Moment.Balanced ⟨m, now, o⟩ m where
  keys := h.keys
  capacity := rfl
  room := h.room
  reads := by rw [hget, Bool.toNat_false, Nat.add_zero]
  entries := by rw [hnew, hremoved, Bool.toNat_false]

lemma length_latest {e : Entry} (hf : m.find? key = some e) (e' : Entry) :
    (m.others key ++ [(key, e')]).length = m.size := by
  rw [List.length_append]
  exact length_others h.keys hf

/-- The entry of a key is the one that is not among the others. -/
lemma length_gone {e : Entry} (hf : m.find? key = some e) :
    (m.entries.filter fun x => !(x.1 != key)).length = 1 := by
  have hone := length_others h.keys hf
  have hsplit := m.entries.length_eq_length_filter_add (·.1 != key)
  simp only [size, others] at hone hsplit
  omega

lemma balanced_get (key : String) : Moment.Balanced ⟨m, now, .call (.get key)⟩ (m.get now key).2 := by
  cases hf : m.find? key with
  | none =>
    rw [get_none now hf]
    exact ⟨h.keys, rfl, h.room, by simp only [Moment.isGet, Bool.toNat_true]; omega, rfl⟩
  | some e =>
    cases he : e.isExpired now with
    | true =>
      rw [get_expired hf he]
      refine h.balanced_filter now (·.1 != key) rfl rfl rfl ?_ rfl rfl
      rw [h.length_gone hf]
      rfl
    | false =>
      rw [get_live hf he]
      have hlen := h.length_latest hf e
      refine ⟨nodup_latest h.keys key e, rfl, hlen.trans_le h.room, ?_, ?_⟩
      · simp only [Moment.isGet, Bool.toNat_true]
        omega
      · simp only [size, hlen, Moment.removed, Moment.isNew, Bool.toNat_false]

lemma balanced_set (key : String) (value : Bytes) (ttl : Duration) :
    Moment.Balanced ⟨m, now, .call (.set key value ttl)⟩ (m.set now key value ttl) := by
  have hkeys := nodup_latest h.keys key ⟨value, now + ttl⟩
  rcases set_cases h.keys h.room h.pos now key value ttl with ⟨hset, hlt⟩ | ⟨hf, hfull, hset⟩
  · rw [hset]
    cases hf : m.find? key with
    | none =>
      have hlen : (m.others key ++ [(key, (⟨value, now + ttl⟩ : Entry))]).length = m.size + 1 := by
        rw [others_of_find?_none hf, List.length_append, List.length_singleton, size]
      refine ⟨hkeys, rfl, hlen.trans_le (hlt (by rw [hf, Option.isNone_none])), rfl, ?_⟩
      simp only [size, hlen, Moment.removed, Moment.isNew, hf, Option.isNone_none, Bool.toNat_true]
      omega
    | some e =>
      have hlen := h.length_latest hf ⟨value, now + ttl⟩
      refine ⟨hkeys, rfl, hlen.trans_le h.room, rfl, ?_⟩
      simp only [size, hlen, Moment.removed, Moment.isNew, hf, Option.isNone_some, Bool.toNat_false]
  · rw [hset]
    have hlen : (m.entries.tail ++ [(key, (⟨value, now + ttl⟩ : Entry))]).length = m.size := by
      have hpos := h.pos
      rw [List.length_append, List.length_singleton, List.length_tail]
      simp only [size] at hfull ⊢
      omega
    rw [others_of_find?_none hf] at hkeys
    refine ⟨hkeys.sublist (((List.tail_sublist _).append (.refl _)).map _), rfl, hlen.trans_le h.room, rfl, ?_⟩
    simp only [size, hlen, Moment.removed, Moment.isNew, hf, Option.isNone_none, Bool.toNat_true]
    omega

lemma balanced_delete (key : String) : Moment.Balanced ⟨m, now, .call (.delete key)⟩ (m.delete key).2 := by
  refine h.balanced_filter now (·.1 != key) rfl rfl rfl ?_ rfl rfl
  change m.expired + (if (m.find? key).isSome then 1 else 0) = _
  cases hf : m.find? key with
  | none =>
    have hothers := congrArg List.length (others_of_find?_none hf)
    have hsplit := m.entries.length_eq_length_filter_add (·.1 != key)
    simp only [others] at hothers
    simp only [Option.isSome_none, Bool.false_eq_true, if_false]
    omega
  | some e =>
    rw [h.length_gone hf]
    rfl

lemma balanced_clear : Moment.Balanced ⟨m, now, .call .clear⟩ m.clear := by
  refine h.balanced_filter now (fun _ => false) ?_ rfl rfl ?_ rfl rfl
  · rw [List.filter_false]
    rfl
  · simp [Moment.removed, clear, size]

lemma balanced_deleteMatching (pattern : String) :
    Moment.Balanced ⟨m, now, .call (.deleteMatching pattern)⟩ (m.deleteMatching pattern).2 := by
  rw [deleteMatching_eq]
  refine h.balanced_filter now (fun e => !fits pattern e.1) rfl rfl rfl ?_ rfl rfl
  change m.expired + (m.deleteMatching pattern).1 = _
  rw [deleteMatching_fst h.keys, Memory.keys, List.filter_map, List.length_map]
  simp only [Bool.not_not, Function.comp_def]

lemma balanced_sweep : Moment.Balanced ⟨m, now, .sweep⟩ (m.sweep now).2 := by
  refine h.balanced_filter now (fun e => !e.2.isExpired now) rfl rfl rfl ?_ rfl rfl
  simp [sweep, Moment.removed, List.countP_eq_length_filter]

omit h in
theorem balanced_step {s : History} (hs : s.memory.IsSound) (o : Operation) :
    (s.moment o).Balanced (s.step o).memory := by
  cases o with
  | call c =>
    cases c with
    | get key => exact hs.balanced_get s.now key
    | set key value ttl => exact hs.balanced_set s.now key value ttl
    | delete key => exact hs.balanced_delete s.now key
    | clear => exact hs.balanced_clear s.now
    | deleteMatching pattern => exact hs.balanced_deleteMatching s.now pattern
    | has | stats | health => exact hs.balanced_idle s.now rfl rfl rfl
  | sweep => exact hs.balanced_sweep s.now
  | timePasses d => exact hs.balanced_idle s.now rfl rfl rfl

end IsSound

namespace History

structure Accounted (capacity : Nat) (m : Memory) (past : List Moment) : Prop where
  sound : m.IsSound
  capacity : m.capacity = max capacity 1
  reads : m.hits + m.misses = past.countP Moment.isGet
  entries : past.countP Moment.isNew = m.size + m.evictions + m.expired + (past.map Moment.removed).sum

lemma Accounted.start (capacity : Nat) : Accounted capacity (start capacity).memory [] where
  sound := ⟨List.nodup_nil, Nat.zero_le _, Nat.le_max_right capacity 1⟩
  capacity := rfl
  reads := rfl
  entries := rfl

lemma Accounted.step {capacity : Nat} {s : History} {past : List Moment} (h : Accounted capacity s.memory past)
    (o : Operation) : Accounted capacity (s.step o).memory (past ++ [s.moment o]) := by
  have hstep := IsSound.balanced_step h.sound o
  have hreads := h.reads
  have hentries := h.entries
  have hone : ∀ p : Moment → Bool, [s.moment o].countP p = (p (s.moment o)).toNat := by
    intro p
    rw [List.countP_singleton]
    cases p (s.moment o) <;> rfl
  refine ⟨⟨hstep.keys, hstep.room, ?_⟩, hstep.capacity.trans h.capacity, ?_, ?_⟩
  · rw [hstep.capacity]
    exact h.sound.pos
  · rw [hstep.reads, List.countP_append, ← hreads, hone]
    rfl
  · have hbalance := hstep.entries
    rw [List.countP_append, hone, List.map_append, List.sum_append, List.map_singleton, List.sum_singleton]
    simp only [moment] at hbalance hentries ⊢
    omega

/-- After every run keys are distinct, the store holds no more than it may and says that it is well, its size is that
of the values with their overhead, every read was a hit or a miss, and every key that was new is still there or left
in one of the ways that are counted. Whatever is set next, at most one entry is evicted, and that only for a new key
in a full store. -/
theorem every_entry_accounted (capacity : Nat) (operations : List Operation) :
    let s := run capacity operations
    let past := past capacity operations
    let stats := s.memory.stats
    s.memory.keys.Nodup ∧ s.memory.size ≤ max capacity 1 ∧ s.memory.isHealthy = true ∧
      stats.memory = (s.memory.entries.map fun e => e.2.value.size + Entry.overhead).sum ∧
      stats.hits + stats.misses = past.countP Moment.isGet ∧
      past.countP Moment.isNew =
        s.memory.size + stats.evictions + stats.expired + (past.map Moment.removed).sum ∧
      ∀ key value ttl,
        let after := s.memory.set s.now key value ttl
        (after.evictions = s.memory.evictions ∧
            after.entries = s.memory.others key ++ [(key, ⟨value, s.now + ttl⟩)]) ∨
          (s.memory.find? key = none ∧ s.memory.size = max capacity 1 ∧
            after.evictions = s.memory.evictions + 1 ∧
            after.entries = s.memory.entries.tail ++ [(key, ⟨value, s.now + ttl⟩)]) := by
  intro s past stats
  have h : Accounted capacity s.memory past :=
    run_induction (P := fun s past => Accounted capacity s.memory past) (.start capacity) (fun _ _ o h => h.step o)
      operations
  refine ⟨h.sound.keys, h.capacity ▸ h.sound.room, decide_eq_true h.sound.room, rfl, h.reads, h.entries, ?_⟩
  intro key value ttl
  dsimp only
  rcases set_cases h.sound.keys h.sound.room h.sound.pos s.now key value ttl with ⟨hset, _⟩ | ⟨hnone, hfull, hset⟩
  · left
    rw [hset]
    exact ⟨rfl, rfl⟩
  · right
    rw [hset]
    exact ⟨hnone, hfull.trans h.capacity, rfl, rfl⟩

end History

end Serving.Cache.Memory
