import Serving.Proofs.Memory.History

/-! A larger store forgets nothing that a smaller one remembers. Two stores of different capacities that see the same
operations need not hold the same entries, nor find the same ones; still the entries of the smaller one lie, in their
order, within those of the larger one. What carries this over an eviction is that the larger one never has more
entries in excess than it has places in excess: when it is full, so is the smaller one, and both let their first entry
go. -/

namespace Serving.Cache.Memory

/-- One store lies within another one. -/
structure Within (small large : Memory) : Prop where
  entries : small.entries.Sublist large.entries
  keys : large.keys.Nodup
  room : large.size + small.capacity ≤ small.size + large.capacity
  hits : small.hits ≤ large.hits

namespace Within

variable {small large : Memory} {key : String} {e : Entry}

lemma new {c₁ c₂ : Nat} (h : c₁ ≤ c₂) : Within (new c₁) (new c₂) where
  entries := .refl _
  keys := List.nodup_nil
  room := by
    simp only [Memory.new, size, List.length_nil]
    omega
  hits := Nat.le_refl _

lemma keys_small (h : Within small large) : small.keys.Nodup := h.keys.sublist (h.entries.map _)

lemma find?_large (h : Within small large) (hs : small.find? key = some e) : large.find? key = some e :=
  find?_of_mem h.keys (h.entries.mem (mem_of_find? hs))

lemma find?_small (h : Within small large) (hl : large.find? key = none) : small.find? key = none :=
  h.entries.lookup_eq_none hl

/-- Entries go on both sides by a rule that looks at nothing but the entry. -/
lemma filter (h : Within small large) (keep : String × Entry → Bool) {small' large' : Memory}
    (hs : small'.entries = small.entries.filter keep) (hl : large'.entries = large.entries.filter keep)
    (hcs : small'.capacity = small.capacity) (hcl : large'.capacity = large.capacity)
    (hh : small'.hits ≤ large'.hits) : Within small' large' where
  entries := by
    rw [hs, hl]
    exact h.entries.filter keep
  keys := by
    rw [Memory.keys, hl]
    exact h.keys.sublist (List.filter_sublist.map _)
  room := by
    -- What goes from the smaller one goes from the larger one as well.
    have hgone := (h.entries.filter fun x => !keep x).length_le
    have hsmall := small.entries.length_eq_length_filter_add keep
    have hlarge := large.entries.length_eq_length_filter_add keep
    have hroom := h.room
    simp only [size] at hroom
    simp only [size, hs, hl, hcs, hcl]
    omega
  hits := hh

lemma others (h : Within small large) (key : String) :
    Within { small with entries := small.others key } { large with entries := large.others key } :=
  h.filter _ rfl rfl rfl rfl h.hits

lemma clear (h : Within small large) : Within small.clear large.clear :=
  h.filter (fun _ => false) (by simp) (by simp) rfl rfl h.hits

lemma latest (h : Within small large) (hs : small.find? key = some e) (hl : large.find? key = some e) :
    Within { small with entries := small.others key ++ [(key, e)], hits := small.hits + 1 }
      { large with entries := large.others key ++ [(key, e)], hits := large.hits + 1 } where
  entries := (h.others key).entries.append (.refl _)
  keys := Memory.nodup_latest h.keys key e
  room := by
    have hsmall := length_others h.keys_small hs
    have hlarge := length_others h.keys hl
    have hroom := h.room
    simp only [size, List.length_append, List.length_singleton] at *
    omega
  hits := Nat.add_le_add_right h.hits 1

lemma latest_large (h : Within small large) (hs : small.find? key = none) (hl : large.find? key = some e) :
    Within { small with misses := small.misses + 1 }
      { large with entries := large.others key ++ [(key, e)], hits := large.hits + 1 } where
  entries := by
    have hsub := (h.others key).entries
    simp only [others_of_find?_none hs] at hsub
    exact hsub.trans (List.sublist_append_left ..)
  keys := Memory.nodup_latest h.keys key e
  room := by
    have hlarge := length_others h.keys hl
    have hroom := h.room
    simp only [size, List.length_append, List.length_singleton] at *
    omega
  hits := Nat.le_succ_of_le h.hits

lemma get (h : Within small large) (now : Instant) (key : String) :
    Within (small.get now key).2 (large.get now key).2 := by
  cases hl : large.find? key with
  | none =>
    rw [get_none now hl, get_none now (h.find?_small hl)]
    exact ⟨h.entries, h.keys, h.room, h.hits⟩
  | some e =>
    cases he : e.isExpired now with
    | true =>
      rw [get_expired hl he]
      cases hs : small.find? key with
      | none =>
        rw [get_none now hs]
        exact h.filter _ (others_of_find?_none hs).symm rfl rfl rfl h.hits
      | some e' =>
        obtain rfl := Option.some.inj (hl.symm.trans (h.find?_large hs))
        rw [get_expired hs he]
        exact h.filter _ rfl rfl rfl rfl h.hits
    | false =>
      rw [get_live hl he]
      cases hs : small.find? key with
      | none =>
        rw [get_none now hs]
        exact h.latest_large hs hl
      | some e' =>
        obtain rfl := Option.some.inj (hl.symm.trans (h.find?_large hs))
        rw [get_live hs he]
        exact h.latest hs hl

lemma set (h : Within small large) (now : Instant) (key : String) (value : Bytes) (ttl : Duration) :
    Within (small.set now key value ttl) (large.set now key value ttl) where
  entries := by
    have ho := (h.others key).room
    simp only [size] at ho
    -- The larger one lets go no more entries than the smaller one.
    refine List.Sublist.trans ?_ (((h.others key).entries.append (.refl _)).drop _)
    refine List.drop_sublist_drop_left _ ?_
    simp only [List.length_append, List.length_singleton]
    omega
  keys := (Memory.nodup_latest h.keys key _).sublist ((List.drop_sublist _ _).map _)
  room := by
    have ho := (h.others key).room
    simp only [size] at ho
    simp only [Memory.set, size, List.length_drop, List.length_append, List.length_singleton]
    omega
  hits := h.hits

lemma delete (h : Within small large) (key : String) : Within (small.delete key).2 (large.delete key).2 :=
  h.others key

lemma deleteMatching (h : Within small large) (pattern : String) :
    Within (small.deleteMatching pattern).2 (large.deleteMatching pattern).2 := by
  rw [deleteMatching_eq, deleteMatching_eq]
  exact h.filter _ rfl rfl rfl rfl h.hits

lemma sweep (h : Within small large) (now : Instant) : Within (small.sweep now).2 (large.sweep now).2 :=
  h.filter _ rfl rfl rfl rfl h.hits

theorem answer (h : Within small large) (now : Instant) (c : Call) :
    Within (small.answer now c).2 (large.answer now c).2 := by
  cases c with
  | get key => exact h.get now key
  | set key value ttl => exact h.set now key value ttl
  | delete key => exact h.delete key
  | clear => exact h.clear
  | deleteMatching pattern => exact h.deleteMatching pattern
  | has | stats | health => exact h

theorem step {s l : History} (h : Within s.memory l.memory) (hn : s.now = l.now) (o : Operation) :
    Within (s.step o).memory (l.step o).memory ∧ (s.step o).now = (l.step o).now := by
  cases o with
  | call c =>
    refine ⟨?_, hn⟩
    rw [History.step, History.step, hn]
    exact h.answer l.now c
  | sweep =>
    refine ⟨?_, hn⟩
    rw [History.step, History.step, hn]
    exact h.sweep l.now
  | timePasses d => exact ⟨h, congrArg (· + d) hn⟩

theorem run {c₁ c₂ : Nat} (h : c₁ ≤ c₂) (operations : List Operation) :
    Within (History.run c₁ operations).memory (History.run c₂ operations).memory ∧
      (History.run c₁ operations).now = (History.run c₂ operations).now := by
  simp only [History.run]
  have h₀ : Within (History.start c₁).memory (History.start c₂).memory ∧
      (History.start c₁).now = (History.start c₂).now := ⟨new h, rfl⟩
  generalize History.start c₁ = s at h₀ ⊢
  generalize History.start c₂ = l at h₀ ⊢
  induction operations generalizing s l with
  | nil => exact h₀
  | cons o operations ih => exact ih _ _ (step h₀.1 h₀.2 o)

lemma get_of_small (h : Within small large) {now : Instant} {value : Bytes}
    (hg : (small.get now key).1 = some value) : (large.get now key).1 = some value := by
  cases hs : small.find? key with
  | none =>
    rw [get_of_find_none now hs] at hg
    cases hg
  | some e =>
    have hl := h.find?_large hs
    cases he : e.isExpired now with
    | true =>
      rw [get_of_expired hs he] at hg
      cases hg
    | false =>
      rw [get_of_live hs he] at hg
      rw [get_of_live hl he, hg]

lemma exists_of_small (h : Within small large) {now : Instant} (hx : small.exists? now key = true) :
    large.exists? now key = true := by
  rw [exists?, Option.any_eq_true] at hx ⊢
  obtain ⟨e, hs, he⟩ := hx
  exact ⟨e, h.find?_large hs, he⟩

end Within

namespace History

/-- After every run of the same operations the entries of a smaller store lie in their order within those of a
larger one, and what the smaller one finds the larger one finds as well, with the same bytes. So room for more
entries costs no hit. -/
theorem larger_forgets_nothing {c₁ c₂ : Nat} (h : c₁ ≤ c₂) (operations : List Operation) :
    let s := run c₁ operations
    let l := run c₂ operations
    s.memory.entries.Sublist l.memory.entries ∧
      (∀ key value, (s.memory.get s.now key).1 = some value → (l.memory.get l.now key).1 = some value) ∧
      (∀ key, s.memory.exists? s.now key = true → l.memory.exists? l.now key = true) ∧
      s.memory.hits ≤ l.memory.hits := by
  intro s l
  obtain ⟨hw, hn⟩ := Within.run h operations
  refine ⟨hw.entries, ?_, ?_, hw.hits⟩
  · intro key value hg
    rw [← hn]
    exact hw.get_of_small hg
  · intro key hx
    rw [← hn]
    exact hw.exists_of_small hx

def juggled : List Operation :=
  [.call (.set "a" ⟨#[1]⟩ 5), .call (.set "b" ⟨#[2]⟩ 5), .call (.get "a"), .timePasses 2, .call (.set "c" ⟨#[3]⟩ 5)]

/-- With two places the first entry was still there to be read and outlives the second one; with one place neither
is left. -/
theorem larger_forgets_nothing_of_two :
    (run 1 juggled).memory.keys = ["c"] ∧ (run 2 juggled).memory.keys = ["a", "c"] ∧
      (run 1 juggled).memory.entries.Sublist (run 2 juggled).memory.entries ∧
      ((run 1 juggled).memory.get 2 "c").1 = some ⟨#[3]⟩ ∧ ((run 2 juggled).memory.get 2 "c").1 = some ⟨#[3]⟩ := by
  obtain ⟨hentries, hget, _⟩ := larger_forgets_nothing (by decide : 1 ≤ 2) juggled
  have hsmall : ((run 1 juggled).memory.get 2 "c").1 = some ⟨#[3]⟩ := by rfl
  exact ⟨by rfl, by rfl, hentries, hsmall, hget "c" _ hsmall⟩

end History

end Serving.Cache.Memory
