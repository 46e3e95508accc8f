import Serving.Proofs.Memory.Retention

/-! An entry that a store holds on to. Everything that lies behind it is from a fixed set of other keys, too few to drive
it out. So it stays as long as no further keys are used, and to read the key itself only moves it to the end. -/

namespace Serving.Cache.Memory

/-- An entry lies under a key, and behind it there is nothing but other keys, fewer than the store has room for. -/
structure Holds (m : Memory) (key : String) (e : Entry) (others : Finset String) : Prop where
  keys : m.keys.Nodup
  held : (key, e) ∈ m.entries
  behind : m.entries.Pairwise fun y z => y.1 = key → z.1 ∈ others
  few : others.card < m.capacity

variable {m m' : Memory} {key other : String} {e e' : Entry} {others : Finset String} {now : Instant} {value : Bytes}
  {ttl : Duration}

lemma nodup_get (h : m.keys.Nodup) (now : Instant) (key : String) : (m.get now key).2.keys.Nodup := by
  cases hf : m.find? key with
  | none =>
    rw [get_none now hf]
    exact h
  | some e =>
    cases he : e.isExpired now with
    | true =>
      rw [get_expired hf he]
      exact h.sublist (List.filter_sublist.map _)
    | false =>
      rw [get_live hf he]
      exact nodup_latest h key e

lemma nodup_set (h : m.keys.Nodup) (now : Instant) (key : String) (value : Bytes) (ttl : Duration) :
    (m.set now key value ttl).keys.Nodup :=
  (nodup_latest h key ⟨value, now + ttl⟩).sublist ((List.drop_sublist _ _).map _)

namespace Holds

lemma find? (h : m.Holds key e others) : m.find? key = some e := find?_of_mem h.keys h.held

/-- No more of the first entries go than is necessary. -/
lemma of_drop {entries : List (String × Entry)} {n : Nat} (hkeys : (entries.map (·.1)).Nodup)
    (hheld : (key, e) ∈ entries) (hbehind : entries.Pairwise fun y z => y.1 = key → z.1 ∈ others)
    (hfew : others.card < m.capacity) (hn : n ≤ entries.length - m.capacity) (hentries : m.entries = entries.drop n) :
    m.Holds key e others where
  keys := by
    rw [Memory.keys, hentries]
    exact hkeys.sublist ((List.drop_sublist _ _).map _)
  held := by
    -- nothing is known of what lies behind the other keys, so all keys count as their rivals
    have hlast : (key, e) ∈ entries.drop (entries.length - m.capacity) := by
      refine mem_drop_of_few (fun k => if k = key then others else (entries.map (·.1)).toFinset) hkeys ?_ hheld ?_
      · refine hbehind.imp_of_mem fun {y z} _ hz hyz => ?_
        split
        · exact hyz ‹_›
        · exact List.mem_toFinset.2 (List.mem_map_of_mem hz)
      · rw [if_pos rfl]
        exact hfew
    rw [hentries]
    exact (List.drop_sublist_drop_left entries hn).mem hlast
  behind := by
    rw [hentries]
    exact hbehind.sublist (List.drop_sublist _ _)
  few := hfew

lemma latest_self {n : Nat} (h : m.keys.Nodup) (hfew : others.card < m'.capacity)
    (hn : n ≤ (m.others key ++ [(key, e)]).length - m'.capacity)
    (hentries : m'.entries = (m.others key ++ [(key, e)]).drop n) : m'.Holds key e others := by
  refine of_drop (nodup_latest h key e) (List.mem_append_right _ List.mem_cons_self) ?_ hfew hn hentries
  refine List.pairwise_append.2 ⟨List.pairwise_of_forall_mem_list fun y hy _ _ hkey => ?_,
    List.pairwise_singleton _ _, fun y hy _ _ hkey => ?_⟩
  · exact absurd hkey (mem_others.1 hy).2
  · exact absurd hkey (mem_others.1 hy).2

lemma latest_other {n : Nat} (h : m.Holds key e others) (ho : other ∈ others) (hne : other ≠ key)
    (hcapacity : m'.capacity = m.capacity) (hn : n ≤ (m.others other ++ [(other, e')]).length - m'.capacity)
    (hentries : m'.entries = (m.others other ++ [(other, e')]).drop n) : m'.Holds key e others := by
  refine of_drop (nodup_latest h.keys other e') ?_ ?_ (hcapacity ▸ h.few) hn hentries
  · exact List.mem_append_left _ (mem_others.2 ⟨h.held, hne.symm⟩)
  · refine List.pairwise_append.2 ⟨h.behind.sublist List.filter_sublist, List.pairwise_singleton _ _, ?_⟩
    intro y _ z hz _
    rwa [List.mem_singleton.1 hz]

lemma filter (h : m.Holds key e others) (keep : String × Entry → Bool) (hkeep : keep (key, e) = true)
    (hentries : m'.entries = m.entries.filter keep) (hcapacity : m'.capacity = m.capacity) :
    m'.Holds key e others where
  keys := by
    rw [Memory.keys, hentries]
    exact h.keys.sublist (List.filter_sublist.map _)
  held := by
    rw [hentries]
    exact List.mem_filter.2 ⟨h.held, hkeep⟩
  behind := by
    rw [hentries]
    exact h.behind.sublist List.filter_sublist
  few := hcapacity ▸ h.few

lemma delete (h : m.Holds key e others) (hne : other ≠ key) : (m.delete other).2.Holds key e others :=
  h.filter (·.1 != other) (bne_iff_ne.2 hne.symm) rfl rfl

lemma sweep (h : m.Holds key e others) (hlive : now ≤ e.expires) : (m.sweep now).2.Holds key e others := by
  refine h.filter _ ?_ rfl rfl
  rw [Bool.not_eq_true']
  exact decide_eq_false (Nat.not_lt_of_le hlive)

lemma get_self (h : m.Holds key e others) (hlive : now ≤ e.expires) :
    (m.get now key).1 = some e.value ∧ (m.get now key).2.Holds key e others := by
  have he : e.isExpired now = false := decide_eq_false (Nat.not_lt_of_le hlive)
  rw [get_live h.find? he]
  exact ⟨rfl, latest_self h.keys h.few (Nat.zero_le _) rfl⟩

/-- A read of another key that finds something has to be of one that is allowed for. -/
lemma get_other (h : m.Holds key e others) (hne : other ≠ key)
    (ho : (m.get now other).1.isSome = true → other ∈ others) : (m.get now other).2.Holds key e others := by
  cases hf : m.find? other with
  | none =>
    rw [get_none now hf]
    exact ⟨h.keys, h.held, h.behind, h.few⟩
  | some e' =>
    cases he : e'.isExpired now with
    | true =>
      rw [get_expired hf he]
      exact h.filter (·.1 != other) (bne_iff_ne.2 hne.symm) rfl rfl
    | false =>
      rw [get_live hf he] at ho ⊢
      exact h.latest_other (ho rfl) hne rfl (Nat.zero_le _) rfl

lemma set_other (h : m.Holds key e others) (ho : other ∈ others) (hne : other ≠ key) :
    (m.set now other value ttl).Holds key e others :=
  h.latest_other ho hne rfl (Nat.le_refl _) rfl

/-- What has just been written is held, whatever had to go for it. -/
lemma set_self (h : m.keys.Nodup) (hfew : others.card < m.capacity) :
    (m.set now key value ttl).Holds key ⟨value, now + ttl⟩ others :=
  latest_self h hfew (Nat.le_refl _) rfl

end Holds

end Serving.Cache.Memory
