import Mathlib.Data.Finset.Card
import Serving.Proofs.Memory.History

/-! What a store finds, told from its past alone. An entry is what the last set of its key brought, as long as nothing
took it away since; and it is still there as long as there is room for every key that was used after it. The order of
the entries is carried by a relation on keys: whoever lies behind an entry is one of its rivals. -/

namespace Serving.Cache.Memory

namespace Moment

/-- The key that an operation makes the latest: one that is set, or that is read and found. -/
def used? (x : Moment) : Option String :=
  match x.operation with
  | .call (.set key _ _) => some key
  | .call (.get key) => if (x.memory.get x.now key).1.isSome then some key else none
  | _ => none

/-- What the key held is overwritten or taken away. -/
def Replaces (key : String) (x : Moment) : Prop :=
  match x.operation with
  | .call (.set other _ _) => other = key
  | .call (.delete other) => other = key
  | .call .clear => True
  | .call (.deleteMatching pattern) => fits pattern key = true
  | _ => False

/-- The key is given a value that is found up to an instant. -/
def Stores (key : String) (value : Bytes) (expires : Instant) (x : Moment) : Prop :=
  ∃ ttl, x.operation = .call (.set key value ttl) ∧ expires = x.now + ttl

end Moment

/-- The last set of a key brought this value, and nothing has replaced it since. -/
def Kept (past : List Moment) (key : String) (value : Bytes) (expires : Instant) : Prop :=
  ∃ before x after, past = before ++ x :: after ∧ x.Stores key value expires ∧ ∀ y ∈ after, ¬y.Replaces key

/-- The other keys that were used since a key was used itself. -/
def rivals (key : String) (past : List Moment) : Finset String :=
  past.foldl (fun others x =>
    match x.used? with
    | none => others
    | some other => if other = key then ∅ else insert other others) ∅

section Past

variable {past : List Moment} {x : Moment} {key : String} {value : Bytes} {expires : Instant}

lemma Moment.Stores.replaces (h : x.Stores key value expires) : x.Replaces key := by
  obtain ⟨ttl, ho, _⟩ := h
  simp [Moment.Replaces, ho]

lemma kept_concat :
    Kept (past ++ [x]) key value expires ↔
      x.Stores key value expires ∨ Kept past key value expires ∧ ¬x.Replaces key := by
  constructor
  · rintro ⟨before, y, after, heq, hstores, hafter⟩
    rcases List.eq_nil_or_concat after with rfl | ⟨after, z, rfl⟩
    · obtain ⟨_, hlast⟩ := List.append_inj' heq rfl
      obtain rfl := (List.cons.inj hlast).1
      exact .inl hstores
    · have heq : past ++ [x] = (before ++ y :: after) ++ [z] := by simpa using heq
      obtain ⟨hpast, hlast⟩ := List.append_inj' heq rfl
      obtain rfl := (List.cons.inj hlast).1
      exact .inr ⟨⟨before, y, after, hpast, hstores, fun w hw => hafter w (by simp [hw])⟩, hafter x (by simp)⟩
  · rintro (hstores | ⟨⟨before, y, after, rfl, hstores, hafter⟩, hx⟩)
    · exact ⟨past, x, [], rfl, hstores, fun y hy => nomatch hy⟩
    · refine ⟨before, y, after ++ [x], by simp, hstores, ?_⟩
      intro z hz
      rcases List.mem_append.1 hz with hz | hz
      · exact hafter z hz
      · rwa [List.mem_singleton.1 hz]

lemma Kept.unique {value' : Bytes} {expires' : Instant} (h : Kept past key value expires)
    (h' : Kept past key value' expires') : value = value' ∧ expires = expires' := by
  induction past using List.reverseRecOn with
  | nil =>
    obtain ⟨before, x, after, heq, _⟩ := h
    cases before <;> cases heq
  | append_singleton past x ih =>
    rcases kept_concat.1 h with hstores | ⟨h, hx⟩ <;> rcases kept_concat.1 h' with hstores' | ⟨h', hx'⟩
    · obtain ⟨ttl, ho, rfl⟩ := hstores
      obtain ⟨ttl', ho', rfl⟩ := hstores'
      rw [ho] at ho'
      cases ho'
      exact ⟨rfl, rfl⟩
    · exact absurd hstores.replaces hx'
    · exact absurd hstores'.replaces hx
    · exact ih h h'

lemma rivals_concat (key : String) (past : List Moment) (x : Moment) :
    rivals key (past ++ [x]) =
      match x.used? with
      | none => rivals key past
      | some other => if other = key then ∅ else insert other (rivals key past) := by
  rw [rivals, List.foldl_append]
  rfl

lemma rivals_unused (hx : x.used? = none) : rivals key (past ++ [x]) = rivals key past := by
  rw [rivals_concat, hx]

lemma rivals_used_other {other : String} (hx : x.used? = some other) (hne : other ≠ key) :
    rivals key (past ++ [x]) = insert other (rivals key past) := by
  rw [rivals_concat, hx]
  exact if_neg hne

end Past

/-- In a list whose members have distinct keys, with the later keys among the rivals of the earlier ones, a member
with few rivals is among the last. -/
lemma mem_drop_of_few {entries : List (String × Entry)} {y : String × Entry} {c : Nat} (rivals : String → Finset String)
    (hkeys : (entries.map (·.1)).Nodup) (horder : entries.Pairwise fun y z => z.1 ∈ rivals y.1) (hy : y ∈ entries)
    (hfew : (rivals y.1).card < c) : y ∈ entries.drop (entries.length - c) := by
  obtain ⟨front, back, rfl⟩ := List.append_of_mem hy
  have hback : back.length < c := by
    have hlast : back.Sublist (front ++ y :: back) :=
      (List.sublist_cons_self y back).trans (List.sublist_append_right front _)
    have hnodup : (back.map (·.1)).Nodup := hkeys.sublist (hlast.map _)
    have hsub : (back.map (·.1)).toFinset ⊆ rivals y.1 := by
      intro key hkey
      obtain ⟨z, hz, rfl⟩ := List.mem_map.1 (List.mem_toFinset.1 hkey)
      exact List.rel_of_pairwise_cons (List.pairwise_append.1 horder).2.1 hz
    have hcard := Finset.card_le_card hsub
    rw [List.toFinset_card_of_nodup hnodup, List.length_map] at hcard
    omega
  have hfront : (front ++ y :: back).length - c ≤ front.length := by
    rw [List.length_append, List.length_cons]
    omega
  rw [List.drop_append_of_le_length hfront]
  simp

namespace History

/-- What the entries of a store with room for `c` have to do with its past. -/
structure Retains (c : Nat) (s : History) (past : List Moment) : Prop where
  capacity : s.memory.capacity = c
  keys : s.memory.keys.Nodup
  room : s.memory.size ≤ c
  kept : ∀ key e, (key, e) ∈ s.memory.entries → Kept past key e.value e.expires
  order : s.memory.entries.Pairwise fun y z => z.1 ∈ rivals y.1 past
  found : ∀ key value expires, Kept past key value expires → s.now ≤ expires → (rivals key past).card < c →
    (key, ⟨value, expires⟩) ∈ s.memory.entries

namespace Retains

variable {c : Nat} {s t : History} {past : List Moment} {o : Operation} {key : String} {e : Entry}

lemma start (h : 1 ≤ c) : Retains c (start c) [] where
  capacity := Nat.max_eq_left h
  keys := List.nodup_nil
  room := Nat.zero_le _
  kept _ _ hy := nomatch hy
  order := .nil
  found key value expires hkept := by
    obtain ⟨before, x, after, heq, _⟩ := hkept
    cases before <;> cases heq

/-- No key is used, and what goes is either replaced or expired. -/
lemma filter (h : Retains c s past) (keep : String × Entry → Bool) (hused : (s.moment o).used? = none)
    (hstores : ∀ key value expires, ¬(s.moment o).Stores key value expires)
    (hentries : t.memory.entries = s.memory.entries.filter keep) (hcapacity : t.memory.capacity = s.memory.capacity)
    (hnow : s.now ≤ t.now) (hkeep : ∀ y, keep y = true → ¬(s.moment o).Replaces y.1)
    (hgone : ∀ y, keep y = false → (s.moment o).Replaces y.1 ∨ y.2.expires < s.now) :
    Retains c t (past ++ [s.moment o]) where
  capacity := hcapacity.trans h.capacity
  keys := by
    rw [Memory.keys, hentries]
    exact h.keys.sublist (List.filter_sublist.map _)
  room := by
    rw [size, hentries]
    exact Nat.le_trans (List.length_filter_le ..) h.room
  kept key e hy := by
    rw [hentries] at hy
    obtain ⟨hy, hk⟩ := List.mem_filter.1 hy
    exact kept_concat.2 (.inr ⟨h.kept key e hy, hkeep _ hk⟩)
  order := by
    rw [hentries]
    simp only [rivals_unused hused]
    exact h.order.sublist List.filter_sublist
  found key value expires hkept hlive hfew := by
    rw [rivals_unused hused] at hfew
    obtain ⟨hkept, hx⟩ := (kept_concat.1 hkept).resolve_left (hstores key value expires)
    have hmem := h.found key value expires hkept (Nat.le_trans hnow hlive) hfew
    rw [hentries]
    refine List.mem_filter.2 ⟨hmem, ?_⟩
    by_contra hk
    rcases hgone _ (Bool.eq_false_of_not_eq_true hk) with hreplaced | hexpired
    · exact hx hreplaced
    · exact absurd (Nat.le_trans hnow hlive) (Nat.not_le_of_lt hexpired)

/-- A key is used: its entry is taken out or new, and lies behind all others from now on. -/
lemma use (h : Retains c s past) (key : String) (e : Entry) (hused : (s.moment o).used? = some key)
    (hkept : Kept (past ++ [s.moment o]) key e.value e.expires)
    (hothers : ∀ other, other ≠ key → ∀ value expires,
      Kept (past ++ [s.moment o]) other value expires ↔ Kept past other value expires)
    (hentries : t.memory.entries =
      (s.memory.others key ++ [(key, e)]).drop ((s.memory.others key ++ [(key, e)]).length - c))
    (hcapacity : t.memory.capacity = s.memory.capacity) (hnow : t.now = s.now) :
    Retains c t (past ++ [s.moment o]) := by
  have hkeys := nodup_latest h.keys key e
  have horder : (s.memory.others key ++ [(key, e)]).Pairwise
      fun y z => z.1 ∈ rivals y.1 (past ++ [s.moment o]) := by
    refine List.pairwise_append.2 ⟨?_, List.pairwise_singleton _ _, ?_⟩
    · refine (h.order.sublist List.filter_sublist).imp_of_mem ?_
      intro y z hy _ hyz
      rw [rivals_used_other hused (mem_others.1 hy).2.symm]
      exact Finset.mem_insert_of_mem hyz
    · intro y hy z hz
      rw [List.mem_singleton.1 hz, rivals_used_other hused (mem_others.1 hy).2.symm]
      exact Finset.mem_insert_self _ _
  refine ⟨hcapacity.trans h.capacity, ?_, ?_, ?_, ?_, ?_⟩
  · rw [Memory.keys, hentries]
    exact hkeys.sublist ((List.drop_sublist _ _).map _)
  · rw [size, hentries, List.length_drop]
    omega
  · intro other e' hy
    rw [hentries] at hy
    rcases List.mem_append.1 (List.mem_of_mem_drop hy) with hy | hy
    · obtain ⟨hy, hne⟩ := mem_others.1 hy
      exact (hothers other hne _ _).2 (h.kept other e' hy)
    · obtain ⟨rfl, rfl⟩ := Prod.mk.inj (List.mem_singleton.1 hy)
      exact hkept
  · rw [hentries]
    exact horder.sublist (List.drop_sublist _ _)
  · intro other value expires hlast hlive hfew
    rw [hentries]
    refine mem_drop_of_few (rivals · (past ++ [s.moment o])) hkeys horder (List.mem_append.2 ?_) hfew
    by_cases hne : other = key
    · subst hne
      obtain ⟨rfl, rfl⟩ := hlast.unique hkept
      exact .inr (List.mem_singleton_self _)
    · left
      rw [rivals_used_other hused (Ne.symm hne)] at hfew
      have hfew' := Nat.lt_of_le_of_lt (Finset.card_le_card (Finset.subset_insert _ _)) hfew
      exact mem_others.2 ⟨h.found other value expires ((hothers other hne _ _).1 hlast) (hnow ▸ hlive) hfew', hne⟩

/-- An operation that only looks, or lets time pass. -/
lemma idle (h : Retains c s past) (hused : (s.moment o).used? = none)
    (hreplaces : ∀ key, ¬(s.moment o).Replaces key) (hmemory : t.memory.entries = s.memory.entries)
    (hcapacity : t.memory.capacity = s.memory.capacity) (hnow : s.now ≤ t.now) :
    Retains c t (past ++ [s.moment o]) := by
  refine h.filter (fun _ => true) hused (fun key _ _ hstores => hreplaces key hstores.replaces) ?_ hcapacity hnow
    (fun y _ => hreplaces y.1) (fun y hy => nomatch hy)
  rw [hmemory, List.filter_true]

lemma get (h : Retains c s past) (key : String) :
    Retains c (s.step (.call (.get key))) (past ++ [s.moment (.call (.get key))]) := by
  have hreplaces : ∀ other, ¬(s.moment (.call (.get key))).Replaces other := fun _ => id
  have hstores : ∀ other value expires, ¬(s.moment (.call (.get key))).Stores other value expires :=
    fun other _ _ hs => hreplaces other hs.replaces
  have hstep : (s.step (.call (.get key))).memory = (s.memory.get s.now key).2 := rfl
  cases hf : s.memory.find? key with
  | none =>
    refine h.idle ?_ hreplaces ?_ ?_ (Nat.le_refl _)
    · simp [moment, Moment.used?, get_none s.now hf]
    · rw [hstep, get_none s.now hf]
    · rw [hstep, get_none s.now hf]
  | some e =>
    cases he : e.isExpired s.now with
    | true =>
      -- The rule by which the entry goes names its key, so that nothing else is asked about the others.
      refine h.filter (fun y => y.1 != key || !y.2.isExpired s.now) ?_ hstores ?_ ?_ (Nat.le_refl _)
        (fun y _ => hreplaces y.1) ?_
      · simp [moment, Moment.used?, get_expired hf he]
      · rw [hstep, get_expired hf he]
        refine List.filter_congr ?_
        intro y hy
        by_cases hkey : y.1 = key
        · have hye : y.2 = e := by
            have hfound : s.memory.find? key = some y.2 := find?_of_mem h.keys (by rwa [← hkey])
            exact Option.some.inj (hfound.symm.trans hf)
          simp [hkey, hye, he]
        · simp [hkey]
      · rw [hstep, get_expired hf he]
      · intro y hy
        obtain ⟨_, hexpired⟩ := Bool.or_eq_false_iff.1 hy
        exact .inr (by simpa [Entry.isExpired] using hexpired)
    | false =>
      refine h.use key e ?_ ?_ ?_ ?_ ?_ rfl
      · simp [moment, Moment.used?, get_live hf he]
      · exact kept_concat.2 (.inr ⟨h.kept key e (mem_of_find? hf), hreplaces key⟩)
      · intro other _ value expires
        rw [kept_concat]
        exact ⟨fun hk => (hk.resolve_left (hstores other value expires)).1, fun hk => .inr ⟨hk, hreplaces other⟩⟩
      · have hone := length_others h.keys hf
        have hroom := h.room
        have hexcess : (s.memory.others key ++ [(key, e)]).length - c = 0 := by
          rw [List.length_append, List.length_singleton]
          omega
        rw [hstep, get_live hf he, hexcess]
        rfl
      · rw [hstep, get_live hf he]

lemma set (h : Retains c s past) (key : String) (value : Bytes) (ttl : Duration) :
    Retains c (s.step (.call (.set key value ttl))) (past ++ [s.moment (.call (.set key value ttl))]) := by
  refine h.use key ⟨value, s.now + ttl⟩ rfl ?_ ?_ ?_ rfl rfl
  · exact kept_concat.2 (.inl ⟨ttl, rfl, rfl⟩)
  · intro other hne value' expires
    rw [kept_concat]
    constructor
    · rintro (⟨ttl', ho, _⟩ | ⟨hk, _⟩)
      · cases ho
        exact absurd rfl hne
      · exact hk
    · intro hk
      exact .inr ⟨hk, fun heq => hne heq.symm⟩
  · rw [← h.capacity]
    rfl

theorem step (h : Retains c s past) (o : Operation) : Retains c (s.step o) (past ++ [s.moment o]) := by
  cases o with
  | call call =>
    cases call with
    | get key => exact h.get key
    | set key value ttl => exact h.set key value ttl
    | delete key =>
      refine h.filter (·.1 != key) rfl (fun _ _ _ ⟨_, ho, _⟩ => nomatch ho) rfl rfl (Nat.le_refl _) ?_ ?_
      · intro y hy heq
        exact bne_iff_ne.1 hy heq.symm
      · intro y hy
        exact .inl (bne_eq_false_iff_eq.1 hy).symm
    | clear =>
      exact h.filter (fun _ => false) rfl (fun _ _ _ ⟨_, ho, _⟩ => nomatch ho) (List.filter_false _).symm rfl
        (Nat.le_refl _) (fun _ hy => nomatch hy) (fun _ _ => .inl trivial)
    | deleteMatching pattern =>
      have hstep : (s.step (.call (.deleteMatching pattern))).memory = _ := deleteMatching_eq s.memory pattern
      refine h.filter (fun y => !fits pattern y.1) rfl (fun _ _ _ ⟨_, ho, _⟩ => nomatch ho) ?_ ?_ (Nat.le_refl _)
        ?_ ?_
      · rw [hstep]
      · rw [hstep]
      · intro y hy hfits
        rw [show fits pattern y.1 = true from hfits] at hy
        cases hy
      · intro y hy
        exact .inl (by simpa using hy : fits pattern y.1 = true)
    | has | stats | health => exact h.idle rfl (fun _ => id) rfl rfl (Nat.le_refl _)
  | sweep =>
    refine h.filter (fun y => !y.2.isExpired s.now) rfl (fun _ _ _ ⟨_, ho, _⟩ => nomatch ho) rfl rfl (Nat.le_refl _)
      (fun _ _ => id) ?_
    intro y hy
    exact .inr (by simpa [Entry.isExpired] using hy)
  | timePasses d => exact h.idle rfl (fun _ => id) rfl rfl (Nat.le_add_right _ _)

theorem run (h : 1 ≤ c) (operations : List Operation) : Retains c (run c operations) (History.past c operations) :=
  run_induction (start h) (fun _ _ o h => h.step o) operations

end Retains

/-- After every run a read gives bytes only if the last set of the key brought them, its time has not run out and
nothing took the key away since. And if that is so and fewer other keys were used since than the store has room for,
the read does give them. -/
theorem found_iff_kept {c : Nat} (h : 1 ≤ c) (operations : List Operation) (key : String) (value : Bytes) :
    let s := run c operations
    let past := past c operations
    ((s.memory.get s.now key).1 = some value → ∃ expires, Kept past key value expires ∧ s.now ≤ expires) ∧
      ∀ expires, Kept past key value expires → s.now ≤ expires → (rivals key past).card < c →
        (s.memory.get s.now key).1 = some value := by
  intro s past
  have hr : Retains c s past := .run h operations
  constructor
  · intro hget
    obtain ⟨e, hmem, rfl, he⟩ := exists_of_get hget
    exact ⟨e.expires, hr.kept key e hmem, Nat.le_of_not_lt (of_decide_eq_false he)⟩
  · intro expires hkept hlive hfew
    have hf := find?_of_mem hr.keys (hr.found key value expires hkept hlive hfew)
    exact get_of_live hf (decide_eq_false (Nat.not_lt_of_le hlive))

def crowded : List Operation :=
  [.call (.set "a" ⟨#[1]⟩ 5), .call (.set "b" ⟨#[2]⟩ 5), .call (.get "a"), .timePasses 5]

/-- At the last instant of its time, and with one other key used since, the second entry is found in a store with room
for two. One more key, and there are as many rivals as places. -/
theorem found_iff_kept_of_two :
    1 ≤ 2 ∧ (run 2 crowded).now = 5 ∧ Kept (past 2 crowded) "b" ⟨#[2]⟩ 5 ∧
      rivals "b" (past 2 crowded) = {"a"} ∧ ((run 2 crowded).memory.get 5 "b").1 = some ⟨#[2]⟩ ∧
      let more := crowded ++ [.call (.set "c" ⟨#[3]⟩ 5)]
      rivals "b" (past 2 more) = {"a", "c"} ∧ ((run 2 more).memory.get 5 "b").1 = none := by
  have hkept : Kept (past 2 crowded) "b" ⟨#[2]⟩ 5 := by
    refine ⟨(past 2 crowded).take 1, (past 2 crowded)[1], (past 2 crowded).drop 2, rfl, ⟨5, rfl, rfl⟩, ?_⟩
    intro x hx
    rcases List.mem_cons.1 hx with rfl | hx
    · exact id
    · rw [List.mem_singleton.1 hx]
      exact id
  have hrivals : rivals "b" (past 2 crowded) = {"a"} := by rfl
  have hfew : (rivals "b" (past 2 crowded)).card < 2 := by rw [hrivals, Finset.card_singleton]; decide
  have hget := (found_iff_kept (by decide : 1 ≤ 2) crowded "b" ⟨#[2]⟩).2 5 hkept (by decide) hfew
  exact ⟨by decide, by rfl, hkept, hrivals, hget, by decide, by rfl⟩

end History

end Serving.Cache.Memory
