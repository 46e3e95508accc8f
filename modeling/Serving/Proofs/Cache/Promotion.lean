import Serving.Proofs.Cache.Partitions
import Serving.Proofs.Cache.Presence
import Serving.Proofs.Cache.Staleness
import Serving.Proofs.Memory.Holding

/-! Values that are found at a slow level and copied to a faster one. The copy has the bytes that were found and a full
lifetime. As long as it lives, it answers for its key, and nobody outside is asked any more: it goes only if it is
overwritten or dropped, or if more other keys are used than there is room for. -/

namespace Serving.Cache

open Routine

variable {τ α : Type} {store : Store τ} {timeout : Duration} {type key : String} {P : Memory → Prop} {c : Cache}
  {t : τ} {now : Instant}

/-- What a store that is asked for a key has for it. -/
def Store.told (store : Store τ) (timeout : Duration) (t : τ) (now : Instant) (key : String) : Option Bytes :=
  (store.ask timeout (.get key) t now).1.join

/-! ### A lookup, level by level -/

/-- Something has happened, but at some levels only. -/
structure Within (levels : List Level) (c : Cache) (t : τ) (now : Instant) (c' : Cache) (t' : τ) (now' : Instant) :
    Prop where
  isDistributed : c'.isDistributed = c.isDistributed
  memory : .memory ∉ levels → c'.partitions = c.partitions
  distributed : .distributed ∉ levels → t' = t ∧ now' = now
  time : now ≤ now'

namespace Within

variable {levels levels' : List Level} {c' c'' : Cache} {t' t'' : τ} {now' now'' : Instant}

lemma refl (levels : List Level) : Within levels c t now c t now := ⟨rfl, fun _ => rfl, fun _ => ⟨rfl, rfl⟩, Nat.le_refl _⟩

lemma trans (h : Within levels c t now c' t' now') (h' : Within levels' c' t' now' c'' t'' now'') :
    Within (levels ++ levels') c t now c'' t'' now'' where
  isDistributed := h'.isDistributed.trans h.isDistributed
  memory hm := by
    rw [List.mem_append, not_or] at hm
    exact (h'.memory hm.2).trans (h.memory hm.1)
  distributed hd := by
    rw [List.mem_append, not_or] at hd
    obtain ⟨ht, hn⟩ := h.distributed hd.1
    obtain ⟨ht', hn'⟩ := h'.distributed hd.2
    exact ⟨ht'.trans ht, hn'.trans hn⟩
  time := Nat.le_trans h.time h'.time

lemma given_eq (h : Within levels c t now c' t' now') {level : Level} (hl : level ∉ levels)
    (there : τ → Instant → String → Option Bytes) (time : Instant) :
    given there c' t' time type key level = given there c t time type key level := by
  cases level with
  | memory => rw [given, given, h.memory hl]
  | distributed => rw [given, given, h.isDistributed, (h.distributed hl).1]

end Within

lemma ends_readLevel_within {post : α → Cache → τ → Instant → Prop} {level : Level}
    {next : Option Bytes → Cache → Instant → Operation α} (hP : Memory.Survives P key) (h : Has type P c)
    (hnext : ∀ c' t' now', Within [level] c t now c' t' now' → Has type P c' →
      Ends (store.ask timeout) (next (given (store.told timeout) c t now type key level) c' now') t' now' post) :
    Ends (store.ask timeout) (c.readLevel now type key level next) t now post := by
  cases level with
  | memory =>
    simp only [readLevel]
    cases hp : c.partitions.find? type with
    | none =>
      have hread := hnext c t now (.refl _) h
      rwa [given, hp, Option.bind_none] at hread
    | some p =>
      have hread := hnext { c with partitions := c.partitions.insert type (p.get now key).2 } t now ?_ ?_
      · rwa [given, hp, Option.bind_some] at hread
      · exact ⟨rfl, fun hm => absurd List.mem_cons_self hm, fun _ => ⟨rfl, rfl⟩, Nat.le_refl _⟩
      · exact h.insert fun _ => hP.get now (h.of_find? hp)
  | distributed =>
    rw [readLevel]
    split
    · rename_i hd
      rw [ends_ask]
      have hread := hnext _ (store.ask timeout (.get key) t now).2.1 (store.ask timeout (.get key) t now).2.2 ?_
        (h.charge (store.ask timeout (.get key) t now).1)
      · rwa [given, if_pos hd] at hread
      · exact ⟨charge_isDistributed .., fun _ => charge_partitions .., fun hm => absurd List.mem_cons_self hm,
          store.le_ask ..⟩
    · rename_i hd
      have hread := hnext c t now (.refl _) h
      rwa [given, if_neg hd] at hread

/-- A lookup reads one level after the other in vain up to the first one that has something which it can decode, and
writes this to the levels before. -/
lemma ends_lookup_cases {decode : Bytes → Option α} {ttl : Duration}
    {post : Except Error (Option α) → Cache → τ → Instant → Prop} (faster levels : List Level)
    (hP : Memory.Survives P key) (h : Has type P c)
    (hmissed : ∀ c' t' now', Within levels c t now c' t' now' →
      post (.ok none) { c' with misses := c'.misses + 1 } t' now')
    (hfound : ∀ front level back bytes v c₁ t₁ now₁ c₂ t₂ now₂, levels = front ++ level :: back →
      Within front c t now c₁ t₁ now₁ → given (store.told timeout) c₁ t₁ now₁ type key level = some bytes →
      decode bytes = some v → Within [level] c₁ t₁ now₁ c₂ t₂ now₂ → Has type P c₂ →
      Ends (store.ask timeout) (writeLevels type key bytes ttl
        (fun c _ => .done (.ok (some v)) (c.countHit level)) (faster ++ front) c₂ now₂) t₂ now₂ post) :
    Ends (store.ask timeout) (lookup decode type key ttl faster levels c now) t now post := by
  induction levels generalizing faster c t now with
  | nil => exact hmissed c t now (.refl _)
  | cons level rest ih =>
    refine ends_readLevel_within hP h fun c' t' now' hw h' => ?_
    have hrest : Ends (store.ask timeout) (lookup decode type key ttl (faster ++ [level]) rest c' now') t' now' post := by
      refine ih _ h' (fun c'' t'' now'' hw' => hmissed c'' t'' now'' (hw.trans hw')) ?_
      intro front level' back bytes v c₁ t₁ now₁ c₂ t₂ now₂ hl hw' hg hv hr h₂
      rw [List.append_assoc]
      exact hfound (level :: front) level' back bytes v c₁ t₁ now₁ c₂ t₂ now₂ (congrArg (level :: ·) hl) (hw.trans hw')
        hg hv hr h₂
    cases hg : given (store.told timeout) c t now type key level with
    | none => exact hrest
    | some bytes =>
      cases hv : decode bytes with
      | none => simpa only [hv] using hrest
      | some v =>
        have hhere := hfound [] level rest bytes v c t now c' t' now' rfl (.refl _) hg hv hw h'
        rw [List.append_nil] at hhere
        simpa only [hv] using hhere

/-- Of two levels at most one comes before another one. -/
lemma front_cases {front back : List Level} {level : Level} (hn : (front ++ level :: back).Nodup) :
    front = [] ∨ front = [.memory] ∧ level = .distributed ∧ back = [] ∨
      front = [.distributed] ∧ level = .memory ∧ back = [] := by
  rcases front with _ | ⟨first, _ | ⟨second, front⟩⟩
  · exact .inl rfl
  · right
    rcases back with _ | ⟨last, back⟩
    · cases first <;> cases level <;> simp at hn ⊢
    · cases first <;> cases level <;> cases last <;> simp at hn
  · cases first <;> cases second <;> cases level <;> simp at hn

structure Memory.Proper (room : Nat) (m : Memory) : Prop where
  keys : m.keys.Nodup
  room : m.capacity = room

lemma Memory.survives_proper (room : Nat) (key : String) : Memory.Survives (Memory.Proper room) key where
  get {m} now h := ⟨nodup_get h.keys now key, (m.get_capacity now key).trans h.room⟩
  set now value ttl h := ⟨nodup_set h.keys now key value ttl, h.room⟩

/-- What is written to a partition is held there, as long as there is room for the others. -/
lemma Has.written {room : Nat} {others : Finset String} (h : Has type (Memory.Proper room) c) (hfew : others.card < room)
    (bytes : Bytes) (ttl : Duration) :
    Has type (Memory.Holds · key ⟨bytes, now + ttl⟩ others)
      { c with partitions := c.partitions.modify type (·.set now key bytes ttl) } := by
  obtain ⟨p, hp, hproper⟩ := h
  refine ⟨p.set now key bytes ttl, ?_, .set_self hproper.keys (hproper.room ▸ hfew)⟩
  rw [Table.find?_modify, if_pos rfl, hp, Option.map_some]

lemma countHit_partitions (c : Cache) (level : Level) : (c.countHit level).partitions = c.partitions := by
  cases level <;> rfl

/-- How bytes were found at a level of which others lie in front and behind. -/
structure FoundAt (store : Store τ) (timeout : Duration) (type key : String) (ttl : Duration) (bytes : Bytes)
    (front : List Level) (level : Level) (back : List Level) (c : Cache) (t : τ) (now : Instant) (c' : Cache) (t' : τ)
    (now' : Instant) : Prop where
  source : ∃ time, now ≤ time ∧ time ≤ now' ∧ (level = .distributed → time = now) ∧
    given (store.told timeout) c t time type key level = some bytes
  copied : .memory ∈ front → ∃ p, c'.partitions.find? type = some p ∧ p.find? key = some ⟨bytes, now' + ttl⟩
  memory : .memory ∈ back → c'.partitions = c.partitions
  distributed : .distributed ∈ back → t' = t

/-- A lookup through different levels that gives a value found it at one of them, and what it copied to a partition is
held there. -/
lemma ends_lookup_found {decode : Bytes → Option α} {ttl : Duration} {room : Nat} (levels : List Level)
    (hn : levels.Nodup) (hroom : 1 ≤ room) (h : Has type (Memory.Proper room) c) :
    Ends (store.ask timeout) (lookup decode type key ttl [] levels c now) t now fun answer c' t' now' =>
      ∀ v, answer = .ok (some v) → ∃ front level back bytes, levels = front ++ level :: back ∧ decode bytes = some v ∧
        FoundAt store timeout type key ttl bytes front level back c t now c' t' now' ∧
        (.memory ∈ front → ∀ others : Finset String, others.card < room →
          Has type (Memory.Holds · key ⟨bytes, now' + ttl⟩ others) c') := by
  refine ends_lookup_cases [] levels (Memory.survives_proper room key) h ?_ ?_
  · rintro c' t' now' - v ⟨⟩
  intro front level back bytes v c₁ t₁ now₁ c₂ t₂ now₂ hl hw hg hv hr h₂
  rw [hl] at hn
  have hnot : level ∉ front ∧ level ∉ back := by
    have hmiddle := (List.nodup_middle.1 hn).notMem
    rwa [List.mem_append, not_or] at hmiddle
  rw [hw.given_eq hnot.1] at hg
  have htime : level = .distributed → now₁ = now := by
    rintro rfl
    exact (hw.distributed hnot.1).2
  rw [List.nil_append]
  rcases front_cases hn with rfl | ⟨rfl, rfl, rfl⟩ | ⟨rfl, rfl, rfl⟩
  · rw [writeLevels, ends_done]
    rintro _ ⟨⟩
    have hnobody : Level.memory ∉ [] := List.not_mem_nil
    refine ⟨[], level, back, bytes, hl, hv,
      ⟨⟨now₁, hw.time, hr.time, htime, hg⟩, fun hm => absurd hm hnobody, fun hm => ?_, fun hd => ?_⟩,
      fun hm => absurd hm hnobody⟩
    · rw [countHit_partitions, hr.memory, hw.memory List.not_mem_nil]
      rintro hm'
      exact hnot.2 (List.mem_singleton.1 hm' ▸ hm)
    · rw [(hr.distributed fun hd' => hnot.2 (List.mem_singleton.1 hd' ▸ hd)).1, (hw.distributed List.not_mem_nil).1]
  · rw [writeLevels, writeLevels, ends_done]
    rintro _ ⟨⟩
    refine ⟨[.memory], .distributed, [], bytes, hl, hv,
      ⟨⟨now₁, hw.time, hr.time, htime, hg⟩, fun _ => ?_, fun hm => absurd hm List.not_mem_nil,
        fun hd => absurd hd List.not_mem_nil⟩,
      fun _ others hfew => (h₂.written hfew bytes ttl).congr (countHit_partitions ..)⟩
    have hnobody : (∅ : Finset String).card < room := hroom
    obtain ⟨p, hp, hholds⟩ := h₂.written hnobody bytes ttl
    exact ⟨p, hp, hholds.find?⟩
  · have hlevels : Level.memory ∉ [Level.distributed] := by decide
    have hend (c' : Cache) (t' : τ) (now' : Instant) (hlater : now₁ ≤ now') :
        FoundAt store timeout type key ttl bytes [.distributed] .memory [] c t now c' t' now' :=
      ⟨⟨now₁, hw.time, hlater, htime, hg⟩, fun hm => absurd hm hlevels, fun hm => absurd hm List.not_mem_nil,
        fun hd => absurd hd List.not_mem_nil⟩
    rw [writeLevels]
    split
    · refine ends_ask.2 (ends_done.2 ?_)
      rintro _ ⟨⟩
      exact ⟨[.distributed], .memory, [], bytes, hl, hv, hend _ _ _ (Nat.le_trans hr.time (store.le_ask ..)),
        fun hm => absurd hm hlevels⟩
    · rw [writeLevels, ends_done]
      rintro _ ⟨⟩
      exact ⟨[.distributed], .memory, [], bytes, hl, hv, hend _ _ _ hr.time, fun hm => absurd hm hlevels⟩

/-! ### What leaves an entry alone -/

namespace Request

def sought? : Request → Option (String × String)
  | .get _ type params | .compute _ type params _ => some (type, Key.derive type params)
  | _ => none

def reads (bytes : Bytes) : Request → Bool
  | .get decode _ _ => (decode bytes).isSome
  | .compute encoding _ _ _ => (encoding.decode bytes).isSome
  | _ => false

def isFound : (r : Request) → r.Answer → Bool
  | .get _ _ _, answer => (answer.toOption.getD none).isSome
  | .compute _ _ _ _, answer => answer.outcome.toOption.any (·.isHit)
  | _, _ => false

def drops (c : Cache) (type key : String) : Request → Bool
  | .invalidate other params => other = type && Key.derive other params = key
  | .invalidateTags tags => type ∈ c.tagged tags
  | .clear => true
  | _ => false

end Request

/-- The key that a request writes in the partition of a type, or finds there. -/
def used? (c : Cache) (now : Instant) (type : String) (r : Request) (answer : r.Answer) : Option String :=
  match r.write? now answer, r.sought? with
  | some w, _ => if w.type = type then some w.key else none
  | none, some (other, key) =>
    let isThere := (c.partitions.find? type).any fun p => (p.get now key).1.isSome
    if other = type ∧ (isThere || r.isFound answer) then some key else none
  | none, none => none

/-- Whether a request puts other bytes under a key of a type, or none. A lookup does if it cannot decode the bytes that
are there and finds others at a slower level. -/
def replaces (c : Cache) (now : Instant) (type key : String) (bytes : Bytes) (r : Request) (answer : r.Answer) : Bool :=
  ((r.write? now answer).any fun w => w.type = type && w.key = key) ||
    (r.sought? = some (type, key) && !r.reads bytes && r.isFound answer) || r.drops c type key

/-- A request does not replace the bytes under a key, and it uses no keys but those that are allowed for. -/
structure Harmless (c : Cache) (now : Instant) (type key : String) (bytes : Bytes) (others : Finset String) (r : Request)
    (answer : r.Answer) : Prop where
  replaces : c.replaces now type key bytes r answer = false
  uses : ∀ other ∈ c.used? now type r answer, other = key ∨ other ∈ others

instance {bytes : Bytes} {others : Finset String} {r : Request} {answer : r.Answer} :
    Decidable (c.Harmless now type key bytes others r answer) :=
  decidable_of_iff (c.replaces now type key bytes r answer = false ∧
    ∀ other ∈ c.used? now type r answer, other = key ∨ other ∈ others) ⟨fun h => ⟨h.1, h.2⟩, fun h => ⟨h.1, h.2⟩⟩

section Requests

variable {e : Entry} {others : Finset String} {cfg : TypeConfig} {rest : List Level} {p : Memory} {params : Params}

lemma sought_of_write {r : Request} {answer : r.Answer} {w : Write} (hw : r.write? now answer = some w)
    (hs : r.sought? = some (type, key)) : w.type = type ∧ w.key = key := by
  cases r with
  | get => cases hw
  | compute encoding other params computation =>
    obtain ⟨rfl, rfl⟩ := Prod.mk.inj (Option.some.inj hs)
    simp only [Request.write?] at hw
    split at hw
    · obtain ⟨bytes, -, rfl⟩ := Option.map_eq_some_iff.1 hw
      exact ⟨rfl, rfl⟩
    · cases hw
  | set | exists? | invalidate | invalidateTags | clear | sweep | statistics | status | wait => cases hs

namespace Harmless

variable {bytes : Bytes} {r : Request} {answer : r.Answer} (h : c.Harmless now type key bytes others r answer)

include h

lemma drops : r.drops c type key = false := (Bool.or_eq_false_iff.1 h.replaces).2

lemma writes {w : Write} (hw : r.write? now answer = some w) (ho : w.type = type) :
    w.key ∈ others ∧ w.key ≠ key := by
  have hne : w.key ≠ key := by
    intro hk
    have hkept := h.replaces
    simp [Cache.replaces, hw, ho, hk] at hkept
  have hused : c.used? now type r answer = some w.key := by simp [used?, hw, ho]
  exact ⟨(h.uses w.key hused).resolve_left hne, hne⟩

/-- A harmless lookup of the key itself, or of one that is not allowed for. -/
lemma looks {k : String} (hs : r.sought? = some (type, k)) (hk : ¬(k ∈ others ∧ k ≠ key))
    (hp : c.partitions.find? type = some p) :
    r.write? now answer = none ∧ (k ≠ key → (p.get now k).1 = none) ∧
      (r.isFound answer = true → k = key ∧ r.reads bytes = true) := by
  have hw : r.write? now answer = none := by
    by_contra hw
    obtain ⟨w, hw⟩ := Option.ne_none_iff_exists'.1 hw
    obtain ⟨ho, rfl⟩ := sought_of_write hw hs
    exact hk (h.writes hw ho)
  have hused (hthere : ((p.get now k).1.isSome || r.isFound answer) = true) : k = key := by
    by_contra hne
    refine hk ⟨(h.uses k ?_).resolve_left hne, hne⟩
    simp only [used?, hw, hs, hp, Option.any_some, hthere, and_self, if_true]
    rfl
  refine ⟨hw, fun hne => ?_, fun hfound => ?_⟩
  · by_contra hthere
    have hsome : (p.get now k).1.isSome = true := Option.isSome_iff_ne_none.2 hthere
    exact hne (hused (by rw [hsome, Bool.true_or]))
  · obtain rfl := hused (by rw [hfound, Bool.or_true])
    refine ⟨rfl, ?_⟩
    by_contra hread
    have hkept := h.replaces
    simp [Cache.replaces, hw, hs, hfound, hread] at hkept

end Harmless

/-- Unless a lookup finds something at a slower level, it leaves a partition that it does not read. -/
lemma ends_lookup_rest {decode : Bytes → Option α} {ttl : Duration} (faster : List Level) (hrest : .memory ∉ rest)
    (hp : (c.partitions.find? type).isSome = true) :
    Ends (store.ask timeout) (lookup decode type key ttl faster rest c now) t now fun answer c' _ _ =>
      (∃ v, answer = .ok (some v)) ∨ c'.partitions = c.partitions := by
  obtain ⟨p, hp⟩ := Option.isSome_iff_exists.1 hp
  have hP : Memory.Survives (fun _ => True) key := ⟨fun _ _ => trivial, fun _ _ _ _ => trivial⟩
  refine ends_lookup_cases faster rest hP ⟨p, hp, trivial⟩ (fun c' t' now' hw => .inr (hw.memory hrest)) ?_
  intro _ _ _ _ v _ _ _ _ _ _ _ _ _ _ _ _
  exact ends_writeLevels_any _ fun _ _ _ => .inl ⟨v, rfl⟩

lemma ends_get_holds {decode : Bytes → Option α} (ht : c.typeConfig type = .ok cfg) (hl : cfg.levels = .memory :: rest)
    (hrest : .memory ∉ rest) (hp : c.partitions.find? type = some p) (h : p.Holds key e others)
    (hlive : now ≤ e.expires) :
    Ends (store.ask timeout) (c.get now decode type params) t now fun answer c' _ _ =>
      (Key.derive type params ≠ key → (p.get now (Key.derive type params)).1 = none) →
      (∀ v, answer = .ok (some v) → Key.derive type params = key ∧ (decode e.value).isSome = true) →
        Has type (Memory.Holds · key e others) c' := by
  by_cases hmiss : Key.derive type params ≠ key → (p.get now (Key.derive type params)).1 = none
  swap
  · exact fun hmiss' => absurd hmiss' hmiss
  suffices hends : Ends (store.ask timeout) (c.get now decode type params) t now fun answer c' _ _ =>
      (∀ v, answer = .ok (some v) → Key.derive type params = key ∧ (decode e.value).isSome = true) →
        Has type (Memory.Holds · key e others) c' from hends.mono fun _ _ _ _ h _ => h
  have hread : (p.get now (Key.derive type params)).2.Holds key e others := by
    by_cases hk : Key.derive type params = key
    · rw [hk]
      exact (h.get_self hlive).2
    · refine h.get_other hk fun hfound => ?_
      rw [hmiss hk] at hfound
      cases hfound
  have hfind : (c.partitions.insert type (p.get now (Key.derive type params)).2).find? type =
      some (p.get now (Key.derive type params)).2 := by
    rw [Table.find?_insert, if_pos rfl]
  have hhas : Has type (Memory.Holds · key e others)
      { c with partitions := c.partitions.insert type (p.get now (Key.derive type params)).2 } := ⟨_, hfind, hread⟩
  -- what is found behind the memory level is ruled out
  have hlater (hno : Key.derive type params = key → (decode e.value).isSome = true → False) :
      Ends (store.ask timeout) (lookup decode type (Key.derive type params) cfg.ttl [.memory] rest
        { c with partitions := c.partitions.insert type (p.get now (Key.derive type params)).2 } now) t now
        fun answer c' _ _ => (∀ v, answer = .ok (some v) → Key.derive type params = key ∧ (decode e.value).isSome = true) →
          Has type (Memory.Holds · key e others) c' := by
    refine (ends_lookup_rest [.memory] hrest (Option.isSome_iff_exists.2 ⟨_, hfind⟩)).mono ?_
    rintro answer c' _ _ (⟨v, rfl⟩ | hsame) hallowed
    · obtain ⟨hk, hd⟩ := hallowed v rfl
      exact (hno hk hd).elim
    · exact hhas.congr hsame
  simp only [get, ht, hl, lookup, readLevel, hp, List.nil_append]
  cases hv : (p.get now (Key.derive type params)).1 with
  | none =>
    refine hlater fun hk _ => ?_
    rw [hk, (h.get_self hlive).1] at hv
    cases hv
  | some bytes =>
    have hk : Key.derive type params = key := by
      by_contra hk
      rw [hmiss hk] at hv
      cases hv
    obtain rfl : e.value = bytes := by
      rw [hk, (h.get_self hlive).1] at hv
      exact Option.some.inj hv
    cases hd : decode e.value with
    | none =>
      simp only [hd]
      refine (hlater fun _ hsome => ?_).mono fun _ _ _ _ hpost hallowed => hpost fun v hv =>
        absurd (hallowed v hv).2 Bool.false_ne_true
      rw [hd] at hsome
      cases hsome
    | some v =>
      simp only [hd]
      exact fun _ => hhas.congr rfl

lemma ends_set_or {value : Except String Bytes} :
    Ends (store.ask timeout) (c.set now type params value) t now fun answer c' _ _ =>
      (∃ bytes, value = .ok bytes ∧ answer = .ok ()) ∨ c'.partitions = c.partitions := by
  rw [set]
  split
  · exact .inr rfl
  · split
    · exact .inr rfl
    · rename_i bytes
      exact ends_writeLevels_any _ fun _ _ _ => .inl ⟨bytes, rfl, rfl⟩

lemma survives_holds (hk : Key.derive type params ∈ others) (hne : Key.derive type params ≠ key) :
    Memory.Survives (Memory.Holds · key e others) (Key.derive type params) where
  get _ h := h.get_other hne fun _ => hk
  set _ _ _ h := h.set_other hk hne

/-- To be allowed for, or not to be about the type at all, is enough. -/
lemma of_survives {Q : Prop} {other : String}
    (hQ : (other = type → Memory.Survives (Memory.Holds · key e others) (Key.derive other params)) → Q)
    (hown : other = type → ¬(Key.derive other params ∈ others ∧ Key.derive other params ≠ key) → Q) : Q := by
  by_cases h : other = type → Key.derive other params ∈ others ∧ Key.derive other params ≠ key
  · exact hQ fun ho => survives_holds (h ho).1 (h ho).2
  · obtain ⟨ho, hk⟩ := Classical.not_imp.1 h
    exact hown ho hk

/-- A harmless request leaves an entry of the memory level alone that has not expired. -/
theorem ends_perform_holds (ht : c.typeConfig type = .ok cfg) (hl : cfg.levels = .memory :: rest)
    (hrest : .memory ∉ rest) (h : Has type (Memory.Holds · key e others) c) (hlive : now ≤ e.expires) (r : Request) :
    Ends (store.ask timeout) (c.perform now r) t now fun answer c' _ _ =>
      c.Harmless now type key e.value others r answer → Has type (Memory.Holds · key e others) c' := by
  have hrespected (hr : r.Respects (Memory.Holds · key e others) type c now) :
      Ends (store.ask timeout) (c.perform now r) t now fun answer c' _ _ =>
        c.Harmless now type key e.value others r answer → Has type (Memory.Holds · key e others) c' :=
    (ends_perform_has r hr h).mono fun _ _ _ _ h _ => h
  obtain ⟨p, hp, hh⟩ := h
  cases r with
  | get decode other params =>
    refine of_survives hrespected fun ho hk => ?_
    subst ho
    refine (ends_get_holds ht hl hrest hp hh hlive).mono ?_
    rintro answer c' _ _ hholds hharmless
    obtain ⟨-, hmiss, hfound⟩ := hharmless.looks rfl hk hp
    refine hholds hmiss fun v hv => hfound ?_
    rw [hv]
    rfl
  | set other params value =>
    refine of_survives hrespected fun ho hk => ends_set_or.mono ?_
    subst ho
    rintro answer c' _ _ (⟨bytes, rfl, rfl⟩ | hsame) hharmless
    · exact absurd (hharmless.writes rfl rfl) hk
    · exact Has.congr ⟨p, hp, hh⟩ hsame
  | compute encoding other params computation =>
    refine of_survives hrespected fun ho hk => ?_
    subst ho
    refine ends_andThen.2 ((ends_get_holds ht hl hrest hp hh hlive).mono ?_)
    rintro looked c₁ t₁ now₁ hholds
    cases looked with
    | error e => exact fun hharmless => hholds (hharmless.looks rfl hk hp).2.1 nofun
    | ok found =>
      cases found with
      | some v =>
        intro hharmless
        obtain ⟨-, hmiss, hfound⟩ := hharmless.looks rfl hk hp
        exact hholds hmiss fun _ _ => hfound rfl
      | none =>
        dsimp only
        cases computation () with
        | error e => exact fun hharmless => hholds (hharmless.looks rfl hk hp).2.1 nofun
        | ok v =>
          refine ends_map.2 (ends_set_or.mono ?_)
          rintro answer c₂ _ _ (⟨bytes, hbytes, -⟩ | hleft) hharmless
          · have hwrite : (encoding.encode v).toOption.map (Write.mk other params · now) = none :=
              (hharmless.looks rfl hk hp).1
            rw [hbytes] at hwrite
            cases hwrite
          · exact (hholds (hharmless.looks rfl hk hp).2.1 nofun).congr hleft
  | exists? | statistics | status | wait => exact hrespected trivial
  | invalidate other params =>
    by_cases hk : other = type ∧ Key.derive other params = key
    · intro hharmless
      have hdrops : (decide (other = type) && decide (Key.derive other params = key)) = false := hharmless.drops
      rw [decide_eq_true hk.1, decide_eq_true hk.2] at hdrops
      cases hdrops
    · exact hrespected fun ho m hm => hm.delete fun hk' => hk ⟨ho, hk'⟩
  | invalidateTags tags =>
    by_cases hm : type ∈ c.tagged tags
    · exact fun hharmless => absurd hm (of_decide_eq_false hharmless.drops)
    · exact hrespected fun hm' => absurd hm' hm
  | clear => exact fun hharmless => nomatch hharmless.drops
  | sweep => exact hrespected fun m hm => hm.sweep hlive

end Requests

namespace History

/-- Whatever a list of requests comes to, one of them after the other is harmless. -/
def Undisturbed (store : Store τ) (type key : String) (bytes : Bytes) (others : Finset String) :
    History τ → List Request → Prop
  | _, [] => True
  | s, r :: rest =>
    s.cache.Harmless s.now type key bytes others r (s.answer store r) ∧
      Undisturbed store type key bytes others (s.step store r) rest

instance decidableUndisturbed (store : Store τ) (type key : String) (bytes : Bytes) (others : Finset String) :
    (s : History τ) → (requests : List Request) → Decidable (s.Undisturbed store type key bytes others requests)
  | _, [] => .isTrue trivial
  | s, r :: rest =>
    have := decidableUndisturbed store type key bytes others (s.step store r) rest
    inferInstanceAs (Decidable (_ ∧ _))

variable {s : History τ} {e : Entry} {others : Finset String} {config : Config} {isDistributed : Bool}
  {cfg : TypeConfig} {rest : List Level}

lemma le_step (store : Store τ) (s : History τ) (r : Request) : s.now ≤ (s.step store r).now :=
  Nat.le_trans (le_run store _ _ _ _) (Nat.le_add_right _ _)

lemma le_after (store : Store τ) (s : History τ) (requests : List Request) : s.now ≤ (s.after store requests).now := by
  rw [History.after]
  induction requests generalizing s with
  | nil => exact Nat.le_refl _
  | cons r rest ih => exact Nat.le_trans (s.le_step store r) (ih _)

lemma housed_step (h : Housed config isDistributed s.cache) (r : Request) :
    Housed config isDistributed (s.step store r).cache :=
  (tidy_perform (lasting_housed config isDistributed) h s.now r).ends

lemma typeConfig_of_housed {c : Cache} (h : Housed config isDistributed c) (hk : config.types.find? type = some cfg) :
    c.typeConfig type = .ok cfg := by
  rw [typeConfig, h.settings, hk]

/-- An entry of the memory level stays as long as it lives and nobody disturbs it. -/
lemma holds_after (hk : config.types.find? type = some cfg) (hl : cfg.levels = .memory :: rest) (hrest : .memory ∉ rest)
    (requests : List Request) (hc : Housed config isDistributed s.cache)
    (h : Has type (Memory.Holds · key e others) s.cache) (hu : s.Undisturbed store type key e.value others requests)
    (hlive : (s.after store requests).now ≤ e.expires) :
    Housed config isDistributed (s.after store requests).cache ∧
      Has type (Memory.Holds · key e others) (s.after store requests).cache := by
  rw [History.after] at hlive ⊢
  induction requests generalizing s with
  | nil => exact ⟨hc, h⟩
  | cons r rest ih =>
    obtain ⟨hr, hu⟩ := hu
    have hnow : s.now ≤ e.expires := Nat.le_trans (s.le_after store (r :: rest)) hlive
    have hstep : Has type (Memory.Holds · key e others) (s.step store r).cache :=
      ends_perform_holds (typeConfig_of_housed hc hk) hl hrest h hnow r hr
    exact ih (housed_step hc r) hstep hu hlive

/-- The memory level answers for an entry that it holds, and nobody else is asked. -/
lemma ends_get_held {decode : Bytes → Option α} {params : Params} {v : α} (ht : c.typeConfig type = .ok cfg)
    (hl : cfg.levels = .memory :: rest) (h : Has type (Memory.Holds · (Key.derive type params) e others) c)
    (hlive : now ≤ e.expires) (hv : decode e.value = some v) :
    Ends (store.ask timeout) (c.get now decode type params) t now fun answer _ t' now' =>
      answer = .ok (some v) ∧ t' = t ∧ now' = now := by
  obtain ⟨p, hp, hh⟩ := h
  simp only [get, ht, hl, lookup, readLevel, hp, (hh.get_self hlive).1, hv]
  exact ⟨rfl, rfl, rfl⟩

lemma respects_proper (room : Nat) (r : Request) (c : Cache) (now : Instant) :
    r.Respects (Memory.Proper room) type c now := by
  have hclear (m : Memory) (hm : m.Proper room) : m.clear.Proper room := ⟨List.nodup_nil, hm.room⟩
  cases r with
  | get | set | compute => exact fun _ => Memory.survives_proper room _
  | invalidate => exact fun _ m hm => ⟨hm.keys.sublist (List.filter_sublist.map _), hm.room⟩
  | invalidateTags => exact fun _ => hclear
  | clear => exact hclear
  | sweep => exact fun m hm => ⟨hm.keys.sublist (List.filter_sublist.map _), hm.room⟩
  | exists? | statistics | status | wait => trivial

lemma proper_run (store : Store τ) (hk : config.types.find? type = some cfg) (isDistributed : Bool) (t : τ)
    (requests : List Request) :
    Housed config isDistributed (run store config isDistributed t requests).cache ∧
      Has type (Memory.Proper (max (config.capacityOf cfg) 1)) (run store config isDistributed t requests).cache := by
  have hstart : Has type (Memory.Proper (max (config.capacityOf cfg) 1)) (start config isDistributed t).cache := by
    refine ⟨.new (config.capacityOf cfg), ?_, List.nodup_nil, rfl⟩
    rw [start, Cache.new, Table.find?_map, hk, Option.map_some]
  have hhoused : Housed config isDistributed (start config isDistributed t).cache := housed_new config isDistributed
  rw [run, History.after]
  generalize start config isDistributed t = s at hstart hhoused ⊢
  induction requests generalizing s with
  | nil => exact ⟨hhoused, hstart⟩
  | cons r rest ih =>
    have hstep : Has type (Memory.Proper (max (config.capacityOf cfg) 1)) (s.step store r).cache :=
      ends_perform_has r (respects_proper _ r s.cache s.now) hstart
    exact ih _ hstep (housed_step hhoused r)

/-- When a lookup finds a value at some level, the memory level, if it is in front, holds the bytes from which the value
was decoded, with a full lifetime, and the levels behind are not touched. And if the memory level is the first one and
the value came from behind it, then up to the end of that lifetime the value is found there without a call, whatever the
outside store would have to say: as long as the key is not overwritten or dropped, and there is room for the other keys
that are used. -/
theorem promoted_values_stay (hconfig : config.problems = []) (hk : config.types.find? type = some cfg)
    (store : Store τ) (isDistributed : Bool) (t : τ) (before : List Request) {decode : Bytes → Option α} (params : Params)
    {v : α} :
    let s := run store.recorded config isDistributed (t, []) before
    let s' := s.step store.recorded (.get decode type params)
    let key := Key.derive type params
    s.answer store.recorded (.get decode type params) = .ok (some v) →
    ∃ front level back bytes, cfg.levels = front ++ level :: back ∧ decode bytes = some v ∧
      FoundAt store.recorded config.remote.operationTimeout type key cfg.ttl bytes front level back s.cache s.store s.now
        s'.cache s'.store s'.now ∧
      (front.head? = some .memory → ∀ (others : Finset String) (requests : List Request),
        others.card < max (config.capacityOf cfg) 1 → s'.Undisturbed store.recorded type key bytes others requests →
        let s'' := s'.after store.recorded requests
        s''.now ≤ s'.now + cfg.ttl → s''.answer store.recorded (.get decode type params) = .ok (some v) ∧
          (s''.step store.recorded (.get decode type params)).store = s''.store) := by
  intro s s' key hanswer
  obtain ⟨hc, hproper⟩ : Housed config isDistributed s.cache ∧ _ := proper_run store.recorded hk isDistributed (t, []) before
  have hnodup := nodup_of_problems hconfig hk
  have hplay : s.play store.recorded (.get decode type params) =
      (lookup decode type key cfg.ttl [] cfg.levels s.cache s.now).run
        (store.recorded.ask config.remote.operationTimeout) s.store s.now := by
    rw [play, Cache.run, perform, get, typeConfig_of_housed hc hk, hc.settings]
  have hlookup : Ends (store.recorded.ask config.remote.operationTimeout)
      (lookup decode type key cfg.ttl [] cfg.levels s.cache s.now) s.store s.now _ :=
    ends_lookup_found cfg.levels hnodup (Nat.le_max_right _ _) hproper
  rw [Ends, ← hplay] at hlookup
  obtain ⟨front, level, back, bytes, hl, hv, hat, hheld⟩ := hlookup v hanswer
  refine ⟨front, level, back, bytes, hl, hv, hat, ?_⟩
  intro hfront others requests hfew hu s'' hlive
  obtain ⟨rest, rfl⟩ : ∃ rest, front = .memory :: rest := by
    cases front with
    | nil => cases hfront
    | cons first rest => exact ⟨rest, by rw [Option.some.inj hfront]⟩
  have hrest : Level.memory ∉ rest ++ level :: back := by
    rw [hl, List.cons_append] at hnodup
    exact (List.nodup_cons.1 hnodup).1
  have hholds := hheld List.mem_cons_self others hfew
  obtain ⟨hc'', hlast⟩ := holds_after hk hl hrest requests (housed_step hc _) hholds hu hlive
  obtain ⟨hsame, hstore, -⟩ := ends_get_held (typeConfig_of_housed hc'' hk) hl hlast hlive hv
  exact ⟨hsame, hstore⟩

/-- A store that has the same text under all keys, and later another one. Nobody else can write there. -/
def changing (first later : String) : Store Unit where
  accept _ t := t
  delay _ _ := some 0
  perform c t now :=
    match c with
    | .get _ => (.ok (some (if now = 0 then first else later).toUTF8), t)
    | _ => (.error .unavailable, t)

def number (bytes : Bytes) : Option Int :=
  match Encoding.json.decode bytes with
  | some (.int n) => some n
  | _ => none

def text (bytes : Bytes) : Option String :=
  match Encoding.json.decode bytes with
  | some (.str s) => some s
  | _ => none

def double : Config :=
  { types := .ofList [("a", { ttl := 10, capacity := some 2, levels := [.memory, .distributed] })] }

/-- Another key is written, and somebody takes the value for a text, which it is at no level. -/
def commotion : List Request :=
  [.wait 3, .write 2 9, .get text "a" [("k", .ofNat 1)], .sweep, .wait 7]

/-- The value is found to the end of its lifetime, although the store has changed its mind. -/
theorem promoted_values_stay_amid_commotion :
    let store := (changing "7" "8").recorded
    let s := run store double true ((), []) []
    let s' := s.step store (.get number "a" [("k", .ofNat 1)])
    let s'' := s'.after store commotion
    s.answer store (.get number "a" [("k", .ofNat 1)]) = .ok (some 7) ∧ s''.now = 10 ∧
      s''.answer store (.get number "a" [("k", .ofNat 1)]) = .ok (some 7) ∧
      (s''.step store (.get number "a" [("k", .ofNat 1)])).store = s''.store ∧ s''.store.2.length = 3 := by
  intro store s s' s''
  have hanswer : s.answer store (.get number "a" [("k", .ofNat 1)]) = .ok (some 7) := by decide +kernel
  obtain ⟨front, level, back, bytes, hl, hv, hat, hstay⟩ := promoted_values_stay (by decide : double.problems = [])
    (rfl : double.types.find? "a" = some _) (changing "7" "8") true () [] [("k", .ofNat 1)] hanswer
  obtain ⟨time, -, -, htime, hgiven⟩ := hat.source
  have hnodup : (front ++ level :: back).Nodup := by
    rw [← hl]
    decide
  rcases front_cases hnodup with rfl | ⟨rfl, rfl, rfl⟩ | ⟨rfl, rfl, rfl⟩
  · obtain rfl : .memory = level := (List.cons.inj hl).1
    cases hgiven
  · obtain rfl := htime rfl
    obtain rfl : "7".toUTF8 = bytes := Option.some.inj hgiven
    have hundisturbed : s'.Undisturbed store "a" (Key.derive "a" [("k", .ofNat 1)]) "7".toUTF8
        {Key.derive "a" [("k", .ofNat 2)]} commotion := by
      decide +kernel
    have hlast : s''.now = 10 ∧ s''.store.2.length = 3 := by decide +kernel
    obtain ⟨hfound, hstore⟩ := hstay rfl _ commotion (by decide) hundisturbed (Nat.le_of_eq hlast.1)
    exact ⟨hanswer, hlast.1, hfound, hstore, hlast.2⟩
  · cases hl

theorem promoted_value_overwritten :
    let store := changing "7" "\"x\""
    let s := run store .tight true () []
    let s'' := s.after store [.get number "a" [("k", .ofNat 1)], .wait 1, .get text "a" [("k", .ofNat 1)]]
    Config.tight.problems = [] ∧ s.answer store (.get number "a" [("k", .ofNat 1)]) = .ok (some 7) ∧ s''.now = 1 ∧
      s''.answer store (.get number "a" [("k", .ofNat 1)]) = .ok none := by
  decide +kernel

end History

end Serving.Cache
