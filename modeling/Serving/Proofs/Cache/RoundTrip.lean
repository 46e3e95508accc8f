import Serving.Proofs.Cache.Contents
import Serving.Proofs.Cache.Sharing
import Serving.Proofs.Json.Nesting

/-! A value that has been set is found at once, at each level of its type by itself and so by a lookup through all of
them, whatever the levels held before. What is found are the bytes, and from these the value is decoded again. -/

namespace Serving.Cache

open Routine

namespace Memory

/-- No matter what has to go for an entry, it is not the entry itself. -/
lemma get_set {m : Memory} (h : 1 ≤ m.capacity) (now : Instant) (key : String) (value : Bytes) (ttl : Duration) :
    ((m.set now key value ttl).get now key).1 = some value := by
  have hothers (n : Nat) : ((m.others key).drop n).lookup key = none := by
    refine List.lookup_eq_none_iff.2 fun x hx => ?_
    simpa [bne_comm] using (mem_others.1 (List.mem_of_mem_drop hx)).2.symm
  have hfind : (m.set now key value ttl).find? key = some ⟨value, now + ttl⟩ := by
    have hexcess : (m.others key ++ [(key, (⟨value, now + ttl⟩ : Entry))]).length - m.capacity ≤
        (m.others key).length := by
      rw [List.length_append, List.length_singleton]
      omega
    rw [find?, set, List.drop_append_of_le_length hexcess, List.lookup_append, hothers, Option.none_or]
    simp
  exact get_of_live hfind (decide_eq_false (Nat.not_lt_of_le (Nat.le_add_right _ _)))

end Memory

variable {τ α : Type}

/-- A store that answers every call at once, as long as it is in order, and gives back what it has just been given. -/
structure Store.Recalls (store : Store τ) (inOrder : τ → Prop) : Prop where
  prompt : store.Prompt
  accept : ∀ {t} c, inOrder t → inOrder (store.accept c t)
  perform : ∀ {t} c now, inOrder t → inOrder (store.perform c t now).2
  answers : ∀ {t} c now, inOrder t → ∃ reply, (store.perform c t now).1 = .ok reply
  recalls : ∀ {t key value ttl now}, inOrder t → 0 < ttl →
    (store.perform (.get key) (store.accept (.get key) (store.perform (.set key value ttl) t now).2) now).1 =
      .ok (some value)

lemma Memory.answer_capacity (m : Memory) (now : Instant) (c : Call) : (m.answer now c).2.capacity = m.capacity := by
  cases c with
  | get key => exact m.get_capacity now key
  | deleteMatching pattern => exact congrArg (·.capacity) (m.deleteMatching_eq pattern)
  | set | delete | has | clear | stats | health => rfl

lemma Store.recalls_ofMemory : Store.ofMemory.Recalls fun m => 1 ≤ m.capacity where
  prompt := prompt_ofMemory
  accept _ h := h
  perform {m} c now h := (m.answer_capacity now c).symm ▸ h
  answers _ _ _ := ⟨_, rfl⟩
  recalls h _ := congrArg Except.ok (Memory.get_set h ..)

/-! ### Levels -/

section Levels

variable {store : Store τ} {inOrder : τ → Prop} {timeout : Duration} {config : Config} {isDistributed : Bool} {c : Cache}
  {t : τ} {now : Instant} {type key : String} {bytes : Bytes} {cfg : TypeConfig}

/-- Bytes are found under a key at a level of a type. -/
def Shows (store : Store τ) (now : Instant) (type key : String) (bytes : Bytes) (c : Cache) (t : τ) : Level → Prop
  | .memory => ∃ p, c.partitions.find? type = some p ∧ (p.get now key).1 = some bytes
  | .distributed => c.isDistributed = true ∧
    (store.perform (.get key) (store.accept (.get key) t) now).1 = .ok (some bytes)

/-- A level that is there: the memory level always is. -/
def AtHand (isDistributed : Bool) (level : Level) : Prop := level = .memory ∨ isDistributed = true

instance (level : Level) : Decidable (AtHand isDistributed level) := inferInstanceAs (Decidable (_ ∨ _))

lemma Store.Recalls.ask (hs : store.Recalls inOrder) (ht : inOrder t) (timeout : Duration) (call : Call) (now : Instant) :
    ∃ reply, (store.perform call (store.accept call t) now).1 = .ok reply ∧
      store.ask timeout call t now = (some reply, (store.perform call (store.accept call t) now).2, now) := by
  obtain ⟨reply, hreply⟩ := hs.answers call now (hs.accept call ht)
  refine ⟨reply, hreply, ?_⟩
  rw [hs.prompt.ask, hreply]
  rfl

/-- A write at a level shows there, and changes nothing at the other one. -/
lemma ends_writeLevel {post : α → Cache → τ → Instant → Prop} {ttl : Duration}
    {next : Cache → Instant → Operation α} {written : List Level} (level : Level) (rest : List Level)
    (hs : store.Recalls inOrder) (hk : config.types.find? type = some cfg) (httl : 0 < ttl)
    (hc : Housed config isDistributed c) (ht : inOrder t)
    (hw : ∀ ℓ ∈ written, AtHand isDistributed ℓ → Shows store now type key bytes c t ℓ)
    (hnext : ∀ c t, Housed config isDistributed c → inOrder t →
      (∀ ℓ ∈ level :: written, AtHand isDistributed ℓ → Shows store now type key bytes c t ℓ) →
        Ends (store.ask timeout) (writeLevels type key bytes ttl next rest c now) t now post) :
    Ends (store.ask timeout) (writeLevels type key bytes ttl next (level :: rest) c now) t now post := by
  cases level with
  | memory =>
    refine hnext _ _ (hc.keep (.modify c type fun _ => rfl)) ht fun ℓ hℓ hh => ?_
    cases ℓ with
    | memory =>
      obtain ⟨p, hp, hpos⟩ := hc.partition hk
      refine ⟨p.set now key bytes ttl, ?_, Memory.get_set hpos ..⟩
      rw [Table.find?_modify, if_pos rfl, hp, Option.map_some]
    | distributed => exact hw _ ((List.mem_cons.1 hℓ).resolve_left (by decide)) hh
  | distributed =>
    rw [writeLevels]
    split
    · rename_i hd
      obtain ⟨reply, _, hask⟩ := hs.ask ht timeout (.set key bytes ttl) now
      refine ends_ask.2 ?_
      rw [hask]
      refine hnext _ _ (hc.keep (.of_partitions rfl rfl rfl)) (hs.perform _ _ (hs.accept _ ht)) fun ℓ hℓ hh => ?_
      cases ℓ with
      | memory => exact hw _ ((List.mem_cons.1 hℓ).resolve_left (by decide)) hh
      | distributed => exact ⟨hd, hs.recalls (hs.accept _ ht) httl⟩
    · rename_i hd
      refine hnext _ _ hc ht fun ℓ hℓ hh => ?_
      cases ℓ with
      | memory => exact hw _ ((List.mem_cons.1 hℓ).resolve_left (by decide)) hh
      | distributed => exact absurd (hc.outside.trans (hh.resolve_left (by decide))) hd

lemma ends_writeLevels_shown {post : α → Cache → τ → Instant → Prop} {ttl : Duration}
    {next : Cache → Instant → Operation α} (levels written : List Level) (hs : store.Recalls inOrder)
    (hk : config.types.find? type = some cfg) (httl : 0 < ttl) (hc : Housed config isDistributed c) (ht : inOrder t)
    (hw : ∀ ℓ ∈ written, AtHand isDistributed ℓ → Shows store now type key bytes c t ℓ)
    (hnext : ∀ c t, Housed config isDistributed c → inOrder t →
      (∀ ℓ ∈ levels.reverse ++ written, AtHand isDistributed ℓ → Shows store now type key bytes c t ℓ) →
        Ends (store.ask timeout) (next c now) t now post) :
    Ends (store.ask timeout) (writeLevels type key bytes ttl next levels c now) t now post := by
  induction levels generalizing c t written with
  | nil => exact hnext c t hc ht hw
  | cons level rest ih =>
    refine ends_writeLevel level rest hs hk httl hc ht hw fun c t hc ht hw => ?_
    refine ih (level :: written) hc ht hw fun c t hc ht hw => hnext c t hc ht ?_
    rwa [List.reverse_cons, List.append_assoc]

/-- A lookup through levels at which the bytes show finds what the bytes mean, if one of the levels is at hand. -/
lemma ends_lookup_shown {decode : Bytes → Option α} {v : α} {ttl : Duration} (faster levels : List Level)
    (hs : store.Recalls inOrder) (hk : config.types.find? type = some cfg) (httl : 0 < ttl)
    (hv : decode bytes = some v) (hc : Housed config isDistributed c) (ht : inOrder t)
    (hw : ∀ ℓ ∈ levels, AtHand isDistributed ℓ → Shows store now type key bytes c t ℓ) :
    Ends (store.ask timeout) (lookup decode type key ttl faster levels c now) t now fun answer _ _ _ =>
      answer = .ok (if ∃ ℓ ∈ levels, AtHand isDistributed ℓ then some v else none) := by
  induction levels generalizing faster with
  | nil => rfl
  | cons level rest ih =>
    have hfound (c : Cache) (t : τ) (hc : Housed config isDistributed c) (ht : inOrder t)
        (hh : AtHand isDistributed level) :
        Ends (store.ask timeout)
          (writeLevels type key bytes ttl (fun c _ => .done (.ok (some v)) (c.countHit level)) faster c now) t now
          fun (answer : Except Error (Option α)) _ _ _ =>
            answer = .ok (if ∃ ℓ ∈ level :: rest, AtHand isDistributed ℓ then some v else none) := by
      refine ends_writeLevels_shown faster [] hs hk httl hc ht (List.forall_mem_nil _) fun c t _ _ _ => ?_
      rw [ends_done, if_pos ⟨level, List.mem_cons_self, hh⟩]
    cases level with
    | memory =>
      have hh : AtHand isDistributed .memory := .inl rfl
      obtain ⟨p, hp, hget⟩ := hw .memory List.mem_cons_self hh
      rw [lookup, readLevel, hp]
      simp only [hget, hv]
      exact hfound _ _ (hc.keep (.insert hp (p.get_capacity now key))) ht hh
    | distributed =>
      rw [lookup, readLevel]
      split
      · rename_i hd
        have hh : AtHand isDistributed .distributed := .inr (hc.outside.symm.trans hd)
        obtain ⟨_, hget⟩ := hw .distributed List.mem_cons_self hh
        obtain ⟨reply, hreply, hask⟩ := hs.ask ht timeout (.get key) now
        obtain rfl := Except.ok.inj (hreply.symm.trans hget)
        rw [ends_ask, hask]
        simp only [Option.join_some, hv]
        exact hfound _ _ (hc.keep (.of_partitions rfl rfl rfl)) (hs.perform _ _ (hs.accept _ ht)) hh
      · rename_i hd
        have hnot : ¬AtHand isDistributed .distributed := by
          rintro (h | h)
          · cases h
          · exact hd (hc.outside.trans h)
        have hrest := ih (faster ++ [.distributed]) fun ℓ hℓ hh => hw ℓ (List.mem_cons_of_mem _ hℓ) hh
        refine hrest.mono fun answer _ _ _ ha => ?_
        simp only [ha, List.exists_mem_cons_iff, hnot, false_or]

end Levels

/-- The bytes of a value with whole numbers are decoded to its canonical form, if it is nested less deep than the
parser goes. -/
lemma decode_encode {v : Json} (h : v.Whole) (hn : v.nesting < Json.depthLimit) :
    ∃ bytes, Encoding.json.encode v = .ok bytes ∧ Encoding.json.decode bytes = some (Json.canonical v) := by
  refine ⟨_, rfl, ?_⟩
  simp only [Encoding.json, Encoding.ofJson, id, Json.fromUTF8_toUTF8, Option.bind_some, Json.parse_compact h hn]

namespace Sharing

variable {store : Store τ} {inOrder : τ → Prop} {config : Config} {type : String} {cfg : TypeConfig}

lemma ttl_pos (h : config.problems = []) (hk : config.types.find? type = some cfg) : 0 < cfg.ttl := by
  have hmem := Table.mem_of_find? hk
  by_contra hzero
  have hproblem : Problem.noTtl type ∈ config.problems := by
    refine List.mem_append_right _ (List.mem_flatMap.2 ⟨(type, cfg), hmem, ?_⟩)
    simp [TypeConfig.problems, Nat.eq_zero_of_not_pos hzero]
  rw [h] at hproblem
  cases hproblem

/-- Strings with a quote, a backslash, a line break, a control character and a letter beyond ASCII. -/
def nested : Json :=
  .obj [("list", .arr [.int (-1), .null, .bool true]), ("text", .str "\"\\\n\x01ü")]

/-- The partition has room for one entry, which is of another key, and a read of the key waits for the store. -/
def crowd : List Move :=
  [.begins (.write 2 2) 0, .told 0 (fun call => match call with | .set _ _ _ => some () | _ => none) 1,
    .begins (.read 1) 2]

/-- A type that has its values in the outside store alone. -/
def distant : Config := { types := .ofList [("a", { ttl := 10, levels := [.distributed] })] }

end Sharing

end Serving.Cache
