import Serving.Proofs.Cache.Overlap

/-! A removal against a read of the same key, where the memory level comes before the outside store. The reader copies
to the memory level what it has got from the store, and in between the removal may have gone over both. Then the copy
stays behind; in no other order of turns does anything stay. -/

namespace Serving.Cache

/-- A store that does all it is told to. -/
structure Store.Reliable {τ : Type} (store : Store τ) (holds : τ → String → Entry → Prop) : Prop
    extends store.Obeys holds fun _ _ => True where
  answers : ∀ call t now, ∃ reply, (store.perform call t now).1 = .ok reply

lemma Store.reliable_ofMemory : Store.ofMemory.Reliable fun m key e => (key, e) ∈ m.entries where
  toObeys := obeys_ofMemory fun _ _ _ => True.intro
  answers _ _ _ := ⟨_, rfl⟩

namespace Overlap

variable {τ α : Type} {config : Config} {cfg : TypeConfig} {holds : τ → String → Entry → Prop} {store : Store τ}
  {decode : Bytes → Option α} {type key : String} {params : Params} {c c' : Cache} {t : τ} {now : Instant} {e : Entry}

def InMemory (c : Cache) (type key : String) (e : Entry) : Prop :=
  ∃ p, c.partitions.find? type = some p ∧ (key, e) ∈ p.entries

/-- An operation leaves only some entries in the memory level under a key. -/
structure Leaves (type key : String) (P : Entry → Prop) (c c' : Cache) : Prop where
  config : c'.config = c.config
  isDistributed : c'.isDistributed = c.isDistributed
  memory : ∀ e, InMemory c' type key e → P e

lemma Leaves.mono {P P' : Entry → Prop} (h : Leaves type key P c c') (hp : ∀ e, P e → P' e) :
    Leaves type key P' c c' :=
  ⟨h.config, h.isDistributed, fun e he => hp e (h.memory e he)⟩

lemma inMemory_modify {f : Memory → Memory}
    (h : InMemory { c with partitions := c.partitions.modify type f } type key e) :
    ∃ p, c.partitions.find? type = some p ∧ (key, e) ∈ (f p).entries := by
  obtain ⟨p', hp', he⟩ := h
  rw [Table.find?_modify, if_pos rfl] at hp'
  obtain ⟨p, hp, rfl⟩ := Option.map_eq_some_iff.1 hp'
  exact ⟨p, hp, he⟩

lemma inMemory_insert {p : Memory} (h : InMemory { c with partitions := c.partitions.insert type p } type key e) :
    (key, e) ∈ p.entries := by
  obtain ⟨p', hp', he⟩ := h
  rw [Table.find?_insert, if_pos rfl] at hp'
  cases hp'
  exact he

/-! ### The operations call by call -/

/-- A reader goes on with the answer of the store: it copies what it finds. -/
def heard (decode : Bytes → Option α) (type key : String) (ttl : Duration) (reply : Option (Option Bytes)) (c : Cache)
    (now : Instant) : Operation (Except Error (Option α)) :=
  let c := c.charge reply
  match reply.join with
  | none => .done (.ok none) { c with misses := c.misses + 1 }
  | some bytes =>
    match decode bytes with
    | none => .done (.ok none) { c with misses := c.misses + 1 }
    | some v =>
      .done (.ok (some v)) (countHit { c with partitions := c.partitions.modify type (·.set now key bytes ttl) }
        .distributed)

def gone (found : Bool) (reply : Option Bool) (c : Cache) (_ : Instant) : Operation (Except Error Bool) :=
  .done (.ok (found || reply.getD false)) (c.charge reply)

lemma lookup_distributed {ttl : Duration} (hd : c.isDistributed = true) :
    lookup decode type key ttl [.memory] [.distributed] c now = .call (.get key) c (heard decode type key ttl) := by
  rw [lookup, readLevel, if_pos hd]
  refine congrArg (Routine.call (Call.get key) c) ?_
  funext reply c now
  rcases reply with _ | _ | bytes
  · rfl
  · rfl
  · cases hv : decode bytes <;> simp only [heard, Option.join_some, hv] <;> rfl

lemma heard_cases (decode : Bytes → Option α) (type key : String) (ttl : Duration) (value : Option Bytes) (c : Cache)
    (now : Instant) :
    (∃ c', heard decode type key ttl (some value) c now = .done (.ok none) c' ∧
        Leaves type key (InMemory c type key) c c') ∨
      ∃ bytes v c', value = some bytes ∧ decode bytes = some v ∧
        heard decode type key ttl (some value) c now = .done (.ok (some v)) c' ∧
          Leaves type key (fun e => e.value = bytes) c c' := by
  cases value with
  | none => exact .inl ⟨_, rfl, rfl, rfl, fun _ => id⟩
  | some bytes =>
    cases hv : decode bytes with
    | none =>
      simp only [heard, Option.join_some, hv]
      exact .inl ⟨_, rfl, rfl, rfl, fun _ => id⟩
    | some v =>
      simp only [heard, Option.join_some, hv]
      refine .inr ⟨bytes, v, _, rfl, hv, rfl, rfl, rfl, fun e he => ?_⟩
      obtain ⟨p, -, he⟩ := inMemory_modify (f := (·.set now key bytes ttl)) he
      rcases Memory.mem_of_mem_set he with he | ⟨-, rfl⟩
      · exact absurd rfl (Memory.mem_others.1 he).2
      · rfl

section Calls

variable (hk : c.config.types.find? type = some cfg) (hl : cfg.levels = [.memory, .distributed])
  (hd : c.isDistributed = true)

include hk hl hd

lemma get_cases (decode : Bytes → Option α) (params : Params) (now : Instant) :
    ∃ c', (c.get now decode type params =
          .call (.get (Key.derive type params)) c' (heard decode type (Key.derive type params) cfg.ttl) ∨
        ∃ v, c.get now decode type params = .done (.ok (some v)) c') ∧
      Leaves type (Key.derive type params) (InMemory c type (Key.derive type params)) c c' := by
  have ht : c.typeConfig type = .ok cfg := by rw [typeConfig, hk]
  rw [get, ht]
  dsimp only
  rw [hl, lookup, readLevel]
  cases hp : c.partitions.find? type with
  | none => exact ⟨c, .inl (lookup_distributed hd), rfl, rfl, fun _ => id⟩
  | some p =>
    have hmemory (e : Entry) (he : InMemory
        { c with partitions := c.partitions.insert type (p.get now (Key.derive type params)).2 } type
        (Key.derive type params) e) : InMemory c type (Key.derive type params) e :=
      ⟨p, hp, Memory.mem_of_mem_get (inMemory_insert he)⟩
    dsimp only
    cases (p.get now (Key.derive type params)).1 with
    | none => exact ⟨_, .inl (lookup_distributed hd), rfl, rfl, hmemory⟩
    | some bytes =>
      dsimp only
      cases decode bytes with
      | none => exact ⟨_, .inl (lookup_distributed hd), rfl, rfl, hmemory⟩
      | some v => exact ⟨_, .inr ⟨v, rfl⟩, rfl, rfl, hmemory⟩

lemma invalidate_eq (params : Params) (now : Instant) :
    ∃ c' found, c.invalidate now type params = .call (.delete (Key.derive type params)) c' (gone found) ∧
      Leaves type (Key.derive type params) (fun _ => False) c c' := by
  have ht : c.typeConfig type = .ok cfg := by rw [typeConfig, hk]
  rw [invalidate, ht]
  dsimp only
  rw [hl]
  simp only [deleteLevels]
  cases hp : c.partitions.find? type with
  | none =>
    refine ⟨c, false, by rw [if_pos hd]; rfl, rfl, rfl, fun e he => ?_⟩
    obtain ⟨p, hp', -⟩ := he
    rw [hp] at hp'
    cases hp'
  | some p =>
    refine ⟨_, (p.delete (Key.derive type params)).1, if_pos hd, rfl, rfl, fun e he => ?_⟩
    exact (Memory.mem_others.1 (inMemory_insert he)).2 rfl

end Calls

namespace History

variable {h : History τ α} {turn : Turn} {move : Move} {x : Side × Turn} {log : List (Side × Turn)} {bytes : Bytes}

lemma step_reader {p : Progress (Except Error (Option α))}
    (ha : h.reader.advance store h.cache h.store h.now turn = some (p, c, t)) :
    h.step store (.turn .reader turn) =
      { h with reader := p, cache := c, store := t, log := h.log ++ [(.reader, turn)] } := by
  rw [step, ha]

lemma step_reader_idle (ha : h.reader.advance store h.cache h.store h.now turn = none) :
    h.step store (.turn .reader turn) = h := by
  rw [step, ha]

lemma step_remover {p : Progress (Except Error Bool)}
    (ha : h.remover.advance store h.cache h.store h.now turn = some (p, c, t)) :
    h.step store (.turn .remover turn) =
      { h with remover := p, cache := c, store := t, log := h.log ++ [(.remover, turn)] } := by
  rw [step, ha]

lemma step_remover_idle (ha : h.remover.advance store h.cache h.store h.now turn = none) :
    h.step store (.turn .remover turn) = h := by
  rw [step, ha]

/-! ### What stays behind -/

/-- The store answered the reader before it removed anything. -/
def Early (log : List (Side × Turn)) : Prop :=
  (.reader, .served) ∈ log ∧ ((.remover, .served) ∈ log → [(.reader, .served), (.remover, .served)].Sublist log)

/-- The reader heard the answer after the removal had been to the memory level. -/
def Late (log : List (Side × Turn)) : Prop := [(.remover, .begins), (.reader, .hears)].Sublist log

lemma pair_sublist_concat {a b : Side × Turn} (ha : a ∈ log) : [a, b].Sublist (log ++ [b]) :=
  (List.singleton_sublist.2 ha).append (.refl [b])

lemma Early.append (he : Early log) (x : Side × Turn) : Early (log ++ [x]) := by
  refine ⟨List.mem_append_left _ he.1, fun hx => ?_⟩
  rcases List.mem_append.1 hx with hx | hx
  · exact (he.2 hx).trans (List.sublist_append_left ..)
  · rw [← List.mem_singleton.1 hx]
    exact pair_sublist_concat he.1

lemma Late.append (hl : Late log) (x : Side × Turn) : Late (log ++ [x]) := hl.trans (List.sublist_append_left ..)

/-- The reader has found bytes early and copied them late. -/
structure Copied (decode : Bytes → Option α) (reader : Progress (Except Error (Option α))) (log : List (Side × Turn))
    (bytes : Bytes) : Prop where
  found : ∃ v, decode bytes = some v ∧ reader = .ended (.ok (some v))
  early : Early log
  late : Late log

inductive Reading (decode : Bytes → Option α) (type : String) (params : Params) (ttl : Duration)
    (reader : Progress (Except Error (Option α))) (log : List (Side × Turn)) : Prop
  | ahead (hp : reader = .ahead fun c now => c.get now decode type params)
  | asks (hp : reader = .asks (.get (Key.derive type params)) (heard decode type (Key.derive type params) ttl))
  | told (value : Option Bytes)
    (hp : reader = .told (.get (Key.derive type params)) (some value) (heard decode type (Key.derive type params) ttl))
    (hearly : value ≠ none → Early log)
  | ended (found : Option α) (hp : reader = .ended (.ok found))

inductive Removing (type : String) (params : Params) (remover : Progress (Except Error Bool))
    (log : List (Side × Turn)) : Prop
  | ahead (hp : remover = .ahead fun c now => c.invalidate now type params)
  | asks (found : Bool) (hp : remover = .asks (.delete (Key.derive type params)) (gone found))
    (hbegun : (.remover, .begins) ∈ log)
  | told (found here : Bool) (hp : remover = .told (.delete (Key.derive type params)) (some here) (gone found))
    (hbegun : (.remover, .begins) ∈ log) (hserved : (.remover, .served) ∈ log)
  | ended (found : Bool) (hp : remover = .ended (.ok found)) (hbegun : (.remover, .begins) ∈ log)
    (hserved : (.remover, .served) ∈ log)

/-- Once the removal has been to a level, nothing lies there under the key but what was copied. -/
structure Known (config : Config) (holds : τ → String → Entry → Prop) (decode : Bytes → Option α) (type : String)
    (params : Params) (ttl : Duration) (h : History τ α) : Prop where
  config : h.cache.config = config
  isDistributed : h.cache.isDistributed = true
  memory : ∀ e, InMemory h.cache type (Key.derive type params) e → (.remover, .begins) ∈ h.log →
    Copied decode h.reader h.log e.value
  outside : ∀ e, holds h.store (Key.derive type params) e → (.remover, .served) ∉ h.log
  reading : Reading decode type params ttl h.reader h.log
  removing : Removing type params h.remover h.log

variable {ttl : Duration} {reader : Progress (Except Error (Option α))} {remover : Progress (Except Error Bool)}

lemma mem_of_mem_concat {a b : Side × Turn} (ha : a ∈ log ++ [b]) (hne : a ≠ b) : a ∈ log :=
  (List.mem_append.1 ha).resolve_right fun hb => hne (List.mem_singleton.1 hb)

lemma Copied.append (hc : Copied decode reader log bytes) (x : Side × Turn) :
    Copied decode reader (log ++ [x]) bytes :=
  ⟨hc.found, hc.early.append x, hc.late.append x⟩

lemma Reading.append (hr : Reading decode type params ttl reader log) (x : Side × Turn) :
    Reading decode type params ttl reader (log ++ [x]) := by
  cases hr with
  | ahead hp => exact .ahead hp
  | asks hp => exact .asks hp
  | told value hp hearly => exact .told value hp fun hv => (hearly hv).append x
  | ended found hp => exact .ended found hp

lemma Removing.append (hr : Removing type params remover log) (x : Side × Turn) :
    Removing type params remover (log ++ [x]) := by
  have hmem {a : Side × Turn} (ha : a ∈ log) : a ∈ log ++ [x] := List.mem_append_left _ ha
  cases hr with
  | ahead hp => exact .ahead hp
  | asks found hp hbegun => exact .asks found hp (hmem hbegun)
  | told found here hp hbegun hserved => exact .told found here hp (hmem hbegun) (hmem hserved)
  | ended found hp hbegun hserved => exact .ended found hp (hmem hbegun) (hmem hserved)

namespace Known

section Turns

variable (hh : Known config holds decode type params ttl h)

include hh

lemma not_begun (hr : h.reader.isOver = false) (he : InMemory h.cache type (Key.derive type params) e) :
    (.remover, .begins) ∉ h.log := by
  intro hb
  obtain ⟨v, -, hp⟩ := (hh.memory e he hb).found
  rw [hp] at hr
  cases hr

/-- After a turn of the reader, entries are right that have come to the memory level since the removal was there. -/
lemma reader_turn
    (hc : Leaves type (Key.derive type params)
      (fun e => (.remover, .begins) ∈ h.log → Copied decode reader (h.log ++ [(.reader, turn)]) e.value) h.cache c)
    (ht : ∀ e, holds t (Key.derive type params) e → holds h.store (Key.derive type params) e)
    (hreading : Reading decode type params ttl reader (h.log ++ [(.reader, turn)])) :
    Known config holds decode type params ttl
      { h with reader, cache := c, store := t, log := h.log ++ [(.reader, turn)] } where
  config := hc.config.trans hh.config
  isDistributed := hc.isDistributed.trans hh.isDistributed
  memory e he hb := hc.memory e he (mem_of_mem_concat hb nofun)
  outside e he hserved := hh.outside e (ht e he) (mem_of_mem_concat hserved nofun)
  reading := hreading
  removing := hh.removing.append _

/-- After a turn of the remover, no entries are right but those that were so before. -/
lemma remover_turn
    (hc : Leaves type (Key.derive type params)
      (fun e => InMemory h.cache type (Key.derive type params) e ∧ (.remover, .begins) ∈ h.log) h.cache c)
    (ht : ∀ e, holds t (Key.derive type params) e → holds h.store (Key.derive type params) e ∧ turn ≠ .served)
    (hremoving : Removing type params remover (h.log ++ [(.remover, turn)])) :
    Known config holds decode type params ttl
      { h with remover, cache := c, store := t, log := h.log ++ [(.remover, turn)] } where
  config := hc.config.trans hh.config
  isDistributed := hc.isDistributed.trans hh.isDistributed
  memory e he _ := by
    obtain ⟨he, hb⟩ := hc.memory e he
    exact (hh.memory e he hb).append _
  outside e he hserved := by
    obtain ⟨he, hne⟩ := ht e he
    exact hh.outside e he (mem_of_mem_concat hserved fun heq => hne (Prod.mk.inj heq).2.symm)
  reading := hh.reading.append _
  removing := hremoving

end Turns

section Steps

variable (hs : store.Reliable holds) (hk : config.types.find? type = some cfg)
  (hl : cfg.levels = [.memory, .distributed]) (hh : Known config holds decode type params cfg.ttl h)

include hs hk hl hh

lemma reader_begins (hp : h.reader = .ahead fun c now => c.get now decode type params) :
    Known config holds decode type params cfg.ttl (h.step store (.turn .reader .begins)) := by
  rw [← hh.config] at hk
  have hwaits : h.reader.isOver = false := by rw [hp]; rfl
  obtain ⟨c', hop | ⟨v, hop⟩, hleaves⟩ := get_cases hk hl hh.isDistributed decode params h.now
  · rw [step_reader (by rw [hp, Progress.advance, hop, follow])]
    refine hh.reader_turn (hleaves.mono fun e he hb => ?_) (fun e he => hs.accept he) (.asks rfl)
    exact absurd hb (hh.not_begun hwaits he)
  · rw [step_reader (by rw [hp, Progress.advance, hop, follow])]
    refine hh.reader_turn (hleaves.mono fun e he hb => ?_) (fun e he => he) (.ended _ rfl)
    exact absurd hb (hh.not_begun hwaits he)

omit hk hl in
lemma reader_served
    (hp : h.reader = .asks (.get (Key.derive type params)) (heard decode type (Key.derive type params) cfg.ttl)) :
    Known config holds decode type params cfg.ttl (h.step store (.turn .reader .served)) := by
  have hwaits : h.reader.isOver = false := by rw [hp]; rfl
  obtain ⟨value, hvalue⟩ := hs.answers (.get (Key.derive type params)) h.store h.now
  rw [step_reader (by rw [hp, Progress.advance_asks, hvalue])]
  refine hh.reader_turn ⟨rfl, rfl, fun e he hb => ?_⟩ (fun e he => ?_) (.told value rfl fun hv => ?_)
  · exact absurd hb (hh.not_begun hwaits he)
  · rcases hs.perform (c := .get (Key.derive type params)) he with he | ⟨_, _, hset, -⟩
    · exact he
    · cases hset
  · -- what has been found was there, so the store had not removed it
    obtain ⟨bytes, rfl⟩ := Option.ne_none_iff_exists'.1 hv
    obtain ⟨e, he, -⟩ := hs.get hvalue
    refine ⟨List.mem_append_right _ List.mem_cons_self, fun hserved => ?_⟩
    exact absurd (mem_of_mem_concat hserved nofun) (hh.outside e he)

omit hs hk hl in
lemma reader_hears {value : Option Bytes}
    (hp : h.reader =
      .told (.get (Key.derive type params)) (some value) (heard decode type (Key.derive type params) cfg.ttl))
    (hearly : value ≠ none → Early h.log) :
    Known config holds decode type params cfg.ttl (h.step store (.turn .reader .hears)) := by
  have hwaits : h.reader.isOver = false := by rw [hp]; rfl
  rcases heard_cases decode type (Key.derive type params) cfg.ttl value h.cache h.now with
    ⟨c', hop, hleaves⟩ | ⟨bytes, v, c', rfl, hv, hop, hleaves⟩
  · rw [step_reader (by rw [hp, Progress.advance, hop, follow])]
    refine hh.reader_turn (hleaves.mono fun e he hb => ?_) (fun e he => he) (.ended none rfl)
    exact absurd hb (hh.not_begun hwaits he)
  · rw [step_reader (by rw [hp, Progress.advance, hop, follow])]
    refine hh.reader_turn (hleaves.mono fun e he hb => ?_) (fun e he => he) (.ended (some v) rfl)
    rw [he]
    exact ⟨⟨v, hv, rfl⟩, (hearly nofun).append _, pair_sublist_concat hb⟩

lemma remover_begins (hp : h.remover = .ahead fun c now => c.invalidate now type params) :
    Known config holds decode type params cfg.ttl (h.step store (.turn .remover .begins)) := by
  rw [← hh.config] at hk
  obtain ⟨c', found, hop, hleaves⟩ := invalidate_eq hk hl hh.isDistributed params h.now
  rw [step_remover (by rw [hp, Progress.advance, hop, follow])]
  refine hh.remover_turn (hleaves.mono fun e he => he.elim) (fun e he => ⟨hs.accept he, nofun⟩) ?_
  exact .asks found rfl (List.mem_append_right _ List.mem_cons_self)

omit hk hl in
lemma remover_served {found : Bool} (hp : h.remover = .asks (.delete (Key.derive type params)) (gone found))
    (hbegun : (.remover, .begins) ∈ h.log) :
    Known config holds decode type params cfg.ttl (h.step store (.turn .remover .served)) := by
  obtain ⟨here, hhere⟩ := hs.answers (.delete (Key.derive type params)) h.store h.now
  rw [step_remover (by rw [hp, Progress.advance_asks, hhere])]
  refine hh.remover_turn ⟨rfl, rfl, fun e he => ⟨he, hbegun⟩⟩ (fun e he => absurd he (hs.delete hhere)) ?_
  exact .told found here rfl (List.mem_append_left _ hbegun) (List.mem_append_right _ List.mem_cons_self)

omit hs hk hl in
lemma remover_hears {found here : Bool}
    (hp : h.remover = .told (.delete (Key.derive type params)) (some here) (gone found))
    (hbegun : (.remover, .begins) ∈ h.log) (hserved : (.remover, .served) ∈ h.log) :
    Known config holds decode type params cfg.ttl (h.step store (.turn .remover .hears)) := by
  rw [step_remover (by rw [hp, Progress.advance, gone, follow])]
  refine hh.remover_turn ⟨rfl, rfl, fun e he => ⟨he, hbegun⟩⟩ (fun e he => ⟨he, nofun⟩) ?_
  exact .ended _ rfl (List.mem_append_left _ hbegun) (List.mem_append_left _ hserved)

lemma reader_moves (turn : Turn) :
    Known config holds decode type params cfg.ttl (h.step store (.turn .reader turn)) := by
  have hidle (ha : h.reader.advance store h.cache h.store h.now turn = none) :
      Known config holds decode type params cfg.ttl (h.step store (.turn .reader turn)) := by
    rw [step_reader_idle ha]
    exact hh
  cases hh.reading with
  | ahead hp =>
    cases turn with
    | begins => exact reader_begins hs hk hl hh hp
    | served | hears => exact hidle (by rw [hp]; rfl)
  | asks hp =>
    cases turn with
    | served => exact reader_served hs hh hp
    | begins | hears => exact hidle (by rw [hp]; rfl)
  | told value hp hearly =>
    cases turn with
    | hears => exact reader_hears hh hp hearly
    | begins | served => exact hidle (by rw [hp]; rfl)
  | ended found hp => exact hidle (by rw [hp]; cases turn <;> rfl)

lemma remover_moves (turn : Turn) :
    Known config holds decode type params cfg.ttl (h.step store (.turn .remover turn)) := by
  have hidle (ha : h.remover.advance store h.cache h.store h.now turn = none) :
      Known config holds decode type params cfg.ttl (h.step store (.turn .remover turn)) := by
    rw [step_remover_idle ha]
    exact hh
  cases hh.removing with
  | ahead hp =>
    cases turn with
    | begins => exact remover_begins hs hk hl hh hp
    | served | hears => exact hidle (by rw [hp]; rfl)
  | asks found hp hbegun =>
    cases turn with
    | served => exact remover_served hs hh hp hbegun
    | begins | hears => exact hidle (by rw [hp]; rfl)
  | told found here hp hbegun hserved =>
    cases turn with
    | hears => exact remover_hears hh hp hbegun hserved
    | begins | served => exact hidle (by rw [hp]; rfl)
  | ended found hp _ _ => exact hidle (by rw [hp]; cases turn <;> rfl)

lemma step (move : Move) : Known config holds decode type params cfg.ttl (h.step store move) := by
  cases move with
  | turn side turn =>
    cases side with
    | reader => exact reader_moves hs hk hl hh turn
    | remover => exact remover_moves hs hk hl hh turn
  | wait d => exact ⟨hh.config, hh.isDistributed, hh.memory, hh.outside, hh.reading, hh.removing⟩

lemma after (moves : List Move) : Known config holds decode type params cfg.ttl (h.after store moves) := by
  induction moves generalizing h with
  | nil => exact hh
  | cons move moves ih => exact ih (hh.step hs hk hl move)

end Steps

lemma served_of_isOver (hh : Known config holds decode type params ttl h) (hover : h.remover.isOver = true) :
    (.remover, .begins) ∈ h.log ∧ (.remover, .served) ∈ h.log := by
  cases hh.removing with
  | ahead hp | asks _ hp _ | told _ _ hp _ _ =>
    rw [hp] at hover
    cases hover
  | ended _ _ hbegun hserved => exact ⟨hbegun, hserved⟩

lemma sound (hh : Known config holds decode type params ttl h) (hover : h.remover.isOver = true) :
    Sound config holds
      (Confined (config.placesOf type) (Key.derive type params) fun bytes => Copied decode h.reader h.log bytes)
      h.cache h.store := by
  obtain ⟨hbegun, hserved⟩ := hh.served_of_isOver hover
  refine ⟨hh.config, fun {type' p key e} hp he hplace hkey => ?_, fun {key e} _ he _ hkey => ?_⟩
  · obtain ⟨_, -, level, -, hlevel⟩ := Config.mem_placesOf hplace
    cases level with
    | memory =>
      cases hlevel
      subst hkey
      exact hh.memory e ⟨p, hp, he⟩ hbegun
    | distributed => cases hlevel
  · subst hkey
    exact absurd hserved (hh.outside e he)

end Known

/-- The store answers the reader before it removes what is there, and the reader hears of it after the removal has been
to the memory level. -/
abbrev Crossed (log : List (Side × Turn)) : Prop :=
  [(.reader, .served), (.remover, .served)].Sublist log ∧ [(.remover, .begins), (.reader, .hears)].Sublist log

lemma Copied.crossed (hc : Copied decode reader log bytes) (hserved : (.remover, .served) ∈ log) : Crossed log :=
  ⟨hc.early.2 hserved, hc.late⟩

lemma known_start {decode : Bytes → Option α} (hd : c.isDistributed = true) :
    Known c.config holds decode type params ttl (start c t now decode type params) where
  config := rfl
  isDistributed := hd
  memory _ _ := nofun
  outside _ _ := nofun
  reading := .ahead rfl
  removing := .ahead rfl

/-- What is there for others when both operations are over. -/
def left (h : History τ α) : Cache.History τ := { cache := h.cache, store := h.store, now := h.now }

section Later

open Routine

lemma ends_heard {answer : (call : Call) → τ → Instant → Option call.Reply × τ × Instant}
    {reply : Option (Option Bytes)} {later : Instant} :
    Ends answer (heard decode type key ttl reply c now) t later fun found _ _ _ => ∃ v, found = .ok v := by
  rw [heard]
  split
  · exact ⟨none, rfl⟩
  · split
    · exact ⟨none, rfl⟩
    · exact ⟨some _, rfl⟩

/-- A reader that comes to a cache where only some bytes lie under its key. -/
lemma get_confined {P : Bytes → Prop} (hs : store.Reliable holds) (hk : config.types.find? type = some cfg)
    (hl : cfg.levels = [.memory, .distributed]) (hd : c.isDistributed = true)
    (hsound : Sound config holds (Confined (config.placesOf type) (Key.derive type params) P) c t)
    (decode : Bytes → Option α) (timeout : Duration) (now : Instant) :
    ∃ found, (Cache.run store (c.get now decode type params) timeout t now).1 = .ok found ∧
      ∀ v, found = some v → ∃ bytes, decode bytes = some v ∧ P bytes := by
  rw [← hsound.config] at hk
  have hanswer : Ends (store.ask timeout) (c.get now decode type params) t now fun answer _ _ _ =>
      ∃ found, answer = .ok found := by
    obtain ⟨c', hop | ⟨v, hop⟩, -⟩ := get_cases hk hl hd decode params now
    · rw [hop]
      exact ends_call.2 ends_heard
    · rw [hop]
      exact ends_done.2 ⟨some v, rfl⟩
  obtain ⟨found, hfound⟩ := hanswer
  have hplace {level : Level} (hlevel : level ∈ cfg.levels) : level.place type ∈ config.placesOf type := by
    rw [← hsound.config, Config.placesOf_eq hk]
    exact List.mem_map_of_mem hlevel
  have ht : c.typeConfig type = .ok cfg := by rw [typeConfig, hk]
  have hc : Conditions store timeout holds (fun _ _ => True) fun _ => True :=
    ⟨hs.toKeeps, fun _ => True.intro, fun _ => True.intro⟩
  have hreads : Ends (store.ask timeout) (c.get now decode type params) t now fun answer _ _ _ =>
      Reads (Confined (config.placesOf type) (Key.derive type params) P) (fun _ _ => True) (fun _ => True) decode type
        (Key.derive type params) cfg.levels answer := by
    rw [get, ht]
    refine (ends_lookup hc [] cfg.levels ?_ hsound True.intro).mono fun _ _ _ _ h => h.2.2
    intro front level back hsplit level' _ e _ _ hin _ _ _ _ hkey
    refine hin (hplace ?_) hkey
    rw [show cfg.levels = front ++ level :: back from hsplit]
    exact List.mem_append_right _ List.mem_cons_self
  refine ⟨found, hfound, ?_⟩
  rintro v rfl
  obtain ⟨level, hlevel, bytes, hbytes, e, _, hin, rfl, -, -⟩ := hreads v hfound
  exact ⟨e.value, hbytes, hin (hplace hlevel) rfl⟩

end Later

/-- When a read and a removal of a key are over, nothing is found under the key but what is written from then on,
whatever comes next, unless the two have crossed. If they have, the value that the reader has found may be found again
and no other. -/
theorem removal_wins_unless_crossed (hs : store.Reliable holds) (hk : c.config.types.find? type = some cfg)
    (hl : cfg.levels = [.memory, .distributed]) (hd : c.isDistributed = true) (t : τ) (now : Instant)
    (decode : Bytes → Option α) (params : Params) (moves : List Move)
    (hover : ((start c t now decode type params).after store moves).IsOver) :
    let h := (start c t now decode type params).after store moves
    (¬Crossed h.log → h.left.Renewed store 0 type params) ∧
      ∀ {β : Type} (decode' : Bytes → Option β) (timeout : Duration) (later : Instant),
        ∃ found, (Cache.run store (h.cache.get later decode' type params) timeout h.store later).1 = .ok found ∧
          ∀ v, found = some v → Crossed h.log ∧
            ∃ bytes w, decode bytes = some w ∧ h.reader = .ended (.ok (some w)) ∧ decode' bytes = some v := by
  intro h
  have hh : Known c.config holds decode type params cfg.ttl h := (known_start hd).after hs hk hl moves
  have hserved := (hh.served_of_isOver hover.2).2
  have hsound := hh.sound hover.2
  refine ⟨fun hcrossed => ?_, fun decode' timeout later => ?_⟩
  · refine Cache.History.renewed_of_sound hs.toKeeps (Nat.zero_le _) (hsound.mono ?_)
    intro place key e hin hp hkey
    exact absurd ((hin hp hkey).crossed hserved) hcrossed
  · obtain ⟨found, hfound, hbytes⟩ := get_confined hs hk hl hh.isDistributed hsound decode' timeout later
    refine ⟨found, hfound, fun v hv => ?_⟩
    obtain ⟨bytes, hdecode, hcopied⟩ := hbytes v hv
    obtain ⟨w, hw, hreader⟩ := hcopied.found
    exact ⟨hcopied.crossed hserved, bytes, w, hw, hreader, hdecode⟩


/-- A cache of which the memory level has made room for another key, so that a value is left in the store alone. -/
def stored : Cache.History Memory := .run .ofMemory .tight true (.new 10) [.write 1 1, .write 2 2]

def beginning : History Memory Bytes := start stored.cache stored.store stored.now some "a" [("k", .ofNat 1)]

/-- The removal comes first to both levels, although the reader is there at the same time. -/
def behind : List Move :=
  [.turn .remover .begins, .turn .reader .begins, .wait 1, .turn .remover .served, .turn .reader .served,
    .turn .reader .hears, .turn .remover .hears]

theorem removal_wins_unless_crossed_behind :
    let h := beginning.after .ofMemory behind
    (stored.cache.config.types.find? "a").map (·.levels) = some [.memory, .distributed] ∧
      (h.IsOver ∧ h.log.length = 6 ∧ ¬Crossed h.log) ∧ h.left.Renewed .ofMemory 0 "a" [("k", .ofNat 1)] := by
  intro h
  have hlevels : (stored.cache.config.types.find? "a").map (·.levels) = some [.memory, .distributed] := rfl
  obtain ⟨cfg, hk, hl⟩ := Option.map_eq_some_iff.1 hlevels
  have hover : h.IsOver ∧ h.log.length = 6 ∧ ¬Crossed h.log := by decide +kernel
  obtain ⟨hrenewed, -⟩ := removal_wins_unless_crossed Store.reliable_ofMemory hk hl rfl stored.store stored.now some
    [("k", .ofNat 1)] behind hover.1
  exact ⟨hlevels, hover, hrenewed hover.2.2⟩

/-- The removal is over before the reader has heard what the store told it. -/
def crossing : List Move :=
  [.turn .reader .begins, .turn .reader .served, .turn .remover .begins, .turn .remover .served, .turn .remover .hears,
    .turn .reader .hears]

/-- The type is a valid one, and nothing is written in between. -/
theorem removed_value_comes_back :
    let h := beginning.after .ofMemory crossing
    Config.tight.problems = [] ∧ (h.IsOver ∧ Crossed h.log) ∧
      (Cache.run .ofMemory (h.cache.get h.now some "a" [("k", .ofNat 1)]) 1 h.store h.now).1 = .ok (some ⟨#[1]⟩) ∧
      (stored.answer .ofMemory (.drop 1) = .ok true ∧
        (stored.step .ofMemory (.drop 1)).answer .ofMemory (.read 1) = .ok none) := by
  decide +kernel

end History

end Overlap

end Serving.Cache
