import Serving.Proofs.Cache.History
import Serving.Proofs.Interference

/-! A cache that any number of callers share. Operations begin when they like, and one that waits for the outside store
goes on with whatever answer it gets, whatever the others have done by then. What none of them touches is the plan of
the memory level: every type keeps its partition, with the room that the settings give it. -/

namespace Serving.Cache

open Routine

namespace Memory

variable (m : Memory) (now : Instant) (key : String)

lemma get_capacity : (m.get now key).2.capacity = m.capacity := by
  rw [get]
  split
  · rfl
  · split <;> rfl

end Memory

variable {α β : Type} {config : Config} {isDistributed : Bool} {c : Cache}

/-- The types have their partitions, with the room that is due to them. -/
structure Housed (config : Config) (isDistributed : Bool) (c : Cache) : Prop where
  settings : c.config = config
  outside : c.isDistributed = isDistributed
  rooms : ∀ type, (c.partitions.find? type).map (·.capacity) =
    (config.types.find? type).map fun cfg => max (config.capacityOf cfg) 1

lemma housed_new (config : Config) (isDistributed : Bool) : Housed config isDistributed (.new config isDistributed) where
  settings := rfl
  outside := rfl
  rooms type := by
    rw [new, Table.find?_map, Option.map_map]
    rfl

lemma Housed.partition (h : Housed config isDistributed c) {type : String} {cfg : TypeConfig}
    (hk : config.types.find? type = some cfg) :
    ∃ p, c.partitions.find? type = some p ∧ 1 ≤ p.capacity := by
  have hroom := h.rooms type
  rw [hk, Option.map_some] at hroom
  obtain ⟨p, hp, hcapacity⟩ := Option.map_eq_some_iff.1 hroom
  exact ⟨p, hp, hcapacity ▸ Nat.le_max_right _ _⟩

/-- Of two caches one has the plan of the other: the settings are the same, and no partition has more or less room. -/
structure SamePlan (c c' : Cache) : Prop where
  settings : c'.config = c.config
  outside : c'.isDistributed = c.isDistributed
  rooms : ∀ type, (c'.partitions.find? type).map (·.capacity) = (c.partitions.find? type).map (·.capacity)

namespace SamePlan

lemma of_partitions {c' : Cache} (hc : c'.config = c.config) (hd : c'.isDistributed = c.isDistributed)
    (hp : c'.partitions = c.partitions) : SamePlan c c' where
  settings := hc
  outside := hd
  rooms type := by rw [hp]

lemma modify (c : Cache) (type : String) {f : Memory → Memory} (hf : ∀ p, (f p).capacity = p.capacity) :
    SamePlan c { c with partitions := c.partitions.modify type f } where
  settings := rfl
  outside := rfl
  rooms other := by
    rw [Table.find?_modify]
    split
    · subst_vars
      rw [Option.map_map]
      exact congrArg (Option.map · _) (funext hf)
    · rfl

lemma insert {type : String} {p p' : Memory} (hp : c.partitions.find? type = some p)
    (hp' : p'.capacity = p.capacity) : SamePlan c { c with partitions := c.partitions.insert type p' } where
  settings := rfl
  outside := rfl
  rooms other := by
    rw [Table.find?_insert]
    split
    · subst_vars
      rw [hp, Option.map_some, Option.map_some, hp']
    · rfl

lemma map (c : Cache) {f : Memory → Memory} (hf : ∀ p, (f p).capacity = p.capacity) :
    SamePlan c { c with partitions := c.partitions.map fun _ p => f p } where
  settings := rfl
  outside := rfl
  rooms type := by
    rw [Table.find?_map, Option.map_map]
    exact congrArg (Option.map · _) (funext hf)

end SamePlan

/-- Something that is true of a cache for as long as its plan is the same. -/
structure Lasting (I : Cache → Prop) : Prop where
  keep : ∀ {c c' : Cache}, I c → SamePlan c c' → I c'

lemma Housed.keep {c' : Cache} (h : Housed config isDistributed c) (hplan : SamePlan c c') :
    Housed config isDistributed c' where
  settings := hplan.settings.trans h.settings
  outside := hplan.outside.trans h.outside
  rooms type := (hplan.rooms type).trans (h.rooms type)

lemma lasting_housed (config : Config) (isDistributed : Bool) : Lasting (Housed config isDistributed) where
  keep := Housed.keep

lemma lasting_config (config : Config) : Lasting (·.config = config) where
  keep h hplan := hplan.settings.trans h

/-- Nothing is expected of the others but that they leave alone what an operation leaves alone as well. -/
def sharing (I : Cache → Prop) : Terms Call (fun c => Option c.Reply) Cache Unit where
  state _ c := I c
  asks _ _ := True
  tells _ _ _ _ := True

abbrev Tidy (I : Cache → Prop) (operation : Operation α) : Prop :=
  Abides (sharing I) (fun _ _ c => I c) () operation

section Operations

variable {I : Cache → Prop} {now : Instant} {type key : String} {params : Params}

lemma tidy_andThen {r : Operation α} {next : α → Cache → Instant → Operation β} (h : Tidy I r)
    (hnext : ∀ a c now, I c → Tidy I (next a c now)) (now : Instant) :
    Tidy I (r.andThen now next) :=
  Abides.andThen (h.mono fun _ a c hc now => hnext a c now hc) now

lemma tidy_map {r : Operation α} {f : α → β} (h : Tidy I r) : Tidy I (r.map f) :=
  Abides.map h

variable (hI : Lasting I)

include hI

lemma tidy_ask {call : Call} {next : Option call.Reply → Cache → Instant → Operation α}
    (h : I c) (hnext : ∀ reply c now, I c → Tidy I (next reply c now)) :
    Tidy I (c.ask call next) := by
  refine ⟨h, trivial, fun reply _ _ c now hc => hnext reply _ now ?_⟩
  split
  · exact hI.keep hc (.of_partitions rfl rfl rfl)
  · exact hc

lemma tidy_readLevel {level : Level} {next : Option Bytes → Cache → Instant → Operation α}
    (h : I c) (hnext : ∀ value c now, I c → Tidy I (next value c now)) :
    Tidy I (c.readLevel now type key level next) := by
  cases level with
  | memory =>
    simp only [readLevel]
    cases hp : c.partitions.find? type with
    | none => exact hnext _ _ _ h
    | some p => exact hnext _ _ _ (hI.keep h (.insert hp (p.get_capacity now key)))
  | distributed =>
    simp only [readLevel]
    split
    · exact tidy_ask hI h fun _ _ _ h => hnext _ _ _ h
    · exact hnext _ _ _ h

lemma tidy_writeLevels {value : Bytes} {ttl : Duration} {next : Cache → Instant → Operation α} (levels : List Level)
    (h : I c) (hnext : ∀ c now, I c → Tidy I (next c now)) :
    Tidy I (writeLevels type key value ttl next levels c now) := by
  induction levels generalizing c now with
  | nil => exact hnext c now h
  | cons level rest ih =>
    cases level with
    | memory => exact ih (hI.keep h (.modify c type fun _ => rfl))
    | distributed =>
      simp only [writeLevels]
      split
      · exact tidy_ask hI h fun _ _ _ h => ih h
      · exact ih h

lemma tidy_lookup {decode : Bytes → Option α} {ttl : Duration} (faster levels : List Level)
    (h : I c) : Tidy I (lookup decode type key ttl faster levels c now) := by
  induction levels generalizing faster c now with
  | nil => exact hI.keep h (.of_partitions rfl rfl rfl)
  | cons level rest ih =>
    refine tidy_readLevel hI h fun value c now h => ?_
    cases value with
    | none => exact ih _ h
    | some bytes =>
      cases hd : decode bytes with
      | none => simpa only [hd] using ih _ h
      | some v =>
        simp only [hd]
        refine tidy_writeLevels hI faster h fun c now h => ?_
        cases level <;> exact hI.keep h (.of_partitions rfl rfl rfl)

lemma tidy_get {decode : Bytes → Option α} (h : I c) :
    Tidy I (c.get now decode type params) := by
  rw [get]
  split
  · exact h
  · exact tidy_lookup hI [] _ h

lemma tidy_set {value : Except String Bytes} (h : I c) :
    Tidy I (c.set now type params value) := by
  rw [set]
  split
  · exact h
  · split
    · exact h
    · exact tidy_writeLevels hI _ h fun _ _ h => hI.keep h (.of_partitions rfl rfl rfl)

lemma tidy_search (levels : List Level) (h : I c) :
    Tidy I (search type key levels c now) := by
  induction levels generalizing c now with
  | nil => exact h
  | cons level rest ih =>
    cases level with
    | memory =>
      rw [search]
      split
      · exact h
      · exact ih h
    | distributed =>
      rw [search]
      split
      · refine tidy_ask hI h fun reply c now h => ?_
        split
        · exact h
        · exact ih h
      · exact ih h

lemma tidy_deleteLevels (found : Bool) (levels : List Level) (h : I c) :
    Tidy I (deleteLevels type key found levels c now) := by
  induction levels generalizing found c now with
  | nil => exact h
  | cons level rest ih =>
    cases level with
    | memory =>
      rw [deleteLevels]
      split
      · exact ih _ h
      · rename_i p hp
        have hroom : (p.delete key).2.capacity = p.capacity := rfl
        exact ih _ (hI.keep h (.insert hp hroom))
    | distributed =>
      rw [deleteLevels]
      split
      · exact tidy_ask hI h fun _ _ _ h => ih _ h
      · exact ih _ h

lemma tidy_dropTypes {next : Cache → Instant → Operation α} (types : List String) (h : I c)
    (hnext : ∀ c now, I c → Tidy I (next c now)) :
    Tidy I (dropTypes types c now next) := by
  induction types generalizing c now with
  | nil => exact hnext c now h
  | cons type rest ih =>
    have hc : I (c.clearType type) := hI.keep h (.modify c type fun _ => rfl)
    rw [dropTypes_cons]
    split
    · exact tidy_ask hI hc fun _ _ _ h => ih h
    · exact ih hc

lemma tidy_compute {encoding : Encoding α} {computation : Unit → Except Error α} (h : I c) :
    Tidy I (c.compute now encoding type params computation) := by
  refine tidy_andThen (tidy_get hI h) (fun looked c now h => ?_) now
  split
  · exact h
  · exact h
  · split
    · exact h
    · exact tidy_map (tidy_set hI h)

theorem tidy_perform (h : I c) (now : Instant) (r : Request) :
    Tidy I (c.perform now r) := by
  cases r with
  | get decode type params => exact tidy_get hI h
  | set type params value => exact tidy_set hI h
  | exists? type params =>
    rw [perform, exists?]
    split
    · exact h
    · exact tidy_search hI _ h
  | invalidate type params =>
    rw [perform, invalidate]
    split
    · exact h
    · exact tidy_deleteLevels hI false _ h
  | invalidateTags tags => exact tidy_dropTypes hI _ h fun _ _ h => h
  | clear =>
    have hc : I { c with partitions := c.partitions.map fun _ p => p.clear } :=
      hI.keep h (.map c fun _ => rfl)
    simp only [perform, clear]
    split
    · exact tidy_ask hI hc fun _ _ _ h => h
    · exact hc
  | sweep => exact hI.keep h (.map c fun _ => rfl)
  | compute encoding type params computation => exact tidy_compute hI h
  | statistics =>
    simp only [perform, statistics]
    split
    · exact tidy_ask hI h fun _ _ _ h => h
    · exact h
  | status =>
    simp only [perform, status]
    split
    · exact tidy_ask hI h fun _ _ _ h => h
    · exact h
  | wait d => exact h

end Operations

/-! ### Many callers -/

/-- An operation that waits for the outside store. -/
structure Pending where
  {Result : Type}
  call : Call
  resume : Option call.Reply → Cache → Instant → Operation Result

structure Sharing where
  cache : Cache
  pending : List Pending := []

namespace Sharing

inductive Move
  | begins (r : Request) (now : Instant)
  /-- The store has an answer, or none, to the call at a place. -/
  | told (place : Nat) (answer : (call : Call) → Option call.Reply) (now : Instant)

/-- What an operation leaves when it waits or is done. -/
def leave : Operation α → Cache × List Pending
  | .done _ c => (c, [])
  | .call asked c resume => (c, [⟨asked, resume⟩])

def step (s : Sharing) : Move → Sharing
  | .begins r now =>
    let (cache, more) := leave (s.cache.perform now r)
    ⟨cache, s.pending ++ more⟩
  | .told place answer now =>
    match s.pending[place]? with
    | none => s
    | some p =>
      let (cache, more) := leave (p.resume (answer p.call) s.cache now)
      ⟨cache, s.pending.eraseIdx place ++ more⟩

def run (config : Config) (isDistributed : Bool) (moves : List Move) : Sharing :=
  moves.foldl step ⟨.new config isDistributed, []⟩

/-- An operation that waits goes on tidily, if nobody else makes a mess. -/
structure Orderly (config : Config) (isDistributed : Bool) (s : Sharing) : Prop where
  cache : Housed config isDistributed s.cache
  pending : ∀ p ∈ s.pending, ∀ reply c now, Housed config isDistributed c →
    Tidy (Housed config isDistributed) (p.resume reply c now)

lemma orderly_leave {operation : Operation α} {rest : List Pending} (h : Tidy (Housed config isDistributed) operation)
    (hrest : ∀ p ∈ rest, ∀ reply c now, Housed config isDistributed c →
      Tidy (Housed config isDistributed) (p.resume reply c now)) :
    Orderly config isDistributed ⟨(leave operation).1, rest ++ (leave operation).2⟩ := by
  cases operation with
  | done a c =>
    refine ⟨h, ?_⟩
    rw [leave, List.append_nil]
    exact hrest
  | call call c resume =>
    obtain ⟨hc, _, hnext⟩ := h
    refine ⟨hc, fun p hp => ?_⟩
    rcases List.mem_append.1 hp with hp | hp
    · exact hrest p hp
    · obtain rfl := List.mem_singleton.1 hp
      exact fun reply c now hc => hnext reply () trivial c now hc

lemma Orderly.step {s : Sharing} (h : Orderly config isDistributed s) (m : Move) :
    Orderly config isDistributed (s.step m) := by
  cases m with
  | begins r now => exact orderly_leave (tidy_perform (lasting_housed ..) h.cache now r) h.pending
  | told place answer now =>
    rw [Sharing.step]
    split
    · exact h
    · rename_i p hp
      have hgoes := h.pending p (List.mem_of_getElem? hp) (answer p.call) s.cache now h.cache
      exact orderly_leave hgoes fun q hq => h.pending q (List.mem_of_mem_eraseIdx hq)

theorem orderly_run (config : Config) (isDistributed : Bool) (moves : List Move) :
    Orderly config isDistributed (run config isDistributed moves) := by
  have hstart : Orderly config isDistributed ⟨.new config isDistributed, []⟩ :=
    ⟨housed_new config isDistributed, fun p hp => nomatch hp⟩
  rw [run]
  generalize (⟨.new config isDistributed, []⟩ : Sharing) = s at hstart ⊢
  induction moves generalizing s with
  | nil => exact hstart
  | cons m moves ih => exact ih _ (hstart.step m)

end Sharing

end Serving.Cache
