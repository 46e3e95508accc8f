import Serving.Proofs.Cache.History
import Serving.Proofs.Cache.Stores

/-! Where the entries of a cache come from. Nothing lies in a partition or in the outside store that was not written
there by a request or copied there from a slower level. So a rule about entries and where they lie holds throughout if
it allows what requests write and what is copied; which rule that is, is left open here. -/

namespace Serving.Cache

open Routine

inductive Place
  | partition (type : String)
  | outside

def Level.place (type : String) : Level → Place
  | memory => .partition type
  | distributed => .outside

lemma Level.place_inj {type : String} {level level' : Level} (h : level.place type = level'.place type) :
    level = level' := by
  cases level <;> cases level' <;> first | rfl | cases h

variable {τ α : Type} {config : Config} {holds : τ → String → Entry → Prop}
  {In In' : Place → String → Entry → Prop} {c : Cache} {t : τ}

/-- Every entry lies where a rule allows it. -/
structure Sound (config : Config) (holds : τ → String → Entry → Prop) (In : Place → String → Entry → Prop)
    (c : Cache) (t : τ) : Prop where
  config : c.config = config
  partition : ∀ {type p key e}, c.partitions.find? type = some p → (key, e) ∈ p.entries →
    In (.partition type) key e
  outside : ∀ {key e}, c.isDistributed = true → holds t key e → In .outside key e

namespace Sound

lemma mono (h : Sound config holds In c t) (hi : ∀ place key e, In place key e → In' place key e) :
    Sound config holds In' c t where
  config := h.config
  partition hp he := hi _ _ _ (h.partition hp he)
  outside hd he := hi _ _ _ (h.outside hd he)

lemma congr {c' : Cache} (h : Sound config holds In c t) (hc : c'.config = c.config)
    (hp : c'.partitions = c.partitions) (hd : c'.isDistributed = c.isDistributed) : Sound config holds In c' t where
  config := hc.trans h.config
  partition := by
    rw [hp]
    exact h.partition
  outside := by
    rw [hd]
    exact h.outside

/-- One partition changes, and a rule holds for it that the other places meet already. -/
lemma replace {type : String} {partitions : Table Memory} {f : Memory → Memory} (h : Sound config holds In c t)
    (hfind : ∀ other, partitions.find? other =
      if other = type then (c.partitions.find? type).map f else c.partitions.find? other)
    (hf : ∀ p, c.partitions.find? type = some p → ∀ key e, (key, e) ∈ (f p).entries → In' (.partition type) key e)
    (hi : ∀ place key e, place ≠ .partition type → In place key e → In' place key e) :
    Sound config holds In' { c with partitions } t where
  config := h.config
  partition {_ p key e} hp he := by
    rw [hfind] at hp
    split at hp
    · rename_i ho
      subst ho
      obtain ⟨q, hq, rfl⟩ := Option.map_eq_some_iff.1 hp
      exact hf q hq key e he
    · rename_i ho
      refine hi _ _ _ ?_ (h.partition hp he)
      rintro ⟨⟩
      exact ho rfl
  outside hd he := hi _ _ _ nofun (h.outside hd he)

lemma modify {type : String} {f : Memory → Memory} (h : Sound config holds In c t)
    (hf : ∀ p, c.partitions.find? type = some p → ∀ key e, (key, e) ∈ (f p).entries → In' (.partition type) key e)
    (hi : ∀ place key e, place ≠ .partition type → In place key e → In' place key e) :
    Sound config holds In' { c with partitions := c.partitions.modify type f } t :=
  h.replace (fun _ => Table.find?_modify ..) hf hi

lemma insert {type : String} {p p' : Memory} (h : Sound config holds In c t) (hp : c.partitions.find? type = some p)
    (hp' : ∀ key e, (key, e) ∈ p'.entries → In' (.partition type) key e)
    (hi : ∀ place key e, place ≠ .partition type → In place key e → In' place key e) :
    Sound config holds In' { c with partitions := c.partitions.insert type p' } t := by
  refine h.replace (f := fun _ => p') (fun other => ?_) (fun _ _ => hp') hi
  rw [Table.find?_insert, hp]
  rfl

end Sound

/-- The cache when an answer has come, or has not come and is counted. -/
def charge {ρ : Type} (c : Cache) (reply : Option ρ) : Cache :=
  if reply.isNone then { c with backendErrors := c.backendErrors + 1 } else c

lemma charge_config {ρ : Type} (c : Cache) (reply : Option ρ) : (c.charge reply).config = c.config := by
  cases reply <;> rfl

lemma charge_partitions {ρ : Type} (c : Cache) (reply : Option ρ) :
    (c.charge reply).partitions = c.partitions := by
  cases reply <;> rfl

lemma charge_isDistributed {ρ : Type} (c : Cache) (reply : Option ρ) :
    (c.charge reply).isDistributed = c.isDistributed := by
  cases reply <;> rfl

/-- The outside store keeps what it is given, what has not expired may be read, and while an operation waits it does
not run out of its time. -/
structure Conditions (store : Store τ) (timeout : Duration) (holds : τ → String → Entry → Prop)
    (live : Entry → Instant → Prop) (during : Instant → Prop) : Prop where
  keeps : store.Keeps holds live
  live : ∀ {e now}, e.isExpired now = false → live e now
  during : ∀ {call t now}, during now → during (store.ask timeout call t now).2.2

/-- Bytes that an entry has that lies somewhere and may be read at some time of an operation. -/
def Readable (In : Place → String → Entry → Prop) (live : Entry → Instant → Prop) (during : Instant → Prop)
    (place : Place) (key : String) (bytes : Bytes) : Prop :=
  ∃ e now, In place key e ∧ e.value = bytes ∧ live e now ∧ during now

/-- If an answer has a value, it was decoded from bytes that may be read at one of some levels. -/
def Reads (In : Place → String → Entry → Prop) (live : Entry → Instant → Prop) (during : Instant → Prop)
    (decode : Bytes → Option α) (type key : String) (levels : List Level) (answer : Except Error (Option α)) : Prop :=
  ∀ v, answer = .ok (some v) →
    ∃ level ∈ levels, ∃ bytes, decode bytes = some v ∧ Readable In live during (level.place type) key bytes

lemma Reads.more {live : Entry → Instant → Prop} {during : Instant → Prop} {decode : Bytes → Option α}
    {type key : String} {level : Level} {rest : List Level} {answer : Except Error (Option α)}
    (h : Reads In live during decode type key rest answer) :
    Reads In live during decode type key (level :: rest) answer := by
  intro v hv
  obtain ⟨level, hl, hb⟩ := h v hv
  exact ⟨level, List.mem_cons_of_mem _ hl, hb⟩

section Operations

variable {store : Store τ} {timeout : Duration} {live : Entry → Instant → Prop} {during : Instant → Prop}
  {now : Instant} {post : α → Cache → τ → Instant → Prop} {type key : String}

lemma ends_ask {call : Call} {next : Option call.Reply → Cache → Instant → Operation α} :
    Ends (store.ask timeout) (c.ask call next) t now post ↔
      let e := store.ask timeout call t now
      Ends (store.ask timeout) (next e.1 (c.charge e.1) e.2.2) e.2.1 e.2.2 post := .rfl

variable (hc : Conditions store timeout holds live during)

include hc

lemma Sound.ask {call : Call} (h : Sound config holds In c t)
    (hw : ∀ key value ttl now, call = .set key value ttl → during now → In .outside key ⟨value, now + ttl⟩)
    (hn : during now) :
    Sound config holds In (c.charge (store.ask timeout call t now).1) (store.ask timeout call t now).2.1 where
  config := (charge_config ..).trans h.config
  partition := by
    rw [charge_partitions]
    exact h.partition
  outside hd he := by
    rw [charge_isDistributed] at hd
    rcases hc.keeps.holds_ask he with he | ⟨value, ttl, rfl, rfl⟩
    · exact h.outside hd he
    · exact hw _ _ _ _ rfl (hc.during hn)

lemma ends_readLevel {level : Level} {next : Option Bytes → Cache → Instant → Operation α}
    (h : Sound config holds In c t) (hn : during now)
    (hnext : ∀ value c t now, Sound config holds In c t → during now →
      (∀ bytes, value = some bytes → Readable In live during (level.place type) key bytes) →
      Ends (store.ask timeout) (next value c now) t now post) :
    Ends (store.ask timeout) (c.readLevel now type key level next) t now post := by
  cases level with
  | memory =>
    simp only [readLevel]
    cases hp : c.partitions.find? type with
    | none => exact hnext _ _ _ _ h hn nofun
    | some p =>
      refine hnext _ _ _ _ (h.insert hp (fun key e he => h.partition hp ?_) fun _ _ _ _ => id) hn ?_
      · exact Memory.mem_of_mem_get he
      · intro bytes hb
        obtain ⟨e, he, hv, hx⟩ := Memory.exists_of_get hb
        exact ⟨e, now, h.partition hp he, hv, hc.live hx, hn⟩
  | distributed =>
    simp only [readLevel]
    split
    · rename_i hd
      refine ends_ask.2 (hnext _ _ _ _ (h.ask hc nofun hn) (hc.during hn) fun bytes hb => ?_)
      obtain ⟨e, he, hv, hl⟩ := hc.keeps.ask_get (Option.join_eq_some_iff.1 hb)
      exact ⟨e, _, h.outside hd he, hv, hl, hc.during hn⟩
    · exact hnext _ _ _ _ h hn nofun

lemma ends_writeLevels {value : Bytes} {ttl : Duration} {next : Cache → Instant → Operation α}
    (levels : List Level)
    (hin : ∀ level ∈ levels, ∀ now, during now → In (level.place type) key ⟨value, now + ttl⟩)
    (h : Sound config holds In c t) (hn : during now)
    (hnext : ∀ c t now, Sound config holds In c t → during now → Ends (store.ask timeout) (next c now) t now post) :
    Ends (store.ask timeout) (writeLevels type key value ttl next levels c now) t now post := by
  induction levels generalizing c t now with
  | nil => exact hnext c t now h hn
  | cons level rest ih =>
    have hrest := fun level hl => hin level (List.mem_cons_of_mem _ hl)
    have hhere := hin level List.mem_cons_self
    cases level with
    | memory =>
      refine ih hrest (h.modify (fun p hp k e he => ?_) fun _ _ _ _ => id) hn
      rcases Memory.mem_of_mem_set he with he | ⟨rfl, rfl⟩
      · exact h.partition hp (Memory.mem_others.1 he).1
      · exact hhere now hn
    | distributed =>
      simp only [writeLevels]
      split
      · refine ends_ask.2 (ih hrest (h.ask hc ?_ hn) (hc.during hn))
        rintro k v d now' ⟨⟩ hn'
        exact hhere now' hn'
      · exact ih hrest h hn

lemma ends_lookup {decode : Bytes → Option α} {ttl : Duration} (faster rest : List Level)
    (hpromote : ∀ front level back, faster ++ rest = front ++ level :: back → ∀ level' ∈ front, ∀ e now now',
      In (level.place type) key e → live e now → during now → during now' →
        In (level'.place type) key ⟨e.value, now' + ttl⟩)
    (h : Sound config holds In c t) (hn : during now) :
    Ends (store.ask timeout) (lookup decode type key ttl faster rest c now) t now fun answer c t now =>
      Sound config holds In c t ∧ during now ∧ Reads In live during decode type key rest answer := by
  -- a copy goes to the levels that were tried in vain, so these are carried along
  induction rest generalizing faster c t now with
  | nil => exact ⟨h.congr rfl rfl rfl, hn, nofun⟩
  | cons level rest ih =>
    have hlater (c t now) (h : Sound config holds In c t) (hn : during now) :
        Ends (store.ask timeout) (lookup decode type key ttl (faster ++ [level]) rest c now) t now
          fun answer c t now => Sound config holds In c t ∧ during now ∧
            Reads In live during decode type key (level :: rest) answer := by
      refine (ih (faster ++ [level]) (by simpa using hpromote) h hn).mono ?_
      rintro answer c t now ⟨h, hn, hf⟩
      exact ⟨h, hn, hf.more⟩
    refine ends_readLevel hc h hn fun value c t now h hn hr => ?_
    cases value with
    | none => exact hlater c t now h hn
    | some bytes =>
      cases hd : decode bytes with
      | none => simpa only [hd] using hlater c t now h hn
      | some v =>
        obtain ⟨e, time, hin, rfl, hl, ht⟩ := hr _ rfl
        simp only [hd]
        refine ends_writeLevels hc faster ?_ h hn fun c t now h hn => ?_
        · exact fun level' hlevel now' hn' => hpromote faster level rest rfl level' hlevel e time now' hin hl ht hn'
        · refine ⟨by cases level <;> exact h.congr rfl rfl rfl, hn, ?_⟩
          rintro _ ⟨⟩
          exact ⟨level, List.mem_cons_self, e.value, hd, e, time, hin, rfl, hl, ht⟩

lemma ends_search (levels : List Level) (h : Sound config holds In c t) (hn : during now) :
    Ends (store.ask timeout) (search type key levels c now) t now fun _ c t now =>
      Sound config holds In c t ∧ during now := by
  induction levels generalizing c t now with
  | nil => exact ⟨h, hn⟩
  | cons level rest ih =>
    cases level with
    | memory =>
      rw [search]
      split
      · exact ⟨h, hn⟩
      · exact ih h hn
    | distributed =>
      rw [search]
      split
      · have ha : Sound config holds In (c.charge (store.ask timeout (.has key) t now).1)
            (store.ask timeout (.has key) t now).2.1 := h.ask hc nofun hn
        refine ends_ask.2 ?_
        dsimp only
        split
        · exact ⟨ha, hc.during hn⟩
        · exact ih ha (hc.during hn)
      · exact ih h hn

lemma ends_deleteLevels (found : Bool) (levels : List Level) (h : Sound config holds In c t) (hn : during now) :
    Ends (store.ask timeout) (deleteLevels type key found levels c now) t now fun _ c t now =>
      Sound config holds In c t ∧ during now := by
  induction levels generalizing found c t now with
  | nil => exact ⟨h, hn⟩
  | cons level rest ih =>
    cases level with
    | memory =>
      simp only [deleteLevels]
      cases hp : c.partitions.find? type with
      | none => exact ih _ h hn
      | some p =>
        refine ih _ (h.insert hp (fun k e he => h.partition hp ?_) fun _ _ _ _ => id) hn
        exact (Memory.mem_others.1 he).1
    | distributed =>
      simp only [deleteLevels]
      split
      · exact ends_ask.2 (ih _ (h.ask hc nofun hn) (hc.during hn))
      · exact ih _ h hn

lemma ends_dropTypes {next : Cache → Instant → Operation α} (types : List String) (h : Sound config holds In c t)
    (hn : during now)
    (hnext : ∀ c t now, Sound config holds In c t → during now → Ends (store.ask timeout) (next c now) t now post) :
    Ends (store.ask timeout) (dropTypes types c now next) t now post := by
  induction types generalizing c t now with
  | nil => exact hnext c t now h hn
  | cons type rest ih =>
    have hclear : Sound config holds In (c.clearType type) t := h.modify nofun fun _ _ _ _ => id
    rw [dropTypes_cons]
    split
    · exact ends_ask.2 (ih (hclear.ask hc nofun hn) (hc.during hn))
    · exact ih hclear hn

lemma ends_clear (h : Sound config holds In c t) (hn : during now) :
    Ends (store.ask timeout) c.clear t now fun _ c t now => Sound config holds In c t ∧ during now := by
  have hempty : Sound config holds In { c with partitions := c.partitions.map fun _ p => p.clear } t := by
    refine ⟨h.config, fun {type p key e} hp he => ?_, h.outside⟩
    rw [Table.find?_map] at hp
    obtain ⟨q, _, rfl⟩ := Option.map_eq_some_iff.1 hp
    cases he
  rw [clear]
  split
  · exact ends_ask.2 ⟨hempty.ask hc nofun hn, hc.during hn⟩
  · exact ⟨hempty, hn⟩

end Operations

lemma Sound.sweep (h : Sound config holds In c t) (now : Instant) : Sound config holds In (c.sweep now).2 t := by
  refine ⟨h.config, fun {type p key e} hp he => ?_, h.outside⟩
  simp only [Cache.sweep, Table.find?_map] at hp
  obtain ⟨q, hq, rfl⟩ := Option.map_eq_some_iff.1 hp
  exact h.partition hq (List.mem_filter.1 he).1

lemma typeConfig_eq_ok {type : String} {cfg : TypeConfig} (h : c.typeConfig type = .ok cfg) :
    c.config.types.find? type = some cfg := by
  rw [typeConfig] at h
  split at h
  · rename_i hf
    cases h
    exact hf
  · cases h

/-- Whatever value a request finds in the cache was decoded from bytes of which something holds. -/
def Request.Finds (P : String → Params → Bytes → Prop) : (r : Request) → r.Answer → Prop
  | .get decode type params, answer =>
    ∀ v, answer = .ok (some v) → ∃ bytes, decode bytes = some v ∧ P type params bytes
  | .compute encoding type params _, answer =>
    ∀ v, answer.outcome = .ok ⟨v, true⟩ → ∃ bytes, encoding.decode bytes = some v ∧ P type params bytes
  | _, _ => True

lemma Request.Finds.mono {P P' : String → Params → Bytes → Prop} {r : Request} {answer : r.Answer}
    (h : r.Finds P answer) (hp : ∀ type params bytes, P type params bytes → P' type params bytes) :
    r.Finds P' answer := by
  cases r with
  | get | compute =>
    intro v hv
    obtain ⟨bytes, hd, hb⟩ := h v hv
    exact ⟨bytes, hd, hp _ _ _ hb⟩
  | set | exists? | invalidate | invalidateTags | clear | sweep | statistics | status | wait => trivial

/-- A rule that depends on what was written. It holds of what requests write and of what is copied from a slower level
to a faster one, and it allows no less when more has been written. -/
structure Rules (config : Config) (In : List Write → Place → String → Entry → Prop) (live : Entry → Instant → Prop)
    (during : Instant → Instant → Prop) : Prop where
  more : ∀ {W W' place key e}, W ⊆ W' → In W place key e → In W' place key e
  write : ∀ {W w cfg level now}, w ∈ W → config.types.find? w.type = some cfg → level ∈ cfg.levels →
    during w.time now → In W (level.place w.type) w.key ⟨w.bytes, now + cfg.ttl⟩
  copy : ∀ {W type params cfg front level back level' e start now now'}, config.types.find? type = some cfg →
    cfg.levels = front ++ level :: back → level' ∈ front → In W (level.place type) (Key.derive type params) e →
    live e now → during start now → during start now' →
      In W (level'.place type) (Key.derive type params) ⟨e.value, now' + cfg.ttl⟩

section Requests

variable {In : List Write → Place → String → Entry → Prop} {store : Store τ} {timeout : Duration}
  {live : Entry → Instant → Prop} {during : Instant → Instant → Prop} {start now : Instant} {W : List Write}
  {type : String} {params : Params}

/-- Bytes that may be read under a type and parameters at one of the levels of the type. -/
def Supplied (config : Config) (In : List Write → Place → String → Entry → Prop) (live : Entry → Instant → Prop)
    (during : Instant → Instant → Prop) (W : List Write) (start : Instant) (type : String) (params : Params)
    (bytes : Bytes) : Prop :=
  ∃ cfg, config.types.find? type = some cfg ∧ ∃ level ∈ cfg.levels,
    Readable (In W) live (during start) (level.place type) (Key.derive type params) bytes

variable (hr : Rules config In live during) (hc : Conditions store timeout holds live (during start))

include hr hc

lemma ends_get {decode : Bytes → Option α} (h : Sound config holds (In W) c t) (hn : during start now) :
    Ends (store.ask timeout) (c.get now decode type params) t now fun answer c t now =>
      Sound config holds (In W) c t ∧ during start now ∧
        (∀ found, answer = .ok found → ∃ cfg, config.types.find? type = some cfg) ∧
        Request.Finds (Supplied config In live during W start) (.get decode type params) answer := by
  rw [get]
  cases ht : c.typeConfig type with
  | error e => exact ⟨h, hn, nofun, nofun⟩
  | ok cfg =>
    have hk := typeConfig_eq_ok ht
    rw [h.config] at hk
    refine (ends_lookup hc [] cfg.levels ?_ h hn).mono ?_
    · exact fun front level back hl level' hlevel e now now' => hr.copy hk hl hlevel
    · rintro answer c t now ⟨h, hn, hreads⟩
      refine ⟨h, hn, fun _ _ => ⟨cfg, hk⟩, fun v hv => ?_⟩
      obtain ⟨level, hl, bytes, hd, hb⟩ := hreads v hv
      exact ⟨bytes, hd, cfg, hk, level, hl, hb⟩

/-- What a request for a known type writes, if the value has bytes. -/
def writesOf (type : String) (params : Params) (start : Instant) (value : Except String Bytes) : List Write :=
  (value.toOption.map fun bytes => ⟨type, params, bytes, start⟩).toList

lemma ends_set {value : Except String Bytes} {cfg : TypeConfig} (hk : config.types.find? type = some cfg)
    (h : Sound config holds (In W) c t) (hn : during start now) :
    Ends (store.ask timeout) (c.set now type params value) t now fun answer c t now =>
      (Request.write? start (.set type params value) answer).toList = writesOf type params start value ∧
        Sound config holds (In (W ++ writesOf type params start value)) c t ∧ during start now := by
  have ht : c.typeConfig type = .ok cfg := by rw [typeConfig, h.config, hk]
  have hmore : Sound config holds (In (W ++ writesOf type params start value)) c t :=
    h.mono fun _ _ _ => hr.more (List.subset_append_left ..)
  rw [set, ht]
  cases value with
  | error reason => exact ⟨rfl, hmore, hn⟩
  | ok bytes =>
    refine ends_writeLevels hc cfg.levels ?_ hmore hn fun c t now h hn => ⟨rfl, h.congr rfl rfl rfl, hn⟩
    intro level hl now hn
    exact hr.write (List.mem_append_right _ List.mem_cons_self) hk hl hn

lemma ends_set_request {value : Except String Bytes} (h : Sound config holds (In W) c t) (hn : during start now) :
    Ends (store.ask timeout) (c.set now type params value) t now fun answer c t now =>
      Sound config holds (In (W ++ (Request.write? start (.set type params value) answer).toList)) c t ∧
        during start now := by
  cases ht : c.typeConfig type with
  | error e =>
    rw [set, ht]
    refine ⟨h.mono fun _ _ _ => hr.more ?_, hn⟩
    exact List.subset_append_left ..
  | ok cfg =>
    have hk := typeConfig_eq_ok ht
    rw [h.config] at hk
    refine (ends_set hr hc hk h hn).mono ?_
    rintro answer c t now ⟨hw, h, hn⟩
    rw [hw]
    exact ⟨h, hn⟩

lemma ends_compute {encoding : Encoding α} {computation : Unit → Except Error α}
    (h : Sound config holds (In W) c t) (hn : during start now) :
    Ends (store.ask timeout) (c.compute now encoding type params computation) t now fun answer c t now =>
      Sound config holds (In (W ++ (Request.write? start (.compute encoding type params computation) answer).toList))
          c t ∧ during start now ∧
        Request.Finds (Supplied config In live during W start) (.compute encoding type params computation) answer := by
  refine ends_andThen.2 ((ends_get hr hc h hn).mono ?_)
  rintro looked c t now ⟨h, hn, hknown, hfinds⟩
  have hkept : Sound config holds (In (W ++ [])) c t := by rwa [List.append_nil]
  cases looked with
  | error e => exact ⟨hkept, hn, nofun⟩
  | ok found =>
    obtain ⟨cfg, hk⟩ := hknown found rfl
    cases found with
    | some v =>
      refine ⟨hkept, hn, ?_⟩
      rintro _ ⟨⟩
      exact hfinds v rfl
    | none =>
      cases computation () with
      | error e => exact ⟨hkept, hn, nofun⟩
      | ok v =>
        -- a value that was found to be missing and is computed now was not found
        refine ends_map.2 ((ends_set hr hc hk h hn).mono ?_)
        rintro answer c t now ⟨_, h, hn⟩
        exact ⟨h, hn, nofun⟩

/-- A request keeps a rule, with what it writes taken in, and finds only what the rule and its time allow. -/
theorem ends_perform (r : Request) (h : Sound config holds (In W) c t) (hn : during start now) :
    Ends (store.ask timeout) (c.perform now r) t now fun answer c t now =>
      Sound config holds (In (W ++ (r.write? start answer).toList)) c t ∧ during start now ∧
        r.Finds (Supplied config In live during W start) answer := by
  have hkept {c t} (h : Sound config holds (In W) c t) : Sound config holds (In (W ++ [])) c t := by
    rwa [List.append_nil]
  -- most requests write nothing and find nothing
  have hquiet {β : Type} (a : β) (c : Cache) (t : τ) (now : Instant)
      (h : Sound config holds (In W) c t ∧ during start now) :
      Sound config holds (In (W ++ [])) c t ∧ during start now ∧ True := ⟨hkept h.1, h.2, trivial⟩
  cases r with
  | get decode type params =>
    refine (ends_get hr hc h hn).mono ?_
    rintro answer c t now ⟨h, hn, _, hf⟩
    exact ⟨hkept h, hn, hf⟩
  | set type params value =>
    refine (ends_set_request hr hc h hn).mono ?_
    rintro answer c t now ⟨h, hn⟩
    exact ⟨h, hn, trivial⟩
  | exists? type params =>
    refine Ends.mono ?_ hquiet
    simp only [perform, exists?]
    cases c.typeConfig type with
    | error e => exact ⟨h, hn⟩
    | ok cfg => exact ends_search hc cfg.levels h hn
  | invalidate type params =>
    refine Ends.mono ?_ hquiet
    simp only [perform, invalidate]
    cases c.typeConfig type with
    | error e => exact ⟨h, hn⟩
    | ok cfg => exact ends_deleteLevels hc false cfg.levels h hn
  | invalidateTags tags =>
    refine Ends.mono ?_ hquiet
    exact ends_dropTypes hc (c.tagged tags) h hn fun c t now h hn => ⟨h, hn⟩
  | clear => exact (ends_clear hc h hn).mono hquiet
  | sweep => exact ⟨hkept (h.sweep now), hn, trivial⟩
  | compute encoding type params computation => exact ends_compute hr hc h hn
  | statistics =>
    refine Ends.mono ?_ hquiet
    simp only [perform, statistics]
    split
    · exact ends_ask.2 ⟨h.ask hc nofun hn, hc.during hn⟩
    · exact ⟨h, hn⟩
  | status =>
    refine Ends.mono ?_ hquiet
    simp only [perform, status]
    split
    · exact ends_ask.2 ⟨h.ask hc nofun hn, hc.during hn⟩
    · exact ⟨h, hn⟩
  | wait d => exact ⟨hkept h, hn, trivial⟩

end Requests

namespace History

variable {store : Store τ} {s : History τ} {n : Nat}

lemma writesSince_step (r : Request) (hn : n ≤ s.past.length) :
    (s.step store r).writesSince n = s.writesSince n ++ (r.write? s.now (s.answer store r)).toList := by
  rw [writesSince, step, List.drop_append_of_le_length hn, List.filterMap_append]
  congr 1

lemma length_past_step (r : Request) : (s.step store r).past.length = s.past.length + 1 := List.length_append

lemma sound_start {In : Place → String → Entry → Prop} {t : τ} (isDistributed : Bool)
    (ht : ∀ key e, ¬holds t key e) :
    Sound config holds In (start config isDistributed t).cache (start config isDistributed t).store := by
  refine ⟨rfl, fun {type p key e} hp he => ?_, fun {key e} _ he => absurd he (ht key e)⟩
  rw [start, Cache.new, Table.find?_map] at hp
  obtain ⟨cfg, _, rfl⟩ := Option.map_eq_some_iff.1 hp
  cases he

section Rules

variable {In : List Write → Place → String → Entry → Prop} {live : Entry → Instant → Prop}
  {during : Instant → Instant → Prop} (hr : Rules config In live during)
  (hc : ∀ start, Conditions store config.remote.operationTimeout holds live (during start))
  (hd : ∀ now, during now now)

include hr hc hd

lemma sound_step (r : Request) (hn : n ≤ s.past.length)
    (h : Sound config holds (In (s.writesSince n)) s.cache s.store) :
    Sound config holds (In ((s.step store r).writesSince n)) (s.step store r).cache (s.step store r).store := by
  rw [writesSince_step r hn]
  rw [← h.config] at hc
  exact (ends_perform hr (hc s.now) r h (hd s.now)).1

theorem sound_after (requests : List Request) (hn : n ≤ s.past.length)
    (h : Sound config holds (In (s.writesSince n)) s.cache s.store) :
    Sound config holds (In ((s.after store requests).writesSince n)) (s.after store requests).cache
      (s.after store requests).store := by
  induction requests generalizing s with
  | nil => exact h
  | cons r rest ih => exact ih (by rw [length_past_step]; omega) (sound_step hr hc hd r hn h)

theorem finds (r : Request) (h : Sound config holds (In (s.writesSince n)) s.cache s.store) :
    r.Finds (Supplied config In live during (s.writesSince n) s.now) (s.answer store r) := by
  rw [← h.config] at hc
  exact (ends_perform hr (hc s.now) r h (hd s.now)).2.2

end Rules

end History

end Serving.Cache
