import Mathlib.Data.List.Forall2
import Serving.Proofs.Cache.History
import Serving.Proofs.Cache.Stores

/-! A distributed level all of whose calls fail is as good as none. Every failed call is counted and otherwise taken
for a miss, so each operation does to the rest of the cache what it would do without that level: the two are followed
level by level, and whatever one goes on with the other goes on with, too. -/

namespace Serving.Cache

open Routine

/-- The cache as it would be without its distributed level. -/
def alone (c : Cache) : Cache := { c with isDistributed := false, backendErrors := 0 }

@[simp] lemma alone_partitions (c : Cache) : c.alone.partitions = c.partitions := rfl

@[simp] lemma alone_isDistributed (c : Cache) : c.alone.isDistributed = false := rfl

@[simp] lemma typeConfig_alone (c : Cache) (type : String) : c.alone.typeConfig type = c.typeConfig type := rfl

/-- The distributed level never answered, and that is what the cache counted. -/
structure Deserted (c : Cache) (calls : List Call) : Prop where
  isDistributed : c.isDistributed = true
  counted : c.backendErrors = calls.length

variable {τ α β : Type} {store : Store τ} {timeout : Duration} {now : Instant} {c : Cache} {s : τ × List Call}

/-- An operation ends against the store as another one ends by itself. -/
def Mirrors (store : Store τ) (timeout : Duration) (now : Instant) (s : τ × List Call)
    (operation operation' : Operation α) : Prop :=
  Ends (store.recorded.ask timeout) operation s now fun a c s' now' =>
    now' = now ∧ Deserted c s'.2 ∧ operation' = .done a c.alone

lemma mirrors_done (h : Deserted c s.2) (a : α) : Mirrors store timeout now s (.done a c) (.done a c.alone) :=
  ⟨rfl, h, rfl⟩

lemma Mirrors.andThen {operation operation' : Operation α} {next next' : α → Cache → Instant → Operation β}
    (h : Mirrors store timeout now s operation operation')
    (hn : ∀ a c s', Deserted c s'.2 → Mirrors store timeout now s' (next a c now) (next' a c.alone now)) :
    Mirrors store timeout now s (operation.andThen now next) (operation'.andThen now next') := by
  refine ends_andThen.2 (h.mono ?_)
  rintro a c s' _ ⟨rfl, hc, rfl⟩
  exact hn a c s' hc

lemma Mirrors.map {operation operation' : Operation α} (h : Mirrors store timeout now s operation operation')
    (f : α → β) : Mirrors store timeout now s (operation.map f) (operation'.map f) := by
  refine ends_map.2 (h.mono ?_)
  rintro a c s' _ ⟨rfl, hc, rfl⟩
  exact ⟨rfl, hc, rfl⟩

section Refused

variable (hs : store.Refuses) (h : Deserted c s.2)

include hs h

lemma mirrors_ask {call : Call} {next : Option call.Reply → Cache → Instant → Operation α}
    (next' : Cache → Operation α)
    (hn : ∀ c s', Deserted c s'.2 → Mirrors store timeout now s' (next none c now) (next' c.alone)) :
    Mirrors store timeout now s (c.ask call next) (next' c.alone) := by
  obtain ⟨t', ha⟩ := hs.ask timeout call s.1 now
  rw [Mirrors, ask, ends_call, Store.ask_recorded, ha]
  -- the call is on record and counted, and the other cache knows nothing of it
  refine hn { c with backendErrors := c.backendErrors + 1 } _ ⟨h.isDistributed, ?_⟩
  simp [h.counted]

lemma mirrors_readLevel {type key : String} (level : Level)
    {next next' : Option Bytes → Cache → Instant → Operation α}
    (hn : ∀ value c s', Deserted c s'.2 → Mirrors store timeout now s' (next value c now) (next' value c.alone now)) :
    Mirrors store timeout now s (c.readLevel now type key level next) (c.alone.readLevel now type key level next') := by
  cases level with
  | memory =>
    simp only [readLevel, alone_partitions]
    cases c.partitions.find? type with
    | none => exact hn none c s h
    | some partition =>
      exact hn _ { c with partitions := c.partitions.insert type (partition.get now key).2 } s
        ⟨h.isDistributed, h.counted⟩
  | distributed =>
    simp only [readLevel, alone_isDistributed, h.isDistributed, if_true]
    exact mirrors_ask hs h (next' none · now) fun c s' h => hn none c s' h

lemma mirrors_writeLevels {type key : String} {value : Bytes} {ttl : Duration} (levels : List Level)
    {next next' : Cache → Instant → Operation α}
    (hn : ∀ c s', Deserted c s'.2 → Mirrors store timeout now s' (next c now) (next' c.alone now)) :
    Mirrors store timeout now s (writeLevels type key value ttl next levels c now)
      (writeLevels type key value ttl next' levels c.alone now) := by
  induction levels generalizing c s with
  | nil => exact hn c s h
  | cons level rest ih =>
    cases level with
    | memory =>
      exact ih (c := { c with partitions := c.partitions.modify type (·.set now key value ttl) })
        ⟨h.isDistributed, h.counted⟩
    | distributed =>
      simp only [writeLevels, alone_isDistributed, h.isDistributed, if_true]
      exact mirrors_ask hs h (writeLevels type key value ttl next' rest · now) fun _ _ h => ih h

lemma mirrors_lookup {decode : Bytes → Option α} {type key : String} {ttl : Duration} (faster rest : List Level) :
    Mirrors store timeout now s (lookup decode type key ttl faster rest c now)
      (lookup decode type key ttl faster rest c.alone now) := by
  induction rest generalizing faster c s with
  | nil => exact mirrors_done (c := { c with misses := c.misses + 1 }) ⟨h.isDistributed, h.counted⟩ _
  | cons level rest ih =>
    refine mirrors_readLevel hs h level fun value c s h => ?_
    cases value with
    | none => exact ih h _
    | some bytes =>
      cases hd : decode bytes with
      | none => simpa only [hd] using ih h _
      | some v =>
        simp only [hd]
        refine mirrors_writeLevels hs h faster fun c s h => ?_
        cases level with
        | memory => exact mirrors_done (c := c.countHit .memory) ⟨h.isDistributed, h.counted⟩ _
        | distributed => exact mirrors_done (c := c.countHit .distributed) ⟨h.isDistributed, h.counted⟩ _

lemma mirrors_search {type key : String} (levels : List Level) :
    Mirrors store timeout now s (search type key levels c now) (search type key levels c.alone now) := by
  induction levels generalizing c s with
  | nil => exact mirrors_done h _
  | cons level rest ih =>
    cases level with
    | memory =>
      rw [search, search, alone_partitions]
      by_cases hx : (c.partitions.find? type).any (·.exists? now key) = true
      · rw [if_pos hx, if_pos hx]
        exact mirrors_done h _
      · rw [if_neg hx, if_neg hx]
        exact ih h
    | distributed =>
      simp only [search, alone_isDistributed, h.isDistributed, if_true]
      exact mirrors_ask hs h (search type key rest · now) fun _ _ h => ih h

lemma mirrors_deleteLevels {type key : String} (found : Bool) (levels : List Level) :
    Mirrors store timeout now s (deleteLevels type key found levels c now)
      (deleteLevels type key found levels c.alone now) := by
  induction levels generalizing found c s with
  | nil => exact mirrors_done h _
  | cons level rest ih =>
    cases level with
    | memory =>
      simp only [deleteLevels, alone_partitions]
      cases c.partitions.find? type with
      | none => exact ih h _
      | some partition =>
        exact ih (c := { c with partitions := c.partitions.insert type (partition.delete key).2 })
          ⟨h.isDistributed, h.counted⟩ _
    | distributed =>
      simp only [deleteLevels, alone_isDistributed, h.isDistributed, if_true]
      refine mirrors_ask hs h (deleteLevels type key found rest · now) fun _ _ h => ?_
      simpa using ih h found

lemma mirrors_dropTypes (types : List String) {next next' : Cache → Instant → Operation α}
    (hn : ∀ c s', Deserted c s'.2 → Mirrors store timeout now s' (next c now) (next' c.alone now)) :
    Mirrors store timeout now s (dropTypes types c now next) (dropTypes types c.alone now next') := by
  induction types generalizing c s with
  | nil => exact hn c s h
  | cons type rest ih =>
    have hc : Deserted (c.clearType type) s.2 := ⟨h.isDistributed, h.counted⟩
    have hr : c.alone.reaches type = false := Bool.and_false _
    rw [dropTypes_cons, dropTypes_cons, hr, if_neg Bool.false_ne_true]
    by_cases hx : c.reaches type = true
    · rw [if_pos hx]
      refine mirrors_ask hs hc (dropTypes rest · now next') fun _ _ h => ?_
      exact ih h
    · rw [if_neg hx]
      exact ih hc

lemma mirrors_get {decode : Bytes → Option α} {type : String} {params : Params} :
    Mirrors store timeout now s (c.get now decode type params) (c.alone.get now decode type params) := by
  simp only [get, typeConfig_alone]
  cases c.typeConfig type with
  | error e => exact mirrors_done h _
  | ok config => exact mirrors_lookup hs h [] config.levels

lemma mirrors_set {type : String} {params : Params} {value : Except String Bytes} :
    Mirrors store timeout now s (c.set now type params value) (c.alone.set now type params value) := by
  simp only [set, typeConfig_alone]
  cases c.typeConfig type with
  | error e => exact mirrors_done h _
  | ok config =>
    cases value with
    | error reason => exact mirrors_done h _
    | ok bytes =>
      refine mirrors_writeLevels hs h config.levels fun c s h => ?_
      exact mirrors_done (c := { c with sets := c.sets + 1 }) ⟨h.isDistributed, h.counted⟩ _

lemma mirrors_exists {type : String} {params : Params} :
    Mirrors store timeout now s (c.exists? now type params) (c.alone.exists? now type params) := by
  simp only [exists?, typeConfig_alone]
  cases c.typeConfig type with
  | error e => exact mirrors_done h _
  | ok config => exact mirrors_search hs h config.levels

lemma mirrors_invalidate {type : String} {params : Params} :
    Mirrors store timeout now s (c.invalidate now type params) (c.alone.invalidate now type params) := by
  simp only [invalidate, typeConfig_alone]
  cases c.typeConfig type with
  | error e => exact mirrors_done h _
  | ok config => exact mirrors_deleteLevels hs h false config.levels

lemma mirrors_clear : Mirrors store timeout now s c.clear c.alone.clear := by
  have hc : Deserted { c with partitions := c.partitions.map fun _ p => p.clear } s.2 :=
    ⟨h.isDistributed, h.counted⟩
  rw [clear, clear, alone_isDistributed, if_pos h.isDistributed, if_neg Bool.false_ne_true]
  refine mirrors_ask hs hc (Routine.done ()) fun _ _ h => ?_
  exact mirrors_done h ()

lemma mirrors_compute {encoding : Encoding α} {type : String} {params : Params}
    {computation : Unit → Except Error α} :
    Mirrors store timeout now s (c.compute now encoding type params computation)
      (c.alone.compute now encoding type params computation) := by
  refine (mirrors_get hs h).andThen fun looked c s h => ?_
  cases looked with
  | error e => exact mirrors_done h _
  | ok found =>
    cases found with
    | some v => exact mirrors_done h _
    | none =>
      cases computation () with
      | error e => exact mirrors_done h _
      | ok v => exact (mirrors_set hs h).map _

theorem mirrors_perform (r : Request) (hr : r.isReport = false) :
    Mirrors store timeout now s (c.perform now r) (c.alone.perform now r) := by
  cases r with
  | get decode type params => exact mirrors_get hs h
  | set type params value => exact mirrors_set hs h
  | exists? type params => exact mirrors_exists hs h
  | invalidate type params => exact mirrors_invalidate hs h
  | invalidateTags tags => exact mirrors_dropTypes hs h (c.tagged tags) fun c s h => mirrors_done h _
  | clear => exact mirrors_clear hs h
  | sweep => exact mirrors_done (c := (c.sweep now).2) ⟨h.isDistributed, h.counted⟩ _
  | compute encoding type params computation => exact mirrors_compute hs h
  | statistics | status => cases hr
  | wait d => exact mirrors_done h ()

lemma mirrors_perform_map (r : Request) :
    Mirrors store timeout now s ((c.perform now r).map fun _ => ()) ((c.alone.perform now r).map fun _ => ()) := by
  cases hr : r.isReport with
  | false => exact (mirrors_perform hs h r hr).map _
  | true =>
    -- a report tells that the level is there, but to the cache it does no more than any other call
    cases r with
    | statistics =>
      rw [perform, perform, statistics, statistics, alone_isDistributed, if_pos h.isDistributed,
        if_neg Bool.false_ne_true, map_ask]
      refine mirrors_ask hs h (Routine.done ()) fun _ _ h => ?_
      exact mirrors_done h ()
    | status =>
      rw [perform, perform, status, status, alone_isDistributed, if_pos h.isDistributed,
        if_neg Bool.false_ne_true, map_ask]
      refine mirrors_ask hs h (Routine.done ()) fun _ _ h => ?_
      exact mirrors_done h ()
    | get | set | exists? | invalidate | invalidateTags | clear | sweep | compute | wait => cases hr

end Refused

/-- Two exchanges are the same; only to a report the answers may differ. -/
structure Exchange.Agrees (x x' : Exchange) : Prop where
  request : x.request = x'.request
  same : x.request.isReport = false → x = x'

namespace History

variable {υ : Type} {store' : Store υ}

/-- What one history is with its store, the other one is without. -/
structure Reflects (s : History (τ × List Call)) (s' : History υ) : Prop where
  deserted : Deserted s.cache s.store.2
  cache : s'.cache = s.cache.alone
  now : s'.now = s.now
  past : List.Forall₂ Exchange.Agrees s.past s'.past

namespace Reflects

variable {s : History (τ × List Call)} {s' : History υ}

lemma start (config : Config) (t : τ) (u : υ) : Reflects (start config true (t, [])) (start config false u) :=
  ⟨⟨rfl, rfl⟩, rfl, rfl, .nil⟩

lemma mirrors (h : Reflects s s') (hs : store.Refuses) (r : Request) (hr : r.isReport = false) :
    Mirrors store s.cache.config.remote.operationTimeout s.now s.store (s.cache.perform s.now r)
      (s'.cache.perform s'.now r) := by
  rw [h.cache, h.now]
  exact mirrors_perform hs h.deserted r hr

lemma mirrors_map (h : Reflects s s') (hs : store.Refuses) (r : Request) :
    Mirrors store s.cache.config.remote.operationTimeout s.now s.store ((s.cache.perform s.now r).map fun _ => ())
      ((s'.cache.perform s'.now r).map fun _ => ()) := by
  rw [h.cache, h.now]
  exact mirrors_perform_map hs h.deserted r

lemma answer (h : Reflects s s') (hs : store.Refuses) (r : Request) (hr : r.isReport = false) :
    s.answer store.recorded r = s'.answer store' r := by
  obtain ⟨_, _, hdone⟩ := h.mirrors hs r hr
  rw [History.answer, History.answer, play, play, Cache.run, Cache.run, hdone]
  rfl

lemma step (h : Reflects s s') (hs : store.Refuses) (r : Request) :
    Reflects (s.step store.recorded r) (s'.step store' r) := by
  obtain ⟨hnow, hdeserted, hdone⟩ := ends_map.1 (h.mirrors_map hs r)
  have hplay := run_map (store'.ask s'.cache.config.remote.operationTimeout) (fun _ => ())
    (s'.cache.perform s'.now r) s'.store s'.now
  rw [hdone, run_done] at hplay
  have hend : (s'.play store' r).2 = ((s.play store.recorded r).2.1.alone, s'.store, s'.now) :=
    (congrArg Prod.snd hplay).symm
  refine ⟨hdeserted, congrArg Prod.fst hend, ?_, ?_⟩
  · have htime : (s'.play store' r).2.2.2 = s'.now := by rw [hend]
    exact congrArg (· + r.duration) ((htime.trans h.now).trans hnow.symm)
  · refine List.rel_append h.past (.cons ⟨rfl, fun hr => ?_⟩ .nil)
    exact congr (congrArg (Exchange.mk r) h.now.symm) (h.answer hs r hr)

lemma after (h : Reflects s s') (hs : store.Refuses) (requests : List Request) :
    Reflects (s.after store.recorded requests) (s'.after store' requests) := by
  simp only [History.after]
  induction requests generalizing s s' with
  | nil => exact h
  | cons r requests ih => exact ih (h.step hs r)

end Reflects

/-- A cache whose distributed level fails every call at once answers as one without that level, report by report
apart, and has the same partitions and the same counts; and it counts every call that it made as an error. -/
theorem failing_level_counts_as_none (hs : store.Refuses) (config : Config) (t : τ) (store' : Store υ) (u : υ)
    (requests : List Request) :
    let s := run store.recorded config true (t, []) requests
    let s' := run store' config false u requests
    List.Forall₂ Exchange.Agrees s.past s'.past ∧ s.cache.partitions = s'.cache.partitions ∧
      s.cache.hits = s'.cache.hits ∧ s.cache.misses = s'.cache.misses ∧ s.cache.memoryHits = s'.cache.memoryHits ∧
      s.cache.sets = s'.cache.sets ∧ s.cache.backendErrors = s.store.2.length := by
  intro s s'
  have h : Reflects s s' := (Reflects.start config t u).after hs requests
  refine ⟨h.past, ?_, ?_, ?_, ?_, ?_, h.deserted.counted⟩ <;> rw [h.cache] <;> rfl

def crowded : List Request := [.write 1 1, .read 1, .drop 1, .read 1]

/-- A memory store to which no call comes through. -/
def unreachable : Store Memory := .interrupted .ofMemory fun _ => some .unavailable

/-- The write, the deletion and the read that found nothing in memory went to the store in vain. -/
theorem failing_level_counts_as_none_crowded :
    let s := run unreachable.recorded .tight true (.new 10, []) crowded
    let s' := run .ofMemory .tight false (.new 10) crowded
    List.Forall₂ Exchange.Agrees s.past s'.past ∧ s.cache.hits = s'.cache.hits ∧
      s.cache.backendErrors = s.store.2.length ∧ s.cache.hits = 1 ∧ s.store.2.length = 3 := by
  obtain ⟨hpast, _, hhits, _, _, _, hcalls⟩ := failing_level_counts_as_none
    (Store.prompt_ofMemory.refuses_interrupted .unavailable) .tight (.new 10) .ofMemory (.new 10) crowded
  exact ⟨hpast, hhits, hcalls, by decide +kernel⟩

end History

end Serving.Cache
