import Serving.Proofs.Cache.Absorption
import Serving.Proofs.Cache.Noting
import Serving.Proofs.Cache.Partitions
import Serving.Proofs.Cache.Presence
import Serving.Proofs.Cache.RoundTrip

/-! Computations behind a cache. One runs at most once, and only if its value is not found; what it gives is returned
whatever becomes of it in the cache, and what it fails with leaves no trace there. A value that was computed is in the
memory level at once, if that is the first one, so nobody computes it again at that moment. -/

namespace Serving.Cache

open Routine

variable {τ α : Type} {store : Store τ} {timeout : Duration} {type key : String} {c : Cache} {t : τ} {now : Instant}

/-- Every value has bytes, from which it is had back. -/
def Encoding.RoundTrips (encoding : Encoding α) : Prop :=
  ∀ v, ∃ bytes, encoding.encode v = .ok bytes ∧ encoding.decode bytes = some v

lemma Store.Prompt.run_now (hs : store.Prompt) (operation : Operation α) :
    (run store operation timeout t now).2.2.2 = now := by
  induction operation generalizing t now with
  | done a c => rfl
  | call call c resume ih =>
    rw [run, Routine.run, hs.ask]
    exact ih _ _ _

/-! ### Lookups -/

lemma ends_readLevel_any {post : α → Cache → τ → Instant → Prop} {level : Level}
    {next : Option Bytes → Cache → Instant → Operation α}
    (hnext : ∀ value c t now, Ends (store.ask timeout) (next value c now) t now post) :
    Ends (store.ask timeout) (c.readLevel now type key level next) t now post := by
  cases level with
  | memory =>
    rw [readLevel]
    cases c.partitions.find? type with
    | none => exact hnext none c t now
    | some p => exact hnext (p.get now key).1 _ t now
  | distributed =>
    rw [readLevel]
    split
    · exact ends_ask.2 (hnext _ _ _ _)
    · exact hnext none c t now

lemma ends_lookup_any {decode : Bytes → Option α} {ttl : Duration} (faster levels : List Level) :
    Ends (store.ask timeout) (lookup decode type key ttl faster levels c now) t now fun answer _ _ _ =>
      ∃ found, answer = .ok found := by
  induction levels generalizing faster c t now with
  | nil => exact ⟨none, rfl⟩
  | cons level rest ih =>
    apply ends_readLevel_any
    intro value c t now
    cases value with
    | none => exact ih _
    | some bytes =>
      cases hd : decode bytes with
      | none => simpa only [hd] using ih _
      | some v =>
        simp only [hd]
        exact ends_writeLevels_any faster fun _ _ _ => ⟨some v, rfl⟩

lemma get_ok {cfg : TypeConfig} {decode : Bytes → Option α} (ht : c.typeConfig type = .ok cfg) (params : Params) :
    ∃ found, (run store (c.get now decode type params) timeout t now).1 = .ok found := by
  rw [get, ht]
  exact ends_lookup_any [] cfg.levels

/-! ### What is in the memory level at once -/

structure Memory.Gives (now : Instant) (key : String) (bytes : Bytes) (m : Memory) : Prop where
  room : 1 ≤ m.capacity
  get : (m.get now key).1 = some bytes

lemma Memory.gives_set {m : Memory} (h : 1 ≤ m.capacity) (now : Instant) (key : String) (bytes : Bytes)
    (ttl : Duration) : (m.set now key bytes ttl).Gives now key bytes :=
  ⟨h, m.get_set h now key bytes ttl⟩

section Written

variable {config : Config} {isDistributed : Bool} {cfg : TypeConfig} {rest : List Level} {bytes : Bytes}
  {params : Params}

/-- Bytes are in a partition still when they have been written to other levels, which takes no time. -/
lemma ends_writeLevels_given {post : α → Cache → τ → Instant → Prop} {ttl : Duration}
    {next : Cache → Instant → Operation α} (levels : List Level) (hs : store.Prompt)
    (h : Has type (Memory.Gives now key bytes) c)
    (hnext : ∀ c t, Has type (Memory.Gives now key bytes) c → Ends (store.ask timeout) (next c now) t now post) :
    Ends (store.ask timeout) (writeLevels type key bytes ttl next levels c now) t now post := by
  induction levels generalizing c t with
  | nil => exact hnext c t h
  | cons level rest ih =>
    cases level with
    | memory => exact ih (h.modify fun _ m hm => m.gives_set hm.room now key bytes ttl)
    | distributed =>
      rw [writeLevels]
      split
      · rw [ends_ask, hs.ask]
        exact ih (h.charge _)
      · exact ih h

lemma ends_set_given (hs : store.Prompt) (hc : Housed config isDistributed c) (hk : config.types.find? type = some cfg)
    (hl : cfg.levels = .memory :: rest) :
    Ends (store.ask timeout) (c.set now type params (.ok bytes)) t now fun _ c _ _ =>
      Has type (Memory.Gives now (Key.derive type params) bytes) c := by
  obtain ⟨p, hp, hroom⟩ := hc.partition hk
  have hwritten : Has type (Memory.Gives now (Key.derive type params) bytes)
      { c with partitions := c.partitions.modify type (·.set now (Key.derive type params) bytes cfg.ttl) } := by
    refine ⟨p.set now (Key.derive type params) bytes cfg.ttl, ?_, p.gives_set hroom ..⟩
    rw [Table.find?_modify, if_pos rfl, hp, Option.map_some]
  have ht : c.typeConfig type = .ok cfg := by rw [typeConfig, hc.settings, hk]
  simp only [set, ht, hl, writeLevels]
  exact ends_writeLevels_given rest hs hwritten fun c t h => h.congr rfl

lemma get_of_given {decode : Bytes → Option α} {v : α} (ht : c.typeConfig type = .ok cfg)
    (hl : cfg.levels = .memory :: rest) (h : Has type (Memory.Gives now (Key.derive type params) bytes) c)
    (hv : decode bytes = some v) :
    (run store (c.get now decode type params) timeout t now).1 = .ok (some v) := by
  obtain ⟨p, hp, hgives⟩ := h
  simp only [run, get, ht, hl, lookup, readLevel, hp, hgives.get, hv]
  rfl

end Written

/-! ### Computations -/

section Computations

variable {encoding : Encoding α} {params : Params} {computation : Unit → Except Error α}

/-- A computation goes on after its lookup as that has ended. -/
lemma run_compute (store : Store τ) (timeout : Duration) (c : Cache) (t : τ) (now : Instant) (encoding : Encoding α)
    (type : String) (params : Params) (computation : Unit → Except Error α) :
    let looked := run store (c.get now encoding.decode type params) timeout t now
    run store (c.compute now encoding type params computation) timeout t now =
      run store (conclude encoding type params computation looked.1 looked.2.1 looked.2.2.2) timeout looked.2.2.1
        looked.2.2.2 :=
  run_andThen ..

lemma run_getOrCompute (store : Store τ) (timeout : Duration) (c : Cache) (t : τ) (now : Instant)
    (encoding : Encoding α) (type : String) (params : Params) (computation : Unit → Except Error α) :
    let done := run store (c.compute now encoding type params computation) timeout t now
    run store (c.getOrCompute now encoding type params computation) timeout t now =
      ((done.1.outcome.map (·.value), done.1.runs), done.2) :=
  run_map ..

lemma compute_of_unknown (hk : c.config.types.find? type = none) :
    run store (c.compute now encoding type params computation) timeout t now =
      (⟨.error (.unknownCacheType type), 0⟩, c, t, now) := by
  rw [run_compute, get, typeConfig, hk]
  rfl

lemma compute_of_hit {v : α} (hv : (run store (c.get now encoding.decode type params) timeout t now).1 = .ok (some v)) :
    run store (c.compute now encoding type params computation) timeout t now =
      (⟨.ok ⟨v, true⟩, 0⟩, (run store (c.get now encoding.decode type params) timeout t now).2) := by
  rw [run_compute, hv]
  rfl

lemma compute_of_failure {e : Error}
    (hmiss : (run store (c.get now encoding.decode type params) timeout t now).1 = .ok none)
    (he : computation () = .error e) :
    run store (c.compute now encoding type params computation) timeout t now =
      (⟨.error e, 1⟩, (run store (c.get now encoding.decode type params) timeout t now).2) := by
  rw [run_compute, hmiss, conclude, he]
  rfl

lemma compute_of_value {v : α}
    (hmiss : (run store (c.get now encoding.decode type params) timeout t now).1 = .ok none)
    (hv : computation () = .ok v) :
    let looked := run store (c.get now encoding.decode type params) timeout t now
    run store (c.compute now encoding type params computation) timeout t now =
      (⟨.ok ⟨v, false⟩, 1⟩, (run store (looked.2.1.set looked.2.2.2 type params (encoding.encode v)) timeout
        looked.2.2.1 looked.2.2.2).2) := by
  intro looked
  rw [run_compute, hmiss, conclude, hv]
  exact run_map ..

/-- What has been computed is found at that moment, if the first level is the memory level and the store is prompt. -/
lemma found_of_value {config : Config} {isDistributed : Bool} {cfg : TypeConfig} {v : α} (hs : store.Prompt)
    (hround : encoding.RoundTrips) (hc : Housed config isDistributed c) (hk : config.types.find? type = some cfg)
    (hl : cfg.levels.head? = some .memory)
    (hmiss : (run store (c.get now encoding.decode type params) timeout t now).1 = .ok none)
    (hv : computation () = .ok v) :
    let done := run store (c.compute now encoding type params computation) timeout t now
    (run store (done.2.1.get now encoding.decode type params) timeout done.2.2.1 now).1 = .ok (some v) := by
  intro done
  let looked := run store (c.get now encoding.decode type params) timeout t now
  have hlater : looked.2.2.2 = now := hs.run_now _
  obtain ⟨bytes, hencode, hdecode⟩ := hround v
  obtain ⟨rest, hl⟩ := List.head?_eq_some_iff.1 hl
  have hdone : done.2 = (run store (looked.2.1.set now type params (.ok bytes)) timeout looked.2.2.1 now).2 := by
    rw [← hencode, ← hlater]
    exact congrArg Prod.snd (compute_of_value hmiss hv)
  have hlooked : Housed config isDistributed looked.2.1 := Tidy.ends (tidy_get (lasting_housed ..) hc)
  have hafter : Housed config isDistributed done.2.1 := Tidy.ends (tidy_compute (lasting_housed ..) hc)
  have hgiven : Has type (Memory.Gives now (Key.derive type params) bytes) done.2.1 := by
    rw [hdone]
    exact ends_set_given hs hlooked hk hl
  exact get_of_given (by rw [typeConfig, hafter.settings, hk]) hl hgiven hdecode

end Computations

namespace Sharing

/-- Of two lookups one has found nothing, and the other one still waits for the store. -/
def unanswered : List Move := [.begins (.read 1) 0, .begins (.read 1) 1, .told 0 (fun _ => none) 2]

def boolean : Encoding Bool := .ofJson .bool fun v => match v with | .bool b => some b | _ => none

end Sharing

end Serving.Cache
