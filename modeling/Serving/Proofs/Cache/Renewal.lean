import Serving.Proofs.Cache.Contents
import Serving.Proofs.Cache.Keys

/-! How older values are kept away. A write that gets through to all levels of its type leaves no other bytes under its
key, and a deletion leaves none; what lies there later was written since, whatever calls fail by then. A call of the
write itself that fails leaves older bytes behind, and they come back once the memory level has lost its own. -/

namespace Serving.Cache

open Routine

/-- Wherever an entry lies under a key at one of some places, its bytes have a property. -/
def Confined (places : List Place) (key : String) (P : Bytes → Prop) (place : Place) (other : String) (e : Entry) :
    Prop :=
  place ∈ places → other = key → P e.value

def Config.placesOf (config : Config) (type : String) : List Place :=
  match config.types.find? type with
  | some cfg => cfg.levels.map (·.place type)
  | none => []

lemma Config.placesOf_eq {config : Config} {type : String} {cfg : TypeConfig}
    (hk : config.types.find? type = some cfg) : config.placesOf type = cfg.levels.map (·.place type) := by
  rw [placesOf, hk]

lemma Config.mem_placesOf {config : Config} {type : String} {place : Place} (h : place ∈ config.placesOf type) :
    ∃ cfg, config.types.find? type = some cfg ∧ ∃ level ∈ cfg.levels, level.place type = place := by
  rw [placesOf] at h
  split at h
  · rename_i cfg hk
    exact ⟨cfg, hk, List.mem_map.1 h⟩
  · cases h

variable {τ α : Type} {config : Config} {holds : τ → String → Entry → Prop} {places : List Place} {key : String}
  {P : Bytes → Prop} {errors : Nat} {c : Cache} {t : τ}

/-- Unless a call was given up since some number of errors was counted, entries are confined at some places. -/
structure Reached (config : Config) (holds : τ → String → Entry → Prop) (places : List Place) (key : String)
    (P : Bytes → Prop) (errors : Nat) (c : Cache) (t : τ) : Prop where
  grows : errors ≤ c.backendErrors
  sound : c.backendErrors = errors → Sound config holds (Confined places key P) c t

namespace Confined

variable {place new : Place} {other : String} {e : Entry}

lemma append (h : Confined places key P place other e) (hne : place ≠ new) :
    Confined (places ++ [new]) key P place other e := by
  intro hp ho
  rcases List.mem_append.1 hp with hp | hp
  · exact h hp ho
  · exact absurd (List.mem_singleton.1 hp) hne

end Confined

namespace Reached

lemma start (h : c.config = config) : Reached config holds [] key P c.backendErrors c t :=
  ⟨Nat.le_refl _, fun _ => ⟨h, fun _ _ => nofun, fun _ _ => nofun⟩⟩

lemma partition {type : String} {partitions : Table Memory} {f : Memory → Memory}
    (h : Reached config holds places key P errors c t)
    (hfind : ∀ other, partitions.find? other =
      if other = type then (c.partitions.find? type).map f else c.partitions.find? other)
    (hf : ∀ p e, c.partitions.find? type = some p → (key, e) ∈ (f p).entries → P e.value) :
    Reached config holds (places ++ [.partition type]) key P errors { c with partitions } t := by
  refine ⟨h.grows, fun he => (h.sound he).replace hfind (fun p hp other e hm _ ho => ?_) fun _ _ _ hne hin => ?_⟩
  · subst ho
    exact hf p e hp hm
  · exact hin.append hne

lemma outside {t' : τ} (h : Reached config holds places key P errors c t)
    (hnew : ∀ e, c.isDistributed = true → c.backendErrors = errors → holds t' key e → P e.value) :
    Reached config holds (places ++ [.outside]) key P errors c t' := by
  refine ⟨h.grows, fun he => ⟨(h.sound he).config, fun hp hm => ?_, fun {other e} hd hh _ ho => ?_⟩⟩
  · exact ((h.sound he).partition hp hm).append nofun
  · subst ho
    exact hnew e hd he hh

variable {store : Store τ} {timeout : Duration} {now : Instant}

lemma ask {call : Call} (h : Reached config holds places key P errors c t)
    (hnew : ∀ r e, (store.ask timeout call t now).1 = some r → holds (store.ask timeout call t now).2.1 key e →
      P e.value) :
    Reached config holds (places ++ [.outside]) key P errors (c.charge (store.ask timeout call t now).1)
      (store.ask timeout call t now).2.1 := by
  cases hr : (store.ask timeout call t now).1 with
  | none =>
    -- the call is counted, so there is nothing left to show
    have hgrows := h.grows
    refine ⟨Nat.le_succ_of_le hgrows, fun he => ?_⟩
    simp only [charge, Option.isNone_none, if_true] at he
    omega
  | some r => exact h.outside fun e _ _ hh => hnew r e hr hh

end Reached

section Levels

variable {store : Store τ} {timeout : Duration} {now : Instant} {type : String}
  (hs : store.Obeys holds fun _ _ => True)

include hs

lemma ends_writeLevels_reached {value : Bytes} {ttl : Duration} {next : Cache → Instant → Operation α}
    {post : α → Cache → τ → Instant → Prop} (levels : List Level) (hP : P value)
    (h : Reached config holds places key P errors c t)
    (hnext : ∀ c t now, Reached config holds (places ++ levels.map (·.place type)) key P errors c t →
      Ends (store.ask timeout) (next c now) t now post) :
    Ends (store.ask timeout) (writeLevels type key value ttl next levels c now) t now post := by
  induction levels generalizing places c t now with
  | nil => exact hnext c t now (by simpa using h)
  | cons level rest ih =>
    rw [List.map_cons, List.append_cons] at hnext
    cases level with
    | memory =>
      refine ih (h.partition (fun _ => Table.find?_modify ..) fun p e _ hm => ?_) hnext
      rcases Memory.mem_of_mem_set hm with hm | ⟨_, rfl⟩
      · exact absurd rfl (Memory.mem_others.1 hm).2
      · exact hP
    | distributed =>
      rw [writeLevels]
      split
      · refine ends_ask.2 (ih (h.ask fun _ e hr hh => ?_) hnext)
        rw [hs.ask_set hr hh]
        exact hP
      · rename_i hd
        exact ih (h.outside fun e hd' => absurd hd' hd) hnext

lemma ends_deleteLevels_reached (found : Bool) (levels : List Level)
    (h : Reached config holds places key P errors c t) :
    Ends (store.ask timeout) (deleteLevels type key found levels c now) t now fun _ c t _ =>
      Reached config holds (places ++ levels.map (·.place type)) key P errors c t := by
  induction levels generalizing found places c t now with
  | nil => exact ends_done.2 (by simpa using h)
  | cons level rest ih =>
    rw [List.map_cons, List.append_cons]
    cases level with
    | memory =>
      simp only [deleteLevels]
      cases hp : c.partitions.find? type with
      | none =>
        refine ih _ (h.partition (f := id) (fun other => ?_) fun p e hp' => ?_)
        · split <;> simp [*]
        · rw [hp] at hp'
          cases hp'
      | some p =>
        refine ih _ (h.partition (f := fun _ => (p.delete key).2) (fun other => ?_) fun p' e hp' hm => ?_)
        · rw [Table.find?_insert, hp]
          rfl
        · exact absurd rfl (Memory.mem_others.1 hm).2
    | distributed =>
      simp only [deleteLevels]
      split
      · exact ends_ask.2 (ih _ (h.ask fun _ e hr hh => absurd hh (hs.ask_delete hr)))
      · rename_i hd
        exact ih _ (h.outside fun e hd' => absurd hd' hd)

lemma ends_set_reached {params : Params} {bytes : Bytes} (hP : P bytes) :
    Ends (store.ask timeout) (c.set now type params (.ok bytes)) t now fun answer c' t' _ => answer = .ok () →
      Reached c.config holds (c.config.placesOf type) (Key.derive type params) P c.backendErrors c' t' := by
  cases ht : c.typeConfig type with
  | error e =>
    rw [set, ht]
    intro h
    cases h
  | ok cfg =>
    rw [set, ht, Config.placesOf_eq (typeConfig_eq_ok ht)]
    refine ends_writeLevels_reached hs cfg.levels hP (.start rfl) fun c t now h => ?_
    exact fun _ => ⟨h.grows, fun he => (h.sound he).congr rfl rfl rfl⟩

lemma ends_invalidate_reached {params : Params} :
    Ends (store.ask timeout) (c.invalidate now type params) t now fun _ c' t' _ =>
      Reached c.config holds (c.config.placesOf type) (Key.derive type params) P c.backendErrors c' t' := by
  cases ht : c.typeConfig type with
  | error e =>
    have hk : c.config.types.find? type = none := by
      rw [typeConfig] at ht
      split at ht
      · cases ht
      · assumption
    rw [invalidate, ht, Config.placesOf, hk]
    exact .start rfl
  | ok cfg =>
    rw [invalidate, ht, Config.placesOf_eq (typeConfig_eq_ok ht)]
    exact ends_deleteLevels_reached hs false cfg.levels (.start rfl)

end Levels

/-- Under a key only bytes lie that were written. -/
def Written (config : Config) (type : String) (key : String) (writes : List Write) : Place → String → Entry → Prop :=
  Confined (config.placesOf type) key fun bytes => ∃ w ∈ writes, w.key = key ∧ w.bytes = bytes

lemma rules_written {type : String} {params : Params} :
    Rules config (Written config type (Key.derive type params)) (fun _ _ => True) fun _ _ => True where
  more hW h hp ho := by
    obtain ⟨w, hw, hkey⟩ := h hp ho
    exact ⟨w, hW hw, hkey⟩
  write {W w cfg level now} hw _ _ _ _ ho := ⟨w, hw, ho, rfl⟩
  copy {W type' params' cfg front level back level' e start now now'} hk hs _ hin _ _ _ _ ho := by
    obtain rfl : type' = type := Key.type_of_derive ho
    refine hin ?_ ho
    rw [Config.placesOf_eq hk, hs]
    exact List.mem_map_of_mem (by simp)

namespace History

variable {store : Store τ} {s : History τ} {n : Nat} {type : String} {params : Params}

/-- Whatever is asked from now on, only values are found under a type and parameters that were written since the first
`n` requests. -/
def Renewed (store : Store τ) (s : History τ) (n : Nat) (type : String) (params : Params) : Prop :=
  ∀ requests (r : Request),
    let later := s.after store requests
    r.Finds (fun type' params' bytes => Key.derive type' params' = Key.derive type params →
      ∃ w ∈ later.writesSince n, w.key = Key.derive type params ∧ w.bytes = bytes) (later.answer store r)

lemma renewed_of_sound (hs : store.Keeps holds fun _ _ => True) (hn : n ≤ s.past.length)
    (h : Sound config holds (Written config type (Key.derive type params) (s.writesSince n)) s.cache s.store) :
    s.Renewed store n type params := by
  intro requests r later
  have hc (_ : Instant) : Conditions store config.remote.operationTimeout holds (fun _ _ => True) (fun _ => True) :=
    ⟨hs, fun _ => trivial, fun _ => trivial⟩
  have hlater := sound_after rules_written hc (fun _ => trivial) requests hn h
  refine (finds rules_written hc (fun _ => trivial) r hlater).mono ?_
  rintro type' params' bytes ⟨cfg, hk, level, hl, e, _, hin, rfl, _, _⟩ hkey
  obtain rfl : type' = type := Key.type_of_derive hkey
  refine hin ?_ hkey
  rw [Config.placesOf_eq hk]
  exact List.mem_map_of_mem hl

lemma value_of_answer {value : Except String Bytes} (h : s.answer store (.set type params value) = .ok ()) :
    ∃ bytes, value = .ok bytes := by
  cases value with
  | ok bytes => exact ⟨bytes, rfl⟩
  | error reason =>
    rw [answer, play, perform, set] at h
    cases ht : s.cache.typeConfig type <;> rw [ht] at h <;> cases h

lemma reached_set (hs : store.Obeys holds fun _ _ => True) {bytes : Bytes} (hP : P bytes)
    (hok : s.answer store (.set type params (.ok bytes)) = .ok ()) :
    Reached s.cache.config holds (s.cache.config.placesOf type) (Key.derive type params) P s.cache.backendErrors
      (s.step store (.set type params (.ok bytes))).cache (s.step store (.set type params (.ok bytes))).store :=
  ends_set_reached hs hP hok

lemma reached_invalidate (hs : store.Obeys holds fun _ _ => True) :
    Reached s.cache.config holds (s.cache.config.placesOf type) (Key.derive type params) P s.cache.backendErrors
      (s.step store (.invalidate type params)).cache (s.step store (.invalidate type params)).store :=
  ends_invalidate_reached hs

/-- When a write or a deletion gets through to the outside store, no older value comes back, whatever calls fail
later: everything that is found was written by the write itself or after it. -/
theorem older_values_stay_away (hs : store.Obeys holds fun _ _ => True) (s : History τ) (type : String)
    (params : Params) :
    (∀ value, s.answer store (.set type params value) = .ok () →
      (s.step store (.set type params value)).cache.backendErrors = s.cache.backendErrors →
        (s.step store (.set type params value)).Renewed store s.past.length type params) ∧
    ((s.step store (.invalidate type params)).cache.backendErrors = s.cache.backendErrors →
      (s.step store (.invalidate type params)).Renewed store s.past.length type params) := by
  have hlength (r : Request) : s.past.length ≤ (s.step store r).past.length := by
    rw [length_past_step]
    exact Nat.le_succ _
  refine ⟨fun value hok herrors => ?_, fun herrors => ?_⟩
  · obtain ⟨bytes, rfl⟩ := value_of_answer hok
    refine renewed_of_sound hs.toKeeps (hlength _) ((reached_set hs ?_ hok).sound herrors)
    rw [writesSince_step _ (Nat.le_refl _), hok]
    exact ⟨⟨type, params, bytes, s.now⟩, List.mem_append_right _ List.mem_cons_self, rfl, rfl⟩
  · exact renewed_of_sound hs.toKeeps (hlength _) ((reached_invalidate hs).sound herrors)

/-- A memory store that no call reaches at the first moment after the start. -/
def shaky : Store Memory := .interrupted .ofMemory fun now => if now = 1 then some .unavailable else none

lemma obeys_shaky : shaky.Obeys (fun m key e => (key, e) ∈ m.entries) fun _ _ => True :=
  (Store.obeys_ofMemory fun _ _ _ => trivial).interrupted

def begun : History Memory := run shaky .tight true (.new 10) [.write 1 1]

/-- The second value and the deletion reach the store. Then the second value is what comes back when the memory level
has lost it, although the store was out of reach in the meantime. -/
theorem older_values_stay_away_shaky :
    (begun.step shaky (.write 1 2)).Renewed shaky 1 "a" [("k", .ofNat 1)] ∧
      (begun.step shaky (.drop 1)).Renewed shaky 1 "a" [("k", .ofNat 1)] ∧
      ((begun.step shaky (.write 1 2)).after shaky [.wait 1, .write 2 3, .wait 1]).answer shaky (.read 1) =
        .ok (some ⟨#[2]⟩) := by
  obtain ⟨hset, hdrop⟩ := older_values_stay_away obeys_shaky begun "a" [("k", .ofNat 1)]
  exact ⟨hset (.ok ⟨#[2]⟩) (by decide +kernel) (by decide +kernel), hdrop (by decide +kernel), by decide +kernel⟩

lemma not_renewed (requests : List Request) (bytes : Bytes)
    (hfound : (s.after store requests).answer store (.get some type params) = .ok (some bytes) ∧
      ∀ w ∈ (s.after store requests).writesSince n, w.bytes ≠ bytes) : ¬s.Renewed store n type params := by
  intro h
  obtain ⟨_, ⟨⟩, hwritten⟩ := h requests (.get some type params) bytes hfound.1
  obtain ⟨w, hw, _, hbytes⟩ := hwritten rfl
  exact hfound.2 w hw hbytes

/-- A write and a deletion that the store does not hear of are answered all the same, and then the first value comes
back: after the write when the memory level has lost the second one, after the deletion at once. -/
theorem older_value_comes_back :
    let s := begun.step shaky (.wait 1)
    Config.tight.problems = [] ∧
      (s.answer shaky (.write 1 2) = .ok () ∧ ¬(s.step shaky (.write 1 2)).Renewed shaky 2 "a" [("k", .ofNat 1)]) ∧
      s.answer shaky (.drop 1) = .ok true ∧ ¬(s.step shaky (.drop 1)).Renewed shaky 2 "a" [("k", .ofNat 1)] := by
  refine ⟨by decide, ⟨by decide +kernel, ?_⟩, by decide +kernel, ?_⟩
  · exact not_renewed [.wait 1, .write 2 3] ⟨#[1]⟩ (by decide +kernel)
  · exact not_renewed [.wait 1] ⟨#[1]⟩ (by decide +kernel)

end History

end Serving.Cache
