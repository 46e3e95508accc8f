import Serving.Proofs.Cache.Contents
import Serving.Proofs.Cache.Sharing

/-! What requests do to the partition of one type, whatever the outside store answers. A request about another type does
not touch it. One about the type itself reads, writes or deletes at its own key and at no other, so it keeps whatever
this does not change. -/

namespace Serving.Cache

open Routine

variable {τ α : Type} {store : Store τ} {timeout : Duration} {type other key : String} {P : Memory → Prop} {c : Cache}
  {t : τ} {now : Instant}

/-- A type has a partition, and something is true of it. -/
def Has (type : String) (P : Memory → Prop) (c : Cache) : Prop := ∃ p, c.partitions.find? type = some p ∧ P p

/-- Something that reads and writes of a key do not change. -/
structure Memory.Survives (P : Memory → Prop) (key : String) : Prop where
  get : ∀ {m} now, P m → P (m.get now key).2
  set : ∀ {m} now value ttl, P m → P (m.set now key value ttl)

namespace Has

variable {f : Memory → Memory} {p : Memory}

lemma congr {c' : Cache} (h : Has type P c) (hp : c'.partitions = c.partitions) : Has type P c' := by
  rw [Has, hp]
  exact h

lemma modify (h : Has type P c) (hf : other = type → ∀ m, P m → P (f m)) :
    Has type P { c with partitions := c.partitions.modify other f } := by
  obtain ⟨p, hp, hP⟩ := h
  by_cases ho : type = other
  · subst ho
    exact ⟨f p, by rw [Table.find?_modify, if_pos rfl, hp, Option.map_some], hf rfl p hP⟩
  · exact ⟨p, by rw [Table.find?_modify, if_neg ho, hp], hP⟩

lemma insert (h : Has type P c) (hp : other = type → P p) :
    Has type P { c with partitions := c.partitions.insert other p } := by
  obtain ⟨q, hq, hQ⟩ := h
  by_cases ho : type = other
  · subst ho
    exact ⟨p, by rw [Table.find?_insert, if_pos rfl], hp rfl⟩
  · exact ⟨q, by rw [Table.find?_insert, if_neg ho, hq], hQ⟩

lemma map (h : Has type P c) (hf : ∀ m, P m → P (f m)) :
    Has type P { c with partitions := c.partitions.map fun _ p => f p } := by
  obtain ⟨p, hp, hP⟩ := h
  exact ⟨f p, by rw [Table.find?_map, hp, Option.map_some], hf p hP⟩

lemma charge {ρ : Type} (h : Has type P c) (reply : Option ρ) : Has type P (c.charge reply) :=
  h.congr (charge_partitions c reply)

lemma of_find? (h : Has type P c) (hp : c.partitions.find? type = some p) : P p := by
  obtain ⟨q, hq, hQ⟩ := h
  rwa [Option.some.inj (hp.symm.trans hq)]

end Has

section Levels

variable {post : α → Cache → τ → Instant → Prop}

lemma ends_readLevel_has {level : Level} {next : Option Bytes → Cache → Instant → Operation α}
    (hP : other = type → Memory.Survives P key) (h : Has type P c)
    (hnext : ∀ value c t now, Has type P c → Ends (store.ask timeout) (next value c now) t now post) :
    Ends (store.ask timeout) (c.readLevel now other key level next) t now post := by
  cases level with
  | memory =>
    simp only [readLevel]
    cases hp : c.partitions.find? other with
    | none => exact hnext _ _ _ _ h
    | some p =>
      refine hnext _ _ _ _ (h.insert fun ho => ?_)
      subst ho
      exact (hP rfl).get now (h.of_find? hp)
  | distributed =>
    rw [readLevel]
    split
    · exact ends_ask.2 (hnext _ _ _ _ (h.charge _))
    · exact hnext _ _ _ _ h

lemma ends_writeLevels_has {value : Bytes} {ttl : Duration} {next : Cache → Instant → Operation α} (levels : List Level)
    (hP : other = type → Memory.Survives P key) (h : Has type P c)
    (hnext : ∀ c t now, Has type P c → Ends (store.ask timeout) (next c now) t now post) :
    Ends (store.ask timeout) (writeLevels other key value ttl next levels c now) t now post := by
  induction levels generalizing c t now with
  | nil => exact hnext c t now h
  | cons level rest ih =>
    cases level with
    | memory => exact ih (h.modify fun ho m hm => (hP ho).set now value ttl hm)
    | distributed =>
      rw [writeLevels]
      split
      · exact ends_ask.2 (ih (h.charge _))
      · exact ih h

lemma ends_lookup_has {decode : Bytes → Option α} {ttl : Duration} (faster levels : List Level)
    (hP : other = type → Memory.Survives P key) (h : Has type P c) :
    Ends (store.ask timeout) (lookup decode other key ttl faster levels c now) t now fun _ c _ _ => Has type P c := by
  induction levels generalizing faster c t now with
  | nil => exact h.congr rfl
  | cons level rest ih =>
    refine ends_readLevel_has hP h fun value c t now h => ?_
    cases value with
    | none => exact ih _ h
    | some bytes =>
      dsimp only
      split
      · exact ih _ h
      · refine ends_writeLevels_has faster hP h fun c t now h => ?_
        cases level <;> exact h.congr rfl

lemma ends_search_has (levels : List Level) (h : Has type P c) :
    Ends (store.ask timeout) (search other key levels c now) t now fun _ c _ _ => Has type P c := by
  induction levels generalizing c t now with
  | nil => exact h
  | cons level rest ih =>
    cases level with
    | memory =>
      rw [search]
      split
      · exact h
      · exact ih h
    | distributed =>
      rw [search]
      split
      · rw [ends_ask]
        dsimp only
        split
        · exact h.charge _
        · exact ih (h.charge _)
      · exact ih h

lemma ends_deleteLevels_has (found : Bool) (levels : List Level)
    (hP : other = type → ∀ m, P m → P (m.delete key).2) (h : Has type P c) :
    Ends (store.ask timeout) (deleteLevels other key found levels c now) t now fun _ c _ _ => Has type P c := by
  induction levels generalizing found c t now with
  | nil => exact h
  | cons level rest ih =>
    cases level with
    | memory =>
      simp only [deleteLevels]
      cases hp : c.partitions.find? other with
      | none => exact ih _ h
      | some p =>
        refine ih _ (h.insert fun ho => ?_)
        subst ho
        exact hP rfl p (h.of_find? hp)
    | distributed =>
      rw [deleteLevels]
      split
      · exact ends_ask.2 (ih _ (h.charge _))
      · exact ih _ h

lemma ends_dropTypes_has {next : Cache → Instant → Operation α} (types : List String)
    (hP : type ∈ types → ∀ m : Memory, P m → P m.clear) (h : Has type P c)
    (hnext : ∀ c t now, Has type P c → Ends (store.ask timeout) (next c now) t now post) :
    Ends (store.ask timeout) (dropTypes types c now next) t now post := by
  induction types generalizing c t now with
  | nil => exact hnext c t now h
  | cons name rest ih =>
    have hclear : Has type P (c.clearType name) := h.modify fun ho => hP (ho ▸ List.mem_cons_self)
    have hrest := fun hm => hP (List.mem_cons_of_mem name hm)
    rw [dropTypes_cons]
    split
    · exact ends_ask.2 (ih hrest (hclear.charge _))
    · exact ih hrest hclear

end Levels

section Requests

variable {params : Params}

lemma ends_get_has {decode : Bytes → Option α} (hP : other = type → Memory.Survives P (Key.derive other params))
    (h : Has type P c) :
    Ends (store.ask timeout) (c.get now decode other params) t now fun _ c _ _ => Has type P c := by
  rw [get]
  split
  · exact h
  · exact ends_lookup_has [] _ hP h

lemma ends_set_has {value : Except String Bytes} (hP : other = type → Memory.Survives P (Key.derive other params))
    (h : Has type P c) :
    Ends (store.ask timeout) (c.set now other params value) t now fun _ c _ _ => Has type P c := by
  rw [set]
  split
  · exact h
  · split
    · exact h
    · exact ends_writeLevels_has _ hP h fun c t now h => h.congr rfl

lemma ends_compute_has {encoding : Encoding α} {computation : Unit → Except Error α}
    (hP : other = type → Memory.Survives P (Key.derive other params)) (h : Has type P c) :
    Ends (store.ask timeout) (c.compute now encoding other params computation) t now fun _ c _ _ => Has type P c := by
  refine ends_andThen.2 ((ends_get_has hP h).mono fun looked c t now h => ?_)
  split
  · exact h
  · exact h
  · split
    · exact h
    · exact ends_map.2 (ends_set_has hP h)

/-- A request does not change a property of the partition of a type. -/
def Request.Respects (P : Memory → Prop) (type : String) (c : Cache) (now : Instant) : Request → Prop
  | .get _ other params | .set other params _ | .compute _ other params _ =>
    other = type → Memory.Survives P (Key.derive other params)
  | .invalidate other params => other = type → ∀ m, P m → P (m.delete (Key.derive other params)).2
  | .invalidateTags tags => type ∈ c.tagged tags → ∀ m, P m → P m.clear
  | .clear => ∀ m, P m → P m.clear
  | .sweep => ∀ m, P m → P (m.sweep now).2
  | .exists? _ _ | .statistics | .status | .wait _ => True

theorem ends_perform_has (r : Request) (hP : r.Respects P type c now) (h : Has type P c) :
    Ends (store.ask timeout) (c.perform now r) t now fun _ c _ _ => Has type P c := by
  cases r with
  | get decode other params => exact ends_get_has hP h
  | set other params value => exact ends_set_has hP h
  | compute encoding other params computation => exact ends_compute_has hP h
  | exists? other params =>
    simp only [perform, exists?]
    split
    · exact h
    · exact ends_search_has _ h
  | invalidate other params =>
    simp only [perform, invalidate]
    split
    · exact h
    · exact ends_deleteLevels_has false _ hP h
  | invalidateTags tags => exact ends_dropTypes_has _ hP h fun c t now h => h
  | clear =>
    simp only [perform, clear]
    split
    · exact ends_ask.2 ((h.map hP).charge _)
    · exact h.map hP
  | sweep => exact h.map hP
  | statistics =>
    simp only [perform, statistics]
    split
    · exact ends_ask.2 (h.charge _)
    · exact h
  | status =>
    simp only [perform, status]
    split
    · exact ends_ask.2 (h.charge _)
    · exact h
  | wait d => exact h

end Requests

/-- An operation that is tidy amid others is so by itself. -/
lemma Tidy.ends {I : Cache → Prop} {operation : Operation α} (h : Tidy I operation) :
    Ends (store.ask timeout) operation t now fun _ c _ _ => I c := by
  induction operation generalizing t now with
  | done a c => exact h
  | call call c resume ih =>
    obtain ⟨hc, -, hnext⟩ := h
    exact ih _ _ _ (hnext _ () trivial c _ hc)

lemma Store.le_ask (store : Store τ) (timeout : Duration) (call : Call) (t : τ) (now : Instant) :
    now ≤ (store.ask timeout call t now).2.2 := by
  have halarm (d : Duration) : now ≤ Instant.alarm now d := Nat.le_trans (Nat.le_add_right now d) (Instant.le_alarm now d)
  have hending (delay : Option Duration) : now ≤ (ending delay timeout now).1 := by
    cases delay with
    | none => exact halarm timeout
    | some d =>
      rw [ending]
      split
      · exact Nat.le_refl now
      · split
        · exact Nat.le_refl now
        · split
          · exact halarm d
          · exact halarm timeout
  simp only [Store.ask]
  split
  · exact hending _
  · exact hending _

lemma le_run (store : Store τ) (operation : Operation α) (timeout : Duration) (t : τ) (now : Instant) :
    now ≤ (run store operation timeout t now).2.2.2 := by
  induction operation generalizing t now with
  | done a c => exact Nat.le_refl _
  | call call c resume ih =>
    let asked := store.ask timeout call t now
    exact Nat.le_trans (store.le_ask timeout call t now) (ih asked.1 c asked.2.2 asked.2.1 asked.2.2)

end Serving.Cache
