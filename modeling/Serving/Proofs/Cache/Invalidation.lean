import Serving.Proofs.Cache.Renewal

/-! What an invalidation by tags drops. The memory level is cut by partitions, so there the tagged types go and nothing
else does. The outside store is cut by the texts that keys start with, and these stop at a colon: a type whose name goes
on behind the name of a tagged type and a colon loses its entries there, too. -/

namespace Serving

namespace Digest

lemma colon_notMem_hex (bytes : List UInt8) : ':' ∉ hex bytes := by
  have hdigit : ∀ d < 16, Nat.digitChar d ≠ ':' := by decide
  simp only [hex, List.mem_flatMap, not_exists, not_and]
  intro b _ hm
  have hhigh := hdigit (b.toNat / 16) (by have := b.toNat_lt; omega)
  have hlow := hdigit (b.toNat % 16) (by omega)
  simp_all [eq_comm]

end Digest

namespace Cache

open Routine

namespace Key

variable {m type : String} {params : Params}

lemma colon_notMem_digest (text : String) : ':' ∉ (digest text).toList := by
  rw [digest, String.toList_ofList]
  exact fun h => Digest.colon_notMem_hex _ (List.mem_of_mem_take h)

/-- A list that ends in `x` starts another one that has an `x` where it ends there, or earlier. -/
lemma prefix_append_cons {α : Type} {x : α} {a b d : List α} (hd : x ∉ d) :
    a ++ [x] <+: b ++ x :: d ↔ a = b ∨ a ++ [x] <+: b := by
  constructor
  · rintro ⟨s, hs⟩
    rw [List.append_assoc, List.singleton_append] at hs
    rcases List.append_eq_append_iff.1 hs with ⟨c, rfl, hc⟩ | ⟨c, rfl, hc⟩
    · cases c with
      | nil => exact .inl (List.append_nil a).symm
      | cons y c =>
        obtain ⟨rfl, -⟩ := List.cons.inj hc
        exact .inr ⟨c, by simp⟩
    · cases c with
      | nil => exact .inl (List.append_nil b)
      | cons y c => exact absurd ((List.cons.inj hc).2 ▸ List.mem_append_right _ List.mem_cons_self) hd
  · rintro (rfl | h)
    · exact ⟨d, by simp⟩
    · exact h.trans (List.prefix_append _ _)

/-- The keys of a type start as those of another one do only if that one's name and a colon start the type's name. -/
lemma ofType_prefix_iff : (ofType m).toList <+: (derive type params).toList ↔
    m = type ∨ (m ++ ":").toList <+: type.toList := by
  have hm : (ofType m).toList = (space ++ ":").toList ++ (m.toList ++ [':']) := by simp [ofType]
  have hk : (derive type params).toList =
      (space ++ ":").toList ++ (type.toList ++ ':' :: (digest (preimage type params)).toList) := by
    simp [derive, ofType]
  rw [hm, hk, List.prefix_append_right_inj, prefix_append_cons (colon_notMem_digest _), String.toList_inj]
  simp

end Key

/-- A type is in the table and has one of some tags. -/
def Config.Tagged (config : Config) (tags : List String) (type : String) : Prop :=
  ∃ x ∈ config.types.toList, x.1 = type ∧ ∃ tag ∈ x.2.tags, tag ∈ tags

instance (config : Config) (tags : List String) (type : String) : Decidable (config.Tagged tags type) :=
  inferInstanceAs (Decidable (∃ x ∈ config.types.toList, _))

variable {τ α : Type} {store : Store τ} {timeout : Duration} {holds : τ → String → Entry → Prop} {c c' : Cache}
  {t t' : τ} {now : Instant} {tags types : List String} {type key : String} {e : Entry}

lemma mem_tagged : type ∈ c.tagged tags ↔ c.config.Tagged tags type := by
  simp [tagged, Config.Tagged, Sorted.names, Table.names, Table.filter]

namespace Store

/-- A store that is never asked in vain to delete the keys of a pattern: it answers in time, and when the pattern is a
text with a star it removes the keys that start with the text and no others. -/
structure Cuts (store : Store τ) (timeout : Duration) (holds : τ → String → Entry → Prop) : Prop where
  answers : ∀ pattern t now, (ending (store.delay (.deleteMatching pattern) (store.accept (.deleteMatching pattern) t))
    timeout now).2 = true
  accept : ∀ {pattern t key e}, holds (store.accept (.deleteMatching pattern) t) key e ↔ holds t key e
  perform : ∀ {start t now key e}, holds (store.perform (.deleteMatching (start ++ "*")) t now).2 key e ↔
    holds t key e ∧ ¬start.toList <+: key.toList

lemma Cuts.ask (h : store.Cuts timeout holds) {start : String} :
    holds (store.ask timeout (.deleteMatching (start ++ "*")) t now).2.1 key e ↔
      holds t key e ∧ ¬start.toList <+: key.toList := by
  simp only [Store.ask, h.answers, if_true]
  rw [h.perform, h.accept]

lemma cuts_ofMemory : ofMemory.Cuts timeout fun m key e => (key, e) ∈ m.entries where
  answers _ _ _ := rfl
  accept := .rfl
  perform {start m now key e} := by
    have hstem : Memory.stem? (start ++ "*") = some start := by simp [Memory.stem?]
    simp [ofMemory, Memory.answer, Memory.deleteMatching_eq, Memory.fits, hstem, ← Bool.not_eq_true]

end Store

/-- A cache and its outside store when the entries of some types have been dropped. -/
structure Dropped (holds : τ → String → Entry → Prop) (types : List String) (c : Cache) (t : τ) (c' : Cache) (t' : τ) :
    Prop where
  config : c'.config = c.config
  isDistributed : c'.isDistributed = c.isDistributed
  partition : ∀ type, c'.partitions.find? type =
    if type ∈ types then (c.partitions.find? type).map (·.clear) else c.partitions.find? type
  outside : ∀ key e, holds t' key e ↔
    holds t key e ∧ ∀ m ∈ types, c.reaches m = true → ¬(Key.ofType m).toList <+: key.toList

namespace Dropped

lemma nil : Dropped holds [] c t c t where
  config := rfl
  isDistributed := rfl
  partition _ := rfl
  outside key e := by simp

lemma reaches (h : Dropped holds types c t c' t') (m : String) : c'.reaches m = c.reaches m := by
  rw [Cache.reaches, Cache.reaches, h.config, h.isDistributed]

/-- First one type is dropped, then the others are. -/
lemma cons {middle : Cache} {between : τ} (h : Dropped holds [type] c t middle between)
    (hr : Dropped holds types middle between c' t') : Dropped holds (type :: types) c t c' t' where
  config := hr.config.trans h.config
  isDistributed := hr.isDistributed.trans h.isDistributed
  partition other := by
    rw [hr.partition, h.partition]
    have htwice (p : Option Memory) : (p.map (·.clear)).map (·.clear) = p.map (·.clear) := by cases p <;> rfl
    by_cases ho : other = type <;> by_cases hm : other ∈ types <;> simp_all
  outside key e := by
    simp only [hr.outside, h.outside, h.reaches, List.mem_singleton, List.forall_mem_cons, forall_eq, and_assoc]

end Dropped

lemma dropped_clearType (hreach : c.reaches type = false) : Dropped holds [type] c t (c.clearType type) t where
  config := rfl
  isDistributed := rfl
  partition other := by
    rw [clearType, Table.find?_modify]
    by_cases ho : other = type <;> simp [ho]
  outside key e := by simp [hreach]

lemma dropped_ask (hs : store.Cuts timeout holds) (hreach : c.reaches type = true) :
    Dropped holds [type] c t
      ((c.clearType type).charge (store.ask timeout (.deleteMatching (Key.pattern type)) t now).1)
      (store.ask timeout (.deleteMatching (Key.pattern type)) t now).2.1 where
  config := charge_config ..
  isDistributed := charge_isDistributed ..
  partition other := by
    rw [charge_partitions, clearType, Table.find?_modify]
    by_cases ho : other = type <;> simp [ho]
  outside key e := by
    rw [Key.pattern, hs.ask]
    simp [hreach]

lemma ends_dropTypes_dropped {post : α → Cache → τ → Instant → Prop} {next : Cache → Instant → Operation α}
    (hs : store.Cuts timeout holds) (types : List String)
    (hnext : ∀ c' t' now, Dropped holds types c t c' t' → Ends (store.ask timeout) (next c' now) t' now post) :
    Ends (store.ask timeout) (dropTypes types c now next) t now post := by
  induction types generalizing c t now with
  | nil => exact hnext c t now .nil
  | cons type rest ih =>
    rw [dropTypes_cons]
    split
    · rename_i hreach
      exact ends_ask.2 (ih fun c' t' now h => hnext c' t' now ((dropped_ask hs hreach).cons h))
    · rename_i hreach
      exact ih fun c' t' now h => hnext c' t' now ((dropped_clearType (Bool.eq_false_iff.2 hreach)).cons h)

/-- Of a type that has been dropped there is nothing left that can be read. -/
lemma sound_dropped (params : Params) (h : Dropped holds types c t c' t') (hm : type ∈ types) :
    Sound c.config holds (Confined (c.config.placesOf type) (Key.derive type params) fun _ => False) c' t' where
  config := h.config
  partition {type' p key e} hp he hplace _ := by
    have hsame : type' = type := by
      obtain ⟨cfg, -, level, -, hl⟩ := Config.mem_placesOf hplace
      cases level <;> cases hl
      rfl
    subst hsame
    rw [h.partition, if_pos hm] at hp
    obtain ⟨q, -, rfl⟩ := Option.map_eq_some_iff.1 hp
    cases he
  outside {key e} hd he hplace hkey := by
    obtain ⟨cfg, hk, level, hl, hlevel⟩ := Config.mem_placesOf hplace
    obtain rfl : level = .distributed := Level.place_inj hlevel
    have hreach : c.reaches type = true := by
      rw [Cache.reaches, hk, ← h.isDistributed, hd]
      simpa using hl
    subst hkey
    exact ((h.outside _ e).1 he).2 type hm hreach (Key.ofType_prefix_iff.2 (.inl rfl))

namespace History

variable {s : History τ}

lemma dropped_invalidateTags (hs : store.Cuts s.cache.config.remote.operationTimeout holds) (tags : List String) :
    Dropped holds (s.cache.tagged tags) s.cache s.store (s.step store (.invalidateTags tags)).cache
      (s.step store (.invalidateTags tags)).store := by
  have h : Ends (store.ask s.cache.config.remote.operationTimeout) (s.cache.invalidateTags s.now tags) s.store s.now
      fun _ c' t' _ => Dropped holds (s.cache.tagged tags) s.cache s.store c' t' :=
    ends_dropTypes_dropped hs _ fun _ _ _ h => h
  exact h

/-- After an invalidation by tags nothing is found under a tagged type but what was written since. Of every other type
the partition stays as it is, and the outside store keeps the entries under its keys unless its name goes on behind the
name of a tagged type, one that uses the outside store, and a colon. -/
theorem tags_drop_their_types (hk : store.Keeps holds fun _ _ => True) (s : History τ)
    (hs : store.Cuts s.cache.config.remote.operationTimeout holds) (tags : List String) :
    let s' := s.step store (.invalidateTags tags)
    (∀ type params, s.cache.config.Tagged tags type → s'.Renewed store s'.past.length type params) ∧
      ∀ type, ¬s.cache.config.Tagged tags type →
        s'.cache.partitions.find? type = s.cache.partitions.find? type ∧
          ∀ params e, holds s'.store (Key.derive type params) e ↔ holds s.store (Key.derive type params) e ∧
            ∀ m, s.cache.config.Tagged tags m → s.cache.reaches m = true → ¬(m ++ ":").toList <+: type.toList := by
  intro s'
  have hd := dropped_invalidateTags hs tags
  refine ⟨fun type params htag => ?_, fun type htag => ⟨?_, fun params e => ?_⟩⟩
  · have hnone := sound_dropped params hd (mem_tagged.2 htag)
    exact renewed_of_sound hk (Nat.le_refl _) (hnone.mono fun _ _ _ h hp hkey => (h hp hkey).elim)
  · rw [hd.partition, if_neg fun h => htag (mem_tagged.1 h)]
  · rw [hd.outside]
    refine and_congr_right fun _ => forall_congr' fun m => ?_
    rw [mem_tagged]
    refine imp_congr_right fun hm => imp_congr_right fun _ => not_congr ?_
    rw [Key.ofType_prefix_iff]
    refine or_iff_right ?_
    rintro rfl
    exact htag hm

/-- Three types. The name of one goes on behind the name of another one and a colon. -/
def nested : Config :=
  { types := .ofList [("a", { ttl := 10, levels := [.memory, .distributed], tags := ["x"] }),
      ("b", { ttl := 10, levels := [.memory, .distributed] }), ("a:b", { ttl := 10, levels := [.distributed] })] }

/-- A value of each type has been written. -/
def filled : History Memory :=
  run .ofMemory nested true (.new 10) [.set "a" [] (.ok ⟨#[1]⟩), .set "b" [] (.ok ⟨#[2]⟩), .set "a:b" [] (.ok ⟨#[3]⟩)]

theorem tags_drop_their_types_nested :
    let s' := filled.step .ofMemory (.invalidateTags ["x"])
    s'.Renewed .ofMemory s'.past.length "a" [] ∧
      s'.cache.partitions.find? "b" = filled.cache.partitions.find? "b" ∧
      s'.answer .ofMemory (.get some "a" []) = .ok none ∧
      s'.answer .ofMemory (.get some "b" []) = .ok (some ⟨#[2]⟩) := by
  obtain ⟨hdropped, hkept⟩ := tags_drop_their_types
    (Store.obeys_ofMemory fun _ _ _ => trivial).toKeeps filled Store.cuts_ofMemory ["x"]
  exact ⟨hdropped "a" [] (by decide +kernel), (hkept "b" (by decide +kernel)).1, by decide +kernel⟩

/-- A type that has none of the tags loses what it has in the outside store. -/
theorem tags_reach_longer_names :
    nested.problems = [] ∧ ¬nested.Tagged ["x"] "a:b" ∧
      filled.answer .ofMemory (.get some "a:b" []) = .ok (some ⟨#[3]⟩) ∧
      (filled.step .ofMemory (.invalidateTags ["x"])).answer .ofMemory (.get some "a:b" []) = .ok none := by
  decide +kernel

end History

end Cache

end Serving
