import Serving.Proofs.Cache.Contents
import Serving.Proofs.Cache.Separation

/-! Asking whether a value is there, and reading it. A lookup and a search go through the same levels and find
something at the same ones, as long as all that lies there can be decoded; but the lookup counts, copies and moves
entries, and the search leaves everything as it was. -/

namespace Serving.Cache

open Routine

variable {τ α : Type}

/-- A store that tells at once what is there under a key. To read changes nothing of what is there, and to ask whether
something is there changes nothing at all. -/
structure Store.Shows (store : Store τ) (there : τ → Instant → String → Option Bytes) : Prop where
  prompt : store.Prompt
  get : ∀ key t now, (store.perform (.get key) (store.accept (.get key) t) now).1 = .ok (there t now key)
  reads : ∀ key t now, there (store.perform (.get key) (store.accept (.get key) t) now).2 now = there t now
  has : ∀ key t now, store.perform (.has key) (store.accept (.has key) t) now = (.ok (there t now key).isSome, t)

namespace Memory

variable (m : Memory) (now : Instant) (key : String)

lemma exists?_eq : m.exists? now key = (m.get now key).1.isSome := by
  rw [exists?, get_fst]
  cases hf : m.find? key with
  | none => rfl
  | some e => cases he : e.isExpired now <;> simp [he]

/-- What is found after a read is what would have been found before it. -/
lemma get_get (other : String) : ((m.get now other).2.get now key).1 = (m.get now key).1 := by
  have hothers : (m.others other).lookup key = if key = other then none else m.find? key :=
    Table.lookup_filter_ne other key m.entries
  rw [get_fst, get_fst]
  cases hf : m.find? other with
  | none => rw [get_none now hf, find?, find?]
  | some e =>
    cases he : e.isExpired now with
    | true =>
      rw [get_expired hf he, find?, hothers]
      by_cases hk : key = other
      · subst hk
        rw [if_pos rfl, hf, Option.filter_some, he]
        rfl
      · rw [if_neg hk]
    | false =>
      rw [get_live hf he, find?, lookup_latest]
      by_cases hk : key = other
      · subst hk
        rw [if_pos rfl, hf]
      · rw [if_neg hk]

end Memory

lemma Store.shows_ofMemory : Store.ofMemory.Shows fun m now key => (m.get now key).1 where
  prompt := prompt_ofMemory
  get _ _ _ := rfl
  reads key m now := funext fun other => m.get_get now other key
  has key m now := by
    rw [← m.exists?_eq]
    rfl

/-! ### Levels -/

section Levels

variable {store : Store τ} {there : τ → Instant → String → Option Bytes} {timeout : Duration} {c : Cache} {t : τ}
  {now : Instant} {type key : String}

/-- What a read would get under a key at a level. -/
def given (there : τ → Instant → String → Option Bytes) (c : Cache) (t : τ) (now : Instant) (type key : String) :
    Level → Option Bytes
  | .memory => (c.partitions.find? type).bind fun p => (p.get now key).1
  | .distributed => if c.isDistributed then there t now key else none

lemma Store.Shows.ask_get (hs : store.Shows there) : store.ask timeout (.get key) t now =
    (some (there t now key), (store.perform (.get key) (store.accept (.get key) t) now).2, now) := by
  rw [hs.prompt.ask, hs.get]
  rfl

lemma Store.Shows.ask_has (hs : store.Shows there) :
    store.ask timeout (.has key) t now = (some (there t now key).isSome, t, now) := by
  rw [hs.prompt.ask, hs.has]
  rfl

/-- A search finds the key at the levels at which a read would get something, and leaves no trace. -/
lemma run_search (hs : store.Shows there) (levels : List Level) :
    (search type key levels c now).run (store.ask timeout) t now =
      (.ok (levels.any fun level => (given there c t now type key level).isSome), c, t, now) := by
  induction levels with
  | nil => rfl
  | cons level rest ih =>
    rw [List.any_cons]
    cases level with
    | memory =>
      have hhere : (c.partitions.find? type).any (·.exists? now key) =
          (given there c t now type key .memory).isSome := by
        rw [given]
        cases c.partitions.find? type with
        | none => rfl
        | some p => exact p.exists?_eq now key
      rw [search, hhere]
      split
      · rename_i hfound
        rw [hfound]
        rfl
      · rename_i hmissing
        rw [ih, Bool.eq_false_iff.2 hmissing, Bool.false_or]
    | distributed =>
      rw [search, given]
      split
      · have hnext (next : Option Bool → Cache → Instant → Operation (Except Error Bool)) :
            (c.ask (.has key) next).run (store.ask timeout) t now =
              (next (some (there t now key).isSome) c now).run (store.ask timeout) t now := by
          rw [ask, Routine.run, hs.ask_has]
          rfl
        rw [hnext, Option.getD_some]
        split
        · rename_i hfound
          rw [hfound]
          rfl
        · rename_i hmissing
          rw [ih, Bool.eq_false_iff.2 hmissing, Bool.false_or]
      · exact ih

lemma ends_readLevel_given {post : α → Cache → τ → Instant → Prop} {level : Level}
    {next : Option Bytes → Cache → Instant → Operation α} (hs : store.Shows there)
    (hnext : ∀ c' t', given there c' t' now type key = given there c t now type key →
      Ends (store.ask timeout) (next (given there c t now type key level) c' now) t' now post) :
    Ends (store.ask timeout) (c.readLevel now type key level next) t now post := by
  cases level with
  | memory =>
    simp only [readLevel]
    cases hp : c.partitions.find? type with
    | none =>
      have hread := hnext c t rfl
      rwa [given, hp, Option.bind_none] at hread
    | some p =>
      have hread := hnext { c with partitions := c.partitions.insert type (p.get now key).2 } t ?_
      · rwa [given, hp, Option.bind_some] at hread
      · funext level
        cases level with
        | memory => simp only [given, Table.find?_insert, if_true, hp, Option.bind_some, p.get_get]
        | distributed => rfl
  | distributed =>
    rw [readLevel]
    split
    · rename_i hd
      have hread := hnext c (store.perform (.get key) (store.accept (.get key) t) now).2 ?_
      · rw [ends_ask, hs.ask_get]
        rwa [given, if_pos hd] at hread
      · funext level
        cases level with
        | memory => rfl
        | distributed => simp only [given, hs.reads]
    · rename_i hd
      have hread := hnext c t rfl
      rwa [given, if_neg hd] at hread

/-- However the calls go, a write at some levels goes on in the end. -/
lemma ends_writeLevels_any {post : α → Cache → τ → Instant → Prop} {value : Bytes} {ttl : Duration}
    {next : Cache → Instant → Operation α} (levels : List Level)
    (hnext : ∀ c t now, Ends (store.ask timeout) (next c now) t now post) :
    Ends (store.ask timeout) (writeLevels type key value ttl next levels c now) t now post := by
  induction levels generalizing c t now with
  | nil => exact hnext c t now
  | cons level rest ih =>
    cases level with
    | memory => exact ih
    | distributed =>
      rw [writeLevels]
      split
      · exact ends_ask.2 ih
      · exact ih

/-- A lookup finds something if a read at one of the levels would get something, and all of that can be decoded. -/
lemma ends_lookup_given {decode : Bytes → Option α} {ttl : Duration} (faster levels : List Level)
    (hs : store.Shows there)
    (hd : ∀ level bytes, given there c t now type key level = some bytes → (decode bytes).isSome = true) :
    Ends (store.ask timeout) (lookup decode type key ttl faster levels c now) t now fun answer _ _ _ =>
      ∃ found, answer = .ok found ∧
        found.isSome = levels.any fun level => (given there c t now type key level).isSome := by
  induction levels generalizing faster c t with
  | nil => exact ⟨none, rfl, rfl⟩
  | cons level rest ih =>
    apply ends_readLevel_given hs
    intro c' t' hsame
    cases hg : given there c t now type key level with
    | none =>
      rw [← hsame] at hd
      refine (ih _ hd).mono ?_
      rintro answer _ _ _ ⟨found, rfl, hfound⟩
      refine ⟨found, rfl, ?_⟩
      rw [hfound, hsame, List.any_cons, hg]
      rfl
    | some bytes =>
      obtain ⟨v, hv⟩ := Option.isSome_iff_exists.1 (hd level bytes hg)
      simp only [hv]
      apply ends_writeLevels_any
      intro c t now
      refine ⟨some v, rfl, ?_⟩
      rw [List.any_cons, hg]
      rfl

end Levels

/-! ### Requests -/

/-- Bytes that are the text of a JSON value. -/
def Legible (bytes : Bytes) : Prop := (Encoding.json.decode bytes).isSome = true

instance (bytes : Bytes) : Decidable (Legible bytes) := inferInstanceAs (Decidable (_ = true))

def Request.isQuestion : Request → Bool
  | exists? _ _ => true
  | _ => false

/-- Some members come in between, all of one kind. -/
inductive Interspersed {α : Type*} (P : α → Prop) : List α → List α → Prop
  | nil : Interspersed P [] []
  | both (a : α) {base more : List α} : Interspersed P base more → Interspersed P (a :: base) (a :: more)
  | between (a : α) {base more : List α} : P a → Interspersed P base more → Interspersed P base (a :: more)

namespace Interspersed

variable {α : Type*} {P : α → Prop} {base more : List α}

lemma refl (l : List α) : Interspersed P l l := by
  induction l with
  | nil => exact .nil
  | cons a l ih => exact .both a ih

lemma concat_both (h : Interspersed P base more) (a : α) : Interspersed P (base ++ [a]) (more ++ [a]) := by
  induction h with
  | nil => exact .both a .nil
  | both b _ ih => exact .both b ih
  | between b hb _ ih => exact .between b hb ih

lemma concat_between (h : Interspersed P base more) {a : α} (ha : P a) : Interspersed P base (more ++ [a]) := by
  induction h with
  | nil => exact .between a ha .nil
  | both b _ ih => exact .both b ih
  | between b hb _ ih => exact .between b hb ih

end Interspersed

variable {store : Store τ} {there : τ → Instant → String → Option Bytes} {holds : τ → String → Entry → Prop}
  {config : Config} {timeout : Duration} {c : Cache} {t : τ} {now : Instant} {type key : String}

/-- An entry is legible, if all that was written is. -/
def Readily (writes : List Write) (_ : Place) (_ : String) (e : Entry) : Prop :=
  (∀ w ∈ writes, Legible w.bytes) → Legible e.value

lemma rules_readily : Rules config Readily (fun _ _ => True) fun _ _ => True where
  more hW h hw := h fun w hmem => hw w (hW hmem)
  write hmem _ _ _ hw := hw _ hmem
  copy _ _ _ h _ _ _ := h

lemma legible_given {writes : List Write} (hs : store.Shows there) (hk : store.Keeps holds fun _ _ => True)
    (h : Sound config holds (Readily writes) c t) (hw : ∀ w ∈ writes, Legible w.bytes) (level : Level)
    {bytes : Bytes} (hg : given there c t now type key level = some bytes) : Legible bytes := by
  cases level with
  | memory =>
    obtain ⟨p, hp, hget⟩ := Option.bind_eq_some_iff.1 hg
    obtain ⟨e, he, rfl, -⟩ := Memory.exists_of_get hget
    exact h.partition hp he hw
  | distributed =>
    rw [given] at hg
    split at hg
    · rename_i hd
      have hget := hs.get key t now
      rw [hg] at hget
      obtain ⟨e, he, rfl, -⟩ := hk.get hget
      exact h.outside hd (hk.accept he) hw
    · cases hg

namespace History

lemma play_question (hs : store.Shows there) (s : History τ) {r : Request} (hr : r.isQuestion = true) :
    (s.play store r).2 = (s.cache, s.store, s.now) ∧ r.duration = 0 := by
  cases r with
  | exists? type params =>
    refine ⟨?_, rfl⟩
    rw [play, Cache.run, perform, exists?]
    cases s.cache.typeConfig type with
    | error e => rfl
    | ok cfg => rw [run_search hs]
  | get | set | invalidate | invalidateTags | clear | sweep | compute | statistics | status | wait => cases hr

lemma answer_exists (hs : store.Shows there) (s : History τ) {params : Params} {cfg : TypeConfig}
    (ht : s.cache.typeConfig type = .ok cfg) :
    s.answer store (.exists? type params) = .ok (cfg.levels.any fun level =>
      (given there s.cache s.store s.now type (Key.derive type params) level).isSome) := by
  rw [answer, play, Cache.run, perform, exists?, ht]
  exact congrArg Prod.fst (run_search hs cfg.levels)

/-- One history has come to the same as another one, which was asked fewer questions. -/
structure Matches (s s' : History τ) : Prop where
  cache : s'.cache = s.cache
  store : s'.store = s.store
  now : s'.now = s.now
  past : Interspersed (·.request.isQuestion = true) s.past s'.past

namespace Matches

variable {s s' : History τ}

lemma both (h : Matches s s') (store : Store τ) (r : Request) : Matches (s.step store r) (s'.step store r) := by
  have hplay : s'.play store r = s.play store r := by rw [play, play, h.cache, h.store, h.now]
  refine ⟨?_, ?_, ?_, ?_⟩ <;> simp only [step, hplay, h.now]
  exact h.past.concat_both _

lemma between (h : Matches s s') (hs : store.Shows there) {r : Request} (hr : r.isQuestion = true) :
    Matches s (s'.step store r) := by
  obtain ⟨hplay, hduration⟩ := s'.play_question hs hr
  refine ⟨?_, ?_, ?_, ?_⟩ <;> simp only [step, hplay, hduration]
  · exact h.cache
  · exact h.store
  · exact h.now
  · exact h.past.concat_between hr

lemma after (h : Matches s s') (hs : store.Shows there) {base more : List Request}
    (hi : Interspersed (·.isQuestion = true) base more) : Matches (s.after store base) (s'.after store more) := by
  simp only [History.after]
  induction hi generalizing s s' with
  | nil => exact h
  | both r _ ih => exact ih (h.both store r)
  | between r hr _ ih => exact ih (h.between hs hr)

end Matches

/-- At any moment of a run on JSON values it is answered that a value is there if and only if a lookup would find one.
And however many such questions come in between: nobody is answered anything else for it, and the cache and its store
come to the same, with all their entries in the same order and all their counts. -/
theorem exists_iff_found (hs : store.Shows there) (hk : store.Keeps holds fun _ _ => True)
    (ht : ∀ key e, holds t key e → Legible e.value) (isDistributed : Bool) (requests : List Request)
    (hw : ∀ w ∈ (run store config isDistributed t requests).writesSince 0, Legible w.bytes) :
    let s := run store config isDistributed t requests
    (∀ type params, (config.types.find? type).isSome = true → ∃ answer found,
      s.answer store (.exists? type params) = .ok answer ∧
        s.answer store (.get Encoding.json.decode type params) = .ok found ∧
        (answer = true ↔ found.isSome = true)) ∧
    ∀ more, Interspersed (·.isQuestion = true) requests more →
      let s' := run store config isDistributed t more
      s'.cache = s.cache ∧ s'.store = s.store ∧ s'.now = s.now ∧
        Interspersed (·.request.isQuestion = true) s.past s'.past := by
  intro s
  have hstart : Sound config holds (Readily ((start config isDistributed t).writesSince 0))
      (start config isDistributed t).cache (start config isDistributed t).store := by
    refine ⟨rfl, fun {type p key e} hp he => ?_, fun _ he _ => ht _ _ he⟩
    rw [start, Cache.new, Table.find?_map] at hp
    obtain ⟨cfg, _, rfl⟩ := Option.map_eq_some_iff.1 hp
    cases he
  have hc (_ : Instant) : Conditions store config.remote.operationTimeout holds (fun _ _ => True) (fun _ => True) :=
    ⟨hk, fun _ => trivial, fun _ => trivial⟩
  have hsound : Sound config holds (Readily (s.writesSince 0)) s.cache s.store :=
    sound_after rules_readily hc (fun _ => trivial) requests (Nat.zero_le _) hstart
  refine ⟨fun type params hknown => ?_, fun more hi => ?_⟩
  · obtain ⟨cfg, hcfg⟩ := Option.isSome_iff_exists.1 hknown
    have htype : s.cache.typeConfig type = .ok cfg := by rw [typeConfig, hsound.config, hcfg]
    obtain ⟨found, hanswer, hfound⟩ : ∃ found, s.answer store (.get Encoding.json.decode type params) = .ok found ∧
        found.isSome = cfg.levels.any fun level =>
          (given there s.cache s.store s.now type (Key.derive type params) level).isSome := by
      rw [answer, play, Cache.run, perform, get, htype]
      exact ends_lookup_given [] cfg.levels hs fun level bytes hg => legible_given hs hk hsound hw level hg
    refine ⟨_, found, s.answer_exists hs htype, hanswer, ?_⟩
    rw [hfound]
  · have hsame : Matches (start config isDistributed t) (start config isDistributed t) := ⟨rfl, rfl, rfl, .refl _⟩
    obtain ⟨hcache, hstore, hnow, hpast⟩ := hsame.after hs hi
    exact ⟨hcache, hstore, hnow, hpast⟩

/-- The first value is in the outside store only, the second one at both levels, and both come to their end now. -/
def dated : List Request :=
  [.set "a" [("k", .ofNat 1)] (Encoding.json.encode (.arr [.null])),
    .set "a" [("k", .ofNat 2)] (Encoding.json.encode (.str "ü")), .wait 10]

def doubted : List Request :=
  [.exists? "a" [], .set "a" [("k", .ofNat 1)] (Encoding.json.encode (.arr [.null])), .exists? "a" [("k", .ofNat 1)],
    .set "a" [("k", .ofNat 2)] (Encoding.json.encode (.str "ü")), .wait 10, .exists? "a" [("k", .ofNat 1)]]

theorem exists_iff_found_dated :
    let s := run .ofMemory .tight true (.new 10) dated
    let s' := run .ofMemory .tight true (.new 10) doubted
    let first : Params := [("k", .ofNat 1)]
    s.answer .ofMemory (.exists? "a" first) = .ok true ∧
      (∃ v, s.answer .ofMemory (.get Encoding.json.decode "a" first) = .ok (some v)) ∧
      (s.after .ofMemory [.wait 1]).answer .ofMemory (.exists? "a" first) = .ok false ∧
      s'.cache = s.cache ∧ s'.store = s.store := by
  intro s s' first
  have hwritten : ∀ w ∈ (run .ofMemory .tight true (.new 10) dated).writesSince 0, Legible w.bytes := by
    decide +kernel
  have hempty : ∀ key e, (key, e) ∈ (Memory.new 10).entries → Legible e.value := fun _ _ h => nomatch h
  have hasked : Interspersed (·.isQuestion = true) dated doubted :=
    .between _ rfl (.both _ (.between _ rfl (.both _ (.both _ (.between _ rfl .nil)))))
  have hthere : s.answer .ofMemory (.exists? "a" first) = .ok true := by decide +kernel
  obtain ⟨hfound, hsame⟩ := exists_iff_found Store.shows_ofMemory (Store.obeys_ofMemory fun _ _ _ => trivial).toKeeps
    hempty true dated hwritten
  obtain ⟨hcache, hstore, -, -⟩ := hsame doubted hasked
  obtain ⟨answer, found, hanswer, hget, hiff⟩ := hfound "a" first (by decide)
  obtain rfl : true = answer := Except.ok.inj (hthere.symm.trans hanswer)
  obtain ⟨v, rfl⟩ := Option.isSome_iff_exists.1 (hiff.1 rfl)
  exact ⟨hthere, ⟨v, hget⟩, by decide +kernel, hcache, hstore⟩

end History

end Serving.Cache
