import Serving.Proofs.Cache.Contents
import Serving.Proofs.Cache.Keys

/-! What a type sees of a cache: the settings, its own partition, and what an outside store without a bound has under
the keys of the type. An operation on another type leaves this as it is, for no two types have a key in common; and an
operation on the type itself depends on nothing else. -/

namespace Serving.Cache

open Routine

/-- The key that a call is about, if it is about one. -/
def Call.key? : Call → Option String
  | get key => some key
  | set key _ _ => some key
  | delete key => some key
  | has key => some key
  | clear | deleteMatching _ | stats | health => none

variable {τ α β γ : Type}

/-- A store that is prompt and has no bound: it takes every key by itself. What it has under a key after a call depends
on what it had there, a call about one key does nothing to the others, and whether such a call succeeds and what the
answer is depends on what is there under this key. -/
structure Store.Keyed (store : Store τ) (content : τ → String → γ) : Prop where
  prompt : store.Prompt
  accept : ∀ c t, content (store.accept c t) = content t
  perform : ∀ {c t t' now key}, content t key = content t' key →
    content (store.perform c t now).2 key = content (store.perform c t' now).2 key
  others : ∀ {c t now key other}, c.key? = some other → key ≠ other →
    content (store.perform c t now).2 key = content t key
  reply : ∀ {c t t' now key}, c.key? = some key → content t key = content t' key →
    (store.perform c t now).1 = (store.perform c t' now).1

structure View (γ : Type) where
  config : Config
  isDistributed : Bool
  partition : Option Memory
  outside : Params → γ

def view (content : τ → String → γ) (type : String) (c : Cache) (t : τ) : View γ where
  config := c.config
  isDistributed := c.isDistributed
  partition := c.partitions.find? type
  outside params := content t (Key.derive type params)

variable {store : Store τ} {timeout : Duration} {content : τ → String → γ} {type other key : String} {c c' : Cache}
  {t t' : τ} {now : Instant} {v : View γ}

lemma typeConfig_eq_of_view (h : view content type c t = view content type c' t') (name : String) :
    c.typeConfig name = c'.typeConfig name := by
  rw [typeConfig, typeConfig, (View.mk.inj h).1]

lemma view_modify_other (hne : type ≠ other) (f : Memory → Memory) :
    view content type { c with partitions := c.partitions.modify other f } t = view content type c t := by
  simp only [view, Table.find?_modify, if_neg hne]

lemma view_insert_other (hne : type ≠ other) (p : Memory) :
    view content type { c with partitions := c.partitions.insert other p } t = view content type c t := by
  simp only [view, Table.find?_insert, if_neg hne]

lemma view_charge {ρ : Type} (reply : Option ρ) :
    view content type (c.charge reply) t = view content type c t := by
  simp only [view, charge_config, charge_isDistributed, charge_partitions]

lemma view_modify (h : view content type c t = view content type c' t') (f : Memory → Memory) :
    view content type { c with partitions := c.partitions.modify other f } t =
      view content type { c' with partitions := c'.partitions.modify other f } t' := by
  obtain ⟨hconfig, hdistributed, hpartition, houtside⟩ := View.mk.inj h
  simp only [view, View.mk.injEq, Table.find?_modify]
  refine ⟨hconfig, hdistributed, ?_, houtside⟩
  split
  · subst_vars
    rw [hpartition]
  · exact hpartition

lemma view_insert (h : view content type c t = view content type c' t') (p : Memory) :
    view content type { c with partitions := c.partitions.insert type p } t =
      view content type { c' with partitions := c'.partitions.insert type p } t' := by
  obtain ⟨hconfig, hdistributed, hpartition, houtside⟩ := View.mk.inj h
  simp only [view, View.mk.injEq, Table.find?_insert, if_true, true_and]
  exact ⟨hconfig, hdistributed, houtside⟩

lemma view_map (h : view content type c t = view content type c' t') (f : Memory → Memory) :
    view content type { c with partitions := c.partitions.map fun _ p => f p } t =
      view content type { c' with partitions := c'.partitions.map fun _ p => f p } t' := by
  obtain ⟨hconfig, hdistributed, hpartition, houtside⟩ := View.mk.inj h
  simp only [view, View.mk.injEq, Table.find?_map, hpartition, true_and]
  exact ⟨hconfig, hdistributed, houtside⟩

namespace Store.Keyed

variable (hs : store.Keyed content)

include hs

lemma ask_time (call : Call) (t : τ) (now : Instant) : (store.ask timeout call t now).2.2 = now := by
  rw [hs.prompt.ask]

lemma view_ask_other {call : Call} (hkey : call.key? = some key) (hne : ∀ params, Key.derive type params ≠ key) :
    view content type c (store.ask timeout call t now).2.1 = view content type c t := by
  rw [hs.prompt.ask]
  simp only [view, hs.others hkey (hne _), hs.accept]

lemma view_ask {call : Call} (h : view content type c t = view content type c' t') :
    view content type c (store.ask timeout call t now).2.1 =
      view content type c' (store.ask timeout call t' now).2.1 := by
  rw [hs.prompt.ask, hs.prompt.ask]
  obtain ⟨hconfig, hdistributed, hpartition, houtside⟩ := View.mk.inj h
  simp only [view, View.mk.injEq]
  refine ⟨hconfig, hdistributed, hpartition, funext fun params => hs.perform ?_⟩
  rw [hs.accept, hs.accept]
  exact congrFun houtside params

lemma reply_ask {call : Call} {params : Params} (hkey : call.key? = some (Key.derive type params))
    (h : view content type c t = view content type c' t') :
    (store.ask timeout call t now).1 = (store.ask timeout call t' now).1 := by
  rw [hs.prompt.ask, hs.prompt.ask]
  refine congrArg Except.toOption (hs.reply hkey ?_)
  rw [hs.accept, hs.accept]
  exact congrFun (congrArg View.outside h) params

lemma run_ask (c : Cache) (call : Call) (next : Option call.Reply → Cache → Instant → Operation α) (t : τ)
    (now : Instant) :
    (c.ask call next).run (store.ask timeout) t now =
      (next (store.ask timeout call t now).1 (c.charge (store.ask timeout call t now).1) now).run (store.ask timeout)
        (store.ask timeout call t now).2.1 now := by
  have hopen : (c.ask call next).run (store.ask timeout) t now =
      (next (store.ask timeout call t now).1 (c.charge (store.ask timeout call t now).1)
        (store.ask timeout call t now).2.2).run (store.ask timeout) (store.ask timeout call t now).2.1
        (store.ask timeout call t now).2.2 := rfl
  rw [hopen, hs.ask_time]

end Store.Keyed

/-! ### Operations on another type -/

section Other

variable (hs : store.Keyed content) (hne : type ≠ other) {params : Params} {post : α → Cache → τ → Instant → Prop}

include hs hne

lemma ends_ask_other {call : Call} {next : Option call.Reply → Cache → Instant → Operation α}
    (hkey : call.key? = some (Key.derive other params)) (h : view content type c t = v)
    (hnext : ∀ reply c t, view content type c t = v → Ends (store.ask timeout) (next reply c now) t now post) :
    Ends (store.ask timeout) (c.ask call next) t now post := by
  have hview : view content type (c.charge (store.ask timeout call t now).1)
      (store.ask timeout call t now).2.1 = v := by
    rw [view_charge, hs.view_ask_other hkey fun params' hk => hne (Key.type_of_derive hk), h]
  refine ends_ask.2 ?_
  dsimp only
  rw [hs.ask_time]
  exact hnext _ _ _ hview

lemma ends_readLevel_other {level : Level} {next : Option Bytes → Cache → Instant → Operation α}
    (h : view content type c t = v)
    (hnext : ∀ value c t, view content type c t = v → Ends (store.ask timeout) (next value c now) t now post) :
    Ends (store.ask timeout) (c.readLevel now other (Key.derive other params) level next) t now post := by
  cases level with
  | memory =>
    simp only [readLevel]
    cases c.partitions.find? other with
    | none => exact hnext _ _ _ h
    | some p => exact hnext _ _ _ ((view_insert_other hne _).trans h)
  | distributed =>
    rw [readLevel]
    split
    · exact ends_ask_other hs hne rfl h fun reply c t h => hnext _ c t h
    · exact hnext _ _ _ h

lemma ends_writeLevels_other {value : Bytes} {ttl : Duration} {next : Cache → Instant → Operation α}
    (levels : List Level) (h : view content type c t = v)
    (hnext : ∀ c t, view content type c t = v → Ends (store.ask timeout) (next c now) t now post) :
    Ends (store.ask timeout) (writeLevels other (Key.derive other params) value ttl next levels c now) t now post := by
  induction levels generalizing c t with
  | nil => exact hnext c t h
  | cons level rest ih =>
    cases level with
    | memory => exact ih ((view_modify_other hne _).trans h)
    | distributed =>
      rw [writeLevels]
      split
      · exact ends_ask_other hs hne rfl h fun _ _ _ h => ih h
      · exact ih h

lemma ends_lookup_other {decode : Bytes → Option α} {ttl : Duration} (faster rest : List Level)
    (h : view content type c t = v) :
    Ends (store.ask timeout) (lookup decode other (Key.derive other params) ttl faster rest c now) t now
      fun _ c t now' => view content type c t = v ∧ now' = now := by
  induction rest generalizing faster c t with
  | nil => exact ⟨h, rfl⟩
  | cons level rest ih =>
    refine ends_readLevel_other hs hne h fun value c t h => ?_
    cases value with
    | none => exact ih _ h
    | some bytes =>
      cases hd : decode bytes with
      | none => simpa only [hd] using ih _ h
      | some a =>
        simp only [hd]
        refine ends_writeLevels_other hs hne faster h fun c t h => ⟨?_, rfl⟩
        cases level <;> exact h

lemma ends_search_other (levels : List Level) (h : view content type c t = v) :
    Ends (store.ask timeout) (search other (Key.derive other params) levels c now) t now
      fun _ c t now' => view content type c t = v ∧ now' = now := by
  induction levels generalizing c t with
  | nil => exact ⟨h, rfl⟩
  | cons level rest ih =>
    cases level with
    | memory =>
      rw [search]
      split
      · exact ⟨h, rfl⟩
      · exact ih h
    | distributed =>
      rw [search]
      split
      · refine ends_ask_other hs hne rfl h fun reply c t h => ?_
        split
        · exact ⟨h, rfl⟩
        · exact ih h
      · exact ih h

lemma ends_deleteLevels_other (found : Bool) (levels : List Level) (h : view content type c t = v) :
    Ends (store.ask timeout) (deleteLevels other (Key.derive other params) found levels c now) t now
      fun _ c t now' => view content type c t = v ∧ now' = now := by
  induction levels generalizing found c t with
  | nil => exact ⟨h, rfl⟩
  | cons level rest ih =>
    cases level with
    | memory =>
      simp only [deleteLevels]
      cases c.partitions.find? other with
      | none => exact ih _ h
      | some p => exact ih _ ((view_insert_other hne _).trans h)
    | distributed =>
      rw [deleteLevels]
      split
      · exact ends_ask_other hs hne rfl h fun _ _ _ h => ih _ h
      · exact ih _ h

lemma ends_get_other {decode : Bytes → Option α} (h : view content type c t = v) :
    Ends (store.ask timeout) (c.get now decode other params) t now
      fun _ c t now' => view content type c t = v ∧ now' = now := by
  rw [get]
  cases c.typeConfig other with
  | error e => exact ⟨h, rfl⟩
  | ok cfg => exact ends_lookup_other hs hne [] cfg.levels h

lemma ends_set_other {value : Except String Bytes} (h : view content type c t = v) :
    Ends (store.ask timeout) (c.set now other params value) t now
      fun _ c t now' => view content type c t = v ∧ now' = now := by
  rw [set]
  cases c.typeConfig other with
  | error e => exact ⟨h, rfl⟩
  | ok cfg =>
    cases value with
    | error reason => exact ⟨h, rfl⟩
    | ok bytes => exact ends_writeLevels_other hs hne cfg.levels h fun c t h => ⟨h, rfl⟩

end Other

/-! ### Operations on the type itself -/

/-- Two operations have come to an end at once, with one result and one view. -/
structure Same (content : τ → String → γ) (type : String) (now : Instant) (e e' : α × Cache × τ × Instant) : Prop where
  result : e.1 = e'.1
  view : view content type e.2.1 e.2.2.1 = view content type e'.2.1 e'.2.2.1
  time : e.2.2.2 = now
  time' : e'.2.2.2 = now

def Agree (store : Store τ) (timeout : Duration) (content : τ → String → γ) (type : String) (now : Instant) (t t' : τ)
    (operation operation' : Operation α) : Prop :=
  Same content type now (operation.run (store.ask timeout) t now) (operation'.run (store.ask timeout) t' now)

lemma agree_done (h : view content type c t = view content type c' t') (a : α) :
    Agree store timeout content type now t t' (.done a c) (.done a c') := ⟨rfl, h, rfl, rfl⟩

lemma Agree.andThen {operation operation' : Operation α} {next next' : α → Cache → Instant → Operation β}
    (h : Agree store timeout content type now t t' operation operation')
    (hnext : ∀ a c c' t t', view content type c t = view content type c' t' →
      Agree store timeout content type now t t' (next a c now) (next' a c' now)) :
    Agree store timeout content type now t t' (operation.andThen now next) (operation'.andThen now next') := by
  rw [Agree, run_andThen, run_andThen, h.time, h.time', ← h.result]
  exact hnext _ _ _ _ _ h.view

lemma Agree.map {operation operation' : Operation α}
    (h : Agree store timeout content type now t t' operation operation') (f : α → β) :
    Agree store timeout content type now t t' (operation.map f) (operation'.map f) := by
  rw [Agree, run_map, run_map]
  exact ⟨congrArg f h.result, h.view, h.time, h.time'⟩

section Same

variable (hs : store.Keyed content) {params : Params} (h : view content type c t = view content type c' t')

include hs h

lemma agree_ask_any {call : Call} {next next' : Option call.Reply → Cache → Instant → Operation α}
    (hnext : ∀ reply reply' c c' t t', view content type c t = view content type c' t' →
      Agree store timeout content type now t t' (next reply c now) (next' reply' c' now)) :
    Agree store timeout content type now t t' (c.ask call next) (c'.ask call next') := by
  rw [Agree, hs.run_ask, hs.run_ask]
  refine hnext _ _ _ _ _ _ ?_
  rw [view_charge, view_charge, hs.view_ask h]

lemma agree_ask {call : Call} {next next' : Option call.Reply → Cache → Instant → Operation α}
    (hkey : call.key? = some (Key.derive type params))
    (hnext : ∀ reply c c' t t', view content type c t = view content type c' t' →
      Agree store timeout content type now t t' (next reply c now) (next' reply c' now)) :
    Agree store timeout content type now t t' (c.ask call next) (c'.ask call next') := by
  rw [Agree, hs.run_ask, hs.run_ask, ← hs.reply_ask hkey h]
  refine hnext _ _ _ _ _ ?_
  rw [view_charge, view_charge, hs.view_ask h]

lemma agree_readLevel {level : Level} {next next' : Option Bytes → Cache → Instant → Operation α}
    (hnext : ∀ value c c' t t', view content type c t = view content type c' t' →
      Agree store timeout content type now t t' (next value c now) (next' value c' now)) :
    Agree store timeout content type now t t' (c.readLevel now type (Key.derive type params) level next)
      (c'.readLevel now type (Key.derive type params) level next') := by
  obtain ⟨-, hdistributed, hpartition, -⟩ := View.mk.inj h
  cases level with
  | memory =>
    simp only [readLevel, ← hpartition]
    cases c.partitions.find? type with
    | none => exact hnext _ _ _ _ _ h
    | some p => exact hnext _ _ _ _ _ (view_insert h _)
  | distributed =>
    simp only [readLevel, ← hdistributed]
    split
    · exact agree_ask hs h rfl fun reply => hnext reply.join
    · exact hnext _ _ _ _ _ h

lemma agree_writeLevels {value : Bytes} {ttl : Duration} {next next' : Cache → Instant → Operation α}
    (levels : List Level)
    (hnext : ∀ c c' t t', view content type c t = view content type c' t' →
      Agree store timeout content type now t t' (next c now) (next' c' now)) :
    Agree store timeout content type now t t' (writeLevels type (Key.derive type params) value ttl next levels c now)
      (writeLevels type (Key.derive type params) value ttl next' levels c' now) := by
  induction levels generalizing c c' t t' with
  | nil => exact hnext _ _ _ _ h
  | cons level rest ih =>
    cases level with
    | memory => exact ih (view_modify h _)
    | distributed =>
      obtain ⟨-, hdistributed, -, -⟩ := View.mk.inj h
      simp only [writeLevels, ← hdistributed]
      split
      · exact agree_ask hs h rfl fun _ _ _ _ _ h => ih h
      · exact ih h

lemma agree_lookup {decode : Bytes → Option α} {ttl : Duration} (faster rest : List Level) :
    Agree store timeout content type now t t' (lookup decode type (Key.derive type params) ttl faster rest c now)
      (lookup decode type (Key.derive type params) ttl faster rest c' now) := by
  induction rest generalizing faster c c' t t' with
  | nil => exact ⟨rfl, h, rfl, rfl⟩
  | cons level rest ih =>
    refine agree_readLevel hs h fun value c c' t t' h => ?_
    cases value with
    | none => exact ih h _
    | some bytes =>
      cases hd : decode bytes with
      | none => simpa only [hd] using ih h _
      | some a =>
        simp only [hd]
        refine agree_writeLevels hs h faster fun c c' t t' h => agree_done ?_ _
        cases level <;> exact h

lemma agree_search (levels : List Level) :
    Agree store timeout content type now t t' (search type (Key.derive type params) levels c now)
      (search type (Key.derive type params) levels c' now) := by
  induction levels generalizing c c' t t' with
  | nil => exact agree_done h _
  | cons level rest ih =>
    obtain ⟨-, hdistributed, hpartition, -⟩ := View.mk.inj h
    cases level with
    | memory =>
      rw [search, search, ← hpartition]
      split
      · exact agree_done h _
      · exact ih h
    | distributed =>
      rw [search, search, ← hdistributed]
      split
      · refine agree_ask hs h rfl fun reply c c' t t' h => ?_
        split
        · exact agree_done h _
        · exact ih h
      · exact ih h

lemma agree_deleteLevels (found : Bool) (levels : List Level) :
    Agree store timeout content type now t t' (deleteLevels type (Key.derive type params) found levels c now)
      (deleteLevels type (Key.derive type params) found levels c' now) := by
  induction levels generalizing found c c' t t' with
  | nil => exact agree_done h _
  | cons level rest ih =>
    obtain ⟨-, hdistributed, hpartition, -⟩ := View.mk.inj h
    cases level with
    | memory =>
      simp only [deleteLevels, ← hpartition]
      cases c.partitions.find? type with
      | none => exact ih h _
      | some p => exact ih (view_insert h _) _
    | distributed =>
      simp only [deleteLevels, ← hdistributed]
      split
      · exact agree_ask hs h rfl fun _ _ _ _ _ h => ih h _
      · exact ih h _

lemma agree_get {decode : Bytes → Option α} :
    Agree store timeout content type now t t' (c.get now decode type params) (c'.get now decode type params) := by
  rw [get, get, typeConfig_eq_of_view h]
  cases c'.typeConfig type with
  | error e => exact agree_done h _
  | ok cfg => exact agree_lookup hs h [] cfg.levels

lemma agree_set {value : Except String Bytes} :
    Agree store timeout content type now t t' (c.set now type params value) (c'.set now type params value) := by
  rw [set, set, typeConfig_eq_of_view h]
  cases c'.typeConfig type with
  | error e => exact agree_done h _
  | ok cfg =>
    cases value with
    | error reason => exact agree_done h _
    | ok bytes => exact agree_writeLevels hs h cfg.levels fun c c' t t' h => ⟨rfl, h, rfl, rfl⟩

end Same

end Serving.Cache
