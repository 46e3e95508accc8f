import Serving.Proofs.Cache.Views

/-! Requests about one type do not show in the answers about another one. Each step of a run leaves the same view to the
other type whether or not further requests have come in between: such a request leaves the view alone, a request about
the type goes by the view, and all others take it from one value to one other. -/

namespace Serving.Cache

open Routine

/-- The type that a request is about, if it is about one. -/
def Request.type? : Request → Option String
  | get _ type _ => some type
  | set type _ _ => some type
  | exists? type _ => some type
  | invalidate type _ => some type
  | compute _ type _ _ => some type
  | invalidateTags _ | clear | sweep | statistics | status | wait _ => none

variable {τ α γ : Type} {store : Store τ} {timeout : Duration} {content : τ → String → γ} {type other : String}
  {c c' : Cache} {t t' : τ} {now : Instant} {v : View γ}

section Requests

variable (hs : store.Keyed content)

include hs

/-- A request about another type takes no time and leaves the view as it is. -/
theorem ends_perform_other (hne : type ≠ other) (r : Request) (hr : r.type? = some other)
    (h : view content type c t = v) :
    Ends (store.ask timeout) (c.perform now r) t now fun _ c t now' => view content type c t = v ∧ now' = now := by
  cases r with
  | get decode =>
    obtain rfl := Option.some.inj hr
    exact ends_get_other hs hne h
  | set =>
    obtain rfl := Option.some.inj hr
    exact ends_set_other hs hne h
  | exists? =>
    obtain rfl := Option.some.inj hr
    simp only [perform, exists?]
    cases c.typeConfig _ with
    | error e => exact ⟨h, rfl⟩
    | ok cfg => exact ends_search_other hs hne cfg.levels h
  | invalidate =>
    obtain rfl := Option.some.inj hr
    simp only [perform, invalidate]
    cases c.typeConfig _ with
    | error e => exact ⟨h, rfl⟩
    | ok cfg => exact ends_deleteLevels_other hs hne false cfg.levels h
  | compute encoding type params computation =>
    obtain rfl := Option.some.inj hr
    refine ends_andThen.2 ((ends_get_other hs hne h).mono ?_)
    rintro looked c t _ ⟨h, rfl⟩
    cases looked with
    | error e => exact ⟨h, rfl⟩
    | ok found =>
      cases found with
      | some a => exact ⟨h, rfl⟩
      | none =>
        cases computation () with
        | error e => exact ⟨h, rfl⟩
        | ok a => exact ends_map.2 (ends_set_other hs hne h)
  | invalidateTags | clear | sweep | statistics | status | wait => cases hr

variable (h : view content type c t = view content type c' t')

include h

/-- A request about a type goes by what the type sees. -/
theorem agree_perform (r : Request) (hr : r.type? = some type) :
    Agree store timeout content type now t t' (c.perform now r) (c'.perform now r) := by
  cases r with
  | get =>
    obtain rfl := Option.some.inj hr
    exact agree_get hs h
  | set =>
    obtain rfl := Option.some.inj hr
    exact agree_set hs h
  | exists? =>
    obtain rfl := Option.some.inj hr
    simp only [perform, exists?, typeConfig_eq_of_view h]
    cases c'.typeConfig _ with
    | error e => exact agree_done h _
    | ok cfg => exact agree_search hs h cfg.levels
  | invalidate =>
    obtain rfl := Option.some.inj hr
    simp only [perform, invalidate, typeConfig_eq_of_view h]
    cases c'.typeConfig _ with
    | error e => exact agree_done h _
    | ok cfg => exact agree_deleteLevels hs h false cfg.levels
  | compute encoding type params computation =>
    obtain rfl := Option.some.inj hr
    refine (agree_get hs h).andThen fun looked c c' t t' h => ?_
    cases looked with
    | error e => exact agree_done h _
    | ok found =>
      cases found with
      | some a => exact agree_done h _
      | none =>
        cases computation () with
        | error e => exact agree_done h _
        | ok a => exact (agree_set hs h).map _
  | invalidateTags | clear | sweep | statistics | status | wait => cases hr

lemma agree_dropTypes (types : List String) {next next' : Cache → Instant → Operation α}
    (hnext : ∀ c c' t t', view content type c t = view content type c' t' →
      Agree store timeout content type now t t' (next c now) (next' c' now)) :
    Agree store timeout content type now t t' (dropTypes types c now next) (dropTypes types c' now next') := by
  induction types generalizing c c' t t' with
  | nil => exact hnext _ _ _ _ h
  | cons name rest ih =>
    obtain ⟨hconfig, hdistributed, -, -⟩ := View.mk.inj h
    have hreach : c.reaches name = c'.reaches name := by rw [reaches, reaches, hconfig, hdistributed]
    rw [dropTypes_cons, dropTypes_cons, hreach]
    split
    · exact agree_ask_any hs (view_modify h _) fun _ _ _ _ _ _ h => ih h
    · exact ih (view_modify h _)

/-- A request that is about no type in particular. -/
lemma agree_perform_none (r : Request) (hr : r.type? = none) :
    Agree store timeout content type now t t' ((c.perform now r).map fun _ => ())
      ((c'.perform now r).map fun _ => ()) := by
  obtain ⟨hconfig, hdistributed, -, -⟩ := View.mk.inj h
  cases r with
  | invalidateTags tags =>
    have htagged : c.tagged tags = c'.tagged tags := by rw [tagged, tagged, hconfig]
    simp only [perform, invalidateTags, htagged]
    exact (agree_dropTypes hs h _ fun _ _ _ _ h => agree_done h _).map _
  | clear =>
    rw [perform, perform]
    refine Agree.map ?_ _
    have hcleared := view_map h fun p => p.clear
    rw [clear, clear]
    split <;> split
    · exact agree_ask_any hs hcleared fun _ _ _ _ _ _ h => agree_done h _
    · simp_all
    · simp_all
    · exact agree_done hcleared _
  | sweep => exact ⟨rfl, view_map h fun p => (p.sweep now).2, rfl, rfl⟩
  | statistics =>
    rw [perform, perform, statistics, statistics, hdistributed]
    split
    · rw [map_ask, map_ask]
      exact agree_ask_any hs h fun _ _ _ _ _ _ h => agree_done h ()
    · exact agree_done h ()
  | status =>
    rw [perform, perform, status, status, hdistributed]
    split
    · rw [map_ask, map_ask]
      exact agree_ask_any hs h fun _ _ _ _ _ _ h => agree_done h ()
    · exact agree_done h ()
  | wait d => exact ⟨rfl, h, rfl, rfl⟩
  | get | set | exists? | invalidate | compute => cases hr

/-- Whatever is asked, from one view one other view comes. -/
theorem agree_perform_map (r : Request) :
    Agree store timeout content type now t t' ((c.perform now r).map fun _ => ())
      ((c'.perform now r).map fun _ => ()) := by
  cases hr : r.type? with
  | none => exact agree_perform_none hs h r hr
  | some other =>
    by_cases hne : type = other
    · subst hne
      exact (agree_perform hs h r hr).map _
    · have hleft : Ends (store.ask timeout) (c.perform now r) t now
          fun _ d u now' => view content type d u = view content type c t ∧ now' = now :=
        ends_perform_other hs hne r hr rfl
      have hright : Ends (store.ask timeout) (c'.perform now r) t' now
          fun _ d u now' => view content type d u = view content type c' t' ∧ now' = now :=
        ends_perform_other hs hne r hr rfl
      rw [Agree, run_map, run_map]
      exact ⟨rfl, hleft.1.trans (h.trans hright.1.symm), hleft.2, hright.2⟩

end Requests

/-- A request with the outside store as it behaves by then. -/
structure Occasion (τ : Type) where
  store : Store τ
  request : Request

/-- Some occasions come in between, all of one kind. -/
inductive Inserted (P : Occasion τ → Prop) : List (Occasion τ) → List (Occasion τ) → Prop
  | nil : Inserted P [] []
  | both (o : Occasion τ) {base more : List (Occasion τ)} : Inserted P base more → Inserted P (o :: base) (o :: more)
  | between (o : Occasion τ) {base more : List (Occasion τ)} : P o → Inserted P base more → Inserted P base (o :: more)

namespace Memory

variable {m : Memory} {key other : String} {e : Entry}

lemma lookup_latest : (m.others key ++ [(key, e)]).lookup other = if other = key then some e else m.find? other := by
  rw [List.lookup_append, others, Table.lookup_filter_ne]
  by_cases h : other = key
  · simp [h]
  · have hne : (other == key) = false := beq_eq_false_iff_ne.2 h
    simp [List.lookup_cons, h, hne, find?]

/-- What is under a key after a call, when there was room. -/
def left (now : Instant) (c : Call) (key : String) (found : Option Entry) : Option Entry :=
  match c with
  | .get k => if key = k then found.filter fun e => !e.isExpired now else found
  | .set k value ttl => if key = k then some ⟨value, now + ttl⟩ else found
  | .delete k => if key = k then none else found
  | .clear => none
  | .deleteMatching pattern => if fits pattern key then none else found
  | .has _ | .stats | .health => found

theorem find?_answer (hroom : m.size < m.capacity) (now : Instant) (c : Call) (key : String) :
    (m.answer now c).2.find? key = left now c key (m.find? key) := by
  cases c with
  | get k =>
    rw [answer, left]
    cases hf : m.find? k with
    | none =>
      rw [get_none now hf]
      split
      · subst_vars
        rw [hf, Option.filter_none]
        exact hf
      · rfl
    | some e =>
      cases he : e.isExpired now with
      | true =>
        rw [get_expired hf he, find?, others, Table.lookup_filter_ne]
        split
        · subst_vars
          rw [hf, Option.filter_some, he]
          rfl
        · rfl
      | false =>
        rw [get_live hf he, find?, lookup_latest]
        split
        · subst_vars
          rw [hf, Option.filter_some, he]
          rfl
        · rfl
  | set k value ttl =>
    have hfew : (m.others k).length ≤ m.size := List.length_filter_le ..
    have hnone : (m.others k ++ [(k, (⟨value, now + ttl⟩ : Entry))]).length - m.capacity = 0 := by
      simp only [List.length_append, List.length_singleton]
      omega
    simp only [answer, set, hnone, List.drop_zero, find?, lookup_latest, left]
  | delete k => exact Table.lookup_filter_ne k key m.entries
  | deleteMatching pattern =>
    simp only [answer, deleteMatching_eq, find?, left]
    rw [Table.lookup_filter fun k => !fits pattern k]
    by_cases h : fits pattern key = true <;> simp [h]
  | clear | has | stats | health => rfl

lemma get_fst (m : Memory) (now : Instant) (key : String) :
    (m.get now key).1 = ((m.find? key).filter fun e => !e.isExpired now).map (·.value) := by
  cases hf : m.find? key with
  | none => rw [get_none now hf, Option.filter_none, Option.map_none]
  | some e =>
    cases he : e.isExpired now with
    | true => rw [get_expired hf he, Option.filter_some, he, Bool.not_true, if_neg Bool.false_ne_true, Option.map_none]
    | false => rw [get_live hf he, Option.filter_some, he, Bool.not_false, if_pos rfl, Option.map_some]

end Memory

/-- The memory store when it always has room for one more entry. -/
def Store.roomy : Store Memory where
  accept _ m := m
  delay _ _ := some 0
  perform c m now :=
    let (reply, m) := { m with capacity := m.size + 1 }.answer now c
    (.ok reply, m)

lemma Store.keyed_roomy : Store.roomy.Keyed Memory.find? := by
  have hfind (c : Call) (m : Memory) (now : Instant) (key : String) :
      (Store.roomy.perform c m now).2.find? key = Memory.left now c key (m.find? key) :=
    Memory.find?_answer (Nat.lt_succ_self _) now c key
  refine ⟨fun _ _ => rfl, fun _ _ => rfl, fun {c t t' now key} h => ?_, fun {c t now key other} hk hne => ?_,
    fun {c t t' now key} hk h => ?_⟩
  · rw [hfind, hfind, h]
  · rw [hfind]
    cases c <;> simp_all [Call.key?, Memory.left]
  · cases c with
    | get k =>
      obtain rfl := Option.some.inj hk
      simp only [roomy, Memory.answer, Memory.get_fst]
      exact congrArg (fun found => Except.ok ((Option.filter (fun e => !e.isExpired now) found).map (·.value))) h
    | set k => rfl
    | delete k =>
      obtain rfl := Option.some.inj hk
      exact congrArg (fun found => Except.ok (Option.isSome found)) h
    | has k =>
      obtain rfl := Option.some.inj hk
      exact congrArg (fun found => Except.ok (Option.any (fun e => !e.isExpired now) found)) h
    | clear | deleteMatching | stats | health => cases hk

lemma Store.Keyed.interrupted (h : store.Keyed content) (down : Instant → Option StoreError) :
    (store.interrupted down).Keyed content := by
  refine ⟨h.prompt.interrupted, h.accept, fun {c t t' now key} hc => ?_, fun {c t now key other} hk hne => ?_,
    fun {c t t' now key} hk hc => ?_⟩ <;> simp only [Store.interrupted] <;> split
  · exact hc
  · exact h.perform hc
  · rfl
  · exact h.others hk hne
  · rfl
  · exact h.reply hk hc

namespace History

def through (s : History τ) (occasions : List (Occasion τ)) : History τ :=
  occasions.foldl (fun s o => s.step o.store o.request) s

/-- The requests about a type, when they came and how they were answered. -/
def about (s : History τ) (type : String) : List Exchange :=
  s.past.filter fun x => decide (x.request.type? = some type)

/-- A type sees the same in two histories, and so it did in the past. -/
structure Alike (content : τ → String → γ) (type : String) (s s' : History τ) : Prop where
  view : view content type s.cache s.store = view content type s'.cache s'.store
  now : s.now = s'.now
  about : s.about type = s'.about type

variable {s s' : History τ} {base more : List (Occasion τ)}

lemma about_step (s : History τ) (store : Store τ) (r : Request) (type : String) : (s.step store r).about type =
    s.about type ++ if r.type? = some type then [⟨r, s.now, s.answer store r⟩] else [] := by
  rw [about, step, List.filter_append]
  split <;> simp_all [about, answer]

namespace Alike

lemma play (h : Alike content type s s') (store : Store τ) (r : Request) : s'.play store r =
    (s'.cache.perform s.now r).run (store.ask s.cache.config.remote.operationTimeout) s'.store s.now := by
  have hconfig : s.cache.config = s'.cache.config := (View.mk.inj h.view).1
  rw [History.play, Cache.run, hconfig, h.now]

lemma answer (h : Alike content type s s') (hs : store.Keyed content) {r : Request} (hr : r.type? = some type) :
    s.answer store r = s'.answer store r := by
  rw [History.answer, History.answer, h.play]
  exact (agree_perform hs h.view r hr).result

/-- Both histories go on with the same request. -/
lemma both (h : Alike content type s s') (hs : store.Keyed content) (r : Request) :
    Alike content type (s.step store r) (s'.step store r) := by
  have hagree : Agree store s.cache.config.remote.operationTimeout content type s.now s.store s'.store
      ((s.cache.perform s.now r).map fun _ => ()) ((s'.cache.perform s.now r).map fun _ => ()) :=
    agree_perform_map hs h.view r
  rw [Agree, run_map, run_map, ← h.play] at hagree
  refine ⟨hagree.view, congrArg (· + r.duration) (hagree.time.trans hagree.time'.symm), ?_⟩
  rw [about_step, about_step, h.about, h.now]
  split
  · rename_i hr
    rw [h.answer hs hr]
  · rfl

/-- Only one of the histories goes on, and with a request about another type. -/
lemma between (h : Alike content type s s') (hs : store.Keyed content) (hne : type ≠ other) {r : Request}
    (hr : r.type? = some other) : Alike content type s (s'.step store r) := by
  obtain ⟨hview, htime⟩ : Ends (store.ask s'.cache.config.remote.operationTimeout) (s'.cache.perform s'.now r) s'.store
      s'.now fun _ c t now => Cache.view content type c t = Cache.view content type s'.cache s'.store ∧ now = s'.now :=
    ends_perform_other hs hne r hr rfl
  have hduration : r.duration = 0 := by cases r <;> first | rfl | cases hr
  refine ⟨h.view.trans hview.symm, ?_, ?_⟩
  · have hstep : (s'.step store r).now = (s'.play store r).2.2.2 + r.duration := rfl
    rw [hstep, hduration, h.now]
    exact htime.symm
  · have hother : r.type? ≠ some type := fun ht => hne (Option.some.inj (ht.symm.trans hr))
    rw [about_step, if_neg hother, List.append_nil, h.about]

lemma through (h : Alike content type s s') (hne : type ≠ other)
    (hi : Inserted (fun o => o.request.type? = some other) base more) (hs : ∀ o ∈ more, o.store.Keyed content) :
    Alike content type (s.through base) (s'.through more) := by
  induction hi generalizing s s' with
  | nil => exact h
  | both o hi ih =>
    obtain ⟨ho, hrest⟩ := List.forall_mem_cons.1 hs
    exact ih (h.both ho o.request) hrest
  | between o hr hi ih =>
    obtain ⟨ho, hrest⟩ := List.forall_mem_cons.1 hs
    exact ih (h.between ho hne hr) hrest

end Alike

/-- When requests about one type come in between, nothing changes in the answers to the requests about another type,
however the types are called and whatever room the partitions have. The outside store may fail at any request, but
whether it does is not up to those that came in between. -/
theorem types_do_not_interfere (hne : type ≠ other)
    (hi : Inserted (fun o => o.request.type? = some other) base more) (hs : ∀ o ∈ more, o.store.Keyed content)
    (s : History τ) : (s.through more).about type = (s.through base).about type := by
  have h : Alike content type s s := ⟨rfl, rfl, rfl⟩
  exact (h.through hne hi hs).about.symm

/-- Two types, one of which has a name that goes on behind the name of the other. -/
def neighbours : Config :=
  { types := .ofList [("a", { ttl := 10, capacity := some 1, levels := [.memory, .distributed] }),
      ("a:b", { ttl := 10, capacity := some 1, levels := [.memory, .distributed] })] }

/-- The outside store is there. -/
abbrev calm (r : Request) : Occasion Memory := ⟨.roomy, r⟩

/-- The outside store turns the request away. -/
abbrev rough (r : Request) : Occasion Memory := ⟨.interrupted .roomy fun _ => some .unavailable, r⟩

/-- The second value drives the first one out of memory, and is itself in memory only. -/
def quiet : List (Occasion Memory) :=
  [calm (.set "a:b" [] (.ok ⟨#[1]⟩)), rough (.set "a:b" [("k", .null)] (.ok ⟨#[2]⟩)), calm (.get some "a:b" [])]

def busy : List (Occasion Memory) :=
  [calm (.set "a:b" [] (.ok ⟨#[1]⟩)), rough (.set "a" [] (.ok ⟨#[3]⟩)),
    rough (.set "a:b" [("k", .null)] (.ok ⟨#[2]⟩)), calm (.set "a" [] (.ok ⟨#[4]⟩)), calm (.invalidate "a" []),
    calm (.get some "a:b" [])]

theorem types_do_not_interfere_busy :
    let s := start neighbours true (.new 10)
    (s.through busy).about "a:b" = (s.through quiet).about "a:b" ∧ ((s.through busy).about "a:b").length = 3 ∧
      (s.through busy).answer .roomy (.get some "a:b" []) = .ok (some ⟨#[1]⟩) := by
  have hcalm : Store.roomy.Keyed Memory.find? := Store.keyed_roomy
  have hrough : (Store.roomy.interrupted fun _ => some .unavailable).Keyed Memory.find? := hcalm.interrupted _
  have hbetween : Inserted (fun o => o.request.type? = some "a") quiet busy :=
    .both _ (.between _ rfl (.both _ (.between _ rfl (.between _ rfl (.both _ .nil)))))
  have hkeyed : ∀ o ∈ busy, o.store.Keyed Memory.find? := by
    simp only [busy, List.forall_mem_cons]
    exact ⟨hcalm, hrough, hrough, hcalm, hcalm, hcalm, List.forall_mem_nil _⟩
  exact ⟨types_do_not_interfere (by decide) hbetween hkeyed _, by decide +kernel⟩

end History

end Serving.Cache
