import Mathlib.Tactic.Lemma
import Serving.Proofs.Memory.History

/-! What a cache may expect of its outside store. A store may be prompt, or refuse every call. It may keep what it is
given, forget it when it likes and never make anything up; and it may moreover do as it is told when it says so. The
memory store is of the last kind, and so it is when at times it turns calls away. -/

namespace Serving.Cache.Store

variable {τ : Type} {store : Store τ} {timeout : Duration} {c : Call} {t : τ} {now : Instant}

/-- Answers or fails every call without delay. -/
def Prompt (store : Store τ) : Prop := ∀ c t, store.delay c (store.accept c t) = some 0

/-- Fails every call at once, with one error or another. -/
structure Refuses (store : Store τ) : Prop where
  prompt : store.Prompt
  perform : ∀ c t now, ∃ e, (store.perform c t now).1 = .error e

/-- A store that writes down the calls that come. -/
def recorded (store : Store τ) : Store (τ × List Call) where
  accept c s := (store.accept c s.1, s.2 ++ [c])
  delay c s := store.delay c s.1
  perform c s now := ((store.perform c s.1 now).1, (store.perform c s.1 now).2, s.2)

/-- `holds` tells what a store keeps, and `live` which of it may still be read. Nothing is read that is not kept, and
nothing is kept that was not put there. -/
structure Keeps (store : Store τ) (holds : τ → String → Entry → Prop) (live : Entry → Instant → Prop) : Prop where
  accept : ∀ {c t key e}, holds (store.accept c t) key e → holds t key e
  get : ∀ {key t now value}, (store.perform (.get key) t now).1 = .ok (some value) →
    ∃ e, holds t key e ∧ e.value = value ∧ live e now
  perform : ∀ {c t now key e}, holds (store.perform c t now).2 key e →
    holds t key e ∨ ∃ value ttl, c = .set key value ttl ∧ e = ⟨value, now + ttl⟩

/-- A store that has overwritten or deleted an entry when it says so. -/
structure Obeys (store : Store τ) (holds : τ → String → Entry → Prop) (live : Entry → Instant → Prop) : Prop
    extends store.Keeps holds live where
  set : ∀ {key value ttl t now e}, (store.perform (.set key value ttl) t now).1 = .ok () →
    holds (store.perform (.set key value ttl) t now).2 key e → e = ⟨value, now + ttl⟩
  delete : ∀ {key t now b e}, (store.perform (.delete key) t now).1 = .ok b →
    ¬holds (store.perform (.delete key) t now).2 key e

lemma Prompt.ask (h : store.Prompt) : store.ask timeout c t now =
    ((store.perform c (store.accept c t) now).1.toOption, (store.perform c (store.accept c t) now).2, now) := by
  simp [Store.ask, h c t, ending]

lemma Refuses.ask (h : store.Refuses) (timeout : Duration) (c : Call) (t : τ) (now : Instant) :
    ∃ t', store.ask timeout c t now = (none, t', now) := by
  obtain ⟨e, he⟩ := h.perform c (store.accept c t) now
  exact ⟨_, by rw [h.prompt.ask, he]; rfl⟩

lemma ask_recorded (s : τ × List Call) : store.recorded.ask timeout c s now =
    ((store.ask timeout c s.1 now).1, ((store.ask timeout c s.1 now).2.1, s.2 ++ [c]),
      (store.ask timeout c s.1 now).2.2) := by
  cases h : (ending (store.delay c (store.accept c s.1)) timeout now).2 <;> simp [Store.ask, recorded, h]

lemma ok_of_toOption {ε α : Type} {r : Except ε α} {a : α} (h : r.toOption = some a) : r = .ok a := by
  cases r with
  | error e => cases h
  | ok b => exact congrArg Except.ok (Option.some.inj h)

section Ask

variable {holds : τ → String → Entry → Prop} {live : Entry → Instant → Prop} {key : String} {e : Entry}
  {value : Bytes} {ttl : Duration}

/-- A call is given up, or it is carried out at its end. -/
lemma ask_cases (store : Store τ) (timeout : Duration) (c : Call) (t : τ) (now : Instant) :
    (∃ now', store.ask timeout c t now = (none, store.accept c t, now')) ∨
      ∃ now', store.ask timeout c t now =
        ((store.perform c (store.accept c t) now').1.toOption, (store.perform c (store.accept c t) now').2, now') := by
  simp only [Store.ask]
  split
  · exact .inr ⟨_, rfl⟩
  · exact .inl ⟨_, rfl⟩

lemma Keeps.holds_ask (h : store.Keeps holds live) (hh : holds (store.ask timeout c t now).2.1 key e) :
    holds t key e ∨ ∃ value ttl, c = .set key value ttl ∧ e = ⟨value, (store.ask timeout c t now).2.2 + ttl⟩ := by
  rcases ask_cases store timeout c t now with ⟨now', ha⟩ | ⟨now', ha⟩ <;> rw [ha] at hh ⊢
  · exact .inl (h.accept hh)
  · exact (h.perform hh).imp h.accept id

lemma Keeps.ask_get (h : store.Keeps holds live)
    (hr : (store.ask timeout (.get key) t now).1 = some (some value)) :
    ∃ e, holds t key e ∧ e.value = value ∧ live e (store.ask timeout (.get key) t now).2.2 := by
  rcases ask_cases store timeout (.get key) t now with ⟨now', ha⟩ | ⟨now', ha⟩ <;> rw [ha] at hr ⊢
  · cases hr
  · obtain ⟨e, he, hv, hl⟩ := h.get (ok_of_toOption hr)
    exact ⟨e, h.accept he, hv, hl⟩

lemma Obeys.ask_set (h : store.Obeys holds live) (hr : (store.ask timeout (.set key value ttl) t now).1 = some ())
    (hh : holds (store.ask timeout (.set key value ttl) t now).2.1 key e) :
    e = ⟨value, (store.ask timeout (.set key value ttl) t now).2.2 + ttl⟩ := by
  rcases ask_cases store timeout (.set key value ttl) t now with ⟨now', ha⟩ | ⟨now', ha⟩ <;> rw [ha] at hr hh ⊢
  · cases hr
  · exact h.set (ok_of_toOption hr) hh

lemma Obeys.ask_delete (h : store.Obeys holds live) {b : Bool}
    (hr : (store.ask timeout (.delete key) t now).1 = some b) :
    ¬holds (store.ask timeout (.delete key) t now).2.1 key e := by
  rcases ask_cases store timeout (.delete key) t now with ⟨now', ha⟩ | ⟨now', ha⟩ <;> rw [ha] at hr ⊢
  · cases hr
  · exact h.delete (ok_of_toOption hr)

end Ask

/-- The store when at times it turns calls away. -/
def interrupted (store : Store τ) (down : Instant → Option StoreError) : Store τ :=
  { store with
    perform := fun c t now =>
      match down now with
      | some e => (.error e, t)
      | none => store.perform c t now }

section Interrupted

variable {holds : τ → String → Entry → Prop} {live : Entry → Instant → Prop} {down : Instant → Option StoreError}

lemma perform_interrupted (store : Store τ) (down : Instant → Option StoreError) (c : Call) (t : τ) (now : Instant) :
    (∃ e, (store.interrupted down).perform c t now = (.error e, t)) ∨
      (store.interrupted down).perform c t now = store.perform c t now := by
  cases h : down now with
  | some e => exact .inl ⟨e, by simp [interrupted, h]⟩
  | none => exact .inr (by simp [interrupted, h])

lemma Prompt.interrupted (h : store.Prompt) : (store.interrupted down).Prompt := h

lemma Prompt.refuses_interrupted (h : store.Prompt) (e : StoreError) :
    (store.interrupted fun _ => some e).Refuses := ⟨h.interrupted, fun _ _ _ => ⟨e, rfl⟩⟩

lemma Obeys.interrupted (h : store.Obeys holds live) : (store.interrupted down).Obeys holds live where
  accept := h.accept
  get {key t now value} hr := by
    rcases perform_interrupted store down (.get key) t now with ⟨e, hp⟩ | hp <;> rw [hp] at hr
    · cases hr
    · exact h.get hr
  perform {c t now key e} hh := by
    rcases perform_interrupted store down c t now with ⟨_, hp⟩ | hp <;> rw [hp] at hh
    · exact .inl hh
    · exact h.perform hh
  set {key value ttl t now e} hr hh := by
    rcases perform_interrupted store down (.set key value ttl) t now with ⟨_, hp⟩ | hp <;>
      rw [hp] at hr hh
    · cases hr
    · exact h.set hr hh
  delete {key t now b e} hr := by
    rcases perform_interrupted store down (.delete key) t now with ⟨_, hp⟩ | hp <;>
      rw [hp] at hr ⊢
    · cases hr
    · exact h.delete hr

end Interrupted

lemma prompt_ofMemory : ofMemory.Prompt := fun _ _ => rfl

lemma obeys_ofMemory {live : Entry → Instant → Prop} (hl : ∀ e now, e.isExpired now = false → live e now) :
    ofMemory.Obeys (fun m key e => (key, e) ∈ m.entries) live where
  accept h := h
  get h := by
    obtain ⟨e, he, hv, hx⟩ := Memory.exists_of_get (Except.ok.inj h)
    exact ⟨e, he, hv, hl e _ hx⟩
  perform := Memory.mem_of_mem_answer
  set _ h := by
    rcases Memory.mem_of_mem_set h with h | ⟨_, h⟩
    · exact absurd rfl (Memory.mem_others.1 h).2
    · exact h
  delete _ h := (Memory.mem_others.1 h).2 rfl

end Serving.Cache.Store
