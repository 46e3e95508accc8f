import Serving.Proofs.Remote.Reflection

/-! A store behind a server and a memory store that get the same calls give the same answers, as long as the server is
in order and the memory store neither fills up nor outlives an entry. -/

namespace Serving.Cache

/-- A store behind a server and a memory store that get the same calls. -/
structure Twins where
  remote : Remote
  memory : Memory.History

namespace Twins

/-- Nobody has to sweep a server. -/
def step (s : Twins) (o : Memory.Operation) : Twins where
  remote := match o with
    | .call c => (s.remote.answer s.memory.now c).2
    | .sweep | .timePasses _ => s.remote
  memory := s.memory.step o

def start (config : RemoteConfig) (server : Server) (capacity : Nat) : Twins where
  remote := { config, server, isReachable := true }
  memory := .start capacity

def run (config : RemoteConfig) (server : Server) (capacity : Nat) (operations : List Memory.Operation) : Twins :=
  operations.foldl step (start config server capacity)

/-- The memory store has room, and no entry in it has outlived its time. -/
def AtEase (s : Twins) : Prop :=
  s.memory.memory.size < s.memory.memory.capacity ∧
    ∀ e ∈ s.memory.memory.entries, e.2.isExpired s.memory.now = false

instance (s : Twins) : Decidable s.AtEase := inferInstanceAs (Decidable (_ ∧ _))

/-- The memory store is at ease all along. -/
def Roomy : Twins → List Memory.Operation → Prop
  | s, [] => s.AtEase
  | s, o :: operations => s.AtEase ∧ Roomy (s.step o) operations

instance Roomy.decidable : (s : Twins) → (operations : List Memory.Operation) → Decidable (Roomy s operations)
  | s, [] => inferInstanceAs (Decidable s.AtEase)
  | s, o :: operations => @instDecidableAnd _ _ _ (Roomy.decidable (s.step o) operations)

def IsProper : Memory.Operation → Prop
  | .call c => c.IsProper
  | .sweep | .timePasses _ => True

variable {config : RemoteConfig} {server : Server} {capacity : Nat} {operations : List Memory.Operation} {s : Twins}
  {keyPrefix : String} {others : Table Bytes}

lemma reflects_start (hs : server.mode = .normal) (he : server.paging.IsExact) (hn : server.entries.names.Nodup)
    (hfree : ∀ name ∈ server.entries.names, ¬(config.keyPrefix ++ Key.start).toList <+: name.toList) :
    (start config server capacity).remote.Reflects config.keyPrefix server.entries
      (start config server capacity).memory.memory where
  isReachable := rfl
  lastFailure := rfl
  mode := hs
  paging := he
  names := hn
  config := rfl
  keys := List.nodup_nil
  inSpace key hk := absurd hk List.not_mem_nil
  found key hk := by
    have hout : config.keyPrefix ++ key ∉ server.entries.names := fun h =>
      hfree _ h (prefix_append_iff.2 ⟨key, rfl, hk⟩)
    rw [← Table.contains_iff, Table.contains, Bool.not_eq_true, Option.isSome_eq_false_iff, Option.isNone_iff_eq_none]
      at hout
    exact hout
  kept name _ := rfl
  hits := rfl
  misses := rfl

lemma reflects_step (hp : Glob.IsPlain keyPrefix) (h : s.remote.Reflects keyPrefix others s.memory.memory)
    (hs : s.AtEase) {o : Memory.Operation} (ho : IsProper o) :
    (s.step o).remote.Reflects keyPrefix others (s.step o).memory.memory := by
  cases o with
  | call c =>
    obtain ⟨_, _, _, h⟩ := h.answer hp hs.1 hs.2 ho
    exact h
  | sweep =>
    have hkept : s.memory.memory.entries.filter (fun e => !e.2.isExpired s.memory.now) = s.memory.memory.entries :=
      List.filter_eq_self.2 fun e he => by rw [hs.2 e he]; rfl
    simp only [step, Memory.History.step, Memory.sweep, hkept]
    exact ⟨h.toInOrder, h.config, h.keys, h.inSpace, h.found, h.kept, h.hits, h.misses⟩
  | timePasses d => exact h

lemma reflects_run (hp : Glob.IsPlain keyPrefix) (h : s.remote.Reflects keyPrefix others s.memory.memory)
    (hr : Roomy s operations) (ho : ∀ o ∈ operations, IsProper o) :
    (operations.foldl step s).remote.Reflects keyPrefix others (operations.foldl step s).memory.memory ∧
      (operations.foldl step s).AtEase := by
  induction operations generalizing s with
  | nil => exact ⟨h, hr⟩
  | cons o operations ih =>
    obtain ⟨ho, hrest⟩ := List.forall_mem_cons.1 ho
    exact ih (reflects_step hp h hr.1 ho) hr.2 hrest

/-- A store with a plain prefix, on a server that has no key of the cache under it and deals out each key once, and a
fresh memory store get the same calls about keys of the cache, while the memory store neither fills up nor outlives an
entry. Then whatever call comes next is answered, and answered alike: reads, removals and their numbers, entries, hits
and misses. And what the server has under other keys it still has. -/
theorem stores_answer_alike (hp : Glob.IsPlain config.keyPrefix) (hs : server.mode = .normal)
    (he : server.paging.IsExact) (hn : server.entries.names.Nodup)
    (hfree : ∀ name ∈ server.entries.names, ¬(config.keyPrefix ++ Key.start).toList <+: name.toList)
    (ho : ∀ o ∈ operations, IsProper o) (hr : Roomy (start config server capacity) operations) :
    let s := run config server capacity operations
    (∀ c : Call, c.IsProper → ∃ reply, (s.remote.answer s.memory.now c).1 = .ok reply ∧
      c.Alike reply (s.memory.memory.answer s.memory.now c).1) ∧
    ∀ name, ¬(config.keyPrefix ++ Key.start).toList <+: name.toList →
      s.remote.server.entries.find? name = server.entries.find? name := by
  intro s
  obtain ⟨h, hease⟩ := reflects_run hp (reflects_start hs he hn hfree) hr ho
  refine ⟨fun c hc => ?_, h.kept⟩
  obtain ⟨reply, hreply, halike, -⟩ := h.answer hp hease.1 hease.2 hc
  exact ⟨reply, hreply, halike⟩

def sharing : Server where
  entries := ⟨[("b:cache:x:1", ⟨#[9]⟩), ("a:session", ⟨#[8]⟩), ("cache:x:1", ⟨#[7]⟩)]⟩
  pageSize := 2

def busy : List Memory.Operation :=
  [.call (.set "cache:x:1" ⟨#[1]⟩ 5), .call (.set "cache:x:2" ⟨#[2]⟩ 5), .call (.set "cache:y:1" ⟨#[3]⟩ 5),
    .call (.get "cache:x:1"), .timePasses 4, .call (.get "cache:z:1"), .call (.deleteMatching "cache:x:*"), .sweep]

/-- Both stores count one entry, one hit and one miss; the neighbour's entry is where it was. -/
theorem stores_answer_alike_shared :
    (∃ reply, ((run { keyPrefix := "a:" } sharing 9 busy).remote.answer 4 .stats).1 = .ok reply ∧
      reply.entries = 1 ∧ reply.hits = 1 ∧ reply.misses = 1) ∧
    (run { keyPrefix := "a:" } sharing 9 busy).remote.server.entries.find? "b:cache:x:1" = some ⟨#[9]⟩ := by
  have hproper : ∀ o ∈ busy, IsProper o := by
    simp only [busy, List.forall_mem_cons, IsProper, Call.IsProper]
    refine ⟨by decide, by decide, by decide, by decide, trivial, by decide, ?_, trivial, by simp⟩
    exact ⟨"cache:x:", by decide, by decide, .inr rfl⟩
  have hroomy : Roomy (start { keyPrefix := "a:" } sharing 9) busy := by decide +kernel
  obtain ⟨halike, hkept⟩ :=
    stores_answer_alike (by decide) rfl (Paging.isExact_ofSize 2) (by decide) (by decide) hproper hroomy
  obtain ⟨reply, hreply, hentries, hhits, hmisses⟩ := halike .stats trivial
  exact ⟨⟨reply, hreply, hentries, hhits, hmisses⟩, (hkept "b:cache:x:1" (by decide)).trans rfl⟩

end Twins

end Serving.Cache
