import Serving.Proofs.Cache.Counters
import Serving.Proofs.Cache.Separation

/-! The books on a cache with many callers. Operations begin when they like and wait for the outside store as long as it
takes; each of them adds to the counters what is due for it, so that in the end these are the sums of what was due. -/

namespace Serving.Cache

open Routine

inductive Outcome (call : Call)
  | replied (reply : call.Reply)
  | failed (e : StoreError)
  | late

namespace Outcome

variable {call : Call}

def reply? : Outcome call → Option call.Reply
  | replied reply => some reply
  | _ => none

def isLost : Outcome call → Bool
  | replied _ => false
  | failed _ | late => true

lemma isNone_reply? (outcome : Outcome call) : outcome.reply?.isNone = outcome.isLost := by
  cases outcome <;> rfl

end Outcome

/-- How a call to a store goes that a caller waits for no longer than `timeout`. -/
def Store.outcome {τ : Type} (store : Store τ) (timeout : Duration) (call : Call) (t : τ) (now : Instant) : Outcome call :=
  let (ends, isAnswered) := ending (store.delay call (store.accept call t)) timeout now
  if isAnswered then
    match (store.perform call (store.accept call t) ends).1 with
    | .ok reply => .replied reply
    | .error e => .failed e
  else .late

lemma Store.ask_fst {τ : Type} (store : Store τ) (timeout : Duration) (call : Call) (t : τ) (now : Instant) :
    (store.ask timeout call t now).1 = (store.outcome timeout call t now).reply? := by
  simp only [ask, outcome]
  split
  · cases (store.perform call (store.accept call t) (ending (store.delay call (store.accept call t)) timeout now).1).1 <;>
      rfl
  · rfl

namespace Ledger

structure Running where
  request : Request
  call : Call
  resume : Option call.Reply → Cache → Instant → Operation (request.Answer × Nat)

/-- A request that is over, and how often the memory level had bytes for it that it could not decode. -/
structure Finished where
  request : Request
  answer : request.Answer
  unread : Nat

inductive Move
  | begins (r : Request) (now : Instant)
  | told (place : Nat) (outcome : (call : Call) → Outcome call) (now : Instant)

def Move.plain : Move → Sharing.Move
  | begins r now => .begins r now
  | told place outcome now => .told place (fun call => (outcome call).reply?) now

end Ledger

/-- A cache with many callers, and the books on it. -/
structure Ledger where
  cache : Cache
  running : List Ledger.Running := []
  finished : List Ledger.Finished := []
  /-- Calls that failed or took too long. -/
  lost : Nat := 0

namespace Ledger

def follow (r : Request) : Operation (r.Answer × Nat) → Cache × List Running × List Finished
  | .done a c => (c, [], [⟨r, a.1, a.2⟩])
  | .call asked c resume => (c, [⟨r, asked, resume⟩], [])

def step (s : Ledger) : Move → Ledger
  | .begins r now =>
    let (cache, running, finished) := follow r (s.cache.performNoting now r)
    { s with cache, running := s.running ++ running, finished := s.finished ++ finished }
  | .told place outcome now =>
    match s.running[place]? with
    | none => s
    | some p =>
      let (cache, running, finished) := follow p.request (p.resume (outcome p.call).reply? s.cache now)
      { cache
        running := s.running.eraseIdx place ++ running
        finished := s.finished ++ finished
        lost := s.lost + if (outcome p.call).isLost then 1 else 0 }

def start (config : Config) (isDistributed : Bool) : Ledger := { cache := .new config isDistributed }

def run (config : Config) (isDistributed : Bool) (moves : List Move) : Ledger :=
  moves.foldl step (start config isDistributed)

/-! The books are kept on the cache as it is. -/

def Running.plain (p : Running) : Pending := ⟨p.call, fun reply c now => (p.resume reply c now).map Prod.fst⟩

def plain (s : Ledger) : Sharing := ⟨s.cache, s.running.map Running.plain⟩

lemma leave_map (r : Request) (operation : Operation (r.Answer × Nat)) :
    Sharing.leave (operation.map Prod.fst) =
      ((follow r operation).1, (follow r operation).2.1.map Running.plain) := by
  cases operation <;> rfl

lemma plain_step (s : Ledger) (m : Move) : (s.step m).plain = s.plain.step m.plain := by
  cases m with
  | begins r now =>
    have hleave := leave_map r (s.cache.performNoting now r)
    rw [map_performNoting] at hleave
    simp only [plain, step, Sharing.step, Move.plain, hleave, List.map_append]
  | told place outcome now =>
    simp only [plain, step, Sharing.step, Move.plain, List.getElem?_map]
    cases s.running[place]? with
    | none => rfl
    | some p =>
      have hleave := leave_map p.request (p.resume (outcome p.call).reply? s.cache now)
      simp only [Option.map_some, Running.plain, hleave, List.map_append, List.eraseIdx_map]

theorem plain_run (config : Config) (isDistributed : Bool) (moves : List Move) :
    (run config isDistributed moves).plain = Sharing.run config isDistributed (moves.map Move.plain) := by
  rw [run, Sharing.run]
  have hstart : (start config isDistributed).plain = ⟨.new config isDistributed, []⟩ := rfl
  rw [← hstart]
  generalize start config isDistributed = s
  induction moves generalizing s with
  | nil => rfl
  | cons m moves ih => rw [List.map_cons, List.foldl_cons, List.foldl_cons, ← plain_step, ih]

/-! What the books say -/

variable {config : Config} {isDistributed : Bool} {s : Ledger}

/-- A request that waits goes on to count what it has to, when it has counted `t` so far. -/
def Running.Goes (config : Config) (p : Running) (t : Counts) : Prop :=
  Credible t ∧ ∀ reply c now, c.config = config → Counting config (p.request.Pays config) t c.counts
    (c.backendErrors + if reply.isNone then 1 else 0) (p.resume reply c now)

def Settled (config : Config) (finished : List Finished) (t : Counts) : Prop :=
  Due (finished.countP (·.request.looksUp config)) (finished.countP fun x => x.request.hasSet x.answer)
    (finished.map (·.unread)).sum t

/-- The counters are what is due for the requests that are over, and what the others have counted so far. -/
structure Balanced (config : Config) (cache : Cache) (running : List Running) (finished : List Finished) : Prop where
  settings : cache.config = config
  counts : ∃ (settled : Counts) (parts : List (Running × Counts)), Settled config finished settled ∧
    parts.map Prod.fst = running ∧ (∀ p ∈ parts, p.1.Goes config p.2) ∧
    cache.counts = settled + (parts.map Prod.snd).sum

lemma Settled.concat {finished : List Finished} {settled t : Counts} {r : Request} {answer : r.Answer × Nat}
    (h : Settled config finished settled) (ht : r.Pays config answer t) :
    Settled config (finished ++ [⟨r, answer.1, answer.2⟩]) (settled + t) := by
  have hsum := h.add ht
  simp only [Settled, List.countP_append, List.countP_singleton, List.map_append, List.sum_append, List.map_cons,
    List.map_nil, List.sum_singleton]
  exact hsum

/-- One request goes on, and the others wait. -/
lemma Balanced.follow {finished : List Finished} {settled before start : Counts} {errors : Nat}
    {parts : List (Running × Counts)} {r : Request} {operation : Operation (r.Answer × Nat)}
    (hsettled : Settled config finished settled) (hparts : ∀ p ∈ parts, p.1.Goes config p.2)
    (hstart : start = settled + before + (parts.map Prod.snd).sum)
    (h : Counting config (r.Pays config) before start errors operation) :
    let (cache, running, more) := follow r operation
    Balanced config cache (parts.map Prod.fst ++ running) (finished ++ more) ∧ cache.backendErrors = errors := by
  have hcounts {t : Counts} {c : Cache} (ht : Counted config before start errors t c) :
      c.counts = settled + t + (parts.map Prod.snd).sum := by
    funext k
    have hk := congrFun ht.counts k
    rw [hstart] at hk
    simp only [Pi.add_apply] at hk ⊢
    omega
  cases operation with
  | done a c =>
    obtain ⟨t, ht, hdue⟩ := h
    exact ⟨⟨ht.settings, settled + t, parts, hsettled.concat hdue, (List.append_nil _).symm, hparts, hcounts ht⟩, ht.errors⟩
  | call asked c resume =>
    obtain ⟨t, ht, hp, hnext⟩ := h
    refine ⟨⟨ht.settings, settled, parts ++ [(⟨r, asked, resume⟩, t)], ?_, ?_, ?_, ?_⟩, ht.errors⟩
    · rw [List.append_nil]
      exact hsettled
    · rw [List.map_append]
      rfl
    · intro p hmem
      rcases List.mem_append.1 hmem with hmem | hmem
      · exact hparts p hmem
      · rw [List.mem_singleton.1 hmem]
        exact ⟨hp, hnext⟩
    · rw [hcounts ht, List.map_append, List.sum_append, List.map_singleton, List.sum_singleton, add_assoc,
        add_comm t]

/-- The books are right: what is lost is counted, and all else adds up. -/
structure Right (config : Config) (s : Ledger) : Prop extends Balanced config s.cache s.running s.finished where
  lost : s.cache.backendErrors = s.lost

lemma right_start (config : Config) (isDistributed : Bool) : Right config (start config isDistributed) where
  settings := rfl
  counts := by
    refine ⟨0, [], .zero, rfl, List.forall_mem_nil _, ?_⟩
    funext k
    cases k with
    | reads =>
      rw [start, reads_eq, Cache.new, Table.map, List.map_map]
      exact List.sum_eq_zero fun n hn => by
        obtain ⟨_, -, rfl⟩ := List.mem_map.1 hn
        rfl
    | _ => rfl
  lost := rfl

lemma Right.step (h : Right config s) (m : Move) : Right config (s.step m) := by
  obtain ⟨⟨hsettings, settled, parts, hsettled, hparts, hgoes, hcounts⟩, hlost⟩ := h
  cases m with
  | begins r now =>
    obtain ⟨hbalanced, herrors⟩ := Balanced.follow hsettled hgoes (by rw [add_zero, hcounts])
      (counting_performNoting now r hsettings)
    rw [hparts] at hbalanced
    exact ⟨hbalanced, herrors.trans hlost⟩
  | told place outcome now =>
    rw [Ledger.step]
    cases hp : s.running[place]? with
    | none => exact ⟨⟨hsettings, settled, parts, hsettled, hparts, hgoes, hcounts⟩, hlost⟩
    | some p =>
      rw [← hparts, List.getElem?_map] at hp
      obtain ⟨⟨p, before⟩, hpart, rfl⟩ := Option.map_eq_some_iff.1 hp
      obtain ⟨hplace, hget⟩ := List.getElem?_eq_some_iff.1 hpart
      have hsum : before + ((parts.eraseIdx place).map Prod.snd).sum = (parts.map Prod.snd).sum := by
        have hperm := ((List.getElem_cons_eraseIdx_perm hplace).map Prod.snd).sum_eq
        rwa [List.map_cons, List.sum_cons, hget] at hperm
      have hgoes' := (hgoes _ (List.mem_of_getElem? hpart)).2 (outcome p.call).reply? s.cache now hsettings
      obtain ⟨hbalanced, herrors⟩ := Balanced.follow hsettled
        (fun q hq => hgoes q (List.mem_of_mem_eraseIdx hq)) (by rw [add_assoc, hsum, hcounts]) hgoes'
      rw [← List.eraseIdx_map, hparts] at hbalanced
      rw [Outcome.isNone_reply?, hlost] at herrors
      exact ⟨hbalanced, herrors⟩

theorem right_run (config : Config) (isDistributed : Bool) (moves : List Move) :
    Right config (run config isDistributed moves) := by
  rw [run]
  have hstart := right_start config isDistributed
  generalize start config isDistributed = s at hstart ⊢
  induction moves generalizing s with
  | nil => exact hstart
  | cons m moves ih => exact ih _ (hstart.step m)

lemma memory_hits (c : Cache) : (⟨c, none⟩ : Statistics).memory.hits = c.counts .reads := by
  have hsum (l : List Memory) (a : Stats) :
      ((l.map (·.stats)).foldl .add a).hits = a.hits + (l.map (·.hits)).sum := by
    induction l generalizing a with
    | nil => rfl
    | cons m rest ih =>
      rw [List.map_cons, List.foldl_cons, ih, List.map_cons, List.sum_cons, ← Nat.add_assoc]
      rfl
  exact (hsum c.partitions.values {}).trans (Nat.zero_add _)

lemma perform_unknown {c : Cache} {type : String} (r : Request) (now : Instant) (hr : r.type? = some type)
    (hunknown : c.config.knows type = false) : ∃ answer, c.perform now r = .done answer c := by
  have hconfig : c.typeConfig type = .error (.unknownCacheType type) := by
    rw [Config.knows, Option.isSome_eq_false_iff, Option.isNone_iff_eq_none] at hunknown
    rw [typeConfig, hunknown]
  cases r with
  | get | set | exists? | invalidate =>
    obtain rfl := Option.some.inj hr
    simp only [perform, get, set, exists?, invalidate, hconfig]
    exact ⟨_, rfl⟩
  | compute =>
    obtain rfl := Option.some.inj hr
    simp only [perform, compute, get, hconfig]
    exact ⟨_, rfl⟩
  | invalidateTags | clear | sweep | statistics | status | wait => cases hr

lemma credible_sum {l : List Counts} (h : ∀ t ∈ l, Credible t) : Credible l.sum := by
  refine List.sum_induction Credible (fun t t' ht ht' => ?_) Due.zero.credible h
  obtain ⟨hl, hr⟩ := ht
  obtain ⟨hl', hr'⟩ := ht'
  constructor <;> simp only [Pi.add_apply] <;> omega

/-- At any time in any run the hits are those at the two levels, there are no more hits at the memory level than its
partitions have counted, and the errors are the calls that failed or took too long, as a call to any store does for which
nobody gets a reply. When nobody waits any more, each lookup under a known type has been counted as one hit or one miss,
each set that succeeded as one, and the partitions have counted as many hits more than the cache as they had bytes that
could not be decoded. A request about a type that is not known changes nothing, and neither do the books. -/
theorem counters_tell_the_truth (config : Config) (isDistributed : Bool) (moves : List Move) :
    let s := run config isDistributed moves
    let reads := (⟨s.cache, none⟩ : Statistics).memory.hits
    s.plain = Sharing.run config isDistributed (moves.map Move.plain) ∧
      s.cache.hits = s.cache.memoryHits + s.cache.distributedHits ∧ s.cache.memoryHits ≤ reads ∧
      s.cache.backendErrors = s.lost ∧
      (s.running = [] →
        s.cache.hits + s.cache.misses = s.finished.countP (·.request.looksUp config) ∧
        s.cache.sets = (s.finished.countP fun x => x.request.hasSet x.answer) ∧
        reads = s.cache.memoryHits + (s.finished.map (·.unread)).sum) ∧
      (∀ (r : Request) type now, r.type? = some type → config.knows type = false →
        ∃ answer, s.cache.perform now r = .done answer s.cache) ∧
      ∀ (τ : Type) (store : Store τ) (timeout : Duration) (call : Call) (t : τ) (now : Instant),
        (store.ask timeout call t now).1 = (store.outcome timeout call t now).reply? := by
  intro s reads
  obtain ⟨⟨hsettings, settled, parts, hsettled, hparts, hgoes, hcounts⟩, hlost⟩ : Right config s :=
    right_run config isDistributed moves
  have hcredible : Credible s.cache.counts := by
    have hrunning : ∀ t ∈ settled :: parts.map Prod.snd, Credible t := by
      rw [List.forall_mem_cons, List.forall_mem_map]
      exact ⟨hsettled.credible, fun p hp => (hgoes p hp).1⟩
    rw [hcounts, ← List.sum_cons]
    exact credible_sum hrunning
  have hreads : reads = s.cache.counts .reads := memory_hits s.cache
  refine ⟨plain_run config isDistributed moves, hcredible.levels, hreads ▸ hcredible.reads, hlost, fun hover => ?_,
    fun r type now hr hunknown => ?_, fun τ store => store.ask_fst⟩
  · have hall : s.cache.counts = settled := by
      obtain rfl : parts = [] := List.map_eq_nil_iff.1 (hparts.trans hover)
      exact hcounts.trans (add_zero settled)
    rw [← hall] at hsettled
    exact ⟨hsettled.lookups, hsettled.sets, hreads.trans hsettled.reads⟩
  · rw [← hsettings] at hunknown
    exact perform_unknown r now hr hunknown

/-- A write and a lookup that overlap. The lookup takes nothing it finds, and neither of them hears from the store. -/
def mishaps : List Move :=
  [.begins (.write 1 5) 0, .begins (.get (fun _ => (none : Option Unit)) "a" [("k", .ofNat 1)]) 0,
    .told 1 (fun _ => .late) 1, .told 0 (fun _ => .failed .unavailable) 2, .begins (.read 1) 3,
    .begins (.get some "b" []) 4]

theorem counters_tell_the_truth_of_mishaps :
    let s := run .tight true mishaps
    s.running = [] ∧ s.cache.backendErrors = 2 ∧ s.cache.hits + s.cache.misses = 2 ∧ s.cache.sets = 1 ∧
      (⟨s.cache, none⟩ : Statistics).memory.hits = s.cache.memoryHits + 1 ∧
      ∃ answer, s.cache.perform 5 (.get some "b" []) = .done answer s.cache := by
  intro s
  obtain ⟨-, -, -, hlost, hover, hunknown, -⟩ := counters_tell_the_truth .tight true mishaps
  have hrunning : s.running = [] := by decide +kernel
  obtain ⟨hlookups, hsets, hreads⟩ := hover hrunning
  have hfinished : s.lost = 2 ∧ s.finished.countP (·.request.looksUp .tight) = 2 ∧
      (s.finished.countP fun x => x.request.hasSet x.answer) = 1 ∧ (s.finished.map (·.unread)).sum = 1 := by
    decide +kernel
  obtain ⟨htwo, hlooked, hset, hunread⟩ := hfinished
  rw [hunread] at hreads
  exact ⟨hrunning, hlost.trans htwo, hlookups.trans hlooked, hsets.trans hset, hreads,
    hunknown (.get some "b" []) "b" 5 rfl (by decide)⟩

end Ledger

end Serving.Cache
