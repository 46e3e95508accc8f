import Mathlib.Algebra.BigOperators.Group.List.Basic
import Mathlib.Algebra.Group.Pi.Basic
import Mathlib.Algebra.GroupWithZero.Nat
import Serving.Proofs.Cache.Noting

/-! What the counters of a cache say. However many operations use it at a time and whatever becomes of their calls, each
of them adds to the counters what is due for it by the time it is over, and never counts a hit before it has read
something. -/

namespace Serving.Cache

open Routine

variable {α β : Type} {config : Config} {c : Cache} {now : Instant} {type key : String} {params : Params}

/-- What is counted, apart from calls that went wrong. To read is to find bytes in a partition. -/
inductive Counter
  | hits
  | misses
  | memoryHits
  | distributedHits
  | sets
  | reads
  deriving DecidableEq

abbrev Counts := Counter → Nat

def one (counter : Counter) : Counts := fun other => if other = counter then 1 else 0

def counts (c : Cache) : Counts
  | .hits => c.hits
  | .misses => c.misses
  | .memoryHits => c.memoryHits
  | .distributedHits => c.distributedHits
  | .sets => c.sets
  | .reads => (c.partitions.values.map (·.hits)).sum

/-! ### Reads of the partitions -/

section Reads

variable {f : Memory → Memory} {p p' : Memory}

lemma sum_put {l : List (String × Memory)} (h : l.lookup type = some p) :
    ((Table.put type p' l).map (·.2.hits)).sum + p.hits = (l.map (·.2.hits)).sum + p'.hits := by
  induction l with
  | nil => cases h
  | cons x rest ih =>
    obtain ⟨name, m⟩ := x
    by_cases hn : name = type
    · subst hn
      rw [List.lookup_cons_self] at h
      obtain rfl := Option.some.inj h
      simp only [Table.put, if_true, List.map_cons, List.sum_cons]
      omega
    · have hne : (type == name) = false := beq_eq_false_iff_ne.2 (Ne.symm hn)
      rw [List.lookup_cons, hne] at h
      have hrest := ih h
      simp only [Table.put, hn, if_false, List.map_cons, List.sum_cons]
      omega

lemma reads_eq (c : Cache) : c.counts .reads = (c.partitions.toList.map (·.2.hits)).sum := by
  rw [counts, Table.values, List.map_map]
  rfl

lemma reads_insert (p' : Memory) (h : c.partitions.find? type = some p) :
    counts { c with partitions := c.partitions.insert type p' } .reads + p.hits = c.counts .reads + p'.hits := by
  rw [reads_eq, reads_eq]
  exact sum_put h

lemma reads_modify (hf : ∀ m, (f m).hits = m.hits) :
    counts { c with partitions := c.partitions.modify type f } .reads = c.counts .reads := by
  rw [reads_eq, reads_eq, Table.modify, List.map_map]
  congr 2
  funext x
  obtain ⟨name, m⟩ := x
  by_cases hn : name = type
  · simp only [Function.comp_apply, hn, if_true, hf]
  · simp only [Function.comp_apply, hn, if_false]

lemma reads_map (hf : ∀ m, (f m).hits = m.hits) :
    counts { c with partitions := c.partitions.map fun _ p => f p } .reads = c.counts .reads := by
  rw [reads_eq, reads_eq, Table.map, List.map_map]
  congr 2
  funext x
  exact hf x.2

lemma Memory.get_hits (m : Memory) (now : Instant) (key : String) :
    (m.get now key).2.hits = m.hits + if (m.get now key).1.isSome then 1 else 0 := by
  rw [get]
  split
  · rfl
  · split <;> rfl

end Reads

/-! ### What operations count -/

/-- An operation has counted `now` by now and `before` by its last call, when the cache had other counts. -/
structure Counted (config : Config) (before start : Counts) (errors : Nat) (now : Counts) (c : Cache) : Prop where
  settings : c.config = config
  errors : c.backendErrors = errors
  counts : c.counts + before = start + now

/-- Hits are hits at one of the levels, and whoever hits the memory level has read there. -/
structure Credible (t : Counts) : Prop where
  levels : t .hits = t .memoryHits + t .distributedHits
  reads : t .memoryHits ≤ t .reads

/-- What an operation has counted is credible at every call, and in the end it is what is due. -/
def Counting (config : Config) (due : α → Counts → Prop) : (before start : Counts) → (errors : Nat) → Operation α → Prop
  | before, start, errors, .done a c => ∃ t, Counted config before start errors t c ∧ due a t
  | before, start, errors, .call _ c resume =>
    ∃ t, Counted config before start errors t c ∧ Credible t ∧ ∀ reply c now, c.config = config →
      Counting config due t c.counts (c.backendErrors + if reply.isNone then 1 else 0) (resume reply c now)

variable {due : α → Counts → Prop} {before start t t' : Counts} {errors : Nat}

namespace Counted

lemma more {c' : Cache} (h : Counted config before start errors t c) (hc : c'.config = c.config)
    (he : c'.backendErrors = c.backendErrors) (hk : ∀ k, c'.counts k + t k = c.counts k + t' k) :
    Counted config before start errors t' c' where
  settings := hc.trans h.settings
  errors := he.trans h.errors
  counts := by
    funext k
    have hk := hk k
    have hcounts := congrFun h.counts k
    simp only [Pi.add_apply] at hcounts ⊢
    omega

lemma same {c' : Cache} (h : Counted config before start errors t c) (hc : c'.config = c.config)
    (he : c'.backendErrors = c.backendErrors) (hk : ∀ k, c'.counts k = c.counts k) :
    Counted config before start errors t c' :=
  h.more hc he fun k => by rw [hk]

lemma anew (h : c.config = config) : Counted config t c.counts c.backendErrors t c := ⟨h, rfl, rfl⟩

end Counted

namespace Counting

lemma mono {due' : α → Counts → Prop} {operation : Operation α} (h : Counting config due before start errors operation)
    (hdue : ∀ a t, due a t → due' a t) : Counting config due' before start errors operation := by
  induction operation generalizing before start errors with
  | done a c =>
    obtain ⟨t, ht, hd⟩ := h
    exact ⟨t, ht, hdue a t hd⟩
  | call call c resume ih =>
    obtain ⟨t, ht, hp, hnext⟩ := h
    exact ⟨t, ht, hp, fun reply c now hc => ih _ _ _ (hnext reply c now hc)⟩

lemma map {f : α → β} {due : β → Counts → Prop} {operation : Operation α}
    (h : Counting config (fun a => due (f a)) before start errors operation) :
    Counting config due before start errors (operation.map f) := by
  induction operation generalizing before start errors with
  | done a c => exact h
  | call call c resume ih =>
    obtain ⟨t, ht, hp, hnext⟩ := h
    exact ⟨t, ht, hp, fun reply c now hc => ih _ _ _ (hnext reply c now hc)⟩

lemma andThen {due' : β → Counts → Prop} {operation : Operation α} {next : α → Cache → Instant → Operation β}
    (h : Counting config due before start errors operation)
    (hnext : ∀ {before start errors t} a c now, due a t → Counted config before start errors t c →
      Counting config due' before start errors (next a c now)) (now : Instant) :
    Counting config due' before start errors (operation.andThen now next) := by
  induction operation generalizing before start errors now with
  | done a c =>
    obtain ⟨t, ht, hdue⟩ := h
    exact hnext a c now hdue ht
  | call call c resume ih =>
    obtain ⟨t, ht, hp, hresume⟩ := h
    exact ⟨t, ht, hp, fun reply c now hc => ih _ _ _ (hresume reply c now hc) now⟩

end Counting

lemma counting_ask {call : Call} {next : Option call.Reply → Cache → Instant → Operation α}
    (h : Counted config before start errors t c) (hp : Credible t)
    (hnext : ∀ {before start errors} reply c now, Counted config before start errors t c →
      Counting config due before start errors (next reply c now)) :
    Counting config due before start errors (c.ask call next) := by
  refine ⟨t, h, hp, fun reply c now hc => hnext reply _ now ?_⟩
  cases reply with
  | none => exact ⟨hc, rfl, rfl⟩
  | some r => exact .anew hc

def readAt (level : Level) (value : Option Bytes) : Counts := if level = .memory ∧ value.isSome then one .reads else 0

lemma readAt_memory (value : Option Bytes) (k : Counter) :
    readAt .memory value k = if k = .reads ∧ value.isSome then 1 else 0 := by
  rw [readAt]
  cases value <;> simp [one]

lemma counting_readLevel {level : Level} {next : Option Bytes → Cache → Instant → Operation α}
    (h : Counted config before start errors t c) (hp : Credible t)
    (hnext : ∀ {before start errors} value c now, Counted config before start errors (t + readAt level value) c →
      Counting config due before start errors (next value c now)) :
    Counting config due before start errors (c.readLevel now type key level next) := by
  cases level with
  | memory =>
    simp only [readLevel]
    cases hf : c.partitions.find? type with
    | none => exact hnext none c now h
    | some p =>
      refine hnext _ _ now (h.more rfl rfl fun k => ?_)
      have hreads := reads_insert (p.get now key).2 hf
      rw [p.get_hits] at hreads
      rw [Pi.add_apply, readAt_memory]
      cases k with
      | reads =>
        simp only [true_and]
        omega
      | _ => rfl
  | distributed =>
    rw [readLevel]
    split
    · exact counting_ask h hp fun reply c now h => hnext _ c now h
    · exact hnext none c now h

lemma counting_writeLevels {value : Bytes} {ttl : Duration} {next : Cache → Instant → Operation α} (levels : List Level)
    (h : Counted config before start errors t c) (hp : Credible t)
    (hnext : ∀ {before start errors} c now, Counted config before start errors t c →
      Counting config due before start errors (next c now)) :
    Counting config due before start errors (writeLevels type key value ttl next levels c now) := by
  induction levels generalizing before start errors c now with
  | nil => exact hnext c now h
  | cons level rest ih =>
    cases level with
    | memory =>
      refine ih (h.same rfl rfl fun k => ?_)
      cases k with
      | reads => exact reads_modify fun _ => rfl
      | _ => rfl
    | distributed =>
      rw [writeLevels]
      split
      · exact counting_ask h hp fun _ _ _ h => ih h
      · exact ih h

/-- What is due for an operation that is over. -/
structure Due (lookups sets unread : Nat) (t : Counts) : Prop where
  lookups : t .hits + t .misses = lookups
  levels : t .hits = t .memoryHits + t .distributedHits
  sets : t .sets = sets
  reads : t .reads = t .memoryHits + unread

namespace Due

variable {lookups sets unread lookups' sets' unread' : Nat}

lemma credible (h : Due lookups sets unread t) : Credible t where
  levels := h.levels
  reads := by
    have hreads := h.reads
    omega

lemma zero : Due 0 0 0 0 := ⟨rfl, rfl, rfl, rfl⟩

lemma add (h : Due lookups sets unread t) (h' : Due lookups' sets' unread' t') :
    Due (lookups + lookups') (sets + sets') (unread + unread') (t + t') := by
  obtain ⟨hl, hh, hs, hr⟩ := h
  obtain ⟨hl', hh', hs', hr'⟩ := h'
  constructor <;> simp only [Pi.add_apply] <;> omega

end Due

/-- Some bytes have been read, none of which could be decoded. -/
def unreadSoFar (unread : Nat) : Counts := fun k => if k = .reads then unread else 0

lemma unreadSoFar_add (unread : Nat) (level : Level) (bytes : Bytes) :
    unreadSoFar unread + readAt level (some bytes) = unreadSoFar (unread + if level = .memory then 1 else 0) := by
  funext k
  cases level <;> cases k <;> simp [unreadSoFar, readAt, one]

lemma credible_unread (unread : Nat) : Credible (unreadSoFar unread) := ⟨rfl, Nat.zero_le _⟩

def hitAt (level : Level) : Counts :=
  one .hits + one (match level with | .memory => .memoryHits | .distributed => .distributedHits)

lemma due_miss (unread : Nat) : Due 1 0 unread (unreadSoFar unread + one .misses) := by
  constructor <;> simp [unreadSoFar, one]

lemma due_hit (unread : Nat) (level : Level) (bytes : Bytes) :
    Due 1 0 unread (unreadSoFar unread + readAt level (some bytes) + hitAt level) := by
  cases level <;> constructor <;> simp [unreadSoFar, one, readAt, hitAt, Nat.add_comm]

lemma due_set (isSet : Bool) : Due 0 (if isSet then 1 else 0) 0 (if isSet then one .sets else 0) := by
  cases isSet <;> constructor <;> simp [one]

lemma counts_countHit (c : Cache) (level : Level) (k : Counter) :
    (c.countHit level).counts k = c.counts k + hitAt level k := by
  cases level <;> cases k <;> rfl

lemma counting_lookupNoting {decode : Bytes → Option α} {ttl : Duration} (faster : List Level) (unread : Nat)
    (levels : List Level) (h : Counted config before start errors (unreadSoFar unread) c) :
    Counting config (fun answer t => answer.1.isOk = true ∧ Due 1 0 answer.2 t) before start errors
      (lookupNoting decode type key ttl faster unread levels c now) := by
  induction levels generalizing faster unread before start errors c now with
  | nil =>
    refine ⟨_, h.more rfl rfl fun k => ?_, rfl, due_miss unread⟩
    rw [Pi.add_apply]
    cases k <;> simp [counts, one]
    omega
  | cons level rest ih =>
    refine counting_readLevel h (credible_unread unread) fun value c now h => ?_
    cases value with
    | none =>
      have hnone : readAt level none = 0 := by
        rw [readAt]
        simp
      rw [hnone, add_zero] at h
      exact ih _ _ h
    | some bytes =>
      dsimp only
      cases decode bytes with
      | none =>
        rw [unreadSoFar_add] at h
        exact ih _ _ h
      | some v =>
        have hp : Credible (unreadSoFar unread + readAt level (some bytes)) := by
          rw [unreadSoFar_add]
          exact credible_unread _
        refine counting_writeLevels faster h hp fun c now h => ?_
        refine ⟨_, h.more ?_ ?_ fun k => ?_, rfl, due_hit unread level bytes⟩
        · cases level <;> rfl
        · cases level <;> rfl
        · rw [counts_countHit, Pi.add_apply, Pi.add_apply, Pi.add_apply]
          omega

/-! ### Requests -/

def Config.knows (config : Config) (type : String) : Bool := (config.types.find? type).isSome

def Request.looksUp (config : Config) : Request → Bool
  | .get _ type _ | .compute _ type _ _ => config.knows type
  | _ => false

/-- Whether a request, by itself or for a computation, has set a value. -/
def Request.hasSet (r : Request) (answer : r.Answer) : Bool := (r.write? 0 answer).isSome

/-- What a request has to do with an answer: it is counted as one lookup, or as none, and so with sets. -/
def Request.Pays (config : Config) (r : Request) (answer : r.Answer × Nat) (t : Counts) : Prop :=
  Due (if r.looksUp config then 1 else 0) (if r.hasSet answer.1 then 1 else 0) answer.2 t

lemma isOk_typeConfig (hc : c.config = config) : (c.typeConfig type).isOk = config.knows type := by
  rw [typeConfig, Config.knows, hc]
  cases config.types.find? type <;> rfl

lemma unreadSoFar_zero : unreadSoFar 0 = 0 := by
  funext k
  exact ite_self 0

lemma counting_getNoting {decode : Bytes → Option α} (hc : c.config = config) :
    Counting config (fun answer t => answer.1.isOk = config.knows type ∧
      Due (if config.knows type then 1 else 0) 0 answer.2 t) 0 c.counts c.backendErrors
      (c.getNoting now decode type params) := by
  rw [← isOk_typeConfig hc, getNoting]
  cases c.typeConfig type with
  | error e => exact ⟨0, .anew hc, rfl, .zero⟩
  | ok cfg =>
    refine counting_lookupNoting [] 0 cfg.levels ?_
    rw [unreadSoFar_zero]
    exact .anew hc

lemma counting_set {value : Except String Bytes} (h : Counted config before start errors t c) (hp : Credible t) :
    Counting config (fun answer t' => answer.isOk = (config.knows type && value.isOk) ∧
      t' = t + if config.knows type && value.isOk then one .sets else 0) before start errors
      (c.set now type params value) := by
  rw [← isOk_typeConfig h.settings, set]
  cases c.typeConfig type with
  | error e => exact ⟨t, h, rfl, rfl⟩
  | ok cfg =>
    cases value with
    | error reason => exact ⟨t, h, rfl, rfl⟩
    | ok bytes =>
      refine counting_writeLevels cfg.levels h hp fun c now h => ⟨_, h.more rfl rfl fun k => ?_, rfl, rfl⟩
      rw [Pi.add_apply]
      cases k <;> simp [counts, one, Except.isOk, Except.toBool]
      omega

lemma counting_conclude {encoding : Encoding α} {computation : Unit → Except Error α}
    {looked : Except Error (Option α)} {unread : Nat} (hknown : looked.isOk = config.knows type)
    (h : Counted config before start errors t c) (ht : Due (if config.knows type then 1 else 0) 0 unread t) :
    Counting config (fun answer t => Request.Pays config (.compute encoding type params computation) (answer, unread) t)
      before start errors (conclude encoding type params computation looked c now) := by
  cases looked with
  | error e => exact ⟨t, h, ht⟩
  | ok found =>
    cases found with
    | some v => exact ⟨t, h, ht⟩
    | none =>
      simp only [conclude]
      cases computation () with
      | error e => exact ⟨t, h, ht⟩
      | ok v =>
        refine Counting.map ((counting_set h ht.credible).mono fun answer t' hset => ?_)
        obtain ⟨-, rfl⟩ := hset
        have hpays := ht.add (due_set (config.knows type && (encoding.encode v).isOk))
        rw [Nat.add_zero, Nat.zero_add, Nat.add_zero] at hpays
        have hsets : Request.hasSet (.compute encoding type params computation) ⟨.ok ⟨v, false⟩, 1⟩ =
            (config.knows type && (encoding.encode v).isOk) := by
          rw [← hknown]
          simp only [Request.hasSet, Request.write?]
          cases encoding.encode v <;> rfl
        rw [Request.Pays, hsets]
        exact hpays

lemma counting_search (levels : List Level) (h : Counted config before start errors 0 c) :
    Counting config (fun _ t => t = 0) before start errors (search type key levels c now) := by
  induction levels generalizing before start errors c now with
  | nil => exact ⟨0, h, rfl⟩
  | cons level rest ih =>
    cases level with
    | memory =>
      rw [search]
      split
      · exact ⟨0, h, rfl⟩
      · exact ih h
    | distributed =>
      rw [search]
      split
      · refine counting_ask h Due.zero.credible fun reply c now h => ?_
        split
        · exact ⟨0, h, rfl⟩
        · exact ih h
      · exact ih h

lemma counting_deleteLevels (found : Bool) (levels : List Level) (h : Counted config before start errors 0 c) :
    Counting config (fun _ t => t = 0) before start errors (deleteLevels type key found levels c now) := by
  induction levels generalizing found before start errors c now with
  | nil => exact ⟨0, h, rfl⟩
  | cons level rest ih =>
    cases level with
    | memory =>
      simp only [deleteLevels]
      cases hp : c.partitions.find? type with
      | none => exact ih _ h
      | some p =>
        refine ih _ (h.same rfl rfl fun k => ?_)
        cases k with
        | reads =>
          have hreads : _ + p.hits = _ + p.hits := reads_insert (p.delete key).2 hp
          exact Nat.add_right_cancel hreads
        | _ => rfl
    | distributed =>
      rw [deleteLevels]
      split
      · exact counting_ask h Due.zero.credible fun _ _ _ h => ih _ h
      · exact ih _ h

lemma Counted.clearType (h : Counted config before start errors t c) (type : String) :
    Counted config before start errors t (c.clearType type) := by
  refine h.same rfl rfl fun k => ?_
  cases k with
  | reads => exact reads_modify fun _ => rfl
  | _ => rfl

lemma Counted.map {f : Memory → Memory} (h : Counted config before start errors t c) (hf : ∀ m, (f m).hits = m.hits) :
    Counted config before start errors t { c with partitions := c.partitions.map fun _ p => f p } := by
  refine h.same rfl rfl fun k => ?_
  cases k with
  | reads => exact reads_map hf
  | _ => rfl

lemma counting_dropTypes {next : Cache → Instant → Operation α} (types : List String)
    (h : Counted config before start errors 0 c)
    (hnext : ∀ {before start errors} c now, Counted config before start errors 0 c →
      Counting config due before start errors (next c now)) :
    Counting config due before start errors (dropTypes types c now next) := by
  induction types generalizing before start errors c now with
  | nil => exact hnext c now h
  | cons type rest ih =>
    rw [dropTypes_cons]
    split
    · exact counting_ask (h.clearType type) Due.zero.credible fun _ _ _ h => ih h
    · exact ih (h.clearType type)

/-- Whatever a request does, in the end it has counted what it has to. -/
theorem counting_performNoting (now : Instant) (r : Request) (hc : c.config = config) :
    Counting config (r.Pays config) 0 c.counts c.backendErrors (c.performNoting now r) := by
  have h : Counted config 0 c.counts c.backendErrors 0 c := .anew hc
  -- a request that neither looks up nor sets anything counts nothing
  have hquiet (r : Request) (hl : r.looksUp config = false) (hs : ∀ answer, r.hasSet answer = false)
      (hr : Counting config (fun _ t => t = 0) 0 c.counts c.backendErrors (c.perform now r)) :
      Counting config (r.Pays config) 0 c.counts c.backendErrors ((c.perform now r).map (·, 0)) := by
    refine Counting.map (hr.mono fun answer t ht => ?_)
    rw [Request.Pays, hl, hs, ht]
    exact .zero
  cases r with
  | get decode type params =>
    refine (counting_getNoting hc).mono fun answer t ht => ?_
    exact ht.2
  | set type params value =>
    refine Counting.map ((counting_set h Due.zero.credible).mono fun answer t ht => ?_)
    obtain ⟨hok, rfl⟩ := ht
    have hsets : Request.hasSet (.set type params value) answer = (config.knows type && value.isOk) := by
      rw [← hok]
      cases value with
      | error reason => rw [hok, Except.isOk, Except.toBool, Bool.and_false]; rfl
      | ok bytes => cases answer <;> rfl
    rw [Request.Pays, hsets, zero_add]
    exact due_set _
  | compute encoding type params computation =>
    refine (counting_getNoting hc).andThen (fun looked c now ht h => ?_) now
    exact Counting.map (counting_conclude ht.1 h ht.2)
  | exists? type params =>
    refine hquiet _ rfl (fun _ => rfl) ?_
    rw [perform, exists?]
    split
    · exact ⟨0, h, rfl⟩
    · exact counting_search _ h
  | invalidate type params =>
    refine hquiet _ rfl (fun _ => rfl) ?_
    rw [perform, invalidate]
    split
    · exact ⟨0, h, rfl⟩
    · exact counting_deleteLevels false _ h
  | invalidateTags tags => exact hquiet _ rfl (fun _ => rfl) (counting_dropTypes _ h fun _ _ h => ⟨0, h, rfl⟩)
  | clear =>
    refine hquiet _ rfl (fun _ => rfl) ?_
    have hcleared : Counted config 0 c.counts c.backendErrors 0 { c with partitions := c.partitions.map fun _ p => p.clear } :=
      h.map fun _ => rfl
    simp only [perform, clear]
    split
    · exact counting_ask hcleared Due.zero.credible fun _ _ _ h => ⟨0, h, rfl⟩
    · exact ⟨0, hcleared, rfl⟩
  | sweep => exact hquiet .sweep rfl (fun _ => rfl) ⟨0, h.map fun _ => rfl, rfl⟩
  | statistics =>
    refine hquiet _ rfl (fun _ => rfl) ?_
    simp only [perform, statistics]
    split
    · exact counting_ask h Due.zero.credible fun _ _ _ h => ⟨0, h, rfl⟩
    · exact ⟨0, h, rfl⟩
  | status =>
    refine hquiet _ rfl (fun _ => rfl) ?_
    simp only [perform, status]
    split
    · exact counting_ask h Due.zero.credible fun _ _ _ h => ⟨0, h, rfl⟩
    · exact ⟨0, h, rfl⟩
  | wait d => exact hquiet (.wait d) rfl (fun _ => rfl) ⟨0, h, rfl⟩

end Serving.Cache
