import Serving.Proofs.Cache.Sharing

/-! Lookups that note how often the memory level had bytes for them that they could not decode. But for the note they
are the lookups of the cache. -/

namespace Serving

namespace Routine

variable {κ : Type} {ρ : κ → Type} {σ α β γ : Type}

lemma map_id (r : Routine κ ρ σ α) : (r.map fun a => a) = r := by
  induction r with
  | done a s => rfl
  | call c s resume ih =>
    rw [map]
    exact congrArg _ (funext fun r => funext fun s => funext fun now => ih r s now)

lemma map_map (f : α → β) (g : β → γ) (r : Routine κ ρ σ α) : (r.map f).map g = r.map fun a => g (f a) := by
  induction r with
  | done a s => rfl
  | call c s resume ih =>
    rw [map, map, map]
    exact congrArg _ (funext fun r => funext fun s => funext fun now => ih r s now)

lemma map_andThen (f : β → γ) (now : Instant) (next : α → σ → Instant → Routine κ ρ σ β) (r : Routine κ ρ σ α) :
    (r.andThen now next).map f = r.andThen now fun a s now => (next a s now).map f := by
  induction r generalizing now with
  | done a s => rfl
  | call c s resume ih =>
    rw [andThen, andThen, map]
    exact congrArg _ (funext fun r => funext fun s => funext fun now => ih r s now now)

lemma andThen_map (f : α → β) (now : Instant) (next : β → σ → Instant → Routine κ ρ σ γ) (r : Routine κ ρ σ α) :
    (r.map f).andThen now next = r.andThen now fun a => next (f a) := by
  induction r generalizing now with
  | done a s => rfl
  | call c s resume ih =>
    rw [map, andThen, andThen]
    exact congrArg _ (funext fun r => funext fun s => funext fun now => ih r s now now)

end Routine

namespace Cache

open Routine

variable {α β : Type} {type key : String} {c : Cache} {now : Instant}

lemma map_readLevel (f : α → β) (level : Level) (next : Option Bytes → Cache → Instant → Operation α) :
    (c.readLevel now type key level next).map f =
      c.readLevel now type key level fun value c now => (next value c now).map f := by
  cases level with
  | memory =>
    simp only [readLevel]
    cases c.partitions.find? type <;> rfl
  | distributed =>
    rw [readLevel, readLevel]
    split
    · rw [map_ask]
    · rfl

lemma map_writeLevels (f : α → β) (value : Bytes) (ttl : Duration) (next : Cache → Instant → Operation α)
    (levels : List Level) : (writeLevels type key value ttl next levels c now).map f =
      writeLevels type key value ttl (fun c now => (next c now).map f) levels c now := by
  induction levels generalizing c now with
  | nil => rfl
  | cons level rest ih =>
    cases level with
    | memory => exact ih
    | distributed =>
      rw [writeLevels, writeLevels]
      split
      · rw [map_ask]
        exact congrArg _ (funext fun _ => funext fun _ => funext fun _ => ih)
      · exact ih

def lookupNoting (decode : Bytes → Option α) (type key : String) (ttl : Duration) :
    (faster : List Level) → (unread : Nat) → List Level → Cache → Instant → Operation (Except Error (Option α) × Nat)
  | _, unread, [], c, _ => .done (.ok none, unread) { c with misses := c.misses + 1 }
  | faster, unread, level :: rest, c, now =>
    c.readLevel now type key level fun value c now =>
      match value with
      | none => lookupNoting decode type key ttl (faster ++ [level]) unread rest c now
      | some bytes =>
        match decode bytes with
        | none =>
          lookupNoting decode type key ttl (faster ++ [level]) (unread + if level = .memory then 1 else 0) rest c now
        | some v =>
          writeLevels type key bytes ttl (fun c _ => .done (.ok (some v), unread) (c.countHit level)) faster c now

def getNoting (c : Cache) (now : Instant) (decode : Bytes → Option α) (type : String) (params : Params) :
    Operation (Except Error (Option α) × Nat) :=
  match c.typeConfig type with
  | .error e => .done (.error e, 0) c
  | .ok config => lookupNoting decode type (Key.derive type params) config.ttl [] 0 config.levels c now

/-- How a computation goes on after its lookup. -/
def conclude (encoding : Encoding α) (type : String) (params : Params) (computation : Unit → Except Error α)
    (looked : Except Error (Option α)) (c : Cache) (now : Instant) : Operation (Computed α) :=
  match looked with
  | .error e => .done ⟨.error e, 0⟩ c
  | .ok (some v) => .done ⟨.ok ⟨v, true⟩, 0⟩ c
  | .ok none =>
    match computation () with
    | .error e => .done ⟨.error e, 1⟩ c
    | .ok v => (c.set now type params (encoding.encode v)).map fun _ => ⟨.ok ⟨v, false⟩, 1⟩

def computeNoting (c : Cache) (now : Instant) (encoding : Encoding α) (type : String) (params : Params)
    (computation : Unit → Except Error α) : Operation (Computed α × Nat) :=
  (c.getNoting now encoding.decode type params).andThen now fun looked c now =>
    (conclude encoding type params computation looked.1 c now).map (·, looked.2)

def performNoting (c : Cache) (now : Instant) : (r : Request) → Operation (r.Answer × Nat)
  | .get decode type params => c.getNoting now decode type params
  | .compute encoding type params computation => c.computeNoting now encoding type params computation
  | r => (c.perform now r).map (·, 0)

lemma map_lookupNoting (decode : Bytes → Option α) (ttl : Duration) (faster : List Level) (unread : Nat)
    (levels : List Level) : (lookupNoting decode type key ttl faster unread levels c now).map Prod.fst =
      lookup decode type key ttl faster levels c now := by
  induction levels generalizing faster unread c now with
  | nil => rfl
  | cons level rest ih =>
    rw [lookupNoting, map_readLevel, lookup]
    congr 1
    funext value c now
    cases value with
    | none => exact ih ..
    | some bytes =>
      dsimp only
      cases decode bytes with
      | none => exact ih ..
      | some v => exact map_writeLevels ..

lemma map_getNoting (decode : Bytes → Option α) (params : Params) :
    (c.getNoting now decode type params).map Prod.fst = c.get now decode type params := by
  rw [getNoting, get]
  cases c.typeConfig type with
  | error e => rfl
  | ok cfg => exact map_lookupNoting ..

lemma map_computeNoting (encoding : Encoding α) (params : Params) (computation : Unit → Except Error α) :
    (c.computeNoting now encoding type params computation).map Prod.fst =
      c.compute now encoding type params computation := by
  have hcompute : c.compute now encoding type params computation =
      (c.get now encoding.decode type params).andThen now (conclude encoding type params computation) := rfl
  rw [computeNoting, map_andThen, hcompute, ← map_getNoting, andThen_map]
  simp only [map_map, map_id]

theorem map_performNoting (r : Request) : (c.performNoting now r).map Prod.fst = c.perform now r := by
  cases r with
  | get => exact map_getNoting ..
  | compute => exact map_computeNoting ..
  | set | exists? | invalidate | invalidateTags | clear | sweep | statistics | status | wait =>
    exact (map_map ..).trans (map_id _)

end Cache

end Serving
