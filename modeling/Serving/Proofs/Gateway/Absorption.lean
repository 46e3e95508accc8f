import Serving.Proofs.Gateway.Provenance
import Serving.Proofs.Settings.Validity

/-! What the cache can do to a request. The outside store may answer anything, fail or never answer, anything may lie in
the cache, and others use desk and store while a request waits: its response is found in the cache, or it is what the
request would have been answered without a cache. -/

namespace Serving

/-- An error that tells of the cache. -/
def Error.OfCache : Error → Prop
  | unknownCacheType _ | cacheBackendUnavailable _ _ | serialization _ => True
  | _ => False

namespace Gateway

open Cache (Filled)
open Routine (Abides Terms)

/-- What is around a request while it is served: an outside store, the parties that requests go to, and others who use
the desk and whatever else there is while the request waits. Nobody configures the cache anew. -/
structure Surroundings (τ : Type) where
  store : Cache.Store τ
  party : Destination → τ → Instant → Except Error Json × τ × Instant
  others : Need → Desk → τ → Instant → Desk × τ
  config_others : ∀ need desk t now, (others need desk t now).1.cache.config = desk.cache.config

namespace Surroundings

variable {τ : Type}

/-- Gives a request what it needs, and notes what it was answered. The store is waited for up to `timeout`. -/
def give (u : Surroundings τ) (timeout : Duration) :
    (need : Need) → Desk → τ × Work → Instant → need.Reply × Desk × (τ × Work) × Instant
  | .store call, desk, (t, w), now =>
    let (reply, t, now) := u.store.ask timeout call t now
    let (desk, t) := u.others (.store call) desk t now
    (reply, desk, (t, w), now)
  | .answer d, desk, (t, w), now =>
    let (result, t, now) := u.party d t now
    let (desk, t) := u.others (.answer d) desk t now
    (result, desk, (t, w.hear d result), now)

/-- Serves a request. The result is its response and what it was answered where it went. -/
def serve (u : Surroundings τ) (s : Settings) (id : String) (r : Request) (desk : Desk) (t : τ) (now : Instant) :
    Response × List Answer :=
  let (response, _, (_, w), _) :=
    (Gateway.serve s id r desk now).runAmid (u.give s.cache.remote.operationTimeout) (t, { request := r }) now
  (response, w.answers)

end Surroundings

/-- A request is not let through, or it goes to one party, once, and is answered there. -/
def Dispatched (s : Settings) (id : String) (r : Request) (answers : List Answer) (result : Except Error Json) : Prop :=
  match destination s id r with
  | .error e => answers = [] ∧ result = .error e
  | .ok d => answers = [⟨d, result⟩]

/-- How a response comes about. -/
inductive Outcome (s : Settings) (id : String) (r : Request) (answers : List Answer) (response : Response) : Prop
  | hit (data : Json) (cached : response.isCached = true) (result : response.result = .ok data) (alone : answers = [])
  | anew (cached : response.isCached = false) (dispatched : Dispatched s id r answers response.result)

variable {s : Settings} {id : String} {r : Request} {answers : List Answer} {response : Response} {w : Work}
  {desk : Desk} {now started : Instant} {result : Except Error Json}

/-- A request that goes nowhere lacks its query. -/
lemma destination_error {e : Error} (h : destination s id r = .error e) : ∃ message, e = .invalidRequest message := by
  simp only [destination] at h
  split at h
  · cases h
  · split at h
    · split at h <;> cases h
      exact ⟨_, rfl⟩
    · cases h

lemma Dispatched.origin {e : Error} (h : Dispatched s id r answers (.error e)) (he : e.OfCache) :
    ∃ d, answers = [⟨d, .error e⟩] := by
  rw [Dispatched] at h
  split at h
  · rename_i refusal hd
    obtain rfl := Except.error.inj h.2
    obtain ⟨message, rfl⟩ := destination_error hd
    exact he.elim
  · exact ⟨_, h⟩

/-- An error that tells of the cache comes from the party that the request went to. -/
lemma Outcome.origin {e : Error} (h : Outcome s id r answers response) (hr : response.result = .error e)
    (he : e.OfCache) : ∃ d, answers = [⟨d, .error e⟩] := by
  cases h with
  | hit data _ hdata =>
    rw [hr] at hdata
    cases hdata
  | anew _ hdispatched => exact Dispatched.origin (hr ▸ hdispatched) he

/-! ### One request -/

/-- Others may do anything to the desk but configure its cache anew, and a request may be answered anything. -/
def openTerms (s : Settings) : Terms Need Need.Reply Desk Work where
  state _ desk := desk.cache.config = s.cache
  asks _ _ := True
  tells w need reply w' :=
    match need, reply with
    | .store _, _ => w' = w
    | .answer d, result => w' = w.hear d result

/-- A cache with its table, whatever lies in it. -/
lemma filled_of_config {c : Cache} (h : c.config = s.cache) : Filled s.cache (fun _ _ => True) c where
  config := h
  partition _ _ := trivial
  outside _ he := he.elim

variable {α : Type}

lemma abides_open_onCache {operation : Cache.Operation α} {post : α → Prop} (hd : desk.cache.config = s.cache)
    (h : Abides (Cache.terms s.cache fun _ _ => True) (fun _ a c => Filled s.cache (fun _ _ => True) c ∧ post a) ()
      operation) :
    Abides (openTerms s) (fun w' a desk => w' = w ∧ desk.cache.config = s.cache ∧ post a) w
      (onCache operation desk) := by
  refine h.embed ?_ ?_ ?_ ?_ ?_ hd
  · exact fun desk hd => filled_of_config hd
  · exact fun desk cache hd hc => hc.config
  · exact fun call hcall => trivial
  · rintro call reply w' rfl
    refine ⟨rfl, ?_⟩
    cases call <;> simp [Cache.terms, Cache.Call.Honest]
  · exact fun desk a cache hd hp => ⟨rfl, hp.1.config, hp.2⟩

lemma abides_open_dispatch (hd : desk.cache.config = s.cache) :
    Abides (openTerms s) (fun w result desk => desk.cache.config = s.cache ∧ Dispatched s id r w.answers result)
      { request := r } (dispatch s id r desk) := by
  rw [dispatch]
  split
  · rename_i e he
    refine ⟨hd, ?_⟩
    rw [Dispatched, he]
    exact ⟨rfl, rfl⟩
  · rename_i d he
    refine ⟨hd, trivial, ?_⟩
    rintro result w rfl desk now hd
    refine ⟨hd, ?_⟩
    rw [Dispatched, he]
    rfl

lemma abides_open_keep {use : Option (String × Cache.Params)} {next : Desk → Instant → Service Response}
    {post : Work → Response → Desk → Prop} (hd : desk.cache.config = s.cache)
    (hnext : ∀ desk now, desk.cache.config = s.cache → Abides (openTerms s) post w (next desk now)) :
    Abides (openTerms s) post w (keep use result desk now next) := by
  rw [keep.eq_def]
  split
  · rename_i type params data
    have hset : Abides (Cache.terms s.cache fun _ _ => True)
        (fun _ _ c => Filled s.cache (fun _ _ => True) c ∧ True) ()
        (desk.cache.set now type params (Cache.Encoding.json.encode data)) :=
      (Cache.abides_set (filled_of_config hd) fun _ _ => trivial).mono fun _ _ _ h => ⟨h, trivial⟩
    refine ((abides_open_onCache hd hset).mono ?_).andThen _
    rintro w' a desk ⟨rfl, hd, -⟩ now
    exact hnext desk now hd
  · exact hnext desk now hd

lemma abides_served_anew {use : Option (String × Cache.Params)} (hd : desk.cache.config = s.cache) :
    Abides (openTerms s) (fun w response desk => desk.cache.config = s.cache ∧ Outcome s id r w.answers response)
      { request := r } (serveAnew s id r use started desk now) := by
  refine ((abides_open_dispatch hd).mono ?_).andThen now
  rintro w result desk ⟨hd, hresult⟩ now
  exact abides_open_keep hd fun desk now hd => ⟨hd, .anew rfl hresult⟩

/-- Whatever lies in the cache and whatever the store does, a request ends in a hit or as it was answered, and the cache
is not configured anew for it. -/
lemma abides_served (hs : s.IsValid) (hd : desk.cache.config = s.cache) :
    Abides (openTerms s) (fun w response desk => desk.cache.config = s.cache ∧ Outcome s id r w.answers response)
      { request := r } (serve s id r desk now) := by
  rw [serve]
  split
  · exact abides_served_anew hd
  · rename_i type params huse
    obtain ⟨config, hconfig⟩ := hs.routing (cacheUse_eq_some.1 huse).2
    refine ((abides_open_onCache hd (Cache.abides_get_of_type (filled_of_config hd) hconfig)).mono ?_).andThen now
    rintro w looked desk ⟨rfl, hd, hok⟩ now
    split
    · cases hok
    · rename_i data
      exact ⟨hd, .hit data rfl rfl rfl⟩
    · exact abides_served_anew hd

lemma abides_open_serve (hs : s.IsValid) (hd : desk.cache.config = s.cache) :
    Abides (openTerms s) (fun w response _ => Outcome s id r w.answers response) { request := r }
      (serve s id r desk now) := (abides_served hs hd).mono fun _ _ _ h => h.2

/-! ### All of it -/

namespace Surroundings

variable {τ : Type}

lemma give_keeps (u : Surroundings τ) (timeout : Duration) (need : Need) (desk : Desk) (tw : τ × Work) (now : Instant)
    (hd : (openTerms s).state tw.2 desk) (_ : (openTerms s).asks tw.2 need) :
    (openTerms s).tells tw.2 need (u.give timeout need desk tw now).1 (u.give timeout need desk tw now).2.2.1.2 ∧
      (openTerms s).state (u.give timeout need desk tw now).2.2.1.2 (u.give timeout need desk tw now).2.1 := by
  cases need with
  | store call => exact ⟨rfl, (u.config_others _ _ _ _).trans hd⟩
  | answer d => exact ⟨rfl, (u.config_others _ _ _ _).trans hd⟩

/-- A store that gives out what nobody wrote, and never ends a write. -/
def haunted : Cache.Store Unit where
  accept _ t := t
  delay call _ := match call with
    | .set _ _ _ => none
    | _ => some 0
  perform call t _ := match call with
    | .get _ => (.ok (some "[".toUTF8), t)
    | _ => (.error .timeout, t)

/-- Others empty the partitions of the cache meanwhile. -/
def restless (result : Except Error Json) : Surroundings Unit where
  store := haunted
  party _ t now := (result, t, now + 1)
  others _ desk t _ := ({ desk with cache := { desk.cache with partitions := ∅ } }, t)
  config_others _ _ _ _ := rfl

abbrev asking : Request := { Request.ofModel .null with params := some [("k", .int 1)] }

/-- A desk of usual settings that finds half a text in its memory. -/
def spoilt : Desk where
  cache := { Cache.new {} true with
    partitions := .ofList [("ai_responses", (Cache.Memory.new 1).set 0 (Cache.Key.derive "ai_responses" [("k", .int 1)])
      "\x7b".toUTF8 1)] }
  sla := .new {}

end Surroundings

end Gateway

end Serving
