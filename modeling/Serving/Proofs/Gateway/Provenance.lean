import Serving.Proofs.Cache.Identity
import Serving.Proofs.Cache.Interference
import Serving.Proofs.Gateway.History

/-! Where the data of responses comes from. What the cache holds was answered to requests with the cache type and the
parameters that it is found under, whatever the store forgets and whenever calls to it fail. So a response from the
cache repeats an earlier one that was not, and the party that the request would go to is not asked. -/

namespace Serving.Cache

/-- What is decoded from the bytes of a value with whole numbers says what the value says. -/
lemma content_of_decode {v w : Json} {bytes : Bytes} (h : v.Whole) (he : Encoding.json.encode v = .ok bytes)
    (hd : Encoding.json.decode bytes = some w) : Json.content w = Json.content v := by
  obtain rfl := Except.ok.inj he
  simp only [Encoding.json, Encoding.ofJson, id] at hd
  obtain ⟨s, hs, hd⟩ := Option.bind_eq_some_iff.1 hd
  obtain ⟨x, hx, hd⟩ := Option.bind_eq_some_iff.1 hd
  obtain rfl := Option.some.inj hd
  obtain rfl := Option.some.inj ((Json.fromUTF8_toUTF8 _).symm.trans hs)
  rw [Json.eq_of_parse h hx, Json.content_canonical]

end Serving.Cache

namespace Serving.Gateway

open Cache (Filled)
open Routine (Abides Terms)

/-- Bytes that work leaves in the cache, and their key: an answer, under what the request is looked up under. -/
inductive Work.Leaves (s : Settings) (w : Work) : String → Cache.Bytes → Prop
  | intro {type : String} {params : Cache.Params} {d : Destination} {data : Json} {bytes : Cache.Bytes}
      (use : cacheUse s w.request = some (type, params)) (answer : ⟨d, .ok data⟩ ∈ w.answers) (whole : data.Whole)
      (encoded : Cache.Encoding.json.encode data = .ok bytes) : Leaves s w (Cache.Key.derive type params) bytes

/-- Bytes that some work left. -/
def Left (s : Settings) (work : List Work) (key : String) (bytes : Cache.Bytes) : Prop :=
  ∃ w ∈ work, w.Leaves s key bytes

variable {s : Settings} {w : Work} {work : List Work} {past : List Exchange} {key : String} {bytes : Cache.Bytes}

lemma cacheUse_eq_some {r : Request} {type : String} {params : Cache.Params} :
    cacheUse s r = some (type, params) ↔ r.params = some params ∧ s.routing.cacheTypes.find? r.type = some type := by
  simp [cacheUse, Option.bind_eq_some_iff]

lemma left_append : Left s (work ++ [w]) key bytes ↔ Left s work key bytes ∨ w.Leaves s key bytes := by
  simp [Left, or_and_right, exists_or]

lemma not_leaves {r : Request} : ¬Work.Leaves s { request := r } key bytes := by
  rintro ⟨-, ha, -, -⟩
  cases ha

lemma Left.hear {d : Destination} {result : Except Error Json} (h : Left s (work ++ [w]) key bytes) :
    Left s (work ++ [w.hear d result]) key bytes := by
  rw [left_append] at h ⊢
  refine h.imp_right ?_
  rintro ⟨use, answer, whole, encoded⟩
  exact ⟨use, List.mem_append_left _ answer, whole, encoded⟩

/-! ### One request -/

/-- What is counted when each response is counted once. -/
def counted (s : Settings) (past : List Exchange) : Sla :=
  past.foldl (fun sla x => sla.record x.response.took x.response.result.isOk x.response.isCached) (.new s.sla)

lemma counted_append (past : List Exchange) (x : Exchange) : counted s (past ++ [x]) =
    (counted s past).record x.response.took x.response.result.isOk x.response.isCached := List.foldl_concat ..

/-- How the desk and the others deal with each other while one request is served. -/
def terms (s : Settings) (past : List Exchange) : Terms Need Need.Reply Desk Work where
  state w desk := Filled s.cache (Left s (past.map Exchange.toWork ++ [w])) desk.cache ∧ desk.sla = counted s past
  asks w need :=
    match need with
    | .store call => call.Fits (Left s (past.map Exchange.toWork ++ [w]))
    | .answer _ => True
  tells w need reply w' :=
    match need, reply with
    | .store call, reply => w' = w ∧ call.Honest (Left s (past.map Exchange.toWork ++ [w])) reply
    | .answer d, result => w' = w.hear d result ∧ ∀ data, result = .ok data → data.Whole

/-- A response was found in the cache and nobody was asked, or it is what was answered. -/
structure Founded (s : Settings) (past : List Exchange) (w : Work) (response : Response) : Prop where
  fresh : ∀ a ∈ w.answers, response.isCached = false ∧ a.result = response.result
  anew : response.isCached = false → response.result.isOk = true → w.answers ≠ []
  cached : response.isCached = true → ∃ type params data bytes, cacheUse s w.request = some (type, params) ∧
    response.result = .ok data ∧ Cache.Encoding.json.decode bytes = some data ∧
      Left s (past.map Exchange.toWork) (Cache.Key.derive type params) bytes

structure Served (s : Settings) (past : List Exchange) (w : Work) (response : Response) (desk : Desk) : Prop where
  filled : Filled s.cache (Left s (past.map Exchange.toWork ++ [w])) desk.cache
  sla : desk.sla = (counted s past).record response.took response.result.isOk response.isCached
  founded : Founded s past w response

variable {α : Type} {desk : Desk} {now started : Instant} {id : String} {use : Option (String × Cache.Params)}
  {result : Except Error Json}

lemma abides_onCache {operation : Cache.Operation α} {post : α → Cache → Prop}
    (hd : (terms s past).state w desk)
    (h : Abides (Cache.terms s.cache (Left s (past.map Exchange.toWork ++ [w]))) (fun _ => post) () operation) :
    Abides (terms s past) (fun w' a desk => w' = w ∧ desk.sla = counted s past ∧ post a desk.cache) w
      (onCache operation desk) := by
  refine h.embed ?_ ?_ ?_ ?_ ?_ hd
  · exact fun desk hd => hd.1
  · exact fun desk cache hd hc => ⟨hc, hd.2⟩
  · exact fun call hcall => hcall
  · exact fun call reply w' ht => ht
  · exact fun desk a cache hd hp => ⟨rfl, hd.2, hp⟩

lemma abides_finish {isCached : Bool} (hd : (terms s past).state w desk)
    (hf : ∀ took, Founded s past w { id, result, isCached, took }) :
    Abides (terms s past) (Served s past) w (finish id started isCached result desk now) :=
  ⟨hd.1, congrArg (Sla.record · _ _ _) hd.2, hf _⟩

/-- Work ends as it was answered, and with no other data. -/
structure Work.Ends (w : Work) (result : Except Error Json) : Prop where
  all : ∀ a ∈ w.answers, a.result = result
  data : ∀ data, result = .ok data → data.Whole ∧ ∃ d, ⟨d, .ok data⟩ ∈ w.answers

lemma abides_dispatch {r : Request} (hd : (terms s past).state { request := r } desk) :
    Abides (terms s past) (fun w result desk =>
      (terms s past).state w desk ∧ w.request = r ∧ w.Ends result) { request := r } (dispatch s id r desk) := by
  rw [dispatch]
  split
  · exact ⟨hd, rfl, List.forall_mem_nil _, fun _ h => nomatch h⟩
  · rename_i d _
    refine ⟨hd, trivial, ?_⟩
    rintro result w ⟨rfl, hwhole⟩ desk now hd
    refine ⟨hd, rfl, ?_, ?_⟩
    · intro a ha
      rw [List.mem_singleton.1 ha]
    · rintro data rfl
      exact ⟨hwhole data rfl, d, List.mem_cons_self⟩

lemma abides_keep {next : Desk → Instant → Service Response} (hd : (terms s past).state w desk)
    (hu : ∀ u ∈ use, cacheUse s w.request = some u) (hr : w.Ends result)
    (hnext : ∀ desk now, (terms s past).state w desk →
      Abides (terms s past) (Served s past) w (next desk now)) :
    Abides (terms s past) (Served s past) w (keep use result desk now next) := by
  rw [keep.eq_def]
  split
  · rename_i type params data
    obtain ⟨hwhole, d, hans⟩ := hr.data data rfl
    refine ((abides_onCache hd (Cache.abides_set hd.1 fun bytes hb => ?_)).mono ?_).andThen _
    · exact ⟨w, by simp, .intro (hu _ rfl) hans hwhole hb⟩
    · rintro w' a desk ⟨rfl, hsla, hfilled⟩ now
      exact hnext desk now ⟨hfilled, hsla⟩
  · exact hnext desk now hd

lemma abides_serveAnew {r : Request} (hu : ∀ u ∈ use, cacheUse s r = some u)
    (hd : (terms s past).state { request := r } desk) :
    Abides (terms s past) (Served s past) { request := r } (serveAnew s id r use started desk now) := by
  refine ((abides_dispatch hd).mono ?_).andThen now
  rintro w result desk ⟨hstate, rfl, hr⟩ now
  refine abides_keep hstate hu hr fun desk now hd => abides_finish hd fun took => ?_
  refine ⟨fun a ha => ⟨rfl, hr.all a ha⟩, fun _ hok => ?_, fun h => absurd h Bool.false_ne_true⟩
  cases result with
  | error => cases hok
  | ok data =>
    obtain ⟨-, d, ha⟩ := hr.data data rfl
    exact List.ne_nil_of_mem ha

/-- A request is served on the terms, and ends with a response whose data has its source. -/
lemma abides_serve {r : Request} (hd : (terms s past).state { request := r } desk) :
    Abides (terms s past) (Served s past) { request := r } (serve s id r desk now) := by
  rw [serve]
  split
  · exact abides_serveAnew (fun _ h => nomatch h) hd
  · rename_i type params huse
    refine ((abides_onCache hd (Cache.abides_get hd.1)).mono ?_).andThen now
    rintro w looked desk ⟨rfl, hsla, hfilled, hdec⟩ now
    split
    · refine abides_finish ⟨hfilled, hsla⟩ fun took => ?_
      exact ⟨List.forall_mem_nil _, fun _ h => absurd h Bool.false_ne_true, fun h => absurd h Bool.false_ne_true⟩
    · rename_i data
      refine abides_finish ⟨hfilled, hsla⟩ fun took => ?_
      refine ⟨List.forall_mem_nil _, fun h => absurd h.symm Bool.false_ne_true, fun _ => ?_⟩
      obtain ⟨bytes, hbytes, hleft⟩ := hdec data rfl
      exact ⟨type, params, data, bytes, huse, rfl, hbytes, (left_append.1 hleft).resolve_right not_leaves⟩
    · exact abides_serveAnew (fun u hu => Option.some.inj hu ▸ huse) ⟨hfilled, hsla⟩

/-! ### Runs -/

lemma split_append {past earlier later : List α} {last x : α} (h : past ++ [last] = earlier ++ x :: later) :
    (past = earlier ∧ last = x) ∨ ∃ rest, past = earlier ++ x :: rest := by
  rcases List.eq_nil_or_concat later with rfl | ⟨rest, y, rfl⟩
  · obtain ⟨rfl, hlast⟩ := List.append_inj' h rfl
    exact .inl ⟨rfl, (List.cons.inj hlast).1⟩
  · have heq : past ++ [last] = (earlier ++ x :: rest) ++ [y] := by simpa using h
    exact .inr ⟨rest, (List.append_inj' heq rfl).1⟩

lemma counts {past : List Exchange} (h : ∀ x ∈ past, x.response.isCached = true → x.response.result.isOk = true) :
    (counted s past).total = past.length ∧
      (counted s past).total = (counted s past).successful + (counted s past).failed ∧
      (counted s past).cached ≤ (counted s past).successful := by
  induction past using List.reverseRecOn with
  | nil => exact ⟨rfl, rfl, Nat.le_refl 0⟩
  | append_singleton past x ih =>
    obtain ⟨htotal, hparts, hcached⟩ := ih fun y hy => h y (List.mem_append_left _ hy)
    have hx := h x (by simp)
    rw [counted_append, List.length_append, List.length_singleton]
    simp only [Sla.record, htotal]
    cases hc : x.response.isCached <;> cases ho : x.response.result.isOk <;> simp_all <;> omega

namespace History

variable {τ : Type} {store : Cache.Store τ} {holds : τ → String → Cache.Entry → Prop} {h : History τ} {t : τ}
  {isDistributed : Bool} {m : Move} {moves : List Move}

lemma honest_perform {Rule : String → Cache.Bytes → Prop} {call : Cache.Call} {now : Instant} {isHeard : Bool}
    (hk : store.Keeps holds fun _ _ => True) (ht : ∀ key e, holds t key e → Rule key e.value) :
    call.Honest Rule (if isHeard then (store.perform call t now).1.toOption else none) := by
  cases call with
  | get key =>
    intro bytes hb
    split at hb
    · obtain ⟨e, he, rfl, -⟩ := hk.get (Cache.Store.ok_of_toOption hb)
      exact ht key e he
    · cases hb
  | set | delete | has | clear | deleteMatching | stats | health => trivial

/-- What lies in the cache and in the store was left by work so far, and the work that waits keeps to the terms. -/
structure Sound (holds : τ → String → Cache.Entry → Prop) (s : Settings) (h : History τ) : Prop where
  filled : Filled s.cache (Left s h.work) h.desk.cache
  store : ∀ key e, holds h.store key e → Left s h.work key e.value
  sla : h.desk.sla = counted s h.past
  came : h.came = h.work.map Work.request
  past : ∀ earlier x later, h.past = earlier ++ x :: later → Founded s earlier x.toWork x.response
  current : ∀ c, h.current = some c →
    Abides (terms s h.past) (Served s h.past) c.toWork (.call c.need h.desk c.resume)

lemma sound_follow {r : Service Response} (hk : store.Keeps holds fun _ _ => True)
    (hstore : ∀ key e, holds h.store key e → Left s (h.past.map Exchange.toWork ++ [w]) key e.value)
    (hcame : h.came = (h.past.map Exchange.toWork ++ [w]).map Work.request)
    (hpast : ∀ earlier x later, h.past = earlier ++ x :: later → Founded s earlier x.toWork x.response)
    (ha : Abides (terms s h.past) (Served s h.past) w r) : Sound holds s (h.follow store w r) := by
  have hwork : (h.follow store w r).work = h.past.map Exchange.toWork ++ [w] := work_follow r
  rw [← hwork] at hstore hcame
  have hcame : (h.follow store w r).came = (h.follow store w r).work.map Work.request := (came_follow r).trans hcame
  cases r with
  | done response desk =>
    refine ⟨?_, hstore, ?_, hcame, fun earlier x later heq => ?_, fun _ h => nomatch h⟩
    · rw [hwork]
      exact ha.filled
    · exact ha.sla.trans (counted_append h.past ⟨w, response⟩).symm
    · rcases split_append heq with ⟨rfl, rfl⟩ | ⟨rest, heq⟩
      · exact ha.founded
      · exact hpast earlier x rest heq
  | call need desk resume =>
    obtain ⟨hfilled, hsla⟩ := ha.1
    cases need with
    | store call =>
      refine ⟨?_, fun key e he => hstore key e (hk.accept he), hsla, hcame, hpast, ?_⟩
      · rw [hwork]
        exact hfilled
      · rintro c ⟨⟩
        exact ha
    | answer d =>
      refine ⟨?_, hstore, hsla, hcame, hpast, ?_⟩
      · rw [hwork]
        exact hfilled
      · rintro c ⟨⟩
        exact ha

lemma sound_start (ht : ∀ key e, ¬holds t key e) : Sound holds s (start s isDistributed t) := by
  have hfilled : Filled s.cache (Left s []) (.new s.cache isDistributed) :=
    Cache.History.sound_start (t := ()) isDistributed fun _ _ => id
  refine ⟨hfilled, fun key e he => absurd he (ht key e), rfl, rfl, fun earlier x later heq => ?_, fun _ h => nomatch h⟩
  cases earlier <;> cases heq

lemma sound_arrival {id : String} {r : Request} (hk : store.Keeps holds fun _ _ => True) (hs : Sound holds s h) :
    Sound holds s (h.step store s (.arrival id r)) := by
  rw [step]
  split
  · rename_i hc
    have hwork := work_of_idle hc
    have hleft {key : String} {bytes : Cache.Bytes} (hl : Left s h.work key bytes) :
        Left s (h.past.map Exchange.toWork ++ [{ request := r }]) key bytes := left_append.2 (.inl (hwork ▸ hl))
    refine sound_follow hk (fun key e he => hleft (hs.store key e he)) ?_ hs.past (abides_serve ⟨?_, hs.sla⟩)
    · rw [hs.came, hwork, List.map_append, List.map_singleton]
    · exact hs.filled.mono fun _ _ _ => hleft
  · exact hs

lemma sound_storeAnswers {isCarriedOut isHeard : Bool} (hk : store.Keeps holds fun _ _ => True)
    (hs : Sound holds s h) : Sound holds s (h.step store s (.storeAnswers isCarriedOut isHeard)) := by
  rw [step]
  split
  · rename_i w call resume hc
    obtain ⟨hd, hfits, hnext⟩ := hs.current _ hc
    have hwork := work_of_busy hc
    have hstore : ∀ key e, holds h.store key e → Left s (h.past.map Exchange.toWork ++ [w]) key e.value :=
      fun key e he => hwork ▸ hs.store key e he
    refine sound_follow hk (fun key e he => ?_) ?_ hs.past (hnext _ w ⟨rfl, honest_perform hk hstore⟩ _ _ hd)
    · dsimp only at he
      split at he
      · rcases hk.perform he with he | ⟨value, ttl, rfl, rfl⟩
        · exact hstore key e he
        · exact hfits
      · exact hstore key e he
    · rw [hs.came, hwork]
  · exact hs

lemma sound_answer {result : Except Error Json} (hk : store.Keeps holds fun _ _ => True) (hs : Sound holds s h)
    (hr : ∀ data, result = .ok data → data.Whole) : Sound holds s (h.step store s (.answer result)) := by
  rw [step]
  split
  · rename_i w d resume hc
    obtain ⟨hd, -, hnext⟩ := hs.current _ hc
    have hwork := work_of_busy hc
    have hfilled : Filled s.cache (Left s (h.past.map Exchange.toWork ++ [w.hear d result])) h.desk.cache :=
      hd.1.mono fun _ _ _ => Left.hear
    refine sound_follow hk (fun key e he => ?_) ?_ hs.past (hnext _ (w.hear d result) ⟨rfl, hr⟩ _ _ ⟨hfilled, hd.2⟩)
    · exact Left.hear (hwork ▸ hs.store key e he)
    · rw [hs.came, hwork, List.map_append, List.map_append]
      rfl
  · exact hs

lemma sound_step (hk : store.Keeps holds fun _ _ => True) (hs : Sound holds s h) (hm : m.Whole) :
    Sound holds s (h.step store s m) := by
  cases m with
  | arrival => exact sound_arrival hk hs
  | storeAnswers => exact sound_storeAnswers hk hs
  | answer result =>
    refine sound_answer hk hs ?_
    rintro data rfl
    exact hm
  | sweep =>
    refine ⟨hs.filled.sweep h.now, hs.store, hs.sla, hs.came, hs.past, fun c hc => ?_⟩
    obtain ⟨hd, hrest⟩ := hs.current c hc
    exact ⟨⟨hd.1.sweep h.now, hd.2⟩, hrest⟩
  | timePasses d => exact ⟨hs.filled, hs.store, hs.sla, hs.came, hs.past, hs.current⟩

lemma sound_run (hk : store.Keeps holds fun _ _ => True) (ht : ∀ key e, ¬holds t key e) (hm : ∀ m ∈ moves, m.Whole) :
    Sound holds s (run store s isDistributed t moves) := by
  rw [run]
  induction moves using List.reverseRecOn with
  | nil => exact sound_start ht
  | append_singleton moves m ih =>
    rw [List.foldl_concat]
    exact sound_step hk (ih fun m' hm' => hm m' (List.mem_append_left _ hm')) (hm m (by simp))

/-- One response says what an earlier one said, which did not come from the cache. Both requests are looked up under
one cache type, and no key tells their parameters apart. -/
inductive Repeats (s : Settings) (x y : Exchange) : Prop
  | intro {type : String} {params params' : Cache.Params} {data data' : Json}
      (asks : x.request.params = some params) (asked : y.request.params = some params')
      (routed : s.routing.cacheTypes.find? x.request.type = some type)
      (routed' : s.routing.cacheTypes.find? y.request.type = some type)
      (alike : Json.contentFields params = Json.contentFields params' ∨
        Cache.Key.Collide (Cache.Key.preimage type params) (Cache.Key.preimage type params'))
      (fresh : y.response.isCached = false) (answered : y.response.result = .ok data')
      (answers : x.response.result = .ok data) (same : Json.content data = Json.content data')

lemma repeats_of_founded {earlier : List Exchange} {x : Exchange} (hx : Founded s earlier x.toWork x.response)
    (hpast : ∀ y ∈ earlier, ∀ a ∈ y.answers, y.response.isCached = false ∧ a.result = y.response.result)
    (hc : x.response.isCached = true) : ∃ y ∈ earlier, Repeats s x y := by
  obtain ⟨type, params, data, bytes, huse, hdata, hdec, w, hw, hl⟩ := hx.cached hc
  obtain ⟨y, hy, rfl⟩ := List.mem_map.1 hw
  generalize hkey : Cache.Key.derive type params = key at hl
  obtain ⟨huse', hans, hwhole, henc⟩ := hl
  obtain ⟨hfresh, hresult⟩ := hpast y hy _ hans
  obtain rfl := Cache.Key.type_of_derive hkey
  rw [cacheUse_eq_some] at huse huse'
  refine ⟨y, hy, .intro huse.1 huse'.1 huse.2 huse'.2 ?_ hfresh hresult.symm hdata ?_⟩
  · exact (Cache.Key.alike_of_derive hkey).imp_left fun ht => (Cache.Key.preimage_eq_iff.1 ht).2
  · exact Cache.content_of_decode hwhole henc hdec

/-- Where the data of responses comes from, whatever the store forgets, at whatever time it and the others answer, and
however often a call fails. A response from the cache says what an earlier good answer said, and nobody is asked for it;
any other response is as it was answered, and is not good without an answer. So nothing comes of a failure but the
failure. Each request that is over is counted once, as a success or as a failure. -/
theorem cached_responses_repeat_answers (s : Settings) (isDistributed : Bool)
    (hk : store.Keeps holds fun _ _ => True) (ht : ∀ key e, ¬holds t key e) (hm : ∀ m ∈ moves, m.Whole) :
    let h := run store s isDistributed t moves
    (∀ earlier x later, h.past = earlier ++ x :: later → x.response.isCached = true →
      x.answers = [] ∧ ∃ y ∈ earlier, Repeats s x y) ∧
    (∀ x ∈ h.past, (∀ a ∈ x.answers, a.result = x.response.result) ∧
      (x.response.isCached = false → x.response.result.isOk = true → x.answers ≠ [])) ∧
    h.came = h.past.map (·.request) ++ h.current.toList.map (·.request) ∧ h.desk.sla = counted s h.past ∧
    h.desk.sla.total = h.past.length ∧ h.desk.sla.total = h.desk.sla.successful + h.desk.sla.failed ∧
    h.desk.sla.cached ≤ h.desk.sla.successful := by
  intro h
  have hs : Sound holds s h := sound_run hk ht hm
  have hfounded : ∀ x ∈ h.past, ∃ earlier, Founded s earlier x.toWork x.response := fun x hx =>
    let ⟨earlier, later, heq⟩ := List.append_of_mem hx
    ⟨earlier, hs.past earlier x later heq⟩
  have hfresh : ∀ x ∈ h.past, ∀ a ∈ x.answers, x.response.isCached = false ∧ a.result = x.response.result :=
    fun x hx => (hfounded x hx).elim fun _ hx => hx.fresh
  have hok : ∀ x ∈ h.past, x.response.isCached = true → x.response.result.isOk = true := by
    intro x hx hc
    obtain ⟨earlier, hx⟩ := hfounded x hx
    obtain ⟨_, _, _, _, _, hdata, _⟩ := hx.cached hc
    rw [hdata]
    rfl
  refine ⟨fun earlier x later heq hc => ⟨?_, ?_⟩, fun x hx => ⟨fun a ha => (hfresh x hx a ha).2, ?_⟩, ?_, hs.sla, ?_⟩
  · refine List.eq_nil_iff_forall_not_mem.2 fun a ha => ?_
    have hx := (hs.past earlier x later heq).fresh a ha
    rw [hc] at hx
    cases hx.1
  · have hx := hs.past earlier x later heq
    exact repeats_of_founded hx (fun y hy => hfresh y (heq ▸ List.mem_append_left _ hy)) hc
  · exact (hfounded x hx).elim fun _ hx => hx.anew
  · rw [hs.came, work, List.map_append, List.map_map, List.map_map]
    rfl
  · rw [hs.sla]
    exact counts hok

/-- One type of requests is looked up, and the memory level has room for a single answer. -/
def narrow : Settings :=
  { ({} : Settings) with cache := .tight, routing := { cacheTypes := .ofList [("q", "a")] } }

abbrev asks (k : Nat) : Move := .arrival "" { type := "q", payload := .null, params := some [("k", .ofNat k)] }

/-- The second answer drives the first one out of memory, so that it comes back from the store. -/
def returning : List Move :=
  [asks 1, .storeAnswers true true, .answer (.ok (.arr [.int 7])), .storeAnswers true true,
    asks 2, .storeAnswers true false, .answer (.error (.noCapacity "")),
    asks 2, .storeAnswers true true, .timePasses 1, .answer (.ok (.int 8)), .storeAnswers true false,
    asks 1, .storeAnswers true true]

theorem cached_responses_repeat_answers_returning :
    let h := run .ofMemory narrow true (.new 10) returning
    (h.past.map (·.response.isCached) = [false, false, false, true] ∧ h.desk.sla.total = 4 ∧ h.desk.sla.failed = 1) ∧
      ∀ earlier x later, h.past = earlier ++ x :: later → x.response.isCached = true →
        x.answers = [] ∧ ∃ y ∈ earlier, Repeats narrow x y := by
  have hkeeps := (Cache.Store.obeys_ofMemory fun _ _ _ => trivial).toKeeps
  have hempty : ∀ key e, (key, e) ∉ (Cache.Memory.new 10).entries := fun _ _ => List.not_mem_nil
  have hwhole : ∀ m ∈ returning, m.Whole := by
    have hseven : Json.Whole (.arr [.int 7]) := .arr (by simpa using .int (by decide) (by decide))
    simpa [returning, Move.Whole, hseven] using .int (by decide) (by decide)
  exact ⟨by decide +kernel, (cached_responses_repeat_answers narrow true hkeeps hempty hwhole).1⟩

end History

end Serving.Gateway
