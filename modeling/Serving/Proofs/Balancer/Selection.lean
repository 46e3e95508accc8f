import Mathlib.Data.List.Nodup
import Serving.Proofs.Balancer.Breakers
import Serving.Proofs.Balancer.History

/-! Whom a balancer chooses. Every way of choosing finds somebody among candidates, and the candidates are
the instances that serve the service, are healthy and are not blocked by their failures in a row. -/

namespace Serving

namespace Strategy

lemma placeOfLeast_lt {loads : List Nat} (h : loads ≠ []) :
    ∃ place, placeOfLeast loads = some place ∧ place < loads.length := by
  cases hm : loads.min? with
  | none => exact absurd (List.min?_eq_none_iff.1 hm) h
  | some least =>
    obtain ⟨place, hp⟩ := Option.isSome_iff_exists.1 (List.isSome_idxOf?.2 (List.min?_mem hm))
    obtain ⟨hlt, _⟩ := List.idxOf?_eq_some_iff.1 hp
    exact ⟨place, by rw [placeOfLeast, hm, Option.bind_some, hp], hlt⟩

lemma getElem?_placeOfLeast {loads : List Nat} {place : Nat} (h : placeOfLeast loads = some place) :
    ∃ least, loads[place]? = some least ∧ ∀ load ∈ loads, least ≤ load := by
  obtain ⟨least, hm, hp⟩ := Option.bind_eq_some_iff.1 h
  obtain ⟨hlt, hat, _⟩ := List.idxOf?_eq_some_iff.1 hp
  refine ⟨least, ?_, (List.min?_eq_some_iff.1 hm).2⟩
  rw [List.getElem?_eq_getElem hlt, hat]

lemma placeOfRoll_lt {roll total : Float} {scores : List Float} {place : Nat}
    (h : placeOfRoll roll total scores = some place) : place < scores.length := by
  induction scores generalizing total place with
  | nil => cases h
  | cons score rest ih =>
    rw [placeOfRoll] at h
    split at h
    · obtain rfl := Option.some.inj h
      exact Nat.zero_lt_succ _
    · obtain ⟨p, hp, rfl⟩ := Option.map_eq_some_iff.1 h
      exact Nat.succ_lt_succ (ih hp)

lemma lastPositive_lt {scores : List Float} {place : Nat} (hs : scores ≠ [])
    (h : lastPositive scores = some place) : place < scores.length := by
  obtain ⟨p, _, rfl⟩ := Option.map_eq_some_iff.1 h
  have hl := List.length_pos_of_ne_nil hs
  omega

lemma weightedPlace_lt {scores : List Float} (hs : scores ≠ []) (dice : Float) :
    weightedPlace scores dice < scores.length := by
  have hl := List.length_pos_of_ne_nil hs
  simp only [weightedPlace]
  split
  · cases hr : placeOfRoll (dice * scores.foldl (· + ·) 0.0) 0.0 scores with
    | some place => exact placeOfRoll_lt hr
    | none =>
      cases hp : lastPositive scores with
      | some place => exact lastPositive_lt hs hp
      | none => exact hl
  · exact hl

lemma choose_nil (s : Strategy) (service : String) (key : Option String) (dice : Float) :
    (s.choose service [] key dice).1 = none := rfl

theorem choose_lt (s : Strategy) (service : String) {candidates : List Instance} (key : Option String)
    (dice : Float) (h : candidates ≠ []) :
    ∃ place, (s.choose service candidates key dice).1 = some place ∧ place < candidates.length := by
  have hl := List.length_pos_of_ne_nil h
  simp only [choose, if_neg (Nat.ne_of_gt hl)]
  cases s.algorithm with
  | roundRobin => exact ⟨_, rfl, takeTurn_lt s service hl⟩
  | leastConnections =>
    have hne : candidates.map (·.active) ≠ [] := by simpa using h
    obtain ⟨place, hp, hlt⟩ := placeOfLeast_lt hne
    exact ⟨place, hp, by simpa using hlt⟩
  | weighted =>
    have hne : candidates.map (·.score) ≠ [] := by simpa using h
    have hlt := weightedPlace_lt hne dice
    exact ⟨_, rfl, by simpa using hlt⟩
  | ipHash =>
    cases key with
    | some k => exact ⟨_, rfl, Nat.mod_lt _ hl⟩
    | none => exact ⟨_, rfl, takeTurn_lt s service hl⟩

end Strategy

namespace Balancer

lemma admitted_fst (now : Instant) {l : List Instance} (h : (l.map (·.id)).Nodup) (breakers : Table Breaker) :
    (admitted now l breakers).1 =
      l.filter fun i => (breakers.find? i.id).all fun breaker => (breaker.admits now).1 := by
  induction l generalizing breakers with
  | nil => rfl
  | cons i rest ih =>
    obtain ⟨hi, hr⟩ := List.nodup_cons.1 h
    simp only [admitted]
    cases hb : breakers.find? i.id with
    | none => simp [hb, ih hr]
    | some breaker =>
      -- The others have other ids, so their breakers are as they were.
      have hrest : rest.filter (fun j => ((breakers.insert i.id (breaker.admits now).2).find? j.id).all
            fun breaker => (breaker.admits now).1) =
          rest.filter fun j => (breakers.find? j.id).all fun breaker => (breaker.admits now).1 := by
        refine List.filter_congr fun j hj => ?_
        have hne : j.id ≠ i.id := fun he => hi (List.mem_map.2 ⟨j, hj, he⟩)
        rw [Table.find?_insert, if_neg hne]
      have hothers := (ih hr (breakers.insert i.id (breaker.admits now).2)).trans hrest
      simp only [hothers, List.filter_cons, hb, Option.all_some]

lemma find?_admitted (now : Instant) {l : List Instance} (h : (l.map (·.id)).Nodup)
    (breakers : Table Breaker) (id : String) :
    (admitted now l breakers).2.find? id =
      if id ∈ l.map (·.id) then (breakers.find? id).map fun breaker => (breaker.admits now).2
      else breakers.find? id := by
  induction l generalizing breakers with
  | nil => simp [admitted]
  | cons i rest ih =>
    obtain ⟨hi, hr⟩ := List.nodup_cons.1 h
    simp only [admitted]
    cases hb : breakers.find? i.id with
    | none =>
      rw [ih hr]
      by_cases he : id = i.id
      · subst he
        simp [hb]
      · simp [he]
    | some breaker =>
      rw [ih hr, Table.find?_insert]
      by_cases he : id = i.id
      · subst he
        rw [if_neg hi]
        simp [hb]
      · simp [he]

def candidates (b : Balancer) (now : Instant) (service : String) : List Instance :=
  (admitted now ((b.serving service).filter (·.isHealthy)) b.breakers).1

lemma select_fst (b : Balancer) (now : Instant) (service : String) (key : Option String) :
    (b.select now service key).1 = (b.strategy.choose service (b.candidates now service) key
      (b.dice b.selected)).1.bind ((b.candidates now service)[·]?) := by
  simp only [select, candidates]
  split
  · rename_i i hi
    exact hi.symm
  · rename_i hn
    exact hn.symm

lemma select_config (b : Balancer) (now : Instant) (service : String) (key : Option String) :
    (b.select now service key).2.config = b.config := by
  simp only [select]
  split <;> rfl

lemma select_breakers (b : Balancer) (now : Instant) (service : String) (key : Option String) :
    (b.select now service key).2.breakers =
      (admitted now ((b.serving service).filter (·.isHealthy)) b.breakers).2 := by
  simp only [select]
  split <;> rfl

lemma mem_of_select {b : Balancer} {now : Instant} {service : String} {key : Option String} {i : Instance}
    (h : (b.select now service key).1 = some i) : i ∈ b.candidates now service := by
  rw [select_fst] at h
  obtain ⟨place, _, hi⟩ := Option.bind_eq_some_iff.1 h
  exact List.mem_of_getElem? hi

lemma select_eq_none_iff {b : Balancer} {now : Instant} {service : String} {key : Option String} :
    (b.select now service key).1 = none ↔ b.candidates now service = [] := by
  rw [select_fst]
  constructor
  · intro hn
    by_contra hc
    obtain ⟨place, hp, hlt⟩ := b.strategy.choose_lt service key (b.dice b.selected) hc
    rw [hp, Option.bind_some, List.getElem?_eq_getElem hlt] at hn
    cases hn
  · intro hc
    rw [hc, Strategy.choose_nil, Option.bind_none]

end Balancer

end Serving
