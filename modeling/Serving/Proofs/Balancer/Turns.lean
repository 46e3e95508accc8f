import Mathlib.Algebra.Group.Nat.Defs
import Mathlib.Data.List.Rotate
import Serving.Proofs.Balancer.Order

/-! Choices in turn. Each service has a cursor of its own, which only a choice in turn for that service moves, and moves
by one. So the choices go round in the list of those that may be chosen, from wherever the cursor stands, for as long as
the list is the same and the cursor has not come to its end. -/

namespace Serving

/-- Whether a caller with this key, or with none, is served in turn. -/
def Algorithm.goesRound : Algorithm → (key : Option String) → Bool
  | roundRobin, _ => true
  | ipHash, none => true
  | _, _ => false

namespace Strategy

variable {s : Strategy} {service : String} {candidates : List Instance} {key : Option String} {dice : Float}

def cursor (s : Strategy) (service : String) : UInt64 := (s.cursors.find? service).getD 0

lemma cursor_takeTurn (s : Strategy) (service other : String) (n : Nat) :
    (s.takeTurn service n).2.cursor other = if other = service then s.cursor service + 1 else s.cursor other := by
  rw [cursor, takeTurn, Table.find?_insert]
  split <;> rfl

lemma choose_of_nil : s.choose service [] key dice = (none, s) := rfl

lemma choose_of_goesRound (h : s.algorithm.goesRound key = true) (hne : candidates ≠ []) :
    s.choose service candidates key dice =
      (some ((s.cursor service).toNat % candidates.length), (s.takeTurn service candidates.length).2) := by
  have hn : candidates.length ≠ 0 := fun hn => hne (List.eq_nil_of_length_eq_zero hn)
  simp only [choose, if_neg hn]
  cases ha : s.algorithm with
  | roundRobin => rfl
  | ipHash =>
    cases key with
    | none => rfl
    | some k => simp [ha, Algorithm.goesRound] at h
  | leastConnections | weighted => simp [ha, Algorithm.goesRound] at h

lemma choose_of_not_goesRound (h : s.algorithm.goesRound key = false) :
    (s.choose service candidates key dice).2 = s := by
  simp only [choose]
  split
  · rfl
  · cases ha : s.algorithm with
    | roundRobin => simp [ha, Algorithm.goesRound] at h
    | ipHash =>
      cases key with
      | none => simp [ha, Algorithm.goesRound] at h
      | some k => rfl
    | leastConnections | weighted => rfl

end Strategy

namespace Balancer

lemma perform_selected (b : Balancer) (now : Instant) (o : Operation) :
    (b.perform now o).selected = b.selected + match o with
      | .select service key => (b.select now service key).1.toList.length
      | _ => 0 := by
  cases o with
  | select service key =>
    simp only [select_fst, perform]
    simp only [select, candidates]
    split
    · rename_i i hi
      rw [hi]
      rfl
    · rename_i hn
      rw [hn]
      rfl
  | setAlgorithm a =>
    simp only [perform, setAlgorithm]
    split <;> rfl
  | recordProbe id healthy cpu memory =>
    simp only [perform, recordProbe]
    split <;> rfl
  | endRequest id success took =>
    simp only [perform, endRequest]
    split <;> rfl
  | register | unregister | startRequest | setHealth | updateResources | timePasses => rfl

/-- Among whom a choice was made in turn, and whom it fell on. -/
structure Turn where
  eligible : List String
  chosen : String
  deriving DecidableEq

namespace History

variable {config : Config} {service : String} {s : History} {o : Operation} {t : Turn}

def cursor (s : History) (service : String) : Nat := (s.balancer.strategy.cursor service).toNat

def turn? (service : String) (s : History) : Operation → Option Turn
  | .select asked key =>
    if asked = service ∧ s.balancer.algorithm.goesRound key then
      (s.choice service key).map fun i => ⟨s.eligible service, i.id⟩
    else none
  | _ => none

/-- The choices made in turn for a service while operations are performed. -/
def turns (service : String) : History → List Operation → List Turn
  | _, [] => []
  | s, o :: operations => (s.turn? service o).toList ++ turns service (s.step o) operations

/-- A choice in turn falls on the place that the cursor tells, and moves the cursor. -/
structure Takes (service : String) (s : History) (t : Turn) (s' : History) : Prop where
  eligible : t.eligible = s.eligible service
  chosen : (s.eligible service)[s.cursor service % (s.eligible service).length]? = some t.chosen
  cursor : s'.cursor service = (s.cursor service + 1) % 2 ^ 64
  selected : s'.balancer.selected = s.balancer.selected + 1

lemma takes_of_turn (h : Ordered config s) (ht : s.turn? service o = some t) : Takes service s t (s.step o) := by
  cases o with
  | select asked key =>
    rw [turn?] at ht
    split at ht
    · rename_i hround
      obtain ⟨rfl, hround⟩ := hround
      obtain ⟨i, hi, rfl⟩ := Option.map_eq_some_iff.1 ht
      have hne : s.balancer.candidates s.now asked ≠ [] := fun hn => by
        have hnone : s.choice asked key = none := select_eq_none_iff.2 hn
        rw [hnone] at hi
        cases hi
      have hchoose : s.balancer.strategy.choose asked (s.balancer.candidates s.now asked) key
          (s.balancer.dice s.balancer.selected) = _ := Strategy.choose_of_goesRound hround hne
      refine ⟨rfl, ?_, ?_, ?_⟩
      · rw [choice, select_fst, hchoose, Option.bind_some] at hi
        rw [← h.candidates_ids, List.length_map, List.getElem?_map, cursor, hi, Option.map_some]
      · rw [cursor, step, perform_strategy]
        simp only [hchoose, Strategy.cursor_takeTurn, if_pos, UInt64.toNat_add]
        rfl
      · rw [choice] at hi
        rw [step, perform_selected]
        simp only [hi]
        rfl
    · cases ht
  | register | unregister | startRequest | endRequest | recordProbe | setHealth | updateResources | setAlgorithm
  | timePasses => cases ht

/-- Whatever else happens leaves the cursor alone, unless the way of choosing changes. -/
lemma cursor_of_no_turn (ht : s.turn? service o = none) :
    (s.step o).cursor service = s.cursor service ∨
      (∃ a, o = .setAlgorithm a ∧ a ≠ s.balancer.algorithm) ∧ (s.step o).cursor service = 0 := by
  rw [cursor, cursor, step, perform_strategy]
  cases o with
  | select asked key =>
    left
    simp only
    cases hround : s.balancer.strategy.algorithm.goesRound key with
    | false => rw [Strategy.choose_of_not_goesRound hround]
    | true =>
      by_cases hne : s.balancer.candidates s.now asked = []
      · rw [hne, Strategy.choose_of_nil]
      · rw [Strategy.choose_of_goesRound hround hne, Strategy.cursor_takeTurn]
        refine congrArg UInt64.toNat (if_neg ?_)
        rintro rfl
        have hnone : s.choice service key = none := by simpa [turn?, algorithm, hround] using ht
        exact hne (select_eq_none_iff.1 hnone)
  | setAlgorithm a =>
    by_cases ha : s.balancer.strategy.algorithm = a
    · left
      simp only [if_pos ha]
    · right
      refine ⟨⟨a, rfl, Ne.symm ha⟩, ?_⟩
      simp only [if_neg ha]
      rfl
  | register | unregister | startRequest | endRequest | recordProbe | setHealth | updateResources | timePasses =>
    exact .inl rfl

lemma selected_le_step (s : History) (o : Operation) : s.balancer.selected ≤ (s.step o).balancer.selected := by
  rw [step, perform_selected]
  exact Nat.le_add_right _ _

lemma cursor_le_selected (config : Config) (dice : Nat → Float) (operations : List Operation) (service : String) :
    (run config dice operations).cursor service ≤ (run config dice operations).balancer.selected := by
  have hstart : Ordered config (start config dice) ∧ (start config dice).cursor service ≤ 0 :=
    ⟨⟨.start config dice, rfl⟩, Nat.le_refl 0⟩
  have hrun := run_induction (P := fun s => Ordered config s ∧ s.cursor service ≤ s.balancer.selected) hstart
  refine (hrun ?_ operations).2
  rintro s o ⟨h, hle⟩
  refine ⟨h.step o, ?_⟩
  cases ht : s.turn? service o with
  | some t =>
    have htakes := takes_of_turn h ht
    have hmod := Nat.mod_le (s.cursor service + 1) (2 ^ 64)
    rw [htakes.cursor, htakes.selected]
    omega
  | none =>
    have hmore := s.selected_le_step o
    rcases cursor_of_no_turn ht with hc | ⟨_, hc⟩ <;> omega

lemma turns_of_turn {operations : List Operation} (ht : s.turn? service o = some t) :
    s.turns service (o :: operations) = t :: (s.step o).turns service operations := by
  rw [turns, ht]
  rfl

lemma turns_of_no_turn {operations : List Operation} (ht : s.turn? service o = none) :
    s.turns service (o :: operations) = (s.step o).turns service operations := by
  rw [turns, ht]
  rfl

lemma selected_after (h : Ordered config s) (operations : List Operation) (service : String) :
    s.balancer.selected + (s.turns service operations).length ≤ (s.after operations).balancer.selected := by
  induction operations generalizing s with
  | nil => exact Nat.le_refl _
  | cons o operations ih =>
    have hrest := ih (h.step o)
    rw [after, List.foldl_cons, ← after]
    cases ht : s.turn? service o with
    | none =>
      have hmore := s.selected_le_step o
      rw [turns_of_no_turn ht]
      omega
    | some t =>
      have hone := (takes_of_turn h ht).selected
      rw [turns_of_turn ht, List.length_cons]
      omega

/-- While the list and the way of choosing stay the same, the choices fall on one place after the other. -/
lemma chosen_in_turn {eligible : List String} (h : Ordered config s) (operations : List Operation)
    (hkept : ∀ a, .setAlgorithm a ∈ operations → a = s.balancer.algorithm)
    (hsame : ∀ t ∈ s.turns service operations, t.eligible = eligible)
    (hc : s.cursor service + (s.turns service operations).length ≤ 2 ^ 64) :
    (s.turns service operations).map (fun t => some t.chosen) =
      (List.range' (s.cursor service) (s.turns service operations).length).map
        fun k => eligible[k % eligible.length]? := by
  induction operations generalizing s with
  | nil => rfl
  | cons o operations ih =>
    have ho (a : Algorithm) (ha : o = .setAlgorithm a) : a = s.balancer.algorithm :=
      hkept a (ha ▸ List.mem_cons_self)
    have hkept' (a : Algorithm) (ha : .setAlgorithm a ∈ operations) : a = (s.step o).balancer.algorithm :=
      (hkept a (List.mem_cons_of_mem _ ha)).trans (s.algorithm_step o ho).symm
    cases ht : s.turn? service o with
    | none =>
      have hcursor : (s.step o).cursor service = s.cursor service := by
        rcases cursor_of_no_turn ht with hsame | ⟨⟨a, ha, hne⟩, _⟩
        · exact hsame
        · exact absurd (ho a ha) hne
      rw [turns_of_no_turn ht] at hsame hc ⊢
      rw [← hcursor] at hc ⊢
      exact ih (h.step o) hkept' hsame hc
    | some t =>
      have htakes := takes_of_turn h ht
      rw [turns_of_turn ht] at hsame hc ⊢
      rw [List.length_cons] at hc ⊢
      obtain ⟨ht, hrest⟩ := List.forall_mem_cons.1 hsame
      have hmod := Nat.mod_le (s.cursor service + 1) (2 ^ 64)
      have hrest := ih (h.step o) hkept' hrest (by rw [htakes.cursor]; omega)
      rw [List.map_cons, List.range'_succ, List.map_cons, hrest, ← htakes.chosen, ← htakes.eligible, ht]
      -- The cursor starts over at its end, but then there is no other turn.
      cases hmore : ((s.step o).turns service operations).length with
      | zero => rfl
      | succ n =>
        have hnext : (s.step o).cursor service = s.cursor service + 1 := by
          rw [htakes.cursor]
          exact Nat.mod_eq_of_lt (by omega)
        rw [hnext]

lemma map_rotate (l : List String) (n : Nat) :
    (l.rotate n).map some = (List.range' n l.length).map fun k => l[k % l.length]? := by
  apply List.ext_getElem
  · rw [List.length_map, List.length_map, List.length_rotate, List.length_range']
  · intro k hk _
    rw [List.length_map, List.length_rotate] at hk
    rw [List.getElem_map, List.getElem_map, List.getElem_range', ← List.getElem?_eq_getElem, List.getElem?_rotate hk,
      Nat.one_mul, Nat.add_comm]

lemma goes_round {eligible : List String} (h : Ordered config s) (operations : List Operation)
    (hkept : ∀ a, .setAlgorithm a ∈ operations → a = s.balancer.algorithm)
    (hsame : ∀ t ∈ s.turns service operations, t.eligible = eligible)
    (hround : (s.turns service operations).length = eligible.length)
    (hc : s.cursor service + (s.turns service operations).length ≤ 2 ^ 64) :
    (s.turns service operations).map (·.chosen) = eligible.rotate (s.cursor service) := by
  apply List.map_injective_iff.2 fun _ _ => Option.some.inj
  rw [List.map_map, map_rotate, ← hround]
  refine (chosen_in_turn h operations hkept hsame hc).trans ?_
  rw [hround]

lemma nodup_of_turn (h : Ordered config s) (operations : List Operation) :
    ∀ t ∈ s.turns service operations, t.eligible.Nodup := by
  induction operations generalizing s with
  | nil => exact fun t ht => nomatch ht
  | cons o operations ih =>
    cases ht : s.turn? service o with
    | none =>
      rw [turns_of_no_turn ht]
      exact ih (h.step o)
    | some t =>
      rw [turns_of_turn ht, List.forall_mem_cons, (takes_of_turn h ht).eligible]
      exact ⟨h.nodup_eligible service, ih (h.step o)⟩

/-- While those that may be chosen for a service are the same, as many choices in turn as there are of them go once
round the whole list, starting somewhere, so each of them is chosen exactly once: whatever happens in between, as long
as nobody changes the way of choosing. -/
theorem turns_go_round (config : Config) (dice : Nat → Float) (before during : List Operation) (service : String)
    (eligible : List String) (hfew : (run config dice (before ++ during)).balancer.selected < 2 ^ 64)
    (hkept : ∀ a, .setAlgorithm a ∈ during → a = (run config dice before).balancer.algorithm)
    (hsame : ∀ t ∈ (run config dice before).turns service during, t.eligible = eligible)
    (hround : ((run config dice before).turns service during).length = eligible.length) :
    let chosen := ((run config dice before).turns service during).map (·.chosen)
    (∃ first, chosen = eligible.rotate first) ∧ ∀ id ∈ eligible, chosen.count id = 1 := by
  intro chosen
  have h : Ordered config (run config dice before) := .run config dice before
  have hle := cursor_le_selected config dice before service
  have hmore := selected_after h during service
  rw [run_append] at hfew
  have hrotate : chosen = eligible.rotate ((run config dice before).cursor service) :=
    goes_round h during hkept hsame hround (by omega)
  refine ⟨⟨_, hrotate⟩, fun id hid => ?_⟩
  have hnodup : eligible.Nodup := by
    obtain ⟨t, ht⟩ := List.exists_mem_of_length_pos (hround ▸ List.length_pos_of_mem hid)
    exact hsame t ht ▸ nodup_of_turn h during t ht
  rw [hrotate, (List.rotate_perm eligible _).count_eq]
  exact List.count_eq_one_of_mem hnodup hid

abbrev healthy (id service : String) : Operation :=
  .register { id, service, host := "localhost", port := 1, health := .healthy }

def keyless : Config := { algorithm := .ipHash }

def arrivals : List Operation :=
  [healthy "a" "chat", healthy "b" "chat", healthy "c" "chat", healthy "d" "image", .select "chat" none]

def mixture : List Operation :=
  [.select "chat" none, .select "image" none, .startRequest "b", .select "chat" (some "caller"), .select "audio" none,
    .setAlgorithm .ipHash, .select "chat" none, .endRequest "b" false 5, .timePasses 7, .select "chat" none]

/-- The cursor has moved once before. A choice for another service, one by a key and one that finds nobody lie between
the choices in turn. -/
theorem turns_go_round_amid_mixture :
    let s := run keyless (fun _ => 0.0) arrivals
    let chosen := (s.turns "chat" mixture).map (·.chosen)
    (run keyless (fun _ => 0.0) (arrivals ++ mixture)).balancer.selected = 6 ∧ chosen = ["b", "c", "a"] ∧
      ∀ id ∈ ["a", "b", "c"], chosen.count id = 1 := by
  intro s chosen
  obtain ⟨hselected, halgorithm, hturns⟩ : (run keyless (fun _ => 0.0) (arrivals ++ mixture)).balancer.selected = 6 ∧
      s.balancer.algorithm = .ipHash ∧ s.turns "chat" mixture =
        [⟨["a", "b", "c"], "b"⟩, ⟨["a", "b", "c"], "c"⟩, ⟨["a", "b", "c"], "a"⟩] := by decide +kernel
  refine ⟨hselected, congrArg (List.map (·.chosen)) hturns, ?_⟩
  refine (turns_go_round keyless (fun _ => 0.0) arrivals mixture "chat" ["a", "b", "c"] ?_ ?_ ?_ ?_).2
  · rw [hselected]
    decide
  · intro a ha
    obtain rfl : a = .ipHash := by simpa [mixture] using ha
    exact halgorithm.symm
  · rw [hturns]
    decide
  · rw [hturns]
    rfl

end History

end Balancer

end Serving
