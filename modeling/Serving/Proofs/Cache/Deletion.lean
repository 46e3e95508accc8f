import Serving.Proofs.Cache.Presence

/-! What a removal tells. It tells whether an entry lay under the key, and an entry that has outlived its time lies there
until somebody reads it or a sweep comes. Such an entry is what a removal tells of and a question does not; in all else
the two agree. -/

namespace Serving.Cache

open Routine

namespace Memory

variable (m : Memory) (now : Instant) (key : String)

def lingers : Bool := (m.find? key).any (·.isExpired now)

lemma isSome_find? : (m.find? key).isSome = (m.exists? now key || m.lingers now key) := by
  rw [exists?, lingers]
  cases m.find? key with
  | none => rfl
  | some e => exact (Bool.not_or_self (e.isExpired now)).symm

lemma delete_fst : (m.delete key).1 = (m.exists? now key || m.lingers now key) := m.isSome_find? now key

lemma delete_eq_exists_iff : (m.delete key).1 = m.exists? now key ↔ m.lingers now key = false := by
  rw [delete_fst m now, exists?, lingers]
  cases m.find? key with
  | none => exact ⟨fun _ => rfl, fun _ => rfl⟩
  | some e =>
    simp only [Option.any_some]
    cases e.isExpired now <;> decide

lemma not_lingers_get : (m.get now key).2.lingers now key = false := by
  cases hf : m.find? key with
  | none =>
    rw [get_none now hf, lingers, find?]
    exact congrArg (Option.any _) hf
  | some e =>
    cases he : e.isExpired now with
    | true =>
      have hothers : (m.others key).lookup key = none := by
        rw [others, Table.lookup_filter_ne, if_pos rfl]
      rw [get_expired hf he, lingers, find?, hothers]
      rfl
    | false =>
      rw [get_live hf he, lingers, find?, lookup_latest, if_pos rfl]
      exact he

lemma not_lingers_sweep : (m.sweep now).2.lingers now key = false := by
  rw [lingers]
  cases hf : (m.sweep now).2.find? key with
  | none => rfl
  | some e =>
    have hkept := (List.mem_filter.1 (mem_of_find? hf)).2
    rwa [Bool.not_eq_true'] at hkept

end Memory

variable {c : Cache} {t : Memory} {now : Instant} {type key : String}

/-- Whether an entry lies under a key at a level, outlived or not. -/
def lies (c : Cache) (t : Memory) (type key : String) : Level → Bool
  | .memory => (c.partitions.find? type).any fun p => (p.find? key).isSome
  | .distributed => c.isDistributed && (t.find? key).isSome

/-- Whether an entry lies under a key at a level that has outlived its time. -/
def lingers (c : Cache) (t : Memory) (now : Instant) (type key : String) : Level → Bool
  | .memory => (c.partitions.find? type).any (·.lingers now key)
  | .distributed => c.isDistributed && t.lingers now key

lemma lies_eq (now : Instant) (level : Level) : c.lies t type key level =
    ((given (fun m now key => (m.get now key).1) c t now type key level).isSome ||
      c.lingers t now type key level) := by
  cases level with
  | memory =>
    rw [lies, given, lingers]
    cases c.partitions.find? type with
    | none => rfl
    | some p =>
      rw [Option.any_some, Option.any_some, Option.bind_some, ← p.exists?_eq, p.isSome_find? now]
  | distributed =>
    rw [lies, given, lingers]
    cases c.isDistributed with
    | false => rfl
    | true =>
      rw [Bool.true_and, Bool.true_and, if_pos rfl, ← t.exists?_eq, t.isSome_find? now]

lemma any_lies (now : Instant) (levels : List Level) : levels.any (c.lies t type key) =
    (levels.any (fun level => (given (fun m now key => (m.get now key).1) c t now type key level).isSome) ||
      levels.any (c.lingers t now type key)) := by
  rw [Bool.eq_iff_iff]
  simp only [Bool.or_eq_true, List.any_eq_true, lies_eq now, and_or_left, exists_or]

lemma find?_delete (m : Memory) : (m.delete key).2.find? key = none := by
  rw [Memory.find?, Memory.delete_entries, Memory.others, Table.lookup_filter_ne, if_pos rfl]

/-- A level from which a key was deleted has it no more, and the other one has it as before. -/
lemma lies_deleted {c' : Cache} {t' : Memory} {level : Level} (hhere : c'.lies t' type key level = false)
    (hother : ∀ level', level' ≠ level → c'.lies t' type key level' = c.lies t type key level')
    (levels : List Level) : (c.lies t type key level || levels.any (c'.lies t' type key)) =
      (c.lies t type key level || levels.any (c.lies t type key)) := by
  cases hl : c.lies t type key level with
  | true => rfl
  | false =>
    have hsame : c'.lies t' type key = c.lies t type key := by
      funext level'
      by_cases h : level' = level
      · rw [h, hhere, hl]
      · exact hother level' h
    rw [hsame]

/-- A removal tells of the entries at all its levels. -/
lemma ends_deleteLevels_lies {timeout : Duration} (found : Bool) (levels : List Level) :
    Ends (Store.ofMemory.ask timeout) (deleteLevels type key found levels c now) t now fun answer _ _ _ =>
      answer = .ok (found || levels.any (c.lies t type key)) := by
  induction levels generalizing found c t with
  | nil => exact congrArg Except.ok (Bool.or_false found).symm
  | cons level rest ih =>
    rw [List.any_cons, ← Bool.or_assoc]
    cases level with
    | memory =>
      simp only [deleteLevels]
      cases hp : c.partitions.find? type with
      | none =>
        have hnone : c.lies t type key .memory = false := by rw [lies, hp, Option.any_none]
        rw [hnone, Bool.or_false]
        exact ih found
      | some p =>
        have hhere : c.lies t type key .memory = (p.delete key).1 := by rw [lies, hp]; rfl
        refine (ih (found || (p.delete key).1)).mono fun answer _ _ _ h => ?_
        rw [h, ← hhere, Bool.or_assoc, Bool.or_assoc, lies_deleted]
        · rw [lies, Table.find?_insert, if_pos rfl, Option.any_some, find?_delete, Option.isSome_none]
        · intro level' hl
          cases level' with
          | memory => exact absurd rfl hl
          | distributed => rfl
    | distributed =>
      rw [deleteLevels]
      split
      · rename_i hd
        have hhere : c.lies t type key .distributed = (t.delete key).1 := by
          rw [lies, hd, Bool.true_and]
          rfl
        rw [ends_ask, Store.prompt_ofMemory.ask]
        refine (ih (found || (t.delete key).1)).mono fun answer _ _ _ h => ?_
        rw [h, ← hhere, Bool.or_assoc, Bool.or_assoc, lies_deleted]
        · exact (congrArg (c.isDistributed && ·.isSome) (find?_delete t)).trans (Bool.and_false _)
        · intro level' hl
          cases level' with
          | memory => rfl
          | distributed => exact absurd rfl hl
      · rename_i hd
        have hnone : c.lies t type key .distributed = false := by
          rw [lies, Bool.eq_false_iff.2 hd, Bool.false_and]
        rw [hnone, Bool.or_false]
        exact ih found

namespace History

/-- Whether an entry that has outlived its time lies at one of the levels of a type. -/
def lingers (s : History Memory) (type : String) (params : Params) : Bool :=
  (s.cache.config.types.find? type).any fun cfg =>
    cfg.levels.any (s.cache.lingers s.store s.now type (Key.derive type params))

/-- In every state of a store, and of a cache with a memory store outside, a removal tells what a question would have
told, or that there was an entry that had outlived its time. So the two agree when there is no such entry, as under a
key that was read or after a sweep. -/
theorem removal_tells_what_lay_there (m : Memory) (now : Instant) (key : String) (s : History Memory) (type : String)
    (params : Params) :
    ((m.delete key).1 = (m.exists? now key || m.lingers now key) ∧
      ((m.delete key).1 = m.exists? now key ↔ m.lingers now key = false) ∧
      (m.get now key).2.lingers now key = false ∧ (m.sweep now).2.lingers now key = false) ∧
    s.answer .ofMemory (.invalidate type params) =
      (s.answer .ofMemory (.exists? type params)).map (· || s.lingers type params) := by
  refine ⟨⟨m.delete_fst now key, m.delete_eq_exists_iff now key, m.not_lingers_get now key,
    m.not_lingers_sweep now key⟩, ?_⟩
  cases ht : s.cache.typeConfig type with
  | error e =>
    simp only [answer, play, Cache.run, perform, invalidate, exists?, ht]
    rfl
  | ok cfg =>
    have hremoved : s.answer .ofMemory (.invalidate type params) =
        .ok (false || cfg.levels.any (s.cache.lies s.store type (Key.derive type params))) := by
      rw [answer, play, Cache.run, perform, invalidate, ht]
      exact ends_deleteLevels_lies false cfg.levels
    have hlingers : s.lingers type params =
        cfg.levels.any (s.cache.lingers s.store s.now type (Key.derive type params)) := by
      rw [lingers, typeConfig_eq_ok ht, Option.any_some]
    rw [hremoved, s.answer_exists Store.shows_ofMemory ht, Bool.false_or, any_lies s.now, hlingers]
    rfl

theorem removal_tells_of_the_outlived :
    let m := Memory.History.run 10 [.call (.set "k" ⟨#[7]⟩ 1000), .timePasses 1001]
    let s := run .ofMemory .tight true (.new 10) [.write 1 7, .wait 11]
    (m.memory.exists? m.now "k" = false ∧ (m.memory.delete "k").1 = true) ∧
      s.answer .ofMemory (.exists? "a" [("k", .ofNat 1)]) = .ok false ∧ s.answer .ofMemory (.drop 1) = .ok true := by
  decide +kernel

end History

end Serving.Cache
