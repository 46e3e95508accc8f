import Serving.Proofs.Cache.Contents
import Serving.Proofs.Cache.Keys

/-! How old a value can be that is found. A copy lives as long again as what was written, but copies go only from slower
levels to faster ones and a type has no level twice. So an entry comes to its end within as many lifetimes as there are
levels from its own on, and whoever reads it has waited no longer. -/

namespace Serving.Cache

variable {τ : Type} {config : Config} {type : String} {cfg : TypeConfig}

lemma nodup_of_problems (h : config.problems = []) (hk : config.types.find? type = some cfg) :
    cfg.levels.Nodup := by
  have hall : config.types.toList.flatMap (fun x => x.2.problems x.1) = [] :=
    (List.append_eq_nil_iff.1 h).2
  have hone : cfg.problems type = [] := List.flatMap_eq_nil_iff.1 hall _ (Table.mem_of_find? hk)
  have hlast := (List.append_eq_nil_iff.1 hone).2
  by_contra hn
  rw [if_neg hn] at hlast
  cases hlast

/-- An entry at a level has bytes that were written, and it ends within as many lifetimes since then as there are levels
from that one on. -/
def Dated (config : Config) (writes : List Write) (place : Place) (key : String) (e : Entry) : Prop :=
  ∃ w ∈ writes, ∃ cfg, config.types.find? w.type = some cfg ∧
    ∃ front level back, cfg.levels = front ++ level :: back ∧ level.place w.type = place ∧ w.key = key ∧
      w.bytes = e.value ∧ e.expires ≤ w.time + (back.length + 1) * cfg.ttl

/-- In a list without repetitions an element has but one place. -/
lemma suffix_eq {α : Type} {a : α} {front front' back back' : List α} (hn : (front ++ a :: back).Nodup)
    (h : front ++ a :: back = front' ++ a :: back') : back = back' := by
  have hnot := (List.nodup_middle.1 hn).notMem
  have hnot' := (List.nodup_middle.1 (h ▸ hn)).notMem
  simp only [List.mem_append, not_or] at hnot hnot'
  exact ((List.append_cons_inj_of_notMem hnot.1 hnot.2).1 h).2.2

/-- When no operation takes time, what is written lives for one lifetime, and a copy for one more than the original. -/
lemma rules_dated (hv : config.problems = []) :
    Rules config (Dated config) (fun e now => now ≤ e.expires) fun start now => now = start where
  more hW := by
    rintro ⟨w, hw, h⟩
    exact ⟨w, hW hw, h⟩
  write {W w cfg level now} hw hk hl hn := by
    obtain ⟨front, back, hs⟩ := List.append_of_mem hl
    refine ⟨w, hw, cfg, hk, front, level, back, hs, rfl, rfl, rfl, ?_⟩
    have hone : cfg.ttl ≤ (back.length + 1) * cfg.ttl := Nat.le_mul_of_pos_left _ back.length.succ_pos
    subst hn
    exact Nat.add_le_add_left hone _
  copy {W type params cfg front level back level' e start now now'} hk hs hl hin hlive hn hn' := by
    obtain ⟨w, hw, cfg', hk', front', other, back', hs', hplace, hkey, hbytes, hend⟩ := hin
    obtain rfl : w.type = type := Key.type_of_derive hkey
    obtain rfl : cfg' = cfg := Option.some.inj (hk'.symm.trans hk)
    obtain rfl : other = level := Level.place_inj hplace
    have hnodup := nodup_of_problems hv hk
    obtain rfl : back' = back := suffix_eq (hs' ▸ hnodup) (hs'.symm.trans hs)
    obtain ⟨before, between, rfl⟩ := List.append_of_mem hl
    refine ⟨w, hw, cfg', hk, before, level', between ++ other :: back', by simp [hs], rfl, hkey, hbytes, ?_⟩
    -- at least one level lies between the copy and the end of what it was copied from
    have hmore : (back'.length + 1) * cfg'.ttl + cfg'.ttl ≤ ((between ++ other :: back').length + 1) * cfg'.ttl := by
      rw [← Nat.succ_mul]
      refine Nat.mul_le_mul_right _ ?_
      simp
    subst hn hn'
    calc now' + cfg'.ttl ≤ e.expires + cfg'.ttl := Nat.add_le_add_right hlive _
      _ ≤ w.time + (back'.length + 1) * cfg'.ttl + cfg'.ttl := Nat.add_le_add_right hend _
      _ = w.time + ((back'.length + 1) * cfg'.ttl + cfg'.ttl) := Nat.add_assoc ..
      _ ≤ _ := Nat.add_le_add_left hmore _

namespace History

variable {store : Store τ} {holds : τ → String → Entry → Prop} {t : τ}

/-- A value that is found was written under its type and parameters no longer ago than its type's time to live for each
level of the type, however often it was read and copied since, and whatever calls to the outside store failed. -/
theorem found_within_lifetimes (hp : store.Prompt) (hk : store.Keeps holds fun e now => now ≤ e.expires)
    (ht : ∀ key e, ¬holds t key e) (hv : config.problems = []) (isDistributed : Bool) (requests : List Request)
    (r : Request) :
    let s := run store config isDistributed t requests
    r.Finds (fun type params bytes => ∃ cfg, config.types.find? type = some cfg ∧
      ∃ w ∈ s.writesSince 0, w.type = type ∧ Key.Alike type w.params params ∧ w.bytes = bytes ∧
        s.now ≤ w.time + cfg.levels.length * cfg.ttl) (s.answer store r) := by
  intro s
  have hr := rules_dated hv
  have hc (start : Instant) : Conditions store config.remote.operationTimeout holds (fun e now => now ≤ e.expires)
      (fun now => now = start) := by
    refine ⟨hk, fun h => ?_, fun {call t now} hn => ?_⟩
    · simpa [Entry.isExpired] using h
    · rwa [hp.ask]
  have hs := sound_after hr hc (fun _ => rfl) requests (Nat.zero_le _) (sound_start isDistributed ht)
  refine (finds hr hc (fun _ => rfl) r hs).mono ?_
  rintro type params bytes ⟨cfg, hknown, level, hl, e, now, hin, rfl, hlive, rfl⟩
  obtain ⟨w, hw, cfg', hk', front, other, back, hlevels, _, hkey, hbytes, hend⟩ := hin
  obtain rfl : w.type = type := Key.type_of_derive hkey
  obtain rfl : cfg' = cfg := Option.some.inj (hk'.symm.trans hknown)
  refine ⟨cfg', hknown, w, hw, rfl, Key.alike_of_derive hkey, hbytes, ?_⟩
  have hlength : back.length + 1 ≤ cfg'.levels.length := by simp [hlevels]
  calc s.now ≤ e.expires := hlive
    _ ≤ w.time + (back.length + 1) * cfg'.ttl := hend
    _ ≤ _ := Nat.add_le_add_left (Nat.mul_le_mul_right _ hlength) _

/-- The first value has to leave the memory level at once and comes back at the end of its first lifetime. -/
def revived : List Request := [.write 1 1, .write 2 2, .wait 10, .read 1, .wait 10]

/-- With two levels a value can be found when it is two lifetimes old, and no later. -/
theorem found_within_lifetimes_revived :
    let s := run .ofMemory .tight true (.new 10) revived
    (s.answer .ofMemory (.read 1) = .ok (some ⟨#[1]⟩) ∧ s.now = 20) ∧
      (Request.read 1).Finds (fun type params bytes => ∃ cfg, Config.tight.types.find? type = some cfg ∧
        ∃ w ∈ s.writesSince 0, w.type = type ∧ Key.Alike type w.params params ∧ w.bytes = bytes ∧
          s.now ≤ w.time + cfg.levels.length * cfg.ttl) (s.answer .ofMemory (.read 1)) := by
  refine ⟨by decide +kernel, ?_⟩
  exact found_within_lifetimes Store.prompt_ofMemory
    (Store.obeys_ofMemory fun e now h => by simpa [Entry.isExpired] using h).toKeeps
    (fun _ _ => List.not_mem_nil) (by decide) true revived _

end History

end Serving.Cache
