import Mathlib.Data.List.Nodup
import Serving.Balancer.Probe
import Serving.Proofs.Balancer.History
import Serving.Proofs.Table
import Serving.Scaling.Scaler

/-! The roster of a pool says who is in it, for which service, and who is about to leave. The instances that
count for a service are counted on the roster, and requests, reports and probes leave it as it is. -/

namespace Serving

structure Member where
  id : String
  service : String
  isStopping : Bool
  deriving DecidableEq

def Member.counts (m : Member) (service : String) : Bool := m.service == service && !m.isStopping

def Instance.member (i : Instance) : Member := ⟨i.id, i.service, i.health == .stopping⟩

lemma Instance.member_congr {i j : Instance} (hid : j.id = i.id) (hservice : j.service = i.service)
    (hhealth : j.health = .stopping ↔ i.health = .stopping) : j.member = i.member := by
  have hstops : (j.health == .stopping) = (i.health == .stopping) := by
    rw [Bool.eq_iff_iff, beq_iff_eq, beq_iff_eq, hhealth]
  rw [member, member, hid, hservice, hstops]

/-- Everybody is on the roster once and under the own id, and those who are leaving are there and stop. -/
structure Consistent (roster : Table Member) (leaving : List String) : Prop where
  names : roster.names.Nodup
  keyed : ∀ id m, roster.find? id = some m → m.id = id
  present : ∀ id ∈ leaving, ∃ m, roster.find? id = some m ∧ m.isStopping = true
  once : leaving.Nodup

namespace Consistent

variable {roster : Table Member} {leaving : List String} {m : Member}

lemma sublist (h : Consistent roster leaving) {fewer : List String} (hs : fewer.Sublist leaving) :
    Consistent roster fewer where
  names := h.names
  keyed := h.keyed
  present id hid := h.present id (hs.subset hid)
  once := h.once.sublist hs

lemma insert (h : Consistent roster leaving) (hm : m.id ∉ roster.names) :
    Consistent (roster.insert m.id m) leaving where
  names := Table.nodup_names_insert h.names _ _
  keyed id n hn := by
    rw [Table.find?_insert] at hn
    split at hn
    · rename_i hid
      rw [← Option.some.inj hn, hid]
    · exact h.keyed id n hn
  present id hid := by
    obtain ⟨n, hn, hs⟩ := h.present id hid
    have hne : id ≠ m.id := fun he => hm (he ▸ Table.mem_names_of_find? hn)
    exact ⟨n, by rw [Table.find?_insert, if_neg hne, hn], hs⟩
  once := h.once

lemma stop (h : Consistent roster leaving) (hm : roster.find? m.id = some m) (hs : m.isStopping = false) :
    Consistent (roster.modify m.id fun m => { m with isStopping := true }) (leaving ++ [m.id]) where
  names := by
    rw [Table.names_modify]
    exact h.names
  keyed id n hn := by
    rw [Table.find?_modify] at hn
    split at hn
    · rename_i hid
      rw [hm] at hn
      rw [← Option.some.inj hn, hid]
    · exact h.keyed id n hn
  present id hid := by
    rw [Table.find?_modify]
    split
    · exact ⟨_, by rw [hm, Option.map_some], rfl⟩
    · rename_i hne
      obtain hid | hid := List.mem_append.1 hid
      · exact h.present id hid
      · exact absurd (List.mem_singleton.1 hid) hne
  once := by
    refine List.nodup_append.2 ⟨h.once, List.nodup_singleton _, ?_⟩
    rintro a ha b hb rfl
    obtain ⟨n, hn, hstops⟩ := h.present a ha
    rw [List.mem_singleton.1 hb, hm] at hn
    obtain rfl := Option.some.inj hn
    rw [hs] at hstops
    cases hstops

lemma erase (h : Consistent roster leaving) {id : String} {others : List String}
    (hl : leaving.Perm (id :: others)) : Consistent (roster.erase id) others where
  names := by
    rw [Table.names_erase]
    exact h.names.filter _
  keyed other n hn := by
    rw [Table.find?_erase] at hn
    split at hn
    · cases hn
    · exact h.keyed other n hn
  present other ho := by
    obtain ⟨hid, _⟩ := List.nodup_cons.1 (hl.nodup_iff.1 h.once)
    have hne : other ≠ id := fun he => hid (he ▸ ho)
    rw [Table.find?_erase, if_neg hne]
    exact h.present other (hl.mem_iff.2 (List.mem_cons_of_mem _ ho))
  once := (List.nodup_cons.1 (hl.nodup_iff.1 h.once)).2

end Consistent

namespace Health

lemma afterProbe_eq_stopping_iff (h : Health) (healthy : Bool) : h.afterProbe healthy = stopping ↔ h = stopping := by
  cases h <;> cases healthy <;> decide

end Health

namespace Balancer

def roster (b : Balancer) : Table Member := b.instances.map fun _ i => i.member

variable {b : Balancer} {id : String}

lemma names_roster (b : Balancer) : b.roster.names = b.instances.names := Table.names_map ..

lemma find?_roster (b : Balancer) (id : String) : b.roster.find? id = (b.instances.find? id).map (·.member) :=
  Table.find?_map ..

lemma roster_register (b : Balancer) (i : Instance) : (b.register i).roster = b.roster.insert i.id i.member :=
  Table.map_insert ..

lemma roster_unregister (b : Balancer) (id : String) : (b.unregister id).2.roster = b.roster.erase id :=
  Table.map_erase ..

lemma roster_stopping (b : Balancer) (id : String) :
    (b.setHealth id .stopping).2.roster = b.roster.modify id fun m => { m with isStopping := true } :=
  Table.map_modify b.instances (fun _ i => i.member) id (g := fun i => { i with health := .stopping }) fun _ => rfl

lemma roster_modify (hn : b.roster.names.Nodup) {f : Instance → Instance}
    (hf : ∀ i, b.instances.find? id = some i → (f i).member = i.member) :
    (b.modify id f).2.roster = b.roster := by
  rw [names_roster] at hn
  exact Table.map_modify_of_find? hn hf

lemma roster_setHealth (hn : b.roster.names.Nodup) {status : Health}
    (hs : ∀ i, b.instances.find? id = some i → (status = .stopping ↔ i.health = .stopping)) :
    (b.setHealth id status).2.roster = b.roster :=
  roster_modify hn fun i hi => Instance.member_congr rfl rfl (hs i hi)

lemma roster_endRequest (hn : b.roster.names.Nodup) (now : Instant) (id : String) (success : Bool)
    (took : Duration) : (b.endRequest now id success took).roster = b.roster := by
  rw [endRequest]
  split
  · exact roster_modify (f := (·.finish success took)) hn fun _ _ => rfl
  · rfl

lemma roster_recordProbe (hn : b.roster.names.Nodup) (now : Instant) (id : String) (healthy : Bool)
    (cpu memory : Float) : (b.recordProbe now id healthy cpu memory).2.roster = b.roster := by
  rw [recordProbe]
  cases hi : b.instances.find? id with
  | none => rfl
  | some i =>
    refine roster_modify (f := fun j =>
      { j with cpu, memory, lastCheck := some (.ofNanos now), health := i.health.afterProbe healthy }) hn ?_
    intro j hj
    obtain rfl : i = j := Option.some.inj (hi.symm.trans hj)
    exact Instance.member_congr rfl rfl (Health.afterProbe_eq_stopping_iff ..)

/-- Operations of clients and probes, that bring no instance into the pool, take none out of it, and set
no status. -/
def Operation.IsOrdinary : Operation → Prop
  | register _ | unregister _ | setHealth _ _ => False
  | _ => True

instance : DecidablePred Operation.IsOrdinary
  | .register _ | .unregister _ | .setHealth _ _ => .isFalse not_false
  | .select _ _ | .startRequest _ | .endRequest _ _ _ | .recordProbe _ _ _ _ | .updateResources _ _ _
  | .setAlgorithm _ | .timePasses _ => .isTrue trivial

theorem roster_perform (hn : b.roster.names.Nodup) (now : Instant) {o : Operation} (ho : o.IsOrdinary) :
    (b.perform now o).roster = b.roster := by
  cases o with
  | register | unregister | setHealth => exact ho.elim
  | select service key => rw [perform, roster, roster, select_instances]
  | startRequest id => exact roster_modify hn fun _ _ => rfl
  | endRequest id success took => exact roster_endRequest hn now id success took
  | recordProbe id healthy cpu memory => exact roster_recordProbe hn now id healthy cpu memory
  | updateResources id cpu memory => exact roster_modify hn fun _ _ => rfl
  | setAlgorithm a =>
    rw [perform, setAlgorithm]
    split <;> rfl
  | timePasses d => rfl

theorem roster_probeEach (hn : b.roster.names.Nodup) (probe : Probe) (now : Instant) (ids : List String) :
    (probeEach probe now ids b).2.roster = b.roster := by
  induction ids generalizing b with
  | nil => rfl
  | cons id rest ih =>
    simp only [probeEach]
    cases b.instance? id with
    | none => exact ih hn
    | some i =>
      have hprobed := roster_recordProbe hn now id (probe i).healthy (probe i).cpu (probe i).memory
      by_cases hstopping : i.health = .stopping
      · simpa only [hstopping, if_true] using ih hn
      · simp only [hstopping, if_false]
        exact (ih (hprobed ▸ hn)).trans hprobed

theorem roster_probeAll (hn : b.roster.names.Nodup) (probe : Probe) (now : Instant) :
    (b.probeAll probe now).2.roster = b.roster := roster_probeEach hn probe now _

end Balancer

namespace Scaling.Fleet

variable {s : Fleet}

theorem activeCount_eq (s : Fleet) (service : String) :
    s.activeCount service = s.balancer.roster.values.countP (·.counts service) := by
  rw [activeCount, Balancer.serving, List.countP_filter, Balancer.roster, Table.values, Table.values, Table.map,
    List.map_map, List.countP_map, List.countP_map]
  refine List.countP_congr fun e _ => ?_
  simp [Member.counts, Instance.member, and_comm]

lemma activeCount_congr {t : Fleet} (h : t.balancer.roster = s.balancer.roster) (service : String) :
    t.activeCount service = s.activeCount service := by
  rw [activeCount_eq, activeCount_eq, h]

section Changes

variable {t : Fleet} {id : String} {m : Member}

lemma activeCount_of_insert (h : t.balancer.roster = s.balancer.roster.insert id m)
    (hf : id ∉ s.balancer.roster.names) (service : String) :
    t.activeCount service = s.activeCount service + if m.counts service then 1 else 0 := by
  rw [activeCount_eq, activeCount_eq, h, Table.countP_insert hf]

lemma activeCount_of_erase (h : t.balancer.roster = s.balancer.roster.erase id)
    (hn : s.balancer.roster.names.Nodup) (hm : s.balancer.roster.find? id = some m) (service : String) :
    s.activeCount service = t.activeCount service + if m.counts service then 1 else 0 := by
  rw [activeCount_eq, activeCount_eq, h, Table.countP_erase hn hm]

lemma activeCount_of_stopping
    (h : t.balancer.roster = s.balancer.roster.modify id fun m => { m with isStopping := true })
    (hn : s.balancer.roster.names.Nodup) (hm : s.balancer.roster.find? id = some m) (service : String) :
    s.activeCount service = t.activeCount service + if m.counts service then 1 else 0 := by
  have hcounts : ({ m with isStopping := true } : Member).counts service = false := by simp [Member.counts]
  rw [activeCount_eq, activeCount_eq, h, Table.countP_erase hn hm, Table.countP_modify hn hm, hcounts]
  simp

end Changes

theorem finishStart_eq (hn : s.balancer.roster.names.Nodup) (id : String) :
    ∃ b : Balancer, s.finishStart id = { s with balancer := b } ∧ b.roster = s.balancer.roster := by
  rw [finishStart]
  split
  · exact ⟨_, rfl, rfl⟩
  · split
    · rename_i hstarts
      refine ⟨_, rfl, Balancer.roster_setHealth hn fun i hi => ?_⟩
      rw [Balancer.instance?, hi, Option.any_some, beq_iff_eq] at hstarts
      simp [hstarts]
    · exact ⟨_, rfl, rfl⟩

end Scaling.Fleet

end Serving
