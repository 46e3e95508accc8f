import Serving.Proofs.Cache.Contents
import Serving.Proofs.Interference

/-! A cache that others use while an operation waits for the outside store. If all bytes that lie in the partitions and
all that the store gives out are as a rule on keys and bytes says, then so are the bytes that the operation finds, and
it writes no others unless it is told to. -/

namespace Serving.Cache

open Routine

variable {α : Type} {config : Config} {Rule : String → Bytes → Prop} {c : Cache} {type key : String}

/-- All bytes in the partitions are as a rule says. -/
abbrev Filled (config : Config) (Rule : String → Bytes → Prop) (c : Cache) : Prop :=
  Sound config (fun (_ : Unit) (_ : String) (_ : Entry) => False) (fun _ key e => Rule key e.value) c ()

/-- A call that stores nothing but what a rule says. -/
def Call.Fits (Rule : String → Bytes → Prop) : Call → Prop
  | .set key value _ => Rule key value
  | _ => True

/-- An answer that gives out nothing but what a rule says. -/
def Call.Honest (Rule : String → Bytes → Prop) : (call : Call) → Option call.Reply → Prop
  | .get key, reply => ∀ bytes, reply = some (some bytes) → Rule key bytes
  | _, _ => True

def terms (config : Config) (Rule : String → Bytes → Prop) : Terms Call (fun c => Option c.Reply) Cache Unit where
  state _ c := Filled config Rule c
  asks _ call := call.Fits Rule
  tells _ call reply _ := call.Honest Rule reply

variable {post : Unit → α → Cache → Prop}

lemma abides_ask {call : Call} {next : Option call.Reply → Cache → Instant → Operation α} (h : Filled config Rule c)
    (hcall : call.Fits Rule)
    (hnext : ∀ reply c now, call.Honest Rule reply → Filled config Rule c →
      Abides (terms config Rule) post () (next reply c now)) :
    Abides (terms config Rule) post () (c.ask call next) := by
  refine ⟨h, hcall, fun reply _ hreply c now hc => hnext reply _ now hreply ?_⟩
  split
  · exact hc.congr rfl rfl rfl
  · exact hc

lemma abides_readLevel {now : Instant} {level : Level} {next : Option Bytes → Cache → Instant → Operation α}
    (h : Filled config Rule c)
    (hnext : ∀ value c now, Filled config Rule c → (∀ bytes, value = some bytes → Rule key bytes) →
      Abides (terms config Rule) post () (next value c now)) :
    Abides (terms config Rule) post () (c.readLevel now type key level next) := by
  cases level with
  | memory =>
    simp only [readLevel]
    cases hp : c.partitions.find? type with
    | none => exact hnext _ _ _ h (by rintro _ ⟨⟩)
    | some p =>
      refine hnext _ _ _ (h.insert hp (fun key e he => h.partition hp ?_) fun _ _ _ _ => id) ?_
      · exact Memory.mem_of_mem_get he
      · intro bytes hb
        obtain ⟨e, he, rfl, _⟩ := Memory.exists_of_get hb
        exact h.partition hp he
  | distributed =>
    simp only [readLevel]
    split
    · refine abides_ask h trivial fun reply c now hreply h => hnext _ _ _ h fun bytes hb => ?_
      exact hreply bytes (Option.join_eq_some_iff.1 hb)
    · exact hnext _ _ _ h (by rintro _ ⟨⟩)

lemma abides_writeLevels {now : Instant} {value : Bytes} {ttl : Duration} {next : Cache → Instant → Operation α}
    (levels : List Level) (hv : Rule key value) (h : Filled config Rule c)
    (hnext : ∀ c now, Filled config Rule c → Abides (terms config Rule) post () (next c now)) :
    Abides (terms config Rule) post () (writeLevels type key value ttl next levels c now) := by
  induction levels generalizing c now with
  | nil => exact hnext c now h
  | cons level rest ih =>
    cases level with
    | memory =>
      refine ih (h.modify (fun p hp k e he => ?_) fun _ _ _ _ => id)
      rcases Memory.mem_of_mem_set he with he | ⟨rfl, rfl⟩
      · exact h.partition hp (Memory.mem_others.1 he).1
      · exact hv
    | distributed =>
      simp only [writeLevels]
      split
      · exact abides_ask h hv fun _ _ _ _ h => ih h
      · exact ih h

/-- A value that was decoded from bytes as the rule says. -/
def Decoded (Rule : String → Bytes → Prop) (decode : Bytes → Option α) (key : String)
    (answer : Except Error (Option α)) : Prop :=
  ∀ v, answer = .ok (some v) → ∃ bytes, decode bytes = some v ∧ Rule key bytes

lemma abides_lookup {now : Instant} {decode : Bytes → Option α} {ttl : Duration} (faster rest : List Level)
    (h : Filled config Rule c) :
    Abides (terms config Rule)
      (fun _ answer c => Filled config Rule c ∧ answer.isOk = true ∧ Decoded Rule decode key answer) ()
      (lookup decode type key ttl faster rest c now) := by
  induction rest generalizing faster c now with
  | nil => exact ⟨h.congr rfl rfl rfl, rfl, by rintro _ ⟨⟩⟩
  | cons level rest ih =>
    refine abides_readLevel h fun value c now h hv => ?_
    cases value with
    | none => exact ih _ h
    | some bytes =>
      cases hd : decode bytes with
      | none => simpa only [hd] using ih _ h
      | some v =>
        simp only [hd]
        refine abides_writeLevels faster (hv bytes rfl) h fun c now h => ?_
        refine ⟨by cases level <;> exact h.congr rfl rfl rfl, rfl, ?_⟩
        rintro _ ⟨⟩
        exact ⟨bytes, hd, hv bytes rfl⟩

lemma abides_get {now : Instant} {decode : Bytes → Option α} {params : Params} (h : Filled config Rule c) :
    Abides (terms config Rule)
      (fun _ answer c => Filled config Rule c ∧ Decoded Rule decode (Key.derive type params) answer) ()
      (c.get now decode type params) := by
  rw [get]
  split
  · exact ⟨h, by rintro _ ⟨⟩⟩
  · exact (abides_lookup [] _ h).mono fun _ _ _ hp => ⟨hp.1, hp.2.2⟩

/-- A lookup under a type of the table does not fail. -/
lemma abides_get_of_type {now : Instant} {decode : Bytes → Option α} {params : Params} {config' : TypeConfig}
    (h : Filled config Rule c) (ht : config.types.find? type = some config') :
    Abides (terms config Rule) (fun _ answer c => Filled config Rule c ∧ answer.isOk = true) ()
      (c.get now decode type params) := by
  have htype : c.typeConfig type = .ok config' := by rw [typeConfig, h.config, ht]
  rw [get, htype]
  exact (abides_lookup [] _ h).mono fun _ _ _ hp => ⟨hp.1, hp.2.1⟩

lemma abides_set {now : Instant} {params : Params} {value : Except String Bytes} (h : Filled config Rule c)
    (hv : ∀ bytes, value = .ok bytes → Rule (Key.derive type params) bytes) :
    Abides (terms config Rule) (fun _ _ c => Filled config Rule c) () (c.set now type params value) := by
  rw [set]
  split
  · exact h
  · split
    · exact h
    · exact abides_writeLevels _ (hv _ rfl) h fun c now h => h.congr rfl rfl rfl

end Serving.Cache
