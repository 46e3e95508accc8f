import Mathlib.Tactic.Lemma
import Serving.Cache.Key

/-! What a key tells of the type and the parameters it was made from. All digests are of the same length, so a key
gives away its type whatever characters that type has, and the parameters are told apart unless their texts collide. -/

namespace Serving

namespace Digest

lemma length_bytesOf (n k : Nat) : (bytesOf n k).length = k := by
  induction k with
  | zero => rfl
  | succ k ih => rw [bytesOf, List.length_cons, ih]

lemma length_sha256 (message : List UInt8) : (sha256 message).length = 32 := by
  simp [sha256, length_bytesOf]

lemma length_hex (bytes : List UInt8) : (hex bytes).length = 2 * bytes.length := by
  induction bytes with
  | nil => rfl
  | cons b bytes ih =>
    simp only [hex, List.flatMap_cons, List.length_append, List.length_cons] at ih ⊢
    rw [ih]
    simp
    omega

end Digest

namespace Cache.Key

lemma length_digest (text : String) : (digest text).toList.length = digestLength := by
  rw [digest, String.toList_ofList, List.length_take, Digest.length_hex, Digest.length_sha256]
  rfl

/-- Two texts that have the same digest although they differ. -/
def Collide (a b : String) : Prop := a ≠ b ∧ digest a = digest b

/-- No key tells the one parameters of a type from the other: they have the same text, or a text that collides. -/
def Alike (type : String) (params params' : Params) : Prop :=
  preimage type params = preimage type params' ∨ Collide (preimage type params) (preimage type params')

variable {type type' : String} {params params' : Params}

theorem type_of_derive (h : derive type params = derive type' params') : type = type' := by
  have hl := congrArg String.toList h
  simp only [derive, ofType, String.toList_append] at hl
  have hstem := (List.append_inj' hl (by rw [length_digest, length_digest])).1
  have htype := (List.append_inj' hstem rfl).1
  exact String.toList_inj.1 (List.append_cancel_left htype)

theorem alike_of_derive (h : derive type params = derive type params') : Alike type params params' := by
  have hl := congrArg String.toList h
  simp only [derive, String.toList_append] at hl
  have hdigest := String.toList_inj.1 (List.append_cancel_left hl)
  by_cases ht : preimage type params = preimage type params'
  · exact .inl ht
  · exact .inr ⟨ht, hdigest⟩

end Cache.Key

end Serving
