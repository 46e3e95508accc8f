import Serving.Proofs.Cache.Keys
import Serving.Proofs.Json.Content
import Serving.Proofs.Json.Text

/-! What is digested for a key identifies a request: it gives away the type and what the parameters say, whatever
characters either of them has. So two requests have one key in common only if they are the same or their digests
collide. -/

namespace Serving

namespace Digest

lemma toList_loop (bytes : ByteArray) (i : ℕ) (before : List UInt8) :
    ByteArray.toList.loop bytes i before = before.reverse ++ bytes.data.toList.drop i := by
  fun_induction ByteArray.toList.loop bytes i before with
  | case1 i before hi ih =>
    have hdrop : i < bytes.data.toList.length := by simpa using hi
    rw [ih, List.drop_eq_getElem_cons hdrop, List.reverse_cons, List.append_assoc]
    congr 2
    simp [ByteArray.get!, hi]
  | case2 i before hi =>
    have hend : bytes.data.toList.length ≤ i := by simpa using hi
    rw [List.drop_eq_nil_of_le hend, List.append_nil]

lemma utf8_inj {s t : String} : utf8 s = utf8 t ↔ s = t := by
  refine ⟨fun h => ?_, fun h => congrArg utf8 h⟩
  simp only [utf8, ByteArray.toList, toList_loop, List.reverse_nil, List.nil_append, List.drop_zero,
    Array.toList_inj] at h
  exact String.toByteArray_inj.1 (ByteArray.ext h)

end Digest

namespace Cache.Key

/-- A list is cut at the last place where it has an element. -/
lemma append_cons_inj {α : Type} {x : α} {a b r u : List α} (hr : x ∉ r) (hu : x ∉ u)
    (h : a ++ x :: r = b ++ x :: u) : a = b ∧ r = u := by
  rcases List.append_eq_append_iff.1 h with ⟨c, rfl, hc⟩ | ⟨c, rfl, hc⟩ <;> cases c
  · exact ⟨(List.append_nil a).symm, (List.cons.inj hc).2⟩
  · exact absurd ((List.cons.inj hc).2 ▸ List.mem_append_right _ List.mem_cons_self) hr
  · exact ⟨List.append_nil b, (List.cons.inj hc).2.symm⟩
  · exact absurd ((List.cons.inj hc).2 ▸ List.mem_append_right _ List.mem_cons_self) hu

lemma zero_notMem_render (v : Json) : '\x00' ∉ Json.render v := by
  intro h
  have hblank := Json.printed_render v '\x00' h
  revert hblank
  decide

variable {type type' : String} {params params' : Params}

/-- The zero character ends the type, as the parameters have none. -/
lemma preimage_inj : preimage type params = preimage type' params' ↔
    type = type' ∧ Json.canonical (.obj params) = Json.canonical (.obj params') := by
  constructor
  · intro h
    have hchars : type.toList ++ '\x00' :: Json.render (Json.canonical (.obj params)) =
        type'.toList ++ '\x00' :: Json.render (Json.canonical (.obj params')) := by
      simpa [preimage, Json.compact] using congrArg String.toList h
    obtain ⟨htype, htext⟩ := append_cons_inj (zero_notMem_render _) (zero_notMem_render _) hchars
    exact ⟨String.toList_inj.1 htype, Json.compact_inj (congrArg String.ofList htext)⟩
  · rintro ⟨rfl, h⟩
    rw [preimage, preimage, h]

lemma preimage_eq_iff : preimage type params = preimage type' params' ↔
    type = type' ∧ Json.contentFields params = Json.contentFields params' := by
  rw [preimage_inj, Json.canonical_eq_iff, Json.content, Json.content, Json.Content.obj.injEq]

/-- Requests are identified by what is digested for their keys, and by the keys as well unless digests collide: the
type is always the same, and the parameters say the same for each name. -/
theorem identifies_request (type type' : String) (params params' : Params) :
    (Digest.utf8 (preimage type params) = Digest.utf8 (preimage type' params') ↔
      type = type' ∧ Json.contentFields params = Json.contentFields params') ∧
    (derive type params = derive type' params' ↔
      type = type' ∧ (Json.contentFields params = Json.contentFields params' ∨
        Collide (preimage type params) (preimage type' params'))) := by
  refine ⟨Digest.utf8_inj.trans preimage_eq_iff, fun h => ?_, ?_⟩
  · obtain rfl := type_of_derive h
    refine ⟨rfl, (alike_of_derive h).imp_left fun ht => ?_⟩
    exact (preimage_eq_iff.1 ht).2
  · rintro ⟨rfl, h | ⟨-, h⟩⟩
    · rw [derive, derive, preimage_eq_iff.2 ⟨rfl, h⟩]
    · rw [derive, derive, h]

end Cache.Key

end Serving
