import Mathlib.Data.List.Basic
import Serving.Cache.Remote.Glob

/-! Which keys a text stands for as a pattern, and which a text with a star behind it. Matching goes byte by byte while
texts are compared by characters; the two agree on texts without special characters, since only a special character
has a special byte and no text begins with a part of a character. -/

namespace Serving.Cache.Glob

/-- The characters that do not stand for themselves. -/
def specials : List Char := ['*', '?', '[', '\\']

/-- Whether every character of a text stands for itself. -/
def IsPlain (s : String) : Prop := ∀ c ∈ s.toList, c ∉ specials

instance (s : String) : Decidable (IsPlain s) := List.decidableBAll (fun c => c ∉ specials) s.toList

lemma IsPlain.append {a b : String} (ha : IsPlain a) (hb : IsPlain b) : IsPlain (a ++ b) := by
  intro c hc
  rw [String.toList_append] at hc
  exact (List.mem_append.1 hc).elim (ha c) (hb c)

section Units

lemma toNat_ofNat_byte (b : UInt8) : (Char.ofNat b.toNat).toNat = b.toNat := by
  have hb := b.toNat_lt
  rw [Char.ofNat, dif_pos (.inl (by omega))]
  rfl

lemma ofNat_byte_injective : Function.Injective fun b : UInt8 => Char.ofNat b.toNat := by
  intro a b h
  have hn := congrArg Char.toNat h
  simp only [toNat_ofNat_byte] at hn
  exact UInt8.toNat_inj.1 hn

lemma units_append (a b : String) : units (a ++ b) = units a ++ units b := by
  simp [units, ByteArray.data_append]

lemma units_eq_flatMap (s : String) :
    units s = (s.toList.flatMap String.utf8EncodeChar).map fun b => Char.ofNat b.toNat := by
  rw [units, String.toUTF8_eq_toByteArray, ← String.utf8Encode_toList, List.utf8Encode]
  simp

/-- A text begins with another one if its bytes do. -/
lemma units_prefix_iff {a b : String} : units a <+: units b ↔ a.toList <+: b.toList := by
  constructor
  · rintro ⟨rest, h⟩
    obtain ⟨front, back, hsplit, hfront, -⟩ := List.append_eq_map_iff.1 h
    have ha : front = a.toByteArray.data.toList := ofNat_byte_injective.list_map hfront
    -- The bytes that follow need not be a text of their own.
    refine List.isPrefix_of_utf8Encode_append_eq_utf8Encode ⟨back.toArray⟩ ?_
    rw [String.utf8Encode_toList, String.utf8Encode_toList]
    refine ByteArray.ext (Array.ext' ?_)
    rw [ByteArray.data_append, Array.toList_append, ← ha, ← hsplit, String.toUTF8_eq_toByteArray]
  · rintro ⟨rest, h⟩
    refine ⟨units (String.ofList rest), ?_⟩
    rw [← units_append, ← String.ofList_toList (s := b), ← h, String.ofList_append, String.ofList_toList]

lemma units_inj {a b : String} (h : units a = units b) : a = b := by
  have hab : a.toList <+: b.toList := units_prefix_iff.1 (h ▸ List.prefix_rfl)
  have hba : b.toList <+: a.toList := units_prefix_iff.1 (h ▸ List.prefix_rfl)
  exact String.toList_injective (hab.eq_of_length_le hba.length_le)

/-- The bytes of a longer encoding have their highest bit set. -/
lemma le_utf8EncodeChar {c : Char} (hc : 127 < c.val.toNat) : ∀ b ∈ String.utf8EncodeChar c, 128 ≤ b.toNat := by
  simp only [String.utf8EncodeChar]
  rw [if_neg (by omega)]
  split_ifs <;> simp only [List.forall_mem_cons, UInt8.toNat_ofNat', List.not_mem_nil, false_implies,
    implies_true, and_true] <;> omega

/-- A byte below 128 stands for a character of its own. -/
lemma mem_utf8EncodeChar {b : UInt8} {c : Char} (h : b ∈ String.utf8EncodeChar c) (hb : b.toNat < 128) :
    Char.ofNat b.toNat = c := by
  have hc : c.val.toNat ≤ 127 := by
    by_contra hc
    exact absurd (le_utf8EncodeChar (by omega) b h) (by omega)
  rw [String.utf8EncodeChar, if_pos hc] at h
  obtain rfl := List.mem_singleton.1 h
  rw [UInt8.toNat_ofNat', Nat.mod_eq_of_lt (by omega), ← Char.toNat, Char.ofNat_toNat]

lemma mem_of_mem_units {c : Char} {s : String} (h : c ∈ units s) (hc : c.toNat < 128) : c ∈ s.toList := by
  rw [units_eq_flatMap] at h
  obtain ⟨b, hb, rfl⟩ := List.mem_map.1 h
  obtain ⟨d, hd, hbd⟩ := List.mem_flatMap.1 hb
  rw [toNat_ofNat_byte] at hc
  exact mem_utf8EncodeChar hbd hc ▸ hd

lemma units_plain {s : String} (hs : IsPlain s) : ∀ c ∈ units s, c ∉ specials := by
  intro c hc hm
  have hascii : specials.all (fun d => decide (d.toNat < 128)) = true := by decide
  exact hs c (mem_of_mem_units hc (of_decide_eq_true (List.all_eq_true.1 hascii c hm))) hm

end Units

section Tokens

lemma tokens_cons {c : Char} (hc : c ∉ specials) (rest : List Char) : tokens (c :: rest) = .this c :: tokens rest := by
  simp only [specials, List.mem_cons, List.not_mem_nil, or_false, not_or] at hc
  rw [tokens.eq_def]
  split <;> simp_all

lemma tokens_append {cs : List Char} (hcs : ∀ c ∈ cs, c ∉ specials) (rest : List Char) :
    tokens (cs ++ rest) = cs.map .this ++ tokens rest := by
  induction cs with
  | nil => rfl
  | cons c cs ih =>
    obtain ⟨hc, hcs⟩ := List.forall_mem_cons.1 hcs
    rw [List.cons_append, tokens_cons hc, ih hcs, List.map_cons, List.cons_append]

lemma accepts_append (cs : List Char) (ts : List Token) (key : List Char) :
    accepts (cs.map .this ++ ts) key = true ↔ ∃ rest, key = cs ++ rest ∧ accepts ts rest = true := by
  induction cs generalizing key with
  | nil => simp
  | cons c cs ih =>
    cases key with
    | nil => simp [accepts]
    | cons d key =>
      simp only [List.map_cons, List.cons_append, accepts, Token.accepts, Bool.and_eq_true, beq_iff_eq, ih,
        List.cons.injEq]
      constructor
      · rintro ⟨rfl, rest, rfl, h⟩
        exact ⟨rest, ⟨rfl, rfl⟩, h⟩
      · rintro ⟨rest, ⟨rfl, rfl⟩, h⟩
        exact ⟨rfl, rest, rfl, h⟩

lemma accepts_any (key : List Char) : accepts [.any] key = true := by
  induction key with
  | nil => rfl
  | cons c key ih =>
    simp only [accepts, List.any_eq_true] at ih ⊢
    obtain ⟨rest, hrest, h⟩ := ih
    exact ⟨rest, List.mem_cons_of_mem _ hrest, h⟩

end Tokens

theorem isMatch_plain {pattern : String} (h : IsPlain pattern) (key : String) :
    isMatch pattern key = true ↔ key = pattern := by
  rw [isMatch, ← (units pattern).append_nil, tokens_append (units_plain h), accepts_append]
  constructor
  · rintro ⟨rest, hkey, hrest⟩
    obtain rfl : rest = [] := by simpa [tokens, accepts] using hrest
    exact units_inj (by rw [hkey, List.append_nil])
  · rintro rfl
    exact ⟨[], by rw [List.append_nil], by simp [tokens, accepts]⟩

theorem isMatch_star {stem : String} (h : IsPlain stem) (key : String) :
    isMatch (stem ++ "*") key = true ↔ stem.toList <+: key.toList := by
  have hstar : tokens (units "*") = [.any] := by decide +kernel
  rw [isMatch, units_append, tokens_append (units_plain h), accepts_append, hstar, ← units_prefix_iff]
  constructor
  · rintro ⟨rest, hkey, -⟩
    exact ⟨rest, hkey.symm⟩
  · rintro ⟨rest, hkey⟩
    exact ⟨rest, hkey.symm, accepts_any rest⟩

end Serving.Cache.Glob
