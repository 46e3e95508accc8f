import Mathlib.Data.List.Dedup
import Serving.Cache.Remote.Store
import Serving.Proofs.Memory.History

/-! What a store behind a server finds and removes by a pattern. A server deals out its keys page by page; a way to deal
is complete if every key comes, however often, and exact if it comes once. The keys listed for a pattern are those dealt
out that match it, and removing them leaves the entries whose keys do not match. -/

namespace Serving

namespace Table

variable {α : Type}

lemma foldl_erase (names : List String) (t : Table α) :
    names.foldl erase t = t.filter fun name _ => decide (name ∉ names) := by
  induction names generalizing t with
  | nil => simp [filter]
  | cons n names ih =>
    rw [List.foldl_cons, ih]
    simp only [filter, erase, List.filter_filter]
    congr 2
    funext e
    by_cases h : e.1 = n <;> simp [h]

end Table

namespace Cache

namespace Paging

/-- The keys dealt out from the page at a cursor on. -/
def dealt (p : Paging) (keys : List String) (cursor : Nat) : List String :=
  if h : p.next keys cursor = 0 then p.page keys cursor
  else
    have := p.left_next keys cursor h
    p.page keys cursor ++ p.dealt keys (p.next keys cursor)
termination_by p.left keys cursor

/-- Every key is dealt out, and nothing else. -/
def IsComplete (p : Paging) : Prop := ∀ keys : List String, keys.Nodup → ∀ key, key ∈ p.dealt keys 0 ↔ key ∈ keys

/-- Every key is dealt out once, and nothing else. -/
def IsExact (p : Paging) : Prop := ∀ keys : List String, keys.Nodup → (p.dealt keys 0).Perm keys

lemma IsExact.isComplete {p : Paging} (h : p.IsExact) : p.IsComplete := fun keys hk _ => (h keys hk).mem_iff

lemma dealt_ofSize (size : Nat) (keys : List String) (cursor : Nat) :
    (ofSize size).dealt keys cursor = keys.drop cursor := by
  fun_induction dealt (ofSize size) keys cursor with
  | case1 cursor h =>
    refine List.take_of_length_le ?_
    by_contra hlen
    rw [List.length_drop] at hlen
    have hlt : cursor + max size 1 < keys.length := by omega
    simp only [ofSize, hlt, if_true] at h
    omega
  | case2 cursor h _ ih =>
    have hnext : (ofSize size).next keys cursor = cursor + max size 1 := by
      by_contra hne
      refine h ?_
      simp only [ofSize] at hne ⊢
      rw [if_neg]
      intro hlt
      exact hne (if_pos hlt)
    rw [ih, hnext, ← List.drop_drop]
    exact List.take_append_drop ..

theorem isExact_ofSize (size : Nat) : (ofSize size).IsExact := by
  intro keys _
  rw [dealt_ofSize]
  exact .refl _

end Paging

namespace Server

variable {s : Server} {pattern : String}

lemma listing_fst (s : Server) (pattern : String) (cursor : Nat) :
    (s.listing pattern cursor).1 = (s.paging.dealt s.sortedKeys cursor).filter (Glob.isMatch pattern) := by
  fun_induction listing s pattern cursor with
  | case1 cursor h =>
    rw [Paging.dealt, dif_pos (show s.paging.next s.sortedKeys cursor = 0 from h)]
    rfl
  | case2 cursor h _ keys commands heq ih =>
    rw [Paging.dealt, dif_neg (show ¬ s.paging.next s.sortedKeys cursor = 0 from h), List.filter_append]
    rw [heq] at ih
    exact congrArg (s.page cursor pattern ++ ·) ih

lemma perm_sortedKeys (s : Server) : s.sortedKeys.Perm s.entries.names := Sorted.perm_sort _ _

lemma mem_listing (hc : s.paging.IsComplete) (hn : s.entries.names.Nodup) {key : String} :
    key ∈ (s.listing pattern 0).1 ↔ key ∈ s.entries.names ∧ Glob.isMatch pattern key = true := by
  rw [listing_fst, List.mem_filter, hc _ (s.perm_sortedKeys.nodup_iff.2 hn), s.perm_sortedKeys.mem_iff]

lemma perm_listing (he : s.paging.IsExact) (hn : s.entries.names.Nodup) (pattern : String) :
    (s.listing pattern 0).1.Perm (s.entries.names.filter (Glob.isMatch pattern)) := by
  rw [listing_fst]
  exact ((he _ (s.perm_sortedKeys.nodup_iff.2 hn)).trans s.perm_sortedKeys).filter _

end Server

end Cache

end Serving
