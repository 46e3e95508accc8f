import Serving.Proofs.Batcher.Operations
import Serving.Proofs.FloatOrder

/-! When a queue is due. Every strategy has its grounds for sending a queue out, and none of them is lost as more
requests wait, as more of these are critical, as the model turns out to be busier, or as the timer runs out. Where one
ground gives way to another there is no gap: above the sizes for an early start lies the ideal size. -/

namespace Serving

namespace Batch

/-- A second look at a queue finds no less than the first one did. -/
structure Snapshot.Grows (s s' : Snapshot) : Prop where
  pending : s.pending ≤ s'.pending
  critical : s.critical ≤ s'.critical
  timer : s.timerExpired = true → s'.timerExpired = true

/-- What is observed of a model stays the same, becomes known, or rises. -/
def Rises (t t' : Option Float) : Prop := t = t' ∨ ∀ x ∈ t, ∃ y ∈ t', x ≤ y

/-- The grounds on which a strategy sends a queue out, whether or not its timer has run out. -/
inductive Due (strategy : Strategy) (m : Model) (a : Adaptive) (s : Snapshot) (t : Option Float) : Prop
  | critical (asked : strategy = .priorityBased ∨ strategy = .adaptive) (some : 0 < s.critical)
  | full (asked : strategy ≠ .timeBased) (enough : m.maxSize ≤ s.pending)
  | ideal (asked : strategy = .adaptive) (enough : m.idealSize ≤ s.pending)
  | early (asked : strategy = .adaptive) (busy : isBusy a t = true) (enough : earlySize m a ≤ s.pending)

variable {strategy : Strategy} {m : Model} {a : Adaptive} {s s' : Snapshot} {t t' : Option Float}

lemma isBusy_of_rises (hr : Rises t t') (h : isBusy a t = true) : isBusy a t' = true := by
  rcases hr with rfl | hr
  · exact h
  · obtain ⟨x, hx, hbusy⟩ := Option.any_eq_true _ _ |>.1 h
    obtain ⟨y, hy, hxy⟩ := hr x hx
    exact (Option.any_eq_true _ _).2 ⟨y, hy, decide_eq_true (FloatOrder.lt_of_lt_of_le (of_decide_eq_true hbusy) hxy)⟩

lemma Due.grows (h : Due strategy m a s t) (hs : s.Grows s') (ht : Rises t t') : Due strategy m a s' t' := by
  cases h with
  | critical asked some => exact .critical asked (Nat.lt_of_lt_of_le some hs.critical)
  | full asked enough => exact .full asked (Nat.le_trans enough hs.pending)
  | ideal asked enough => exact .ideal asked (Nat.le_trans enough hs.pending)
  | early asked busy enough => exact .early asked (isBusy_of_rises ht busy) (Nat.le_trans enough hs.pending)

lemma isSome_bySize_iff : (bySize m s).isSome = true ↔ m.maxSize ≤ s.pending := by
  rw [bySize]
  split <;> simp [*]

lemma due_of_byStrategy (h : (byStrategy strategy m a s t).isSome = true) : Due strategy m a s t := by
  cases strategy with
  | sizeBased => exact .full (by decide) (isSome_bySize_iff.1 h)
  | timeBased => cases h
  | priorityBased =>
    rw [byStrategy] at h
    split at h
    case isTrue hcritical => exact .critical (.inl rfl) hcritical
    case isFalse => exact .full (by decide) (isSome_bySize_iff.1 h)
  | adaptive =>
    rw [byStrategy] at h
    split at h
    case isTrue hcritical => exact .critical (.inr rfl) hcritical
    split at h
    case isTrue hearly =>
      simp only [Bool.and_eq_true, decide_eq_true_eq] at hearly
      exact .early rfl hearly.1.1 hearly.1.2
    split at h
    case isTrue hideal => exact .ideal rfl hideal
    case isFalse => exact .full (by decide) (isSome_bySize_iff.1 h)

lemma byStrategy_of_ideal (h : m.idealSize ≤ s.pending) : (byStrategy .adaptive m a s t).isSome = true := by
  rw [byStrategy, if_pos h]
  split
  · rfl
  · split <;> rfl

lemma byStrategy_of_due (h : Due strategy m a s t) : (byStrategy strategy m a s t).isSome = true := by
  cases h with
  | critical asked some => rcases asked with rfl | rfl <;> simp [byStrategy, some]
  | full asked enough =>
    have hsize : (bySize m s).isSome = true := isSome_bySize_iff.2 enough
    cases strategy with
    | sizeBased => exact hsize
    | timeBased => exact absurd rfl asked
    | priorityBased =>
      rw [byStrategy]
      split
      · rfl
      · exact hsize
    | adaptive =>
      rw [byStrategy]
      split
      · rfl
      split
      · rfl
      split
      · rfl
      · exact hsize
  | ideal asked enough => exact asked ▸ byStrategy_of_ideal enough
  | early asked busy enough =>
    subst asked
    -- What is too much for an early start is enough for the ideal size.
    by_cases hbelow : s.pending < m.idealSize
    · have hearly : (isBusy a t && earlySize m a ≤ s.pending && s.pending < m.idealSize) = true := by
        simp [busy, enough, hbelow]
      rw [byStrategy, if_pos hearly]
      split <;> rfl
    · exact byStrategy_of_ideal (Nat.le_of_not_lt hbelow)

/-- A queue goes out when somebody waits and there are grounds for it, or the timer has run out. -/
lemma isSome_fireReason_iff : (fireReason strategy m a s t).isSome = true ↔
    0 < s.pending ∧ (Due strategy m a s t ∨ s.timerExpired = true) := by
  have hdue : (byStrategy strategy m a s t).isSome = true ↔ Due strategy m a s t :=
    ⟨due_of_byStrategy, byStrategy_of_due⟩
  have htimer : (if s.timerExpired then some Reason.timer else none).isSome = true ↔ s.timerExpired = true := by
    split <;> simp [*]
  by_cases hp : s.pending = 0
  · simp [fireReason_of_empty, hp]
  · rw [fireReason, if_neg hp, Option.isSome_or, Bool.or_eq_true, hdue, htimer]
    exact (and_iff_right (Nat.pos_of_ne_zero hp)).symm

lemma isSome_fireReason_grows (hs : s.Grows s') (ht : Rises t t')
    (h : (fireReason strategy m a s t).isSome = true) : (fireReason strategy m a s' t').isSome = true := by
  rw [isSome_fireReason_iff] at h ⊢
  exact ⟨Nat.lt_of_lt_of_le h.1 hs.pending, h.2.imp (·.grows hs ht) hs.timer⟩

lemma Queue.grows_of_sublist {q q' : Queue} (hw : q.waiting.Sublist q'.waiting) {isExpired isExpired' : Bool}
    (he : isExpired = true → isExpired' = true) : (q.snapshot isExpired).Grows (q'.snapshot isExpired') where
  pending := hw.length_le
  critical := (hw.filter _).length_le
  timer := he

/-- Whatever the strategy and the settings, a reason to go out is not lost to anything that comes on top of it: more
requests, more critical ones among them, a throughput that becomes known or rises, or the end of the timer. Nothing goes
out of an empty queue, all goes out of another one at the end of its timer, and but for strategies that wait for the
timer, a full queue goes out. So a queue that is due stays due until something is taken out of it. -/
theorem due_queues_stay_due (strategy : Strategy) (m : Model) (a : Adaptive) (s : Snapshot) (t : Option Float) :
    let fires (s : Snapshot) (t : Option Float) := (fireReason strategy m a s t).isSome = true
    (∀ s' t', s.Grows s' → Rises t t' → fires s t → fires s' t') ∧
    (s.pending = 0 → fireReason strategy m a s t = none) ∧
    (0 < s.pending → s.timerExpired = true → fires s t) ∧
    (strategy ≠ .timeBased → 0 < s.pending → m.maxSize ≤ s.pending → fires s t) ∧
    ∀ (b : Batcher) (q q' : Queue) (isExpired isExpired' : Bool), q'.model = q.model → q.waiting.Sublist q'.waiting →
      Rises (throughput q.recent) (throughput q'.recent) → (isExpired = true → isExpired' = true) →
      (b.reasonNow q isExpired).isSome = true → (b.reasonNow q' isExpired').isSome = true := by
  intro fires
  refine ⟨fun s' t' hs ht => isSome_fireReason_grows hs ht, fireReason_of_empty strategy m a s t, fun hp he => ?_,
    fun hst hp hm => ?_, ?_⟩
  · exact isSome_fireReason_iff.2 ⟨hp, .inr he⟩
  · exact isSome_fireReason_iff.2 ⟨hp, .inl (.full hst hm)⟩
  · intro b q q' isExpired isExpired' hm hw ht he h
    rw [Batcher.reasonNow] at h ⊢
    rw [hm]
    exact isSome_fireReason_grows (Queue.grows_of_sublist hw he) ht h

/-- The ideal size and the size for an early start lie above the largest one here. -/
theorem due_queues_stay_due_before_the_ideal :
    let m : Model := { maxSize := 4, idealSize := 9 }
    let a : Adaptive := { earlyRatio := 1.5 }
    let s : Snapshot := ⟨4, 0, false⟩
    let s' : Snapshot := ⟨6, 0, false⟩
    s.Grows s' ∧ Rises none (some 7.5) ∧ fireReason .adaptive m a s none = some .maxSize ∧
      isBusy a (some 7.5) = true ∧ (fireReason .adaptive m a s' (some 7.5)).isSome = true := by
  intro m a s s'
  have hgrows : s.Grows s' := ⟨by decide, by decide, id⟩
  have hrises : Rises none (some 7.5) := .inr nofun
  have hfires : fireReason .adaptive m a s none = some .maxSize := by decide +kernel
  refine ⟨hgrows, hrises, hfires, by decide +kernel, ?_⟩
  exact (due_queues_stay_due .adaptive m a s none).1 s' (some 7.5) hgrows hrises (congrArg Option.isSome hfires)

end Batch

end Serving
