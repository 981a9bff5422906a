import Mathlib.Algebra.Order.Field.Basic
import Mathlib.Data.List.Basic
import Mathlib.Tactic.Linarith
import Mathlib.Tactic.Ring

/-! Token buckets over any ordered field. A bucket gains tokens at a constant rate up to its
capacity; an attempt takes one if there is one. What it has in store at an instant, and what
it can still gain up to a later one, bounds how often it can be drawn from in between. -/
namespace TokenBucket

variable {K : Type} [Field K] [LinearOrder K] [IsStrictOrderedRing K]

structure Bucket (K : Type) [Field K] [LinearOrder K] where
  capacity : K
  rate : K
  capacity_nonneg : 0 ≤ capacity
  rate_nonneg : 0 ≤ rate

/-- The tokens there were at the instant `last`. -/
structure Level (K : Type) where
  tokens : K
  last : K

namespace Bucket

variable (bucket : Bucket K)

/-- The tokens at a later instant. -/
def levelAt (level : Level K) (now : K) : K :=
  min bucket.capacity (level.tokens + (now - level.last) * bucket.rate)

/-- Take a token, if there is one. -/
def attempt (level : Level K) (now : K) : Level K :=
  let tokens := bucket.levelAt level now
  if 1 ≤ tokens then ⟨tokens - 1, now⟩ else ⟨tokens, now⟩

/-- The instants at which attempts take a token. -/
def grants (level : Level K) : List K → List K
  | [] => []
  | now :: rest =>
      if 1 ≤ bucket.levelAt level now then now :: grants (bucket.attempt level now) rest
      else grants (bucket.attempt level now) rest

/-- Between empty and full. -/
structure Within (level : Level K) : Prop where
  nonneg : 0 ≤ level.tokens
  le_capacity : level.tokens ≤ bucket.capacity

/-- No instant is before the level was taken, and they are in order. -/
def Ordered (level : Level K) (instants : List K) : Prop :=
  (level.last :: instants).Pairwise (· ≤ ·)

variable {bucket} {level : Level K} {now : K} {instants : List K}

theorem Within.levelAt_nonneg (within : bucket.Within level) (later : level.last ≤ now) :
    0 ≤ bucket.levelAt level now := by
  have gained := mul_nonneg (sub_nonneg.mpr later) bucket.rate_nonneg
  exact le_min bucket.capacity_nonneg (add_nonneg within.nonneg gained)

/-- An attempt keeps the level between empty and full. -/
theorem Within.attempt (within : bucket.Within level) (later : level.last ≤ now) :
    bucket.Within (bucket.attempt level now) := by
  have low := within.levelAt_nonneg later
  have high : bucket.levelAt level now ≤ bucket.capacity := min_le_left _ _
  unfold Bucket.attempt
  dsimp only
  split
  case isTrue some => exact ⟨sub_nonneg.mpr some, by linarith⟩
  case isFalse => exact ⟨low, high⟩

omit [IsStrictOrderedRing K] in
theorem attempt_last : (bucket.attempt level now).last = now := by
  unfold attempt
  dsimp only
  split <;> rfl

omit [IsStrictOrderedRing K] in
theorem Ordered.next (ordered : Ordered level (now :: instants)) :
    Ordered (bucket.attempt level now) instants := by
  rw [Ordered, attempt_last]
  exact (List.pairwise_cons.mp ordered).2

omit [Field K] [IsStrictOrderedRing K] in
theorem Ordered.later (ordered : Ordered level (now :: instants)) : level.last ≤ now :=
  (List.pairwise_cons.mp ordered).1 now List.mem_cons_self

omit [Field K] [IsStrictOrderedRing K] in
theorem Ordered.first_le (ordered : Ordered level (now :: instants)) :
    ∀ g ∈ now :: instants, now ≤ g := by
  intro g member
  obtain rfl | member := List.mem_cons.mp member
  · exact le_refl _
  · exact (List.pairwise_cons.mp (List.pairwise_cons.mp ordered).2).1 g member

omit [IsStrictOrderedRing K] in
theorem grants_sublist : (bucket.grants level instants).Sublist instants := by
  induction instants generalizing level with
  | nil => exact .slnil
  | cons now instants ih =>
    unfold grants
    split
    · exact ih.cons_cons now
    · exact ih.cons now

omit [IsStrictOrderedRing K] in
/-- No grant is before the first attempt. -/
theorem grants_after {t : K} (ordered : Ordered level (now :: instants)) (past : t < now) :
    (bucket.grants level (now :: instants)).filter (· ≤ t) = [] := by
  refine List.filter_eq_nil_iff.mpr fun g member => ?_
  simpa using past.trans_le (ordered.first_le g (grants_sublist.subset member))

/-- How many of the grants lie up to `t` is bounded by what is in store and what is gained. -/
theorem grants_upTo {t : K} (within : bucket.Within level) (ordered : Ordered level instants)
    (later : level.last ≤ t) :
    (((bucket.grants level instants).filter (· ≤ t)).length : K) ≤
      level.tokens + (t - level.last) * bucket.rate := by
  have positive : 0 ≤ level.tokens + (t - level.last) * bucket.rate :=
    add_nonneg within.nonneg (mul_nonneg (sub_nonneg.mpr later) bucket.rate_nonneg)
  induction instants generalizing level with
  | nil => simpa [grants] using positive
  | cons now instants ih =>
    obtain past | upTo := lt_or_ge t now
    · rw [grants_after ordered past]
      simpa using positive
    · have kept := within.attempt ordered.later
      have rest := ih kept ordered.next (by rwa [attempt_last]) (by
        rw [attempt_last]
        exact add_nonneg kept.nonneg (mul_nonneg (sub_nonneg.mpr upTo) bucket.rate_nonneg))
      have stored : bucket.levelAt level now ≤ level.tokens + (now - level.last) * bucket.rate :=
        min_le_right _ _
      have spread : (t - level.last) * bucket.rate =
          (now - level.last) * bucket.rate + (t - now) * bucket.rate := by ring
      rw [attempt_last] at rest
      unfold grants
      by_cases some : 1 ≤ bucket.levelAt level now
      · have tokens : (bucket.attempt level now).tokens = bucket.levelAt level now - 1 := by
          simp [attempt, some]
        rw [if_pos some, List.filter_cons_of_pos (by simpa using upTo), List.length_cons,
          Nat.cast_succ]
        linarith
      · have tokens : (bucket.attempt level now).tokens = bucket.levelAt level now := by
          simp [attempt, some]
        rw [if_neg some]
        linarith

omit [IsStrictOrderedRing K] in
/-- The attempts come to the same if the bucket is restocked just before the first of them. -/
theorem grants_restock : bucket.grants ⟨bucket.levelAt level now, now⟩ (now :: instants) =
    bucket.grants level (now :: instants) := by
  have same : bucket.levelAt ⟨bucket.levelAt level now, now⟩ now = bucket.levelAt level now := by
    simp [levelAt]
  simp only [grants, attempt, same]

/-- In any window there are at most as many grants as a full bucket and what the window gains. -/
theorem grants_window {s t : K} (within : bucket.Within level) (ordered : Ordered level instants)
    (window : s ≤ t) :
    (((bucket.grants level instants).filter fun g => s ≤ g ∧ g ≤ t).length : K) ≤
      bucket.capacity + (t - s) * bucket.rate := by
  have positive : 0 ≤ bucket.capacity + (t - s) * bucket.rate :=
    add_nonneg bucket.capacity_nonneg (mul_nonneg (sub_nonneg.mpr window) bucket.rate_nonneg)
  induction instants generalizing level with
  | nil => simpa [grants] using positive
  | cons now instants ih =>
    obtain before | inside := lt_or_ge now s
    · have rest := ih (within.attempt ordered.later) ordered.next
      have uncounted : ¬ (s ≤ now ∧ now ≤ t) := fun counted => counted.1.not_gt before
      unfold grants
      split
      · rw [List.filter_cons_of_neg (by simpa using uncounted)]
        exact rest
      · exact rest
    · have fewer : ((bucket.grants level (now :: instants)).filter fun g => s ≤ g ∧ g ≤ t).length ≤
          ((bucket.grants level (now :: instants)).filter (· ≤ t)).length := by
        refine (List.monotone_filter_right _ fun g counted => ?_).length_le
        simp only [decide_eq_true_eq] at counted ⊢
        exact counted.2
      refine (Nat.cast_le.mpr fewer).trans ?_
      obtain past | upTo := lt_or_ge t now
      · rw [grants_after ordered past]
        simpa using positive
      · -- From here on, count from a bucket that holds what this attempt finds in it.
        have high : bucket.levelAt level now ≤ bucket.capacity := min_le_left _ _
        have restocked : bucket.Within ⟨bucket.levelAt level now, now⟩ :=
          ⟨within.levelAt_nonneg ordered.later, high⟩
        have order : Ordered ⟨bucket.levelAt level now, now⟩ (now :: instants) :=
          List.pairwise_cons.mpr ⟨ordered.first_le, (List.pairwise_cons.mp ordered).2⟩
        have bound := grants_upTo restocked order upTo
        rw [grants_restock] at bound
        have gained : (t - now) * bucket.rate ≤ (t - s) * bucket.rate :=
          mul_le_mul_of_nonneg_right (sub_le_sub_left inside t) bucket.rate_nonneg
        dsimp only at bound
        linarith

end Bucket
end TokenBucket
