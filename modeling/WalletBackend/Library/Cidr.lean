import Mathlib.Data.Nat.Bitwise
import Mathlib.Data.Set.Card
import Mathlib.Order.Interval.Finset.Nat

/-! Blocks of numbers: those of a width whose first bits are the same. -/
namespace Cidr

/-- Two numbers of `width` bits with the same first `bits`. -/
def Agree (width bits a b : Nat) : Prop := a / 2 ^ (width - bits) = b / 2 ^ (width - bits)

instance (width bits a b : Nat) : Decidable (Agree width bits a b) :=
  inferInstanceAs (Decidable (_ = _))

variable {width bits m n k a b top : Nat}

theorem agree_iff_testBit (short : bits ≤ width) (small : a < 2 ^ width) (small' : b < 2 ^ width) :
    Agree width bits a b ↔
      ∀ i < bits, a.testBit (width - 1 - i) = b.testBit (width - 1 - i) := by
  constructor
  · intro agree i inside
    have same := congrArg (Nat.testBit · (bits - 1 - i)) agree
    simp only [Nat.testBit_div_two_pow] at same
    rwa [show bits - 1 - i + (width - bits) = width - 1 - i by omega] at same
  · intro same
    refine Nat.eq_of_testBit_eq fun i => ?_
    rw [Nat.testBit_div_two_pow, Nat.testBit_div_two_pow]
    by_cases inside : i < bits
    · have bit := same (bits - 1 - i) (by omega)
      rwa [show width - 1 - (bits - 1 - i) = i + (width - bits) by omega] at bit
    · have past : 2 ^ width ≤ 2 ^ (i + (width - bits)) :=
        Nat.pow_le_pow_right (by decide) (by omega)
      rw [Nat.testBit_lt_two_pow (small.trans_le past),
        Nat.testBit_lt_two_pow (small'.trans_le past)]

/-- Behind the same first `m` bits, what the others have in common. -/
theorem agree_behind (inside : k ≤ n) :
    Agree (m + n) (m + k) (2 ^ n * top + a) (2 ^ n * top + b) ↔ Agree n k a b := by
  have split : 2 ^ n = 2 ^ (n - k) * 2 ^ k := by
    rw [← Nat.pow_add, Nat.sub_add_cancel inside]
  have positive : 0 < 2 ^ (n - k) := Nat.two_pow_pos _
  unfold Agree
  rw [show m + n - (m + k) = n - k by omega, split, Nat.mul_assoc, Nat.mul_add_div positive,
    Nat.mul_add_div positive, Nat.add_left_cancel_iff]

/-- The first `m` bits are all that is in common with whatever follows them. -/
theorem agree_front (short : bits ≤ m) (small : a < 2 ^ n) :
    Agree (m + n) bits (2 ^ n * top + a) b ↔ Agree (m + n) bits (2 ^ n * top) b := by
  have dropped (a : Nat) (small : a < 2 ^ n) :
      (2 ^ n * top + a) / 2 ^ (m + n - bits) = top / 2 ^ (m - bits) := by
    rw [show m + n - bits = n + (m - bits) by omega, Nat.pow_add, ← Nat.div_div_eq_div_mul,
      Nat.mul_add_div (Nat.two_pow_pos n), Nat.div_eq_of_lt small, Nat.add_zero]
  unfold Agree
  rw [dropped a small, ← dropped 0 (Nat.two_pow_pos n), Nat.add_zero]

/-- Fewer bits are in common as well. -/
theorem Agree.mono (fewer : k ≤ bits) (short : bits ≤ width) (agree : Agree width bits a b) :
    Agree width k a b := by
  unfold Agree at agree ⊢
  rw [show width - k = (width - bits) + (bits - k) by omega, Nat.pow_add, ← Nat.div_div_eq_div_mul,
    ← Nat.div_div_eq_div_mul, agree]

theorem block_subset (width bits a : Nat) : {b | Agree width bits a b} ⊆
    (Finset.Ico (2 ^ (width - bits) * (a / 2 ^ (width - bits)))
      (2 ^ (width - bits) * (a / 2 ^ (width - bits)) + 2 ^ (width - bits)) : Set Nat) := by
  intro b agree
  have split := Nat.div_add_mod b (2 ^ (width - bits))
  have low := Nat.mod_lt b (Nat.two_pow_pos (width - bits))
  rw [← (agree : a / _ = b / _)] at split
  rw [Finset.coe_Ico, Set.mem_Ico]
  omega

/-- Some numbers of a block are no more than the bits behind its first ones can tell apart. -/
theorem ncard_le_of_block {numbers : Set Nat} (inside : ∀ b ∈ numbers, Agree width bits a b) :
    numbers.ncard ≤ 2 ^ (width - bits) := by
  refine (Set.ncard_le_ncard (Set.Subset.trans inside (block_subset width bits a))
    (Finset.finite_toSet _)).trans (Nat.le_of_eq ?_)
  rw [Set.ncard_coe_finset, Nat.card_Ico, Nat.add_sub_cancel_left]

end Cidr
