import Mathlib.Algebra.Polynomial.Div
import Mathlib.Algebra.Field.ZMod
import Mathlib.Tactic.LinearCombination

/-! Reflected cyclic redundancy checks. The register is shifted right, its bit `i` is the
coefficient of `X ^ (w - 1 - i)`, and a byte is fed with its lowest bit first. The register a
message leaves is the remainder of the message's polynomial. -/
namespace Crc

open Polynomial

variable {w : Nat} {poly r s : BitVec w}

/-- A bit as a coefficient. -/
def coefficient (b : Bool) : ZMod 2 := if b then 1 else 0

@[simp] theorem coefficient_xor (b c : Bool) :
    coefficient (b ^^ c) = coefficient b + coefficient c := by
  revert b c
  decide

@[simp] theorem coefficient_and (b c : Bool) :
    coefficient (b && c) = coefficient b * coefficient c := by
  revert b c
  decide

@[simp] theorem coefficient_false : coefficient false = 0 := rfl

/-- The polynomial a register stands for. -/
noncomputable def toPoly (r : BitVec w) : (ZMod 2)[X] :=
  ∑ i ∈ Finset.range w, monomial (w - 1 - i) (coefficient (r.getLsbD i))

/-- The register of the coefficients below `w`. -/
noncomputable def ofPoly (w : Nat) (p : (ZMod 2)[X]) : BitVec w :=
  (BitVec.ofBoolListLE ((List.range w).map fun i => decide (p.coeff (w - 1 - i) = 1))).setWidth w

/-- The polynomial of degree `w` whose lower coefficients are the bits of `poly`. -/
noncomputable def generator (poly : BitVec w) : (ZMod 2)[X] := X ^ w + toPoly poly

/-- One bit of the register is shifted out. -/
def step (poly r : BitVec w) : BitVec w := (r >>> 1) ^^^ if r.getLsbD 0 then poly else 0#w

/-- A byte is fed into the low bits of the register. -/
def feed (poly r : BitVec w) (byte : UInt8) : BitVec w :=
  (step poly)^[8] (r ^^^ byte.toBitVec.setWidth w)

/-- The register a message leaves. -/
def register (poly start : BitVec w) (bytes : List UInt8) : BitVec w := bytes.foldl (feed poly) start

/-- The polynomial of a message: its first bit is the highest coefficient. -/
noncomputable def message (bytes : List UInt8) : (ZMod 2)[X] :=
  bytes.foldl (fun p byte => p * X ^ 8 + toPoly byte.toBitVec) 0

theorem coeff_toPoly (r : BitVec w) (j : Nat) :
    (toPoly r).coeff j = if j < w then coefficient (r.getLsbD (w - 1 - j)) else 0 := by
  simp only [toPoly, finsetSum_coeff, coeff_monomial]
  split
  · rename_i below
    rw [Finset.sum_eq_single (w - 1 - j)]
    · rw [if_pos (by omega)]
    · intro i inside other
      rw [if_neg (by simp at inside; omega)]
    · intro outside
      exact absurd (Finset.mem_range.mpr (by omega)) outside
  · apply Finset.sum_eq_zero
    intro i inside
    rw [if_neg (by simp at inside; omega)]

@[simp] theorem toPoly_xor (r s : BitVec w) : toPoly (r ^^^ s) = toPoly r + toPoly s := by
  ext j
  simp only [coeff_add, coeff_toPoly]
  split <;> simp

theorem degree_toPoly_lt (r : BitVec w) : (toPoly r).degree < w := by
  rw [degree_lt_iff_coeff_zero]
  intro j above
  simp [coeff_toPoly, show ¬ j < w by omega]

theorem ofPoly_toPoly (r : BitVec w) : ofPoly w (toPoly r) = r := by
  apply BitVec.eq_of_getLsbD_eq
  intro i inside
  have place : w - 1 - (w - 1 - i) = i := by omega
  rw [ofPoly, BitVec.getLsbD_setWidth, BitVec.getLsbD_ofBoolListLE, List.getD_eq_getElem?_getD,
    List.getElem?_map, List.getElem?_range inside]
  simp only [Option.map_some, Option.getD_some, coeff_toPoly, inside, decide_true, Bool.true_and]
  rw [if_pos (by omega), place]
  cases r.getLsbD i <;> decide

theorem monic_generator (poly : BitVec w) : (generator poly).Monic :=
  monic_X_pow_add (degree_toPoly_lt poly)

theorem degree_generator (poly : BitVec w) : (generator poly).degree = w := by
  rw [generator, degree_add_eq_left_of_degree_lt, degree_X_pow]
  rw [degree_X_pow]
  exact degree_toPoly_lt poly

theorem getLsbD_step (poly r : BitVec w) (i : Nat) : (step poly r).getLsbD i =
    (r.getLsbD (i + 1) ^^ (r.getLsbD 0 && poly.getLsbD i)) := by
  have masked : (if r.getLsbD 0 then poly else 0#w).getLsbD i =
      (r.getLsbD 0 && poly.getLsbD i) := by
    split <;> simp [*]
  rw [step, BitVec.getLsbD_xor, masked, BitVec.getLsbD_ushiftRight, Nat.add_comm]

/-- A step multiplies by `X` modulo the generator. -/
theorem toPoly_step (poly r : BitVec w) : toPoly (step poly r) =
    X * toPoly r + C (coefficient (r.getLsbD 0)) * generator poly := by
  have twice (b : Bool) : coefficient b + coefficient b = 0 := by
    revert b
    decide
  ext j
  simp only [generator, coeff_add, coeff_C_mul, coeff_X_pow, coeff_toPoly, getLsbD_step,
    coefficient_xor, coefficient_and]
  cases j with
  | zero =>
    rw [mul_coeff_zero, coeff_X_zero, zero_mul]
    split
    · rename_i positive
      simp [show w - 1 + 1 = w by omega, show 0 ≠ w by omega]
    · rename_i none
      simp [show w = 0 by omega]
  | succ j =>
    rw [coeff_X_mul, coeff_toPoly]
    obtain below | top | above : j + 1 < w ∨ j + 1 = w ∨ w < j + 1 := by omega
    · simp [show j < w by omega, below, show j + 1 ≠ w by omega,
        show w - 1 - (j + 1) + 1 = w - 1 - j by omega]
    · simp [show j < w by omega, top, show w - 1 - j = 0 by omega, twice]
    · simp [show ¬ j < w by omega, show ¬ j + 1 < w by omega, show j + 1 ≠ w by omega]

theorem steps_dvd (poly r : BitVec w) (count : Nat) :
    generator poly ∣ toPoly ((step poly)^[count] r) - X ^ count * toPoly r := by
  induction count with
  | zero => simp
  | succ count ih =>
    rw [Function.iterate_succ_apply', toPoly_step]
    obtain ⟨quotient, exact⟩ := ih
    refine ⟨X * quotient + C (coefficient (((step poly)^[count] r).getLsbD 0)), ?_⟩
    linear_combination X * exact

/-- A byte in the low bits of the register is the message's next eight coefficients. -/
theorem toPoly_setWidth (wide : 8 ≤ w) (byte : BitVec 8) :
    toPoly (byte.setWidth w) = X ^ (w - 8) * toPoly byte := by
  ext j
  rw [coeff_X_pow_mul', coeff_toPoly, coeff_toPoly]
  by_cases low : w - 8 ≤ j
  · by_cases below : j < w
    · have place : w - 1 - j = 8 - 1 - (j - (w - 8)) := by omega
      have inside : 7 - (j - (w - 8)) < w := by omega
      simp [low, below, show j - (w - 8) < 8 by omega, place, inside, coefficient]
    · simp [low, below, show ¬ j - (w - 8) < 8 by omega]
  · have zero : byte.getLsbD (w - 1 - j) = false := byte.getLsbD_of_ge _ (by omega)
    simp [low, zero]

/-- Feeding a byte multiplies by `X ^ 8` and adds the byte, modulo the generator. -/
theorem feed_dvd (wide : 8 ≤ w) (poly r : BitVec w) (byte : UInt8) :
    generator poly ∣
      toPoly (feed poly r byte) - (X ^ 8 * toPoly r + X ^ w * toPoly byte.toBitVec) := by
  have steps := steps_dvd poly (r ^^^ byte.toBitVec.setWidth w) 8
  rw [toPoly_xor, toPoly_setWidth wide, mul_add, ← mul_assoc, ← pow_add,
    show 8 + (w - 8) = w by omega] at steps
  exact steps

theorem register_dvd (wide : 8 ≤ w) (poly start : BitVec w) (bytes : List UInt8) :
    generator poly ∣ toPoly (register poly start bytes) -
      (X ^ w * message bytes + X ^ (8 * bytes.length) * toPoly start) := by
  induction bytes using List.reverseRecOn with
  | nil => simp [register, message]
  | append_singleton bytes byte ih =>
    have fed := feed_dvd wide poly (register poly start bytes) byte
    obtain ⟨quotient, before⟩ := ih
    obtain ⟨last, after⟩ := fed
    have length : 8 * (bytes ++ [byte]).length = 8 * bytes.length + 8 := by
      simp [Nat.mul_add]
    have sent : register poly start (bytes ++ [byte]) = feed poly (register poly start bytes) byte := by
      simp [register]
    have text : message (bytes ++ [byte]) = message bytes * X ^ 8 + toPoly byte.toBitVec := by
      simp [message]
    refine ⟨X ^ 8 * quotient + last, ?_⟩
    rw [sent, text, length, pow_add]
    linear_combination after + X ^ 8 * before

/-- The register a message leaves is the remainder of its polynomial. -/
theorem toPoly_register (wide : 8 ≤ w) (poly start : BitVec w) (bytes : List UInt8) :
    toPoly (register poly start bytes) =
      (X ^ w * message bytes + X ^ (8 * bytes.length) * toPoly start) %ₘ generator poly := by
  have monic := monic_generator poly
  rw [← (modByMonic_eq_self_iff monic).mpr
    ((degree_toPoly_lt (register poly start bytes)).trans_eq (degree_generator poly).symm)]
  exact modByMonic_eq_of_dvd_sub monic (register_dvd wide poly start bytes)

section Detection

variable (odd : poly.getLsbD (w - 1) = true)
include odd

/-- No two registers are followed by the same one, as the generator has a constant term. -/
theorem step_injective : Function.Injective (step poly) := by
  intro r s same
  have bits (i : Nat) := congrArg (BitVec.getLsbD · i) same
  simp only [getLsbD_step] at bits
  have lowest : r.getLsbD 0 = s.getLsbD 0 := by
    have highest := bits (w - 1)
    by_cases positive : 0 < w
    · simpa [odd, show w - 1 + 1 = w by omega] using highest
    · rw [r.getLsbD_of_ge 0 (by omega), s.getLsbD_of_ge 0 (by omega)]
  apply BitVec.eq_of_getLsbD_eq
  intro i inside
  cases i with
  | zero => exact lowest
  | succ i => simpa [lowest] using bits i

theorem feed_injective (byte : UInt8) : Function.Injective fun r => feed poly r byte := by
  intro r s same
  have fed := (step_injective odd).iterate 8 same
  exact (BitVec.xor_left_inj _).mp fed

theorem register_injective (bytes : List UInt8) :
    Function.Injective fun start => register poly start bytes := by
  induction bytes with
  | nil =>
    intro r s same
    exact same
  | cons byte bytes ih =>
    intro r s same
    exact feed_injective odd byte (ih same)

/-- Messages that differ in one byte leave different registers. -/
theorem register_ne_of_byte_ne (wide : 8 ≤ w) (start : BitVec w) (front rest : List UInt8)
    {byte other : UInt8} (change : byte ≠ other) :
    register poly start (front ++ byte :: rest) ≠ register poly start (front ++ other :: rest) := by
  intro same
  simp only [register, List.foldl_append, List.foldl_cons] at same
  have fed := (step_injective odd).iterate 8 (register_injective odd rest same)
  have bytes := congrArg (BitVec.setWidth 8) ((BitVec.xor_right_inj _).mp fed)
  rw [BitVec.setWidth_setWidth_of_le _ wide, BitVec.setWidth_setWidth_of_le _ wide] at bytes
  apply change
  apply UInt8.toBitVec_inj.mp
  simpa using bytes

end Detection

section Ieee

/-- The bits of the polynomial of IEEE 802.3 below its highest term, highest coefficient first. -/
def ieeePoly : BitVec 32 := 0xedb88320#32

/-- The generator of IEEE 802.3. -/
noncomputable def ieeeGenerator : (ZMod 2)[X] :=
  X ^ 32 + X ^ 26 + X ^ 23 + X ^ 22 + X ^ 16 + X ^ 12 + X ^ 11 + X ^ 10 + X ^ 8 + X ^ 7 + X ^ 5 +
    X ^ 4 + X ^ 2 + X + 1

/-- CRC-32: the complement of the remainder of the message, where the first 32 bits of what is
divided are complemented too. -/
noncomputable def ieee (bytes : List UInt8) : BitVec 32 :=
  ~~~ ofPoly 32 ((X ^ 32 * message bytes +
    X ^ (8 * bytes.length) * toPoly (BitVec.allOnes 32)) %ₘ ieeeGenerator)

theorem generator_ieeePoly : generator ieeePoly = ieeeGenerator := by
  rw [generator, toPoly, ieeeGenerator]
  simp [Finset.sum_range_succ, ieeePoly, coefficient, ← X_pow_eq_monomial, add_assoc]

/-- CRC-32 from the register that starts with ones and is complemented at the end. -/
theorem ieee_eq_register (bytes : List UInt8) :
    ieee bytes = ~~~ register ieeePoly (BitVec.allOnes 32) bytes := by
  rw [ieee, ← generator_ieeePoly, ← toPoly_register (by decide), ofPoly_toPoly]

/-- Messages that differ in one byte have different checksums. -/
theorem ieee_ne_of_byte_ne (front rest : List UInt8) {byte other : UInt8} (change : byte ≠ other) :
    ieee (front ++ byte :: rest) ≠ ieee (front ++ other :: rest) := by
  rw [ieee_eq_register, ieee_eq_register]
  intro same
  have odd : ieeePoly.getLsbD (32 - 1) = true := by decide
  exact register_ne_of_byte_ne odd (by decide) _ front rest change (BitVec.not_inj.mp same)

end Ieee

end Crc
