import Mathlib.Data.Nat.Bitwise
import Mathlib.Data.Nat.Digits.Lemmas

/-! Numbers written in digits of any base, the highest first, and the decimals of a text. -/
namespace Numerals

def numeral (base : Nat) (digits : List Nat) : Nat := Nat.ofDigits base digits.reverse

variable {base digit width : Nat} {digits : List Nat}

@[simp] theorem numeral_nil (base : Nat) : numeral base [] = 0 := rfl

theorem numeral_cons (base digit : Nat) (digits : List Nat) :
    numeral base (digit :: digits) = base ^ digits.length * digit + numeral base digits := by
  rw [numeral, List.reverse_cons, Nat.ofDigits_append, Nat.ofDigits_singleton, List.length_reverse,
    Nat.add_comm, numeral]

theorem numeral_append (digits digits' : List Nat) : numeral base (digits ++ digits') =
    base ^ digits'.length * numeral base digits + numeral base digits' := by
  rw [numeral, List.reverse_append, Nat.ofDigits_append, List.length_reverse, Nat.add_comm, numeral,
    numeral]

theorem numeral_lt (proper : 1 < base) (small : ∀ digit ∈ digits, digit < base) :
    numeral base digits < base ^ digits.length := by
  have bound := Nat.ofDigits_lt_base_pow_length proper
    (fun digit member => small digit (List.mem_reverse.mp member))
  rwa [List.length_reverse] at bound

theorem le_numeral (base : Nat) (leads : digit ≠ 0) (digits : List Nat) :
    base ^ digits.length ≤ numeral base (digit :: digits) := by
  rw [numeral_cons]
  exact (Nat.le_mul_of_pos_right _ (Nat.pos_of_ne_zero leads)).trans (Nat.le_add_right _ _)

/-- Every digit of base `base ^ 2` as two of base `base`. -/
def halves (base : Nat) (digits : List Nat) : List Nat :=
  digits.flatMap fun digit => [digit / base, digit % base]

theorem length_halves (base : Nat) (digits : List Nat) :
    (halves base digits).length = 2 * digits.length := by
  induction digits with
  | nil => rfl
  | cons digit digits ih =>
    rw [halves, List.flatMap_cons, List.length_append, ← halves, ih, List.length_cons]
    simp only [List.length_cons, List.length_nil]
    omega

theorem numeral_halves (base : Nat) (digits : List Nat) :
    numeral base (halves base digits) = numeral (base ^ 2) digits := by
  induction digits with
  | nil => rfl
  | cons digit digits ih =>
    have two : numeral base [digit / base, digit % base] = digit := by
      rw [numeral_cons, numeral_cons, numeral_nil]
      simpa using Nat.div_add_mod digit base
    rw [halves, List.flatMap_cons, numeral_append, ← halves, ih, length_halves, two, numeral_cons,
      ← pow_mul]

/-- The bits of a number are those of its digits. -/
theorem testBit_numeral (small : ∀ digit ∈ digits, digit < 2 ^ width) {i j : Nat}
    (inside : i < digits.length) (low : j < width) :
    (numeral (2 ^ width) digits).testBit (width * (digits.length - 1 - i) + j) =
      digits[i].testBit j := by
  have proper : 1 < 2 ^ width := Nat.one_lt_two_pow (Nat.ne_of_gt (Nat.zero_lt_of_lt low))
  induction digits generalizing i with
  | nil => cases inside
  | cons digit digits ih =>
    obtain ⟨-, later⟩ := List.forall_mem_cons.mp small
    have bound : numeral (2 ^ width) digits < 2 ^ (width * digits.length) := by
      rw [pow_mul]
      exact numeral_lt proper later
    rw [numeral_cons, ← pow_mul, Nat.testBit_two_pow_mul_add _ bound, List.length_cons,
      Nat.add_sub_cancel]
    cases i with
    | zero =>
      rw [Nat.sub_zero, if_neg (by omega), Nat.add_sub_cancel_left]
      rfl
    | succ i =>
      have inside : i < digits.length := Nat.lt_of_succ_lt_succ inside
      have below : width * (digits.length - (i + 1)) + j < width * digits.length :=
        calc
          width * (digits.length - (i + 1)) + j < width * (digits.length - (i + 1)) + width :=
            Nat.add_lt_add_left low _
          _ = width * (digits.length - (i + 1) + 1) := (Nat.mul_succ _ _).symm
          _ ≤ width * digits.length := Nat.mul_le_mul_left width (by omega)
      rw [if_pos below, show digits.length - (i + 1) = digits.length - 1 - i by omega,
        ih later inside]
      rfl

section Decimal

theorem toList_toString (n : Nat) : (toString n).toList = Nat.toDigits 10 n := by
  rw [Nat.toString_eq_repr, Nat.toList_repr]

theorem isDigit_of_mem {c : Char} {n : Nat} (member : c ∈ Nat.toDigits 10 n) : c.isDigit = true :=
  Nat.isDigit_of_mem_toDigits (by decide) (by decide) member

theorem not_mem_toDigits {c : Char} (other : c.isDigit = false) (n : Nat) :
    c ∉ Nat.toDigits 10 n := fun member => by
  have digit := isDigit_of_mem member
  rw [other] at digit
  exact nomatch digit

theorem toDigits_proper (n : Nat) :
    Nat.toDigits 10 n ≠ [] ∧ (Nat.toDigits 10 n).all Char.isDigit = true :=
  ⟨Nat.toDigits_ne_nil, List.all_eq_true.mpr fun _ => isDigit_of_mem⟩

theorem toDigits_injective {n n' : Nat} (same : Nat.toDigits 10 n = Nat.toDigits 10 n') : n = n' := by
  have numbers := congrArg (Nat.ofDigitChars 10 · 0) same
  simpa only [Nat.ofDigitChars_ten_toDigits] using numbers

end Decimal

end Numerals
