import Mathlib.Algebra.Order.Field.Basic
import Mathlib.Data.List.DropRight
import Mathlib.Data.Rat.Cast.Order
import Mathlib.Tactic.FieldSimp
import Mathlib.Tactic.Ring

/-! Plain decimals. Without superfluous zeros, there is one for each number that has any. -/
namespace Decimals

variable {digits digits' : List Char}

def Digits (digits : List Char) : Prop := ∀ c ∈ digits, c.isDigit = true

def digitsValue (digits : List Char) : Nat := Nat.ofDigitChars 10 digits 0

@[simp] theorem digits_nil : Digits [] := nofun

@[simp] theorem digits_cons {c : Char} : Digits (c :: digits) ↔ c.isDigit = true ∧ Digits digits :=
  List.forall_mem_cons

@[simp] theorem digits_append : Digits (digits ++ digits') ↔ Digits digits ∧ Digits digits' :=
  List.forall_mem_append

theorem digits_replicate (n : Nat) : Digits (List.replicate n '0') := by
  intro c member
  rw [(List.mem_replicate.mp member).2]
  rfl

@[simp] theorem digitsValue_nil : digitsValue [] = 0 := rfl

theorem digitsValue_cons (c : Char) (digits : List Char) :
    digitsValue (c :: digits) = 10 ^ digits.length * (c.toNat - '0'.toNat) + digitsValue digits := by
  rw [digitsValue, Nat.ofDigitChars_cons, Nat.ofDigitChars_eq_ofDigitChars_zero]
  simp [digitsValue]

theorem digitsValue_append (digits digits' : List Char) :
    digitsValue (digits ++ digits') = 10 ^ digits'.length * digitsValue digits + digitsValue digits' := by
  rw [digitsValue, Nat.ofDigitChars_append, Nat.ofDigitChars_eq_ofDigitChars_zero]
  rfl

@[simp] theorem digitsValue_replicate (n : Nat) : digitsValue (List.replicate n '0') = 0 := by
  simp [digitsValue]

theorem digit_lt {c : Char} (digit : c.isDigit = true) : c.toNat - '0'.toNat < 10 := by
  simp only [Char.isDigit, ge_iff_le, Bool.and_eq_true, decide_eq_true_eq] at digit
  have high : c.toNat ≤ 57 := digit.2
  have zero : '0'.toNat = 48 := rfl
  omega

theorem digit_injective {c c' : Char} (digit : c.isDigit = true) (digit' : c'.isDigit = true)
    (same : c.toNat - '0'.toNat = c'.toNat - '0'.toNat) : c = c' := by
  simp only [Char.isDigit, ge_iff_le, Bool.and_eq_true, decide_eq_true_eq] at digit digit'
  have low : 48 ≤ c.toNat := digit.1
  have low' : 48 ≤ c'.toNat := digit'.1
  have zero : '0'.toNat = 48 := rfl
  have numbers : c.toNat = c'.toNat := by omega
  exact Char.toNat_inj.mp numbers

theorem digit_pos {c : Char} (digit : c.isDigit = true) (nonzero : c ≠ '0') :
    0 < c.toNat - '0'.toNat := by
  by_contra zero
  refine nonzero (digit_injective digit rfl ?_)
  omega

theorem digitsValue_lt (proper : Digits digits) : digitsValue digits < 10 ^ digits.length := by
  induction digits with
  | nil => exact Nat.one_pos
  | cons c digits ih =>
    obtain ⟨digit, proper⟩ := digits_cons.mp proper
    have tail := ih proper
    have head : 10 ^ digits.length * (c.toNat - '0'.toNat) ≤ 10 ^ digits.length * 9 :=
      Nat.mul_le_mul_left _ (Nat.le_of_lt_succ (digit_lt digit))
    rw [digitsValue_cons, List.length_cons, pow_succ]
    omega

/-- As many digits that make the same number are the same. -/
theorem digitsValue_injective (proper : Digits digits) (proper' : Digits digits')
    (long : digits.length = digits'.length) (same : digitsValue digits = digitsValue digits') :
    digits = digits' := by
  induction digits generalizing digits' with
  | nil => exact (List.length_eq_zero_iff.mp long.symm).symm
  | cons c digits ih =>
    cases digits' with
    | nil => cases long
    | cons c' digits' =>
      obtain ⟨digit, proper⟩ := digits_cons.mp proper
      obtain ⟨digit', proper'⟩ := digits_cons.mp proper'
      have long : digits.length = digits'.length := Nat.succ.inj long
      rw [digitsValue_cons, digitsValue_cons, ← long] at same
      have tail := digitsValue_lt proper
      have tail' := digitsValue_lt proper'
      rw [← long] at tail'
      have positive : 0 < 10 ^ digits.length := Nat.pow_pos (by decide)
      have heads := congrArg (· / 10 ^ digits.length) same
      simp only [Nat.mul_add_div positive, Nat.div_eq_of_lt tail, Nat.div_eq_of_lt tail',
        Nat.add_zero] at heads
      rw [heads] at same
      rw [digit_injective digit digit' heads, ih proper proper' long (Nat.add_left_cancel same)]

/-- No zero in front, but for zero itself. -/
def Unpadded (digits : List Char) : Prop := digits ≠ [] ∧ (digits.head? = some '0' → digits = ['0'])

theorem Unpadded.length_le (unpadded : Unpadded digits) (unpadded' : Unpadded digits')
    (proper : Digits digits) (proper' : Digits digits')
    (same : digitsValue digits = digitsValue digits') : digits.length ≤ digits'.length := by
  obtain ⟨started, front⟩ := unpadded
  cases digits with
  | nil => exact absurd rfl started
  | cons c digits =>
    have some' : 0 < digits'.length := List.length_pos_iff.mpr unpadded'.1
    by_cases zero : c = '0'
    · rw [front (by rw [zero]; rfl)]
      exact some'
    · obtain ⟨digit, -⟩ := digits_cons.mp proper
      have positive := digit_pos digit zero
      have bound : 10 ^ digits.length < 10 ^ digits'.length := by
        calc 10 ^ digits.length ≤ 10 ^ digits.length * (c.toNat - '0'.toNat) :=
              Nat.le_mul_of_pos_right _ positive
          _ ≤ digitsValue (c :: digits) := by
              rw [digitsValue_cons]
              exact Nat.le_add_right _ _
          _ = digitsValue digits' := same
          _ < 10 ^ digits'.length := digitsValue_lt proper'
      exact (Nat.pow_lt_pow_iff_right (by decide)).mp bound

theorem Unpadded.injective (unpadded : Unpadded digits) (unpadded' : Unpadded digits')
    (proper : Digits digits) (proper' : Digits digits')
    (same : digitsValue digits = digitsValue digits') : digits = digits' :=
  digitsValue_injective proper proper'
    (Nat.le_antisymm (unpadded.length_le unpadded' proper proper' same)
      (unpadded'.length_le unpadded proper' proper same.symm)) same

/-! ### With a point -/

/-- The number of a decimal, by the digits before and after the point. -/
def pointed (whole fraction : List Char) : ℚ :=
  digitsValue (whole ++ fraction) / 10 ^ fraction.length

def layout (whole fraction : List Char) : List Char :=
  whole ++ if fraction = [] then [] else '.' :: fraction

/-- Zeros at the end of a fraction do not count. -/
theorem pointed_zeros (whole fraction : List Char) (n : Nat) :
    pointed whole (fraction ++ List.replicate n '0') = pointed whole fraction := by
  unfold pointed
  rw [← List.append_assoc, digitsValue_append, digitsValue_replicate, List.length_append,
    List.length_replicate, pow_add]
  have nonzero : (10 : ℚ) ^ n ≠ 0 := pow_ne_zero _ (by norm_num)
  push_cast
  field_simp
  ring

theorem rdropWhile_zeros (digits : List Char) :
    ∃ n, digits = digits.rdropWhile (· == '0') ++ List.replicate n '0' := by
  refine ⟨(digits.rtakeWhile (· == '0')).length, ?_⟩
  have zeros : digits.rtakeWhile (· == '0') =
      List.replicate (digits.rtakeWhile (· == '0')).length '0' := by
    refine List.eq_replicate_iff.mpr ⟨rfl, fun c member => ?_⟩
    simpa using List.mem_rtakeWhile_imp member
  rw [← zeros, List.rdropWhile_append_rtakeWhile]

theorem pointed_rdropWhile (whole fraction : List Char) :
    pointed whole (fraction.rdropWhile (· == '0')) = pointed whole fraction := by
  obtain ⟨n, zeros⟩ := rdropWhile_zeros fraction
  conv_rhs => rw [zeros, pointed_zeros]

theorem getLast?_rdropWhile (digits : List Char) :
    (digits.rdropWhile (· == '0')).getLast? ≠ some '0' := by
  intro last
  have some' : digits.rdropWhile (· == '0') ≠ [] := by
    intro empty
    rw [empty] at last
    cases last
  refine List.rdropWhile_last_not _ digits some' ?_
  rw [List.getLast?_eq_getLast_of_ne_nil some'] at last
  rw [Option.some.inj last]
  rfl

/-- Zeros are dropped up to the point at most. -/
theorem rdropWhile_pointed (whole fraction : List Char) :
    (whole ++ '.' :: fraction).rdropWhile (· == '0') =
      whole ++ '.' :: fraction.rdropWhile (· == '0') := by
  induction fraction using List.reverseRecOn with
  | nil => exact List.rdropWhile_concat_neg _ _ _ (by decide)
  | append_singleton fraction c ih =>
    have whole_text : whole ++ '.' :: (fraction ++ [c]) = whole ++ '.' :: fraction ++ [c] := by simp
    rw [whole_text, List.rdropWhile_concat, List.rdropWhile_concat]
    split
    · exact ih
    · exact whole_text.symm

/-- A last digit that is not zero leaves a remainder. -/
theorem digitsValue_mod (proper : Digits digits) (trimmed : digits.getLast? ≠ some '0')
    (started : digits ≠ []) : digitsValue digits % 10 ≠ 0 := by
  obtain rfl | ⟨front, last, rfl⟩ := List.eq_nil_or_concat digits
  · exact absurd rfl started
  · rw [List.concat_eq_append] at proper trimmed ⊢
    have digit : last.isDigit = true := (digits_cons.mp (digits_append.mp proper).2).1
    have nonzero : last ≠ '0' := by simpa using trimmed
    have positive := digit_pos digit nonzero
    have small := digit_lt digit
    rw [digitsValue_append, digitsValue_cons, digitsValue_nil, List.length_singleton,
      List.length_nil, pow_one, pow_zero, one_mul]
    omega

section Unique

variable {whole whole' fraction fraction' : List Char}

/-- With a longer fraction, the last digit would have to be zero. -/
theorem fraction_length_le (proper : Digits (whole ++ fraction))
    (trimmed : fraction.getLast? ≠ some '0')
    (same : pointed whole fraction = pointed whole' fraction') :
    fraction.length ≤ fraction'.length := by
  by_contra longer
  obtain ⟨n, long⟩ := Nat.exists_eq_add_of_lt (Nat.lt_of_not_le longer)
  unfold pointed at same
  have nonzero : (10 : ℚ) ≠ 0 := by norm_num
  rw [div_eq_div_iff (pow_ne_zero _ nonzero) (pow_ne_zero _ nonzero), long, Nat.add_assoc, pow_add,
    mul_comm ((10 : ℚ) ^ fraction'.length), ← mul_assoc] at same
  have integers := mul_right_cancel₀ (pow_ne_zero _ nonzero) same
  have multiple : digitsValue (whole ++ fraction) = digitsValue (whole' ++ fraction') * 10 ^ (n + 1) := by
    exact_mod_cast integers
  have started : fraction ≠ [] := by
    rintro rfl
    cases long
  refine digitsValue_mod proper ?_ (List.append_ne_nil_of_right_ne_nil _ started) ?_
  · rw [List.getLast?_append_of_ne_nil _ started]
    exact trimmed
  · rw [multiple, pow_succ, ← mul_assoc, Nat.mul_mod_left]

/-- The number determines the digits on both sides of the point. -/
theorem pointed_injective (proper : Digits (whole ++ fraction))
    (proper' : Digits (whole' ++ fraction')) (unpadded : Unpadded whole)
    (unpadded' : Unpadded whole') (trimmed : fraction.getLast? ≠ some '0')
    (trimmed' : fraction'.getLast? ≠ some '0')
    (same : pointed whole fraction = pointed whole' fraction') :
    whole = whole' ∧ fraction = fraction' := by
  have long := Nat.le_antisymm (fraction_length_le proper trimmed same)
    (fraction_length_le proper' trimmed' same.symm)
  obtain ⟨proper_whole, proper_fraction⟩ := digits_append.mp proper
  obtain ⟨proper_whole', proper_fraction'⟩ := digits_append.mp proper'
  have small := digitsValue_lt proper_fraction
  have small' := digitsValue_lt proper_fraction'
  have positive : 0 < 10 ^ fraction.length := Nat.pow_pos (by decide)
  have numbers : digitsValue (whole ++ fraction) = digitsValue (whole' ++ fraction') := by
    unfold pointed at same
    rw [← long] at same
    have nonzero : (10 : ℚ) ^ fraction.length ≠ 0 := pow_ne_zero _ (by norm_num)
    exact_mod_cast (div_left_inj' nonzero).mp same
  rw [digitsValue_append, digitsValue_append, ← long] at numbers
  rw [← long] at small'
  have wholes := congrArg (· / 10 ^ fraction.length) numbers
  simp only [Nat.mul_add_div positive, Nat.div_eq_of_lt small, Nat.div_eq_of_lt small',
    Nat.add_zero] at wholes
  rw [wholes] at numbers
  exact ⟨unpadded.injective unpadded' proper_whole proper_whole' wholes,
    digitsValue_injective proper_fraction proper_fraction' long (Nat.add_left_cancel numbers)⟩

theorem layout_takeWhile (proper : Digits whole) :
    (layout whole fraction).takeWhile Char.isDigit = whole := by
  have stop : (if fraction = [] then [] else '.' :: fraction).takeWhile Char.isDigit = [] := by
    split <;> rfl
  rw [layout, List.takeWhile_append_of_pos proper, stop, List.append_nil]

theorem layout_dropWhile (proper : Digits whole) :
    ((layout whole fraction).dropWhile Char.isDigit).tail = fraction := by
  rw [layout, List.dropWhile_append_of_pos proper]
  split
  case isTrue empty =>
    rw [empty]
    rfl
  case isFalse => rfl

theorem layout_injective (proper : Digits whole) (proper' : Digits whole')
    (same : layout whole fraction = layout whole' fraction') :
    whole = whole' ∧ fraction = fraction' := by
  have wholes := congrArg (List.takeWhile Char.isDigit) same
  have fractions := congrArg (fun text => (text.dropWhile Char.isDigit).tail) same
  simp only [layout_takeWhile proper, layout_takeWhile proper'] at wholes
  simp only [layout_dropWhile proper, layout_dropWhile proper'] at fractions
  exact ⟨wholes, fractions⟩

end Unique

/-- A plain decimal: no superfluous zero on either side, no bare point, no minus zero. -/
@[ext] structure Plain where
  negative : Bool
  whole : List Char
  fraction : List Char
  proper : Digits (whole ++ fraction)
  unpadded : Unpadded whole
  trimmed : fraction.getLast? ≠ some '0'
  signed : negative = true → digitsValue (whole ++ fraction) ≠ 0

namespace Plain

variable {decimal decimal' : Plain}

def text (decimal : Plain) : List Char :=
  (if decimal.negative then ['-'] else []) ++ layout decimal.whole decimal.fraction

def value (decimal : Plain) : ℚ :=
  (if decimal.negative then -1 else 1) * pointed decimal.whole decimal.fraction

/-- Of a number that is not zero, the digits before and after the point, without the zeros at the
end. -/
def ofPointed (negative : Bool) {whole fraction : List Char} (proper : Digits (whole ++ fraction))
    (unpadded : Unpadded whole) (nonzero : digitsValue (whole ++ fraction) ≠ 0) : Plain where
  negative := negative
  whole := whole
  fraction := fraction.rdropWhile (· == '0')
  proper := by
    obtain ⟨before, after⟩ := digits_append.mp proper
    refine digits_append.mpr ⟨before, fun c member => ?_⟩
    exact after c ((List.rdropWhile_prefix (· == '0') fraction).subset member)
  unpadded := unpadded
  trimmed := getLast?_rdropWhile fraction
  signed _ zero := by
    have number := pointed_rdropWhile whole fraction
    unfold pointed at number
    rw [zero, Nat.cast_zero, zero_div, eq_comm, div_eq_zero_iff] at number
    exact number.elim (Nat.cast_ne_zero.mpr nonzero) (pow_ne_zero _ (by norm_num))

theorem ofPointed_value (negative : Bool) {whole fraction : List Char}
    (proper : Digits (whole ++ fraction)) (unpadded : Unpadded whole)
    (nonzero : digitsValue (whole ++ fraction) ≠ 0) :
    (ofPointed negative proper unpadded nonzero).value =
      (if negative then -1 else 1) * pointed whole fraction := by
  rw [← pointed_rdropWhile]
  rfl

/-- No digit is a minus sign. -/
theorem layout_head (decimal : Plain) : (layout decimal.whole decimal.fraction).head? ≠ some '-' := by
  obtain ⟨started, -⟩ := decimal.unpadded
  have proper := (digits_append.mp decimal.proper).1
  cases whole : decimal.whole with
  | nil => exact absurd whole started
  | cons c digits =>
    rw [whole] at proper
    intro minus
    cases minus
    cases (digits_cons.mp proper).1

theorem text_injective (same : decimal.text = decimal'.text) : decimal = decimal' := by
  unfold text at same
  have signs : decimal.negative = decimal'.negative := by
    have heads := congrArg List.head? same
    cases negative : decimal.negative with
    | false =>
      cases negative' : decimal'.negative with
      | false => rfl
      | true =>
        rw [negative, negative'] at heads
        exact absurd heads decimal.layout_head
    | true =>
      cases negative' : decimal'.negative with
      | false =>
        rw [negative, negative'] at heads
        exact absurd heads.symm decimal'.layout_head
      | true => rfl
  rw [signs] at same
  obtain ⟨whole, fraction⟩ := layout_injective (digits_append.mp decimal.proper).1
    (digits_append.mp decimal'.proper).1 (List.append_cancel_left same)
  exact Plain.ext signs whole fraction

theorem pointed_nonneg (whole fraction : List Char) : 0 ≤ pointed whole fraction :=
  div_nonneg (Nat.cast_nonneg _) (pow_nonneg (by norm_num) _)

/-- The sign is that of the number. -/
theorem value_neg (decimal : Plain) : decimal.value < 0 ↔ decimal.negative = true := by
  have nonneg := pointed_nonneg decimal.whole decimal.fraction
  unfold value
  cases negative : decimal.negative with
  | false => simpa using nonneg
  | true =>
    have nonzero : pointed decimal.whole decimal.fraction ≠ 0 :=
      div_ne_zero (Nat.cast_ne_zero.mpr (decimal.signed negative)) (pow_ne_zero _ (by norm_num))
    simpa using lt_of_le_of_ne nonneg nonzero.symm

theorem value_injective (same : decimal.value = decimal'.value) : decimal = decimal' := by
  have signs : decimal.negative = decimal'.negative := by
    rw [Bool.eq_iff_iff, ← value_neg, ← value_neg, same]
  unfold value at same
  rw [signs] at same
  have nonzero : (if decimal'.negative = true then (-1 : ℚ) else 1) ≠ 0 := by
    split <;> norm_num
  obtain ⟨whole, fraction⟩ := pointed_injective decimal.proper decimal'.proper decimal.unpadded
    decimal'.unpadded decimal.trimmed decimal'.trimmed (mul_left_cancel₀ nonzero same)
  exact Plain.ext signs whole fraction

end Plain
end Decimals
