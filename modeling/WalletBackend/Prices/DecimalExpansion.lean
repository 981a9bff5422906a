import WalletBackend.Domain.Numbers
import WalletBackend.Library.Decimals
import WalletBackend.Prices.Decimal

/-! An exponential literal is expanded to the plain decimal of its number. -/
namespace WalletBackend.Prices
open Decimals

inductive ExponentSign where
  | unsigned
  | plus
  | minus
  deriving DecidableEq

def ExponentSign.text : ExponentSign → List Char
  | .unsigned => []
  | .plus => ['+']
  | .minus => ['-']

/-- `[-]d[.d…]e[+|-]d…`, whose leading digit is not zero. -/
structure Literal where
  negative : Bool
  leading : Char
  fraction : List Char
  exponentSign : ExponentSign
  exponentDigits : List Char
  proper : Digits (leading :: fraction)
  nonzero : leading ≠ '0'
  exponentProper : Digits exponentDigits
  exponentStarted : exponentDigits ≠ []
  safe : digitsValue exponentDigits ≤ maxSafeInteger

namespace Literal

variable (literal : Literal)

def signText : List Char := if literal.negative then ['-'] else []

def text : List Char :=
  literal.signText ++ layout [literal.leading] literal.fraction ++
    'e' :: (literal.exponentSign.text ++ literal.exponentDigits)

def exponent : Int :=
  match literal.exponentSign with
  | .minus => -digitsValue literal.exponentDigits
  | _ => digitsValue literal.exponentDigits

def value : ℚ :=
  (if literal.negative then -1 else 1) * pointed [literal.leading] literal.fraction *
    10 ^ literal.exponent

end Literal

section Matching

variable (literal : Literal)

theorem Literal.leading_digit : literal.leading.isDigit = true := (digits_cons.mp literal.proper).1

theorem readSigned_exponent :
    Binary64.readSigned (literal.exponentSign.text ++ literal.exponentDigits) =
      some literal.exponent := by
  have all : literal.exponentDigits.all Char.isDigit = true :=
    List.all_eq_true.mpr literal.exponentProper
  have started : literal.exponentDigits.isEmpty = false := by
    simpa using literal.exponentStarted
  have magnitude : (if !literal.exponentDigits.isEmpty && literal.exponentDigits.all Char.isDigit then
      some (digitsValue literal.exponentDigits : Int) else none) =
        some (digitsValue literal.exponentDigits : Int) := by
    rw [all, started]
    rfl
  unfold Literal.exponent
  cases sign : literal.exponentSign with
  | plus => exact magnitude
  | minus => exact congrArg (Option.map Neg.neg) magnitude
  | unsigned =>
    have unmarked {mark : Char} (noDigit : mark.isDigit = false) (digits : List Char)
        (same : literal.exponentDigits = mark :: digits) : False := by
      have proper := literal.exponentProper
      rw [same] at proper
      rw [(digits_cons.mp proper).1] at noDigit
      cases noDigit
    change Binary64.readSigned literal.exponentDigits = some (digitsValue literal.exponentDigits : Int)
    rw [Binary64.readSigned]
    · exact magnitude
    · exact unmarked rfl
    · exact unmarked rfl

theorem signText_span (rest : List Char) :
    (literal.signText ++ literal.leading :: rest).takeWhile (· == '-') = literal.signText ∧
      (literal.signText ++ literal.leading :: rest).dropWhile (· == '-') = literal.leading :: rest := by
  have digit : literal.leading ≠ '-' := by
    intro minus
    have digit := literal.leading_digit
    rw [minus] at digit
    cases digit
  unfold Literal.signText
  cases literal.negative <;> simp [digit]

theorem matchExponential_text : matchExponential literal.text =
    some ⟨literal.signText, [literal.leading], literal.fraction, literal.exponent⟩ := by
  obtain ⟨digit, proper⟩ := digits_cons.mp literal.proper
  have short : ¬ 1 < literal.signText.length := by
    unfold Literal.signText
    split <;> decide
  let power := literal.exponentSign.text ++ literal.exponentDigits
  let tail := (if literal.fraction = [] then [] else '.' :: literal.fraction) ++ 'e' :: power
  have text : literal.text = literal.signText ++ literal.leading :: tail := by
    simp [Literal.text, layout, tail, power]
  obtain ⟨sign, rest⟩ := signText_span literal tail
  have stop : tail.takeWhile Char.isDigit = [] ∧ tail.dropWhile Char.isDigit = tail := by
    unfold tail
    split <;> exact ⟨rfl, rfl⟩
  have whole : (literal.leading :: tail).takeWhile Char.isDigit = [literal.leading] := by
    rw [List.takeWhile_cons_of_pos digit, stop.1]
  have after : (literal.leading :: tail).dropWhile Char.isDigit = tail := by
    rw [List.dropWhile_cons_of_pos digit, stop.2]
  have exponent : Binary64.readSigned power = some literal.exponent := readSigned_exponent literal
  unfold matchExponential
  rw [text, sign, rest, whole, after, if_neg (by simp [short])]
  unfold tail
  cases fraction : literal.fraction with
  | nil => simp [exponent]
  | cons c digits =>
    rw [fraction] at proper
    have through : (c :: digits ++ 'e' :: power).takeWhile Char.isDigit = c :: digits ∧
        (c :: digits ++ 'e' :: power).dropWhile Char.isDigit = 'e' :: power := by
      rw [List.takeWhile_append_of_pos proper, List.dropWhile_append_of_pos proper]
      exact ⟨List.append_nil _, rfl⟩
    rw [if_neg (List.cons_ne_nil _ _)]
    simp only [List.cons_append] at through ⊢
    simp [through, exponent]

end Matching

theorem trimmed_layout (whole : List Char) {fraction : List Char} (proper : Digits fraction) :
    trimmed (whole ++ '.' :: fraction) = layout whole (fraction.rdropWhile (· == '0')) := by
  unfold trimmed layout
  rw [rdropWhile_pointed]
  cases kept : fraction.rdropWhile (· == '0') with
  | nil => simp
  | cons c rest =>
    have inside : (c :: rest).getLast (List.cons_ne_nil c rest) ∈ fraction := by
      refine (List.rdropWhile_prefix (· == '0') fraction).subset ?_
      rw [kept]
      exact List.getLast_mem _
    have last : (whole ++ '.' :: c :: rest).getLast? ≠ some '.' := by
      rw [List.getLast?_append_of_ne_nil _ (List.cons_ne_nil _ _), List.getLast?_cons_cons,
        List.getLast?_eq_getLast_of_ne_nil (List.cons_ne_nil c rest)]
      intro point
      have digit := proper _ inside
      rw [Option.some.inj point] at digit
      cases digit
    rw [if_neg (List.cons_ne_nil _ _)]
    exact if_neg last

section Expansion

variable (literal : Literal)

/-- All the digits, and where the point comes to stand. -/
def Literal.digits : List Char := literal.leading :: literal.fraction

def Literal.pointPos : Int := 1 + literal.exponent

theorem expandExponential_text : expandExponential literal.text = literal.signText ++
    if literal.pointPos ≤ 0 then
      layout ['0'] ((List.replicate (-literal.pointPos).toNat '0' ++ literal.digits).rdropWhile
        (· == '0'))
    else if literal.digits.length ≤ literal.pointPos then
      layout (literal.digits ++
        List.replicate (literal.pointPos - literal.digits.length).toNat '0') []
    else
      layout (literal.digits.take literal.pointPos.toNat)
        ((literal.digits.drop literal.pointPos.toNat).rdropWhile (· == '0')) := by
  have proper : Digits literal.digits := literal.proper
  have dropped : Digits (literal.digits.drop literal.pointPos.toNat) :=
    fun c member => proper c (List.mem_of_mem_drop member)
  have padded : Digits (List.replicate (-literal.pointPos).toNat '0' ++ literal.digits) :=
    digits_append.mpr ⟨digits_replicate _, proper⟩
  rw [← trimmed_layout _ dropped, ← trimmed_layout _ padded]
  unfold expandExponential
  rw [matchExponential_text]
  change (if literal.pointPos ≤ 0 then _
    else if (literal.digits.length : Int) ≤ literal.pointPos then _ else _) = _
  split
  · rfl
  · split
    · rw [layout, if_pos rfl, List.append_nil, List.append_assoc]
      rfl
    · rfl

theorem digits_value : literal.value = (if literal.negative then -1 else 1) *
    (digitsValue literal.digits * 10 ^ (literal.pointPos - literal.digits.length)) := by
  have nonzero : (10 : ℚ) ≠ 0 := by norm_num
  have shift : literal.pointPos - literal.digits.length =
      literal.exponent - literal.fraction.length := by
    simp only [Literal.pointPos, Literal.digits, List.length_cons]
    push_cast
    ring
  rw [Literal.value, mul_assoc, shift, zpow_sub₀ nonzero, zpow_natCast, pointed]
  simp only [List.singleton_append, Literal.digits]
  ring

theorem digits_pos : digitsValue literal.digits ≠ 0 := by
  have positive := digit_pos literal.leading_digit literal.nonzero
  rw [Literal.digits, digitsValue_cons]
  have power : 0 < 10 ^ literal.fraction.length := Nat.pow_pos (by decide)
  have first := Nat.mul_pos power positive
  omega

/-- The point stands where it belongs, and no zero is superfluous in front of it. -/
structure Literal.Split (whole fraction : List Char) : Prop where
  proper : Digits (whole ++ fraction)
  unpadded : Unpadded whole
  number : pointed whole fraction =
    digitsValue literal.digits * 10 ^ (literal.pointPos - literal.digits.length)

theorem split_left (left : literal.pointPos ≤ 0) : literal.Split ['0']
    (List.replicate (-literal.pointPos).toNat '0' ++ literal.digits) where
  proper := digits_append.mpr ⟨digits_cons.mpr ⟨rfl, digits_nil⟩,
    digits_append.mpr ⟨digits_replicate _, literal.proper⟩⟩
  unpadded := ⟨List.cons_ne_nil _ _, fun _ => rfl⟩
  number := by
    have zeros : ((-literal.pointPos).toNat : Int) = -literal.pointPos := Int.toNat_of_nonneg (by omega)
    have places : literal.pointPos - literal.digits.length =
        -((List.replicate (-literal.pointPos).toNat '0' ++ literal.digits).length : Int) := by
      rw [List.length_append, List.length_replicate, Nat.cast_add, zeros]
      ring
    rw [places, zpow_neg, zpow_natCast, pointed, ← div_eq_mul_inv, ← List.append_assoc,
      digitsValue_append]
    simp [digitsValue_cons]

theorem split_integer (right : literal.digits.length ≤ literal.pointPos) : literal.Split
    (literal.digits ++ List.replicate (literal.pointPos - literal.digits.length).toNat '0') [] where
  proper := by
    rw [List.append_nil]
    exact digits_append.mpr ⟨literal.proper, digits_replicate _⟩
  unpadded := by
    refine ⟨List.cons_ne_nil _ _, fun zero => ?_⟩
    exact absurd (Option.some.inj zero) literal.nonzero
  number := by
    obtain ⟨n, places⟩ : ∃ n : Nat, literal.pointPos - literal.digits.length = n :=
      Int.eq_ofNat_of_zero_le (Int.sub_nonneg.mpr right)
    rw [places, Int.toNat_natCast, zpow_natCast, pointed, List.append_nil, digitsValue_append,
      digitsValue_replicate, List.length_replicate, Nat.add_zero]
    push_cast
    rw [List.length_nil, pow_zero, div_one, mul_comm]

theorem split_inside (right : 0 < literal.pointPos)
    (left : literal.pointPos < literal.digits.length) : literal.Split
      (literal.digits.take literal.pointPos.toNat) (literal.digits.drop literal.pointPos.toNat) where
  proper := by
    rw [List.take_append_drop]
    exact literal.proper
  unpadded := by
    obtain ⟨n, places⟩ : ∃ n, literal.pointPos.toNat = n + 1 :=
      Nat.exists_eq_succ_of_ne_zero (by omega)
    rw [places]
    refine ⟨List.cons_ne_nil _ _, fun zero => ?_⟩
    exact absurd (Option.some.inj zero) literal.nonzero
  number := by
    have places : literal.pointPos - literal.digits.length =
        -((literal.digits.drop literal.pointPos.toNat).length : Int) := by
      rw [List.length_drop]
      omega
    rw [places, zpow_neg, zpow_natCast, pointed, List.take_append_drop, div_eq_mul_inv]

theorem expandExponential_split : ∃ whole fraction, literal.Split whole fraction ∧
    expandExponential literal.text =
      literal.signText ++ layout whole (fraction.rdropWhile (· == '0')) := by
  rw [expandExponential_text]
  split
  case isTrue left => exact ⟨_, _, split_left literal left, rfl⟩
  case isFalse right =>
    split
    case isTrue integer => exact ⟨_, _, split_integer literal integer, rfl⟩
    case isFalse inside =>
      exact ⟨_, _, split_inside literal (Int.not_le.mp right) (Int.not_le.mp inside), rfl⟩

theorem Literal.Split.plain {whole fraction : List Char} (parts : literal.Split whole fraction) :
    ∃ decimal : Plain,
      literal.signText ++ layout whole (fraction.rdropWhile (· == '0')) = decimal.text ∧
        decimal.value = literal.value := by
  have nonzero : digitsValue (whole ++ fraction) ≠ 0 := by
    intro zero
    have number := parts.number
    rw [pointed, zero, Nat.cast_zero, zero_div, eq_comm, mul_eq_zero] at number
    exact number.elim (Nat.cast_ne_zero.mpr (digits_pos literal)) (zpow_ne_zero _ (by norm_num))
  refine ⟨.ofPointed literal.negative parts.proper parts.unpadded nonzero, rfl, ?_⟩
  rw [Plain.ofPointed_value, parts.number, digits_value]

/-- The expansion is a plain decimal of the same number. -/
theorem expandExponential_plain :
    ∃ decimal : Plain, expandExponential literal.text = decimal.text ∧
      decimal.value = literal.value := by
  obtain ⟨whole, fraction, parts, text⟩ := expandExponential_split literal
  rw [text]
  exact parts.plain

end Expansion

/-- The expansion of a literal is the one plain decimal of its number. -/
theorem expandExponential_exact :
    (∀ literal : Literal, ∃ decimal : Plain, expandExponential literal.text = decimal.text ∧
      decimal.value = literal.value) ∧
      ∀ literal literal' : Literal, expandExponential literal.text = expandExponential literal'.text ↔
        literal.value = literal'.value := by
  refine ⟨expandExponential_plain, fun literal literal' => ?_⟩
  obtain ⟨decimal, text, number⟩ := expandExponential_plain literal
  obtain ⟨decimal', text', number'⟩ := expandExponential_plain literal'
  rw [text, text', ← number, ← number']
  constructor
  · intro same
    rw [Plain.text_injective same]
  · intro same
    rw [Plain.value_injective same]

end WalletBackend.Prices
