import Mathlib.Data.Nat.Log
import Mathlib.Tactic.Linarith

/-! Numbers as the JSON schemas accept them and as JavaScript converts them. -/
namespace WalletBackend

/-- `Number.MAX_SAFE_INTEGER`. -/
def maxSafeInteger : Nat := 2 ^ 53 - 1

/-- `/^\d+$/`. -/
def isDigits (s : String) : Bool := !s.toList.isEmpty && s.toList.all Char.isDigit

/-- The `numeric` schema: a safe nonnegative integer or a string of digits. -/
inductive Numeric where
  | number (n : Nat) (safe : n ≤ maxSafeInteger)
  | digits (s : String) (wellFormed : isDigits s = true)
  deriving DecidableEq

/-- `String(value)`. -/
def Numeric.text : Numeric → String
  | .number n _ => toString n
  | .digits s _ => s

/-- The number nearest to `n` with 53 significant bits, the even one of two. -/
def toDouble (n : Nat) : Nat :=
  let unit := 2 ^ (Nat.log2 n - 52)
  let quotient := n / unit
  let remainder := n % unit
  if 2 * remainder < unit ∨ (2 * remainder = unit ∧ quotient % 2 = 0) then quotient * unit
  else (quotient + 1) * unit

/-- `Number(value)`, below the range where it overflows to `Infinity`. -/
def Numeric.toNumber : Numeric → Nat
  | .number n _ => n
  | .digits s _ => toDouble (Nat.ofDigitChars 10 s.toList 0)

/-- Safe integers are represented exactly. -/
theorem toDouble_of_safe {n : Nat} (safe : n ≤ maxSafeInteger) : toDouble n = n := by
  have small : Nat.log2 n - 52 = 0 := by
    have bound : n < 2 ^ 53 := by
      have : maxSafeInteger < 2 ^ 53 := by decide
      omega
    by_cases none : n = 0
    · rw [none]
      rfl
    · have := (Nat.log2_lt none).mpr bound
      omega
  simp only [toDouble, small, pow_zero, Nat.div_one, Nat.mod_one]
  rw [if_pos (.inl (by decide)), Nat.mul_one]

example : toDouble (2 ^ 53 + 1) = 2 ^ 53 := by decide

end WalletBackend
