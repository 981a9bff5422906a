import Mathlib.Data.String.Basic
import WalletBackend.Domain.Casing

/-! Transaction hashes that show a number, for chains of many transactions. -/
namespace WalletBackend

/-- The hash that shows a number below 4096 in its last three digits. -/
def numberedHash (n : Nat) : String :=
  String.ofList (List.replicate 61 '0' ++
    [(n / 256).digitChar, (n / 16 % 16).digitChar, (n % 16).digitChar])

theorem digitChar_inj {a b : Nat} (left : a < 16) (right : b < 16)
    (same : a.digitChar = b.digitChar) : a = b := by
  have injective : ∀ a < 16, ∀ b < 16, a.digitChar = b.digitChar → a = b := by decide
  exact injective a left b right same

theorem numberedHash_inj {a b : Nat} (left : a < 4096) (right : b < 4096)
    (same : numberedHash a = numberedHash b) : a = b := by
  have digits := List.append_cancel_left (String.ofList_injective same)
  injection digits with high digits
  injection digits with middle digits
  injection digits with low
  have high := digitChar_inj (by omega) (by omega) high
  have middle := digitChar_inj (by omega) (by omega) middle
  have low := digitChar_inj (by omega) (by omega) low
  omega

theorem digitChar_lt {a b : Nat} (less : a < b) (small : b < 16) : a.digitChar < b.digitChar := by
  have ascending : ∀ b < 16, ∀ a < b, a.digitChar < b.digitChar := by decide
  exact ascending b small a less

/-- The hashes ascend with their numbers. -/
theorem numberedHash_lt {a b : Nat} (less : a < b) (small : b < 4096) :
    numberedHash a < numberedHash b := by
  rw [numberedHash, numberedHash, String.lt_iff_toList_lt, String.toList_ofList, String.toList_ofList]
  refine List.append_left_lt ?_
  simp only [List.cons_lt_cons_iff, List.lt_irrefl, and_false, or_false]
  by_cases high : a / 256 = b / 256
  · by_cases middle : a / 16 % 16 = b / 16 % 16
    · exact .inr ⟨congrArg _ high, .inr ⟨congrArg _ middle, digitChar_lt (by omega) (by omega)⟩⟩
    · exact .inr ⟨congrArg _ high, .inl (digitChar_lt (by omega) (by omega))⟩
  · exact .inl (digitChar_lt (by omega) (by omega))

theorem numberedHash_size {n : Nat} (small : n < 4096) : (numberedHash n).utf8ByteSize = 64 := by
  have digit : ∀ d < 16, d.digitChar.utf8Size = 1 := by decide
  refine ascii_size fun c member => ?_
  obtain zero | last := List.mem_append.mp member
  · rw [List.eq_of_mem_replicate zero]
    rfl
  · simp only [List.mem_cons, List.not_mem_nil, or_false] at last
    obtain rfl | rfl | rfl := last
    all_goals exact digit _ (by omega)

end WalletBackend
