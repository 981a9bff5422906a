import WalletBackend.Library.Numerals
import WalletBackend.Library.Splitting

/-! The domain shapes of `domain/types`. -/
namespace WalletBackend

structure Asset where
  policyId : String
  assetName : String
  quantity : String
  deriving DecidableEq, Repr

/-- An output reference: transaction hash and index. -/
abbrev OutputRef := String × Nat

/-- An output reference as both providers spell it when they compare rows. -/
def OutputRef.key (ref : OutputRef) : String := s!"{ref.1}#{ref.2}"

theorem OutputRef.key_toList (ref : OutputRef) :
    ref.key.toList = ref.1.toList ++ '#' :: Nat.toDigits 10 ref.2 := by
  have spelled : ref.key = ref.1 ++ "#" ++ toString ref.2 := rfl
  rw [spelled, String.toList_append, String.toList_append, Numerals.toList_toString, List.append_assoc]
  rfl

/-- The index is written in digits, so the last `#` separates it from the hash. -/
theorem OutputRef.key_injective : Function.Injective OutputRef.key := by
  rintro ⟨hash, index⟩ ⟨hash', index'⟩ same
  have chars := congrArg (fun s => s.toList.reverse) same
  have noHash (n : Nat) : '#' ∉ (Nat.toDigits 10 n).reverse := fun member =>
    Numerals.not_mem_toDigits rfl n (List.mem_reverse.mp member)
  simp only [key_toList, List.reverse_append, List.reverse_cons, List.append_assoc,
    List.singleton_append] at chars
  obtain ⟨digits, rest⟩ := Splitting.split_at_separator (noHash _) (noHash _) chars
  have index_eq := Numerals.toDigits_injective (List.reverse_inj.mp digits)
  rw [String.toList_inj.mp (List.reverse_inj.mp rest), index_eq]

/-- An unspent output belonging to a wallet. -/
structure Utxo where
  txHash : String
  outputIndex : Nat
  address : String
  blockHeight : Nat
  value : String
  assets : List Asset
  datumHash : Option String
  inlineDatum : Option String
  referenceScriptHash : Option String
  deriving DecidableEq, Repr

/-- An output resolved by its reference. -/
structure ResolvedUtxo extends Utxo where
  spent : Bool
  deriving DecidableEq, Repr

def Utxo.ref (u : Utxo) : OutputRef := (u.txHash, u.outputIndex)

end WalletBackend
