import WalletBackend.Domain.Casing
import WalletBackend.Domain.StakeAddress

/-! The bech32 codec on texts that are known to be valid: in lowercase or in capitals, each is taken
apart as the codec does. -/
namespace WalletBackend

def BECH32_CHARSET : List Char := "qpzry9x8gf2tvdw0s3jn54khce6mua7l".toList

/-- Takes a valid text apart: the part before the separator, and the words of the symbols
after it without the six of the checksum. -/
def takeApart (text : String) : Decoded where
  hrp := String.ofList (text.toList.takeWhile (· ≠ '1'))
  words :=
    let data := (text.toList.dropWhile (· ≠ '1')).drop 1
    (data.take (data.length - 6)).map BECH32_CHARSET.idxOf

/-- Regroups words of five bits into bytes. -/
def regroup (words : List Nat) : List UInt8 :=
  let bits := words.flatMap fun word => (List.range 5).map fun i => word / 2 ^ (4 - i) % 2
  (List.range (bits.length / 8)).map fun i =>
    UInt8.ofNat (((bits.drop (8 * i)).take 8).foldl (fun n bit => 2 * n + bit) 0)

/-- The codec on known texts. -/
def knownBech32 (known : List String) : Bech32 where
  decodeUnsafe value limit :=
    let lower := value.toList.map Char.toLower
    if (value.toList = lower ∨ value.toList = lower.map Char.toUpper) ∧ value.length ≤ limit then
      (known.find? fun text => text.toList = lower).map takeApart
    else none
  fromWordsUnsafe words := some (regroup words)

theorem decodeUnsafe_known {known : List String} {value : String} {limit : Nat} {decoded : Decoded}
    (found : (knownBech32 known).decodeUnsafe value limit = some decoded) :
    value.length ≤ limit ∧ ∃ text ∈ known, text = value.toLower ∧ decoded = takeApart text := by
  simp only [knownBech32] at found
  split at found
  case isFalse => cases found
  case isTrue spelled =>
    obtain ⟨text, first, rfl⟩ := Option.map_eq_some_iff.mp found
    have same : text.toList = value.toList.map Char.toLower := by
      simpa using List.find?_some first
    refine ⟨spelled.2, text, List.mem_of_find?_eq_some first, ?_, rfl⟩
    exact String.toList_inj.mp (same.trans (toList_toLower value).symm)

theorem decodeUnsafe_of_mem {known : List String} {text : String} {limit : Nat} (member : text ∈ known)
    (lower : text.toList.map Char.toLower = text.toList) (short : text.length ≤ limit) :
    (knownBech32 known).decodeUnsafe text limit = some (takeApart text) := by
  simp only [knownBech32, lower, short, true_or, and_true, if_true]
  have present : (known.find? fun other => other.toList = text.toList).isSome :=
    List.find?_isSome.mpr ⟨text, member, decide_eq_true rfl⟩
  obtain ⟨other, found⟩ := Option.isSome_iff_exists.mp present
  have same : other.toList = text.toList := by simpa using List.find?_some found
  rw [found, String.toList_inj.mp same, Option.map_some]

theorem knownBech32_documented {known : List String}
    (shaped : ∀ text ∈ known, ∃ data, text = (takeApart text).hrp ++ "1" ++ data ∧
      data.toList.all Char.isAlphanum = true) : (knownBech32 known).Documented := by
  refine ⟨?_, ?_, ?_⟩
  · intro value limit decoded lower found
    have letters : value.toList.map Char.toLower = value.toList := by
      rw [← toList_toLower, lower]
    have letters' : (value.toList.map Char.toUpper).map Char.toLower = value.toList := by
      rw [← toList_toUpper, ← toList_toLower, toUpper_toLower lower]
    have short : value.toUpper.length = value.length := by
      rw [← String.length_toList, toList_toUpper, List.length_map, String.length_toList]
    rw [← found]
    simp only [knownBech32, letters, letters', toList_toUpper, short, true_or, or_true]
  · intro value limit decoded found
    obtain ⟨-, text, member, spelled, rfl⟩ := decodeUnsafe_known found
    obtain ⟨data, front, alphanumeric⟩ := shaped text member
    rw [← spelled]
    exact ⟨data, front, List.all_eq_true.mp alphanumeric⟩
  · intro value limit decoded found
    exact (decodeUnsafe_known found).1

end WalletBackend
