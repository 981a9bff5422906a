import WalletBackend.Domain.StakeAddress
import WalletBackend.Domain.Types

/-! The two spellings of a bech32 text, and the letters they are made of. -/
namespace WalletBackend

theorem charToUpper_toLower {c : Char} (lower : c.toLower = c) : c.toUpper.toLower = c := by
  by_cases letter : 97 ≤ c.toNat ∧ c.toNat ≤ 122
  · have each : ∀ n < 123, 97 ≤ n → (Char.ofNat n).toUpper.toLower = Char.ofNat n := by decide
    have same := each c.toNat (by omega) letter.1
    rwa [Char.ofNat_toNat] at same
  · have unchanged : c.toUpper = c := dif_neg fun inside => letter ⟨inside.1, inside.2⟩
    rw [unchanged, lower]

/-- A capital letter has become another letter, and anything else is as it was. -/
theorem charToLower_eq (c : Char) : c.toLower = c ∨ 65 ≤ c.toNat ∧ c.toNat ≤ 90 := by
  by_cases letter : 65 ≤ c.toNat ∧ c.toNat ≤ 90
  · exact .inr letter
  · exact .inl (dif_neg fun inside => letter ⟨inside.1, inside.2⟩)

/-- The capitals, letter by letter. -/
theorem toList_toUpper (text : String) : text.toUpper.toList = text.toList.map Char.toUpper :=
  String.toList_map

theorem toList_toLower (text : String) : text.toLower.toList = text.toList.map Char.toLower :=
  String.toList_map

theorem toLower_append (first rest : String) :
    (first ++ rest).toLower = first.toLower ++ rest.toLower := by
  apply String.toList_inj.mp
  rw [toList_toLower, String.toList_append, String.toList_append, List.map_append, toList_toLower,
    toList_toLower]

theorem charToLower_toLower (c : Char) : c.toLower.toLower = c.toLower := by
  obtain same | capital := charToLower_eq c
  · rw [same, same]
  · have each : ∀ n < 91, 65 ≤ n → (Char.ofNat n).toLower.toLower = (Char.ofNat n).toLower := by decide
    have same := each c.toNat (by omega) capital.1
    rwa [Char.ofNat_toNat] at same

theorem toLower_toLower (text : String) : text.toLower.toLower = text.toLower := by
  apply String.toList_inj.mp
  rw [toList_toLower, toList_toLower, List.map_map]
  exact List.map_congr_left fun c _ => charToLower_toLower c

/-- The index of an output reference has no case. -/
theorem OutputRef.toLower_key (ref : OutputRef) : ref.key.toLower = OutputRef.key (ref.1.toLower, ref.2) := by
  apply String.toList_inj.mp
  rw [toList_toLower, key_toList, key_toList, List.map_append, List.map_cons, toList_toLower]
  have digits : (Nat.toDigits 10 ref.2).map Char.toLower = Nat.toDigits 10 ref.2 := by
    conv_rhs => rw [← List.map_id (Nat.toDigits 10 ref.2)]
    refine List.map_congr_left fun c member => ?_
    have digit := Numerals.isDigit_of_mem member
    obtain same | capital := charToLower_eq c
    · exact same
    · have upTo : c.toNat ≤ 57 := (Char.isDigit_iff_toNat.mp digit).2
      omega
  rw [digits]
  rfl

theorem toUpper_toLower {text : String} (lower : text.toLower = text) :
    text.toUpper.toLower = text := by
  have chars := congrArg String.toList lower
  rw [toList_toLower] at chars
  have each := List.map_inj_left.mp (chars.trans (List.map_id _).symm)
  apply String.toList_inj.mp
  rw [toList_toLower, toList_toUpper, List.map_map]
  conv_rhs => rw [← List.map_id text.toList]
  exact List.map_congr_left fun c member => charToUpper_toLower (each c member)

/-- A letter of an address, in either spelling. -/
def isAddressChar (c : Char) : Prop := c.toLower.isAlphanum ∨ c.toLower = '_'

theorem isAddressChar_ascii {c : Char} (letter : isAddressChar c) : c.toNat < 128 ∧ c ≠ '"' := by
  constructor
  · rcases charToLower_eq c with same | capital
    · rw [isAddressChar, same] at letter
      rcases letter with alphanumeric | rfl
      · change ((decide (65 ≤ c.val ∧ c.val ≤ 90) ||
          decide (97 ≤ c.val) && decide (c.val ≤ 122)) ||
          decide (48 ≤ c.val) && decide (c.val ≤ 57)) = true at alphanumeric
        simp only [Bool.or_eq_true, Bool.and_eq_true, decide_eq_true_eq] at alphanumeric
        rcases alphanumeric with (⟨-, upTo⟩ | ⟨-, upTo⟩) | ⟨-, upTo⟩
        all_goals exact Nat.lt_of_le_of_lt upTo (by decide)
      · decide
    · omega
  · rintro rfl
    revert letter
    unfold isAddressChar
    decide

/-- The letters of a decoded text. -/
theorem Bech32.Documented.letters {bech32 : Bech32} (documented : bech32.Documented)
    {value : String} {limit : Nat} {decoded : Decoded}
    (found : bech32.decodeUnsafe value limit = some decoded)
    (hrp : ∀ c ∈ decoded.hrp.toList, c.isAlphanum ∨ c = '_') :
    ∀ c ∈ value.toList, isAddressChar c := by
  intro c member
  obtain ⟨data, spelled, alphanumeric⟩ := documented.shape _ _ _ found
  have chars := congrArg String.toList spelled
  rw [toList_toLower, String.toList_append, String.toList_append] at chars
  have there : c.toLower ∈ decoded.hrp.toList ++ "1".toList ++ data.toList :=
    chars ▸ List.mem_map_of_mem member
  rcases List.mem_append.mp there with front | back
  · rcases List.mem_append.mp front with part | separator
    · exact hrp _ part
    · left
      rw [List.mem_singleton.mp separator]
      decide
  · exact .inl (alphanumeric _ back)

/-- What the addresses of a network begin with. -/
def KNOWN_PARTS : List String := ["stake", "stake_test", "addr", "addr_test"]

theorem hrp_letters {hrp : String} (known : hrp ∈ KNOWN_PARTS) :
    ∀ c ∈ hrp.toList, c.isAlphanum ∨ c = '_' := by
  have plain : ∀ part ∈ KNOWN_PARTS, part.toList.all (fun c => c.isAlphanum || c == '_') = true := by
    decide
  intro c member
  have letter := List.all_eq_true.mp (plain hrp known) c member
  simpa only [Bool.or_eq_true, beq_iff_eq] using letter

theorem hrp_capital {hrp : String} (known : hrp ∈ KNOWN_PARTS) :
    ∃ c ∈ hrp.toList, c.toUpper ≠ c := by
  have capital : ∀ part ∈ KNOWN_PARTS, part.toList.any (fun c => c.toUpper != c) = true := by
    decide
  simpa only [List.any_eq_true, bne_iff_ne] using capital hrp known

theorem ascii_size {chars : List Char} (ascii : ∀ c ∈ chars, c.utf8Size = 1) :
    (String.ofList chars).utf8ByteSize = chars.length := by
  induction chars with
  | nil => rfl
  | cons c chars ih =>
    rw [String.ofList_cons, String.utf8ByteSize_append, String.utf8ByteSize_singleton,
      ascii c List.mem_cons_self, ih fun c' member => ascii c' (List.mem_cons_of_mem _ member),
      List.length_cons, Nat.add_comm]

theorem size_of_letters {value : String} (letters : ∀ c ∈ value.toList, isAddressChar c) :
    value.utf8ByteSize = value.length := by
  have ascii : ∀ c ∈ value.toList, c.utf8Size = 1 := by
    intro c member
    have small : c.val ≤ 127 := Nat.le_of_lt_succ (isAddressChar_ascii (letters c member)).1
    exact if_pos small
  have counted := ascii_size ascii
  rwa [String.ofList_toList, String.length_toList] at counted

/-- The other spelling is another text. -/
theorem toUpper_ne {value : String} {c : Char} (member : c ∈ value.toList)
    (letter : c.toUpper ≠ c) : value.toUpper ≠ value := by
  intro same
  have chars := congrArg String.toList same
  rw [toList_toUpper] at chars
  exact letter (List.map_inj_left.mp (chars.trans (List.map_id _).symm) c member)

/-- A text with a spelling that is not empty is not empty. -/
theorem toUpper_eq_empty {text : String} : text.toUpper = "" ↔ text = "" := by
  rw [← String.toList_inj, ← String.toList_inj, toList_toUpper]
  exact List.map_eq_nil_iff

end WalletBackend
