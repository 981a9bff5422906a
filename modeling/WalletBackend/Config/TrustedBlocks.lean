import WalletBackend.Config.TrustedProxies
import WalletBackend.Library.Cidr
import WalletBackend.Library.Distinct

/-! Whom the entries of `TRUST_PROXY` trust, before and after they are normalised. -/
namespace WalletBackend.Config

open Cidr IpText Numerals

/-! ### What an entry covers -/

inductive Address where
  | v4 (value : Nat)
  | v6 (value : Nat)

/-- `::ffff:0:0`. -/
def mappedBase : Nat := 2 ^ 32 * 0xffff

def mapped (a : Nat) : Address := .v6 (mappedBase + a)

/-- The addresses that agree with `base` on their first `bits`. -/
inductive Block where
  | v4 (base bits : Nat)
  | v6 (base bits : Nat)

def Block.Contains : Block → Address → Prop
  | .v4 base bits, .v4 a => Agree 32 bits base a
  | .v4 base bits, .v6 x => ∃ a < 2 ^ 32, x = mappedBase + a ∧ Agree 32 bits base a
  | .v6 base bits, .v6 x => Agree 128 bits base x
  | .v6 _ _, .v4 _ => False

def readBits (width : Nat) : (rawPrefix : Option (List Char)) → Option Nat
  | none => some width
  | some digits =>
      let value := Nat.ofDigitChars 10 digits 0
      if digits ≠ [] ∧ digits.all Char.isDigit ∧ value ≤ width then some value else none

/-- An address with its number of bits, without its zone. -/
def readBlock (address : List Char) (rawPrefix : Option (List Char)) : Option Block :=
  match readIPv4 address with
  | some octets => (readBits 32 rawPrefix).map (.v4 (numeral (2 ^ 8) octets))
  | none =>
      match readIPv6 (unzoned address) with
      | some groups => (readBits 128 rawPrefix).map (.v6 (numeral (2 ^ 16) groups))
      | none => none

def readEntry (entry : List Char) : Option Block :=
  match entry.splitOn '/' with
  | [address] => readBlock address none
  | [address, rawPrefix] => readBlock address (some rawPrefix)
  | _ => none

def Trusts (entry : List Char) (address : Address) : Prop :=
  ∃ block, readEntry entry = some block ∧ block.Contains address

/-- The literals that the platform tells apart, and the text it gives an IPv6 address. -/
structure Platform.Documented (platform : Platform) : Prop where
  four : ∀ text, platform.isIP text = some .four ↔ (readIPv4 text).isSome = true
  six : ∀ text, platform.isIP text = some .six → (readIPv6 (unzoned text)).isSome = true
  hostname : ∀ address groups, readIPv6 address = some groups →
    ∃ text, platform.hostname address = some text ∧ Canonical groups text

/-! ### The bytes of an address -/

section Bytes

variable {platform : Platform} {address : List Char} {groups : List Nat}

theorem parseHex_toDigits (value : Nat) : parseHex (Nat.toDigits 16 value) = some value := by
  obtain ⟨number, digits⟩ := hex_toDigits value
  unfold parseHex
  rw [List.takeWhile_eq_self_iff.mpr digits]
  dsimp only
  rw [if_neg Nat.toDigits_ne_nil, number]

theorem bytes_of_groups (proper : Groups groups) :
    (groups.flatMap fun value => [value / 256 % 256, value % 256]) = halves (2 ^ 8) groups := by
  refine List.flatMap_congr fun value member => ?_
  have small := proper.2 value member
  rw [Nat.mod_eq_of_lt (Nat.div_lt_of_lt_mul (by omega : value < 256 * 256))]
  rfl

theorem mapM_parseHex (groups : List Nat) :
    (groups.map (Nat.toDigits 16)).mapM parseHex = some groups :=
  mapM_of_forall₂ (List.forall₂_map_left_iff.mpr
    (List.forall₂_same.mpr fun value _ => parseHex_toDigits value))

/-- The canonical text is read back as the bytes of the address. -/
theorem ipv6Bytes_eq (documented : platform.Documented) (read : readIPv6 address = some groups) :
    ipv6Bytes platform address = some (halves (2 ^ 8) groups) := by
  obtain ⟨text, found, canonical⟩ := documented.hostname address groups read
  have proper := readIPv6_groups read
  unfold ipv6Bytes
  rw [found, ← bytes_of_groups proper]
  cases canonical with
  | whole =>
    have eight : (groups.map (Nat.toDigits 16)).length = 8 := by rw [List.length_map, proper.1]
    have empty : partsOf [] = [] := rfl
    simp only [Option.bind_eq_bind, Option.bind_some, splitDouble_whole, List.head?_cons,
      Option.getD_some, List.getElem?_cons_succ, List.getElem?_nil, Option.getD_none,
      partsOf_joined, eight, empty]
    have full :
        List.replicate ((8 : Int) - (8 : Nat) - ([] : List (List Char)).length).toNat ['0'] = [] :=
      rfl
    rw [if_neg (by decide), full, List.append_nil, List.append_nil, mapM_parseHex]
    rfl
  | @compressed head tail n run =>
    have zeros : List.replicate n ['0'] = (List.replicate n 0).map (Nat.toDigits 16) := by
      rw [List.map_replicate]
      rfl
    have missing : (8 : Int) - head.length - tail.length = n := by
      have eight := proper.1
      rw [List.length_append, List.length_append, List.length_replicate] at eight
      omega
    simp only [Option.bind_eq_bind, Option.bind_some, splitDouble_compressed, List.head?_cons,
      Option.getD_some, List.getElem?_cons_succ, List.getElem?_cons_zero, partsOf_joined,
      List.length_map, missing, Int.toNat_natCast, zeros, ← List.map_append, mapM_parseHex]
    exact if_neg (by simp)

theorem mask_eq (bit : Nat) : 0x80 >>> (bit &&& 7) = 2 ^ (7 - bit % 8) := by
  have each : ∀ i : Fin 8, 0x80 >>> i.val = 2 ^ (7 - i.val) := by decide
  rw [show bit &&& 7 = bit % 8 from Nat.and_two_pow_sub_one_eq_mod bit 3]
  exact each ⟨bit % 8, Nat.mod_lt _ (by decide)⟩

theorem and_mask_eq_iff (x y i : Nat) :
    (x &&& 2 ^ i == y &&& 2 ^ i) = true ↔ x.testBit i = y.testBit i := by
  have positive : 0 < 2 ^ i := Nat.two_pow_pos i
  rw [beq_iff_eq, Nat.and_two_pow, Nat.and_two_pow]
  cases x.testBit i <;> cases y.testBit i <;> simp [positive.ne]

/-- The loop compares the first bits of two addresses. -/
theorem sharesPrefix_iff {left right : List Nat} {bits : Nat} (short : bits ≤ 128)
    (length : left.length = 16) (length' : right.length = 16)
    (small : ∀ byte ∈ left, byte < 2 ^ 8) (small' : ∀ byte ∈ right, byte < 2 ^ 8) :
    sharesPrefix left right bits = true ↔
      Agree 128 bits (numeral (2 ^ 8) left) (numeral (2 ^ 8) right) := by
  have bound {bytes : List Nat} (length : bytes.length = 16)
      (small : ∀ byte ∈ bytes, byte < 2 ^ 8) :
      numeral (2 ^ 8) bytes < 2 ^ 128 := by
    have less := numeral_lt (by decide) small
    rwa [length, ← pow_mul] at less
  have bitOf {bytes : List Nat} (length : bytes.length = 16)
      (small : ∀ byte ∈ bytes, byte < 2 ^ 8) {bit : Nat} (inside : bit < 128) :
      (bytes[bit >>> 3]?.getD 0).testBit (7 - bit % 8) =
        (numeral (2 ^ 8) bytes).testBit (128 - 1 - bit) := by
    have byte : bit >>> 3 < bytes.length := by
      rw [Nat.shiftRight_eq_div_pow, length]
      omega
    have bits := testBit_numeral small byte (show 7 - bit % 8 < 8 by omega)
    rw [List.getElem?_eq_getElem byte, Option.getD_some, ← bits, length, Nat.shiftRight_eq_div_pow]
    congr 1
    omega
  rw [agree_iff_testBit short (bound length small) (bound length' small'), sharesPrefix,
    List.all_eq_true]
  constructor
  · intro same bit inside
    have equal := same bit (List.mem_range.mpr inside)
    rw [mask_eq, and_mask_eq_iff, bitOf length small (by omega),
      bitOf length' small' (by omega)] at equal
    exact equal
  · intro same bit inside
    have inside := List.mem_range.mp inside
    rw [mask_eq, and_mask_eq_iff, bitOf length small (by omega), bitOf length' small' (by omega)]
    exact same bit inside

end Bytes

/-! ### Entries that are normalised -/

/-- A text that is found again between commas. -/
structure Tidy (text : List Char) : Prop where
  nonempty : text ≠ []
  first : ∀ c ∈ text.head?, Binary64.isWhiteSpace c = false
  last : ∀ c ∈ text.getLast?, Binary64.isWhiteSpace c = false
  whole : ',' ∉ text

/-- An entry that stays as it is: an IPv4 block, or an IPv6 block without a mapped address. -/
inductive Normal (platform : Platform) : List Char → Block → Prop where
  | four {address : List Char} {octets : List Nat} {prefixLength : Option Nat}
      (read : readIPv4 address = some octets)
      (fits : ∀ length ∈ prefixLength, MIN_TRUSTED_PREFIX ≤ length ∧ length ≤ 32) :
      Normal platform (entryText address prefixLength)
        (.v4 (numeral (2 ^ 8) octets) (prefixLength.getD 32))
  | six {address : List Char} {groups : List Nat} {prefixLength : Option Nat}
      (isSix : platform.isIP address = some .six) (unslashed : '/' ∉ address)
      (tidy : Tidy (entryText address prefixLength))
      (read : readIPv6 (unzoned address) = some groups)
      (fits : ∀ length ∈ prefixLength, MIN_TRUSTED_PREFIX ≤ length ∧ length ≤ 128)
      (clear : ¬ Agree 128 (min IPV4_MAPPED_PREFIX_BITS (prefixLength.getD 128)) mappedBase
        (numeral (2 ^ 16) groups)) :
      Normal platform (entryText address prefixLength)
        (.v6 (numeral (2 ^ 16) groups) (prefixLength.getD 128))

section Reading

variable {platform : Platform} {address : List Char} {prefixLength : Option Nat}

theorem splitOn_entryText (unslashed : '/' ∉ address) (prefixLength : Option Nat) :
    (entryText address prefixLength).splitOn '/' =
      address :: (prefixLength.map (Nat.toDigits 10)).toList := by
  cases prefixLength with
  | none => exact List.splitOn_eq_singleton unslashed
  | some length =>
    have digits : '/' ∉ Nat.toDigits 10 length := not_mem_toDigits rfl length
    rw [entryText, List.splitOn_append_cons_self_of_not_mem unslashed,
      List.splitOn_eq_singleton digits]
    rfl

theorem readEntry_entryText (unslashed : '/' ∉ address) (prefixLength : Option Nat) :
    readEntry (entryText address prefixLength) =
      readBlock address (prefixLength.map (Nat.toDigits 10)) := by
  rw [readEntry, splitOn_entryText unslashed]
  cases prefixLength <;> rfl

theorem readBits_toDigits {width : Nat} (fits : ∀ length ∈ prefixLength, length ≤ width) :
    readBits width (prefixLength.map (Nat.toDigits 10)) = some (prefixLength.getD width) := by
  cases prefixLength with
  | none => rfl
  | some length =>
    obtain ⟨nonempty, digits⟩ := toDigits_proper length
    rw [Option.map_some, readBits, Nat.ofDigitChars_ten_toDigits]
    exact if_pos ⟨nonempty, digits, fits length rfl⟩

theorem readPrefix_toDigits {family : Family}
    (fits : ∀ length ∈ prefixLength, length ≤ family.width) :
    readPrefix family (prefixLength.map (Nat.toDigits 10)) = some prefixLength := by
  cases prefixLength with
  | none => rfl
  | some length =>
    obtain ⟨nonempty, digits⟩ := toDigits_proper length
    have fits := fits length rfl
    have safe : family.width ≤ maxSafeInteger := by cases family <;> decide
    rw [Option.map_some, readPrefix, Nat.ofDigitChars_ten_toDigits]
    rw [if_neg (by simp [nonempty, digits]), if_neg (by omega)]

/-- The number behind the slash is read as it is meant. -/
theorem readBits_of_readPrefix {family : Family} {rawPrefix : Option (List Char)}
    (read : readPrefix family rawPrefix = some prefixLength) :
    readBits family.width rawPrefix = some (prefixLength.getD family.width) ∧
      ∀ length ∈ prefixLength, length ≤ family.width := by
  cases rawPrefix with
  | none =>
    obtain rfl := Option.some.inj read
    exact ⟨rfl, fun _ member => by cases member⟩
  | some digits =>
    unfold readPrefix at read
    dsimp only at read
    split at read
    case isTrue => cases read
    case isFalse proper =>
      split at read
      case isTrue => cases read
      case isFalse fits =>
        obtain rfl := Option.some.inj read
        rw [not_or, not_not] at proper
        rw [not_or, Nat.not_lt, Nat.not_lt] at fits
        refine ⟨if_pos ⟨proper.1, proper.2, fits.2⟩, ?_⟩
        rintro length ⟨⟩
        exact fits.2

theorem unslashed_of_readIPv4 {octets : List Nat} (read : readIPv4 address = some octets) :
    '/' ∉ address := by
  rw [dotted_of_readIPv4 read]
  intro slash
  obtain dot | digit := mem_dotted slash
  · cases dot
  · cases digit

end Reading

section Mapped

variable {platform : Platform} {address : List Char} {groups : List Nat} {bits width a : Nat}

theorem value_of_groups (groups : List Nat) :
    numeral (2 ^ 8) (halves (2 ^ 8) groups) = numeral (2 ^ 16) groups := numeral_halves _ _

theorem halves_small (proper : Groups groups) :
    ∀ byte ∈ halves (2 ^ 8) groups, byte < 2 ^ 8 := by
  intro byte member
  obtain ⟨value, inside, member⟩ := List.mem_flatMap.mp member
  have small := proper.2 value inside
  simp only [List.mem_cons, List.not_mem_nil, or_false] at member
  omega

theorem length_bytes (proper : Groups groups) : (halves (2 ^ 8) groups).length = 16 := by
  rw [length_halves, proper.1]

theorem sharesMapped_iff (proper : Groups groups) (short : bits ≤ 128) :
    sharesPrefix (halves (2 ^ 8) groups) IPV4_MAPPED_PREFIX bits = true ↔
      Agree 128 bits mappedBase (numeral (2 ^ 16) groups) := by
  have base : numeral (2 ^ 8) IPV4_MAPPED_PREFIX = mappedBase := by decide
  rw [sharesPrefix_iff short (length_bytes proper) rfl (halves_small proper) (by decide), base,
    value_of_groups]
  exact eq_comm

/-- The last four bytes of a mapped address are those of the address that is mapped. -/
theorem mapped_of_agree (proper : Groups groups)
    (agree : Agree 128 IPV4_MAPPED_PREFIX_BITS mappedBase (numeral (2 ^ 16) groups)) :
    ∃ octets, ((halves (2 ^ 8) groups).drop 12).take 4 = octets ∧ octets.length = 4 ∧
      (∀ value ∈ octets, value < 256) ∧
      numeral (2 ^ 16) groups = mappedBase + numeral (2 ^ 8) octets ∧
      numeral (2 ^ 8) octets < 2 ^ 32 := by
  let octets := (halves (2 ^ 8) groups).drop 12
  have four : octets.length = 4 := by
    rw [List.length_drop, length_bytes proper]
  have small : ∀ value ∈ octets, value < 2 ^ 8 := fun value member =>
    halves_small proper value (List.mem_of_mem_drop member)
  have low : numeral (2 ^ 8) octets < 2 ^ 32 := by
    have less := numeral_lt (by decide) small
    rwa [four, ← pow_mul] at less
  refine ⟨octets, List.take_of_length_le (Nat.le_of_eq four), four, small, ?_, low⟩
  have split : numeral (2 ^ 16) groups =
      (2 ^ 8) ^ 4 * numeral (2 ^ 8) ((halves (2 ^ 8) groups).take 12) + numeral (2 ^ 8) octets := by
    rw [← value_of_groups, ← four, ← numeral_append, List.take_append_drop]
  have front : mappedBase / 2 ^ 32 = numeral (2 ^ 16) groups / 2 ^ 32 := agree
  unfold mappedBase at front ⊢
  omega

/-- A mapped address is in no block whose first bits are not those of all mapped addresses. -/
theorem not_agree_mapped (short : width ≤ 128) (small : a < 2 ^ 32) {base : Nat}
    (clear : ¬ Agree 128 (min IPV4_MAPPED_PREFIX_BITS width) mappedBase base) :
    ¬ Agree 128 width base (mappedBase + a) := by
  intro agree
  have fewer := agree.mono (Nat.min_le_right IPV4_MAPPED_PREFIX_BITS width) short
  have front := (agree_front (m := 96) (n := 32) (Nat.min_le_left _ _) small).mp fewer.symm
  exact clear front

end Mapped

section Normalising

variable {platform : Platform} {address proxy text : List Char} {groups : List Nat}
  {prefixLength : Option Nat} {block : Block}

theorem normalizeProxy_of_parts {rawPrefix : Option (List Char)}
    (parts : proxy.splitOn '/' = address :: rawPrefix.toList) :
    normalizeProxy platform proxy = normalizeParts platform address rawPrefix := by
  rw [normalizeProxy, parts]
  cases rawPrefix <;> rfl

theorem normalizeParts_four (isFour : platform.isIP address = some .four)
    (rawPrefix : Option (List Char)) :
    normalizeParts platform address rawPrefix =
      (readPrefix .four rawPrefix).bind fun prefixLength =>
      if prefixLength.any (· < MIN_TRUSTED_PREFIX) then none
      else some (entryText address prefixLength) := by
  rw [normalizeParts, isFour]
  rfl

theorem normalizeParts_six (isSix : platform.isIP address = some .six)
    (rawPrefix : Option (List Char)) :
    normalizeParts platform address rawPrefix =
      (readPrefix .six rawPrefix).bind fun prefixLength =>
      (unmapped platform address prefixLength).bind fun entry =>
        if entry.2.any (· < MIN_TRUSTED_PREFIX) then none
        else some (entryText entry.1 entry.2) := by
  rw [normalizeParts, isSix]
  rfl

theorem four_of_readIPv4 (documented : platform.Documented) {octets : List Nat}
    (read : readIPv4 address = some octets) : platform.isIP address = some .four :=
  (documented.four address).mpr (by rw [read]; rfl)

theorem readIPv4_of_six (documented : platform.Documented)
    (isSix : platform.isIP address = some .six) : readIPv4 address = none := by
  cases read : readIPv4 address with
  | none => rfl
  | some octets =>
    rw [four_of_readIPv4 documented read] at isSix
    cases isSix

/-- Nothing is done to an IPv6 entry without a mapped address. -/
theorem unmapped_clear (documented : platform.Documented)
    (read : readIPv6 (unzoned address) = some groups)
    (fits : ∀ length ∈ prefixLength, length ≤ 128)
    (clear : ¬ Agree 128 (min IPV4_MAPPED_PREFIX_BITS (prefixLength.getD 128)) mappedBase
      (numeral (2 ^ 16) groups)) :
    unmapped platform address prefixLength = some (address, prefixLength) := by
  have proper := readIPv6_groups read
  have short : prefixLength.getD 128 ≤ 128 := by
    cases prefixLength with
    | none => exact Nat.le_refl 128
    | some length => exact fits length rfl
  unfold unmapped
  rw [ipv6Bytes_eq documented read]
  dsimp only
  split
  case isTrue inside =>
    rw [Nat.min_eq_left (Nat.le_of_lt inside)] at clear
    rw [if_neg fun shares => clear ((sharesMapped_iff proper (by decide)).mp shares)]
  case isFalse wide =>
    rw [Nat.min_eq_right (Nat.le_of_not_lt wide)] at clear
    rw [if_neg fun shares => clear ((sharesMapped_iff proper short).mp shares)]

theorem unmapped_eq_some (documented : platform.Documented)
    (read : readIPv6 (unzoned address) = some groups)
    (fits : ∀ length ∈ prefixLength, length ≤ 128) {entry : List Char × Option Nat}
    (kept : unmapped platform address prefixLength = some entry) :
    (∃ octets, octets.length = 4 ∧ (∀ value ∈ octets, value < 256) ∧
        IPV4_MAPPED_PREFIX_BITS < prefixLength.getD 128 ∧
        numeral (2 ^ 16) groups = mappedBase + numeral (2 ^ 8) octets ∧
        numeral (2 ^ 8) octets < 2 ^ 32 ∧
        entry = (dotted octets, prefixLength.map fun length => length - IPV4_MAPPED_PREFIX_BITS)) ∨
      entry = (address, prefixLength) ∧
        ¬ Agree 128 (min IPV4_MAPPED_PREFIX_BITS (prefixLength.getD 128)) mappedBase
          (numeral (2 ^ 16) groups) := by
  have proper := readIPv6_groups read
  by_cases clear : Agree 128 (min IPV4_MAPPED_PREFIX_BITS (prefixLength.getD 128)) mappedBase
    (numeral (2 ^ 16) groups)
  · left
    have short : prefixLength.getD 128 ≤ 128 := by
      cases prefixLength with
      | none => exact Nat.le_refl 128
      | some length => exact fits length rfl
    unfold unmapped at kept
    rw [ipv6Bytes_eq documented read] at kept
    dsimp only at kept
    split at kept
    case isTrue inside =>
      rw [Nat.min_eq_left (Nat.le_of_lt inside)] at clear
      rw [if_pos ((sharesMapped_iff proper (by decide)).mpr clear)] at kept
      obtain ⟨octets, taken, four, small, value, low⟩ := mapped_of_agree proper clear
      rw [taken] at kept
      exact ⟨octets, four, small, inside, value, low, (Option.some.inj kept).symm⟩
    case isFalse wide =>
      rw [Nat.min_eq_right (Nat.le_of_not_lt wide)] at clear
      rw [if_pos ((sharesMapped_iff proper short).mpr clear)] at kept
      cases kept
  · rw [unmapped_clear documented read fits clear] at kept
    exact .inr ⟨(Option.some.inj kept).symm, clear⟩

theorem le_of_fits {width : Nat}
    (fits : ∀ length ∈ prefixLength, MIN_TRUSTED_PREFIX ≤ length ∧ length ≤ width) :
    ∀ length ∈ prefixLength, length ≤ width := fun length member => (fits length member).2

theorem any_of_fits {width : Nat}
    (fits : ∀ length ∈ prefixLength, MIN_TRUSTED_PREFIX ≤ length ∧ length ≤ width) :
    prefixLength.any (· < MIN_TRUSTED_PREFIX) = false := by
  cases prefixLength with
  | none => rfl
  | some length => exact decide_eq_false (Nat.not_lt.mpr (fits length rfl).1)

/-- A normal entry is read as its block. -/
theorem Normal.reads (documented : platform.Documented) (normal : Normal platform text block) :
    readEntry text = some block := by
  cases normal with
  | four read fits =>
    rw [readEntry_entryText (unslashed_of_readIPv4 read), readBlock, read]
    dsimp only
    rw [readBits_toDigits (le_of_fits fits)]
    rfl
  | six isSix unslashed tidy read fits clear =>
    rw [readEntry_entryText unslashed, readBlock, readIPv4_of_six documented isSix]
    dsimp only
    rw [read]
    dsimp only
    rw [readBits_toDigits (le_of_fits fits)]
    rfl

/-- A normal entry is normalised to itself. -/
theorem Normal.normalizes (documented : platform.Documented) (normal : Normal platform text block) :
    normalizeProxy platform text = some text := by
  cases normal with
  | four read fits =>
    rw [normalizeProxy_of_parts (splitOn_entryText (unslashed_of_readIPv4 read) _),
      normalizeParts_four (four_of_readIPv4 documented read),
      readPrefix_toDigits (le_of_fits fits), Option.bind_some, any_of_fits fits]
    rfl
  | six isSix unslashed tidy read fits clear =>
    rw [normalizeProxy_of_parts (splitOn_entryText unslashed _), normalizeParts_six isSix,
      readPrefix_toDigits (le_of_fits fits), Option.bind_some,
      unmapped_clear documented read (le_of_fits fits) clear, Option.bind_some, any_of_fits fits]
    rfl

theorem contains_mapped {base bits a : Nat} (small : a < 2 ^ 32) :
    (Block.v4 base bits).Contains (mapped a) ↔ Agree 32 bits base a := by
  constructor
  · rintro ⟨member, -, same, agree⟩
    rwa [Nat.add_left_cancel same]
  · exact fun agree => ⟨a, small, rfl, agree⟩

/-- A normal entry contains an address when it contains its mapped form. -/
theorem Normal.contains_iff (normal : Normal platform text block) {a : Nat} (small : a < 2 ^ 32) :
    block.Contains (mapped a) ↔ block.Contains (.v4 a) := by
  cases normal with
  | four => exact contains_mapped small
  | @six address groups prefixLength isSix unslashed tidy read fits clear =>
    have short : prefixLength.getD 128 ≤ 128 := by
      cases prefixLength with
      | none => exact Nat.le_refl 128
      | some length => exact (fits length rfl).2
    exact iff_of_false (not_agree_mapped short small clear) id

theorem Normal.contains_or (normal : Normal platform text block) {a : Nat} (small : a < 2 ^ 32) :
    block.Contains (.v4 a) ↔ block.Contains (.v4 a) ∨ block.Contains (mapped a) :=
  ⟨.inl, fun contains => contains.elim id (normal.contains_iff small).mp⟩

/-- A normal entry contains as many addresses as a block of eight bits at most. -/
theorem Normal.narrow (normal : Normal platform text block) :
    {a | a < 2 ^ 32 ∧ (block.Contains (.v4 a) ∨ block.Contains (mapped a))}.ncard ≤ 2 ^ 24 := by
  have same : ∀ a, a < 2 ^ 32 ∧ (block.Contains (.v4 a) ∨ block.Contains (mapped a)) →
      block.Contains (.v4 a) := fun a ⟨small, contains⟩ => (normal.contains_or small).mpr contains
  cases normal with
  | @four address octets prefixLength read fits =>
    have wide : 8 ≤ prefixLength.getD 32 := by
      cases prefixLength with
      | none => decide
      | some length => exact (fits length rfl).1
    exact (ncard_le_of_block same).trans (Nat.pow_le_pow_right (by decide) (by omega))
  | six =>
    refine (Set.ncard_le_ncard (fun a member => (same a member).elim) Set.finite_empty).trans ?_
    rw [Set.ncard_empty]
    exact Nat.zero_le _

theorem le_of_floor (floor : ¬ prefixLength.any (· < MIN_TRUSTED_PREFIX) = true) :
    ∀ length ∈ prefixLength, MIN_TRUSTED_PREFIX ≤ length := by
  rintro length ⟨⟩
  exact Nat.not_lt.mp fun less => floor (decide_eq_true less)

theorem normal_of_four (documented : platform.Documented) {rawPrefix : Option (List Char)}
    (isFour : platform.isIP address = some .four)
    (found : normalizeParts platform address rawPrefix = some text) :
    ∃ block, readBlock address rawPrefix = some block ∧ Normal platform text block := by
  obtain ⟨octets, read⟩ := Option.isSome_iff_exists.mp ((documented.four address).mp isFour)
  rw [normalizeParts_four isFour] at found
  obtain ⟨prefixLength, number, found⟩ := Option.bind_eq_some_iff.mp found
  obtain ⟨bits, fits⟩ := readBits_of_readPrefix number
  split at found
  case isTrue => cases found
  case isFalse floor =>
    obtain rfl := Option.some.inj found
    refine ⟨.v4 (numeral (2 ^ 8) octets) (prefixLength.getD 32), ?_, .four read fun length member =>
      ⟨le_of_floor floor length member, fits length member⟩⟩
    rw [readBlock, read]
    exact congrArg (Option.map _) bits

/-- Behind the bits that all mapped addresses share, the block is that of the addresses mapped. -/
theorem contains_mapped_block {base a : Nat} (fits : ∀ length ∈ prefixLength, length ≤ 128)
    (inside : IPV4_MAPPED_PREFIX_BITS < prefixLength.getD 128) :
    Agree 128 (prefixLength.getD 128) (mappedBase + base) (mappedBase + a) ↔
      Agree 32 ((prefixLength.map fun length => length - IPV4_MAPPED_PREFIX_BITS).getD 32)
        base a := by
  have width : prefixLength.getD 128 =
      96 + (prefixLength.map fun length => length - IPV4_MAPPED_PREFIX_BITS).getD 32 := by
    cases prefixLength with
    | none => rfl
    | some length => exact (Nat.add_sub_of_le (Nat.le_of_lt inside)).symm
  have short : (prefixLength.map fun length => length - IPV4_MAPPED_PREFIX_BITS).getD 32 ≤ 32 := by
    cases prefixLength with
    | none => exact Nat.le_refl 32
    | some length => exact Nat.sub_le_sub_right (fits length rfl) 96
  rw [width]
  exact agree_behind (m := 96) short

theorem normal_of_six (documented : platform.Documented) {rawPrefix : Option (List Char)}
    (isSix : platform.isIP address = some .six) (unslashed : '/' ∉ address)
    (tidy : ∀ prefixLength, readPrefix .six rawPrefix = some prefixLength →
      Tidy (entryText address prefixLength))
    (found : normalizeParts platform address rawPrefix = some text) :
    ∃ original block, readBlock address rawPrefix = some original ∧ Normal platform text block ∧
      ∀ a < 2 ^ 32, block.Contains (.v4 a) ↔
        original.Contains (.v4 a) ∨ original.Contains (mapped a) := by
  obtain ⟨groups, read⟩ := Option.isSome_iff_exists.mp (documented.six address isSix)
  rw [normalizeParts_six isSix] at found
  obtain ⟨prefixLength, number, found⟩ := Option.bind_eq_some_iff.mp found
  obtain ⟨entry, kept, found⟩ := Option.bind_eq_some_iff.mp found
  obtain ⟨bits, fits⟩ := readBits_of_readPrefix number
  have original : readBlock address rawPrefix =
      some (.v6 (numeral (2 ^ 16) groups) (prefixLength.getD 128)) := by
    rw [readBlock, readIPv4_of_six documented isSix]
    dsimp only
    rw [read]
    exact congrArg (Option.map _) bits
  split at found
  case isTrue => cases found
  case isFalse floor =>
    obtain rfl := Option.some.inj found
    obtain ⟨octets, four, small, inside, value, low, rfl⟩ | ⟨rfl, clear⟩ :=
      unmapped_eq_some documented read fits kept
    · refine ⟨_, _, original, .four (readIPv4_dotted four small) fun length member =>
        ⟨le_of_floor floor length member, ?_⟩, fun a _ => ?_⟩
      · obtain ⟨whole, inner, rfl⟩ := Option.map_eq_some_iff.mp member
        exact Nat.sub_le_sub_right (fits whole inner) 96
      · rw [value]
        exact (contains_mapped_block fits inside).symm.trans (iff_of_eq (false_or _).symm)
    · have normal : Normal platform (entryText address prefixLength)
          (.v6 (numeral (2 ^ 16) groups) (prefixLength.getD 128)) :=
        .six isSix unslashed (tidy prefixLength number) read
          (fun length member => ⟨le_of_floor floor length member, fits length member⟩) clear
      exact ⟨_, _, original, normal, fun a small => normal.contains_or small⟩

end Normalising

section Texts

variable {platform : Platform} {address proxy text : List Char} {prefixLength : Option Nat}
  {block : Block}

theorem Tidy.trim (tidy : Tidy text) : trim text = text := by
  have front : text.dropWhile Binary64.isWhiteSpace = text := by
    cases text with
    | nil => rfl
    | cons c text =>
      refine List.dropWhile_cons_of_neg ?_
      rw [tidy.first c rfl]
      exact Bool.false_ne_true
  rw [Config.trim, front, List.rdropWhile_eq_self_iff]
  intro nonempty
  rw [tidy.last _ (List.getLast?_eq_some_getLast nonempty)]
  exact Bool.false_ne_true

theorem tidy_trim (whole : ',' ∉ text) (nonempty : trim text ≠ []) : Tidy (trim text) where
  nonempty := nonempty
  first c member := by
    obtain ⟨rest, split⟩ : trim text <+: text.dropWhile Binary64.isWhiteSpace :=
      List.rdropWhile_prefix _ _
    have stops := List.head?_dropWhile_not Binary64.isWhiteSpace text
    rw [← split, List.head?_append_of_ne_nil _ nonempty] at stops
    rw [show (trim text).head? = some c from member] at stops
    exact stops
  last c member := by
    have stops := List.rdropWhile_last_not Binary64.isWhiteSpace _ nonempty
    rw [List.getLast?_eq_some_getLast nonempty] at member
    rw [← Option.some.inj member]
    exact Bool.eq_false_iff.mpr stops
  whole comma := by
    have front := (List.rdropWhile_prefix Binary64.isWhiteSpace
      (text.dropWhile Binary64.isWhiteSpace)).subset comma
    exact whole ((List.dropWhile_suffix Binary64.isWhiteSpace).subset front)

theorem proxies_tidy {raw : List Char} (member : proxy ∈ proxies raw) : Tidy proxy := by
  obtain ⟨inside, nonempty⟩ := List.mem_filter.mp member
  obtain ⟨part, split, rfl⟩ := List.mem_map.mp inside
  refine tidy_trim (Splitting.mem_splitOn split).1 ?_
  simpa using nonempty

theorem isWhiteSpace_of_isDigit {c : Char} (digit : c.isDigit = true) :
    Binary64.isWhiteSpace c = false := by
  rw [Char.isDigit, Bool.and_eq_true, decide_eq_true_eq, decide_eq_true_eq] at digit
  have least : 48 ≤ c.toNat := UInt32.le_iff_toNat_le.mp digit.1
  have most : c.toNat ≤ 57 := UInt32.le_iff_toNat_le.mp digit.2
  refine Bool.eq_false_iff.mpr fun blank => ?_
  simp [Binary64.isWhiteSpace] at blank
  omega

/-- Behind a tidy front, or the front of a tidy text, a number is tidy. -/
theorem tidy_number (length : Nat) (whole : ',' ∉ address)
    (first : ∀ c ∈ address.head?, Binary64.isWhiteSpace c = false) :
    Tidy (entryText address (some length)) where
  nonempty := List.append_ne_nil_of_right_ne_nil _ (List.cons_ne_nil _ _)
  first c member := by
    cases address with
    | nil =>
      obtain rfl := Option.some.inj member
      decide
    | cons a address => exact first c member
  last c member := by
    have ends : (entryText address (some length)).getLast? =
        (Nat.toDigits 10 length).getLast? := by
      rw [entryText, List.getLast?_append_of_ne_nil _ (List.cons_ne_nil _ _),
        ← List.singleton_append, List.getLast?_append_of_ne_nil _ Nat.toDigits_ne_nil]
    rw [ends] at member
    exact isWhiteSpace_of_isDigit
      (List.all_eq_true.mp (toDigits_proper length).2 c (List.mem_of_getLast? member))
  whole comma := by
    obtain inFront | later := List.mem_append.mp comma
    · exact whole inFront
    · obtain slash | inDigits := List.mem_cons.mp later
      · cases slash
      · cases List.all_eq_true.mp (toDigits_proper length).2 _ inDigits

theorem tidy_dotted {octets : List Nat} (read : readIPv4 address = some octets)
    (prefixLength : Option Nat) : Tidy (entryText address prefixLength) := by
  have plain : ∀ c ∈ address, Binary64.isWhiteSpace c = false ∧ c ≠ ',' := by
    rw [dotted_of_readIPv4 read]
    intro c member
    obtain rfl | digit := mem_dotted member
    · decide
    · refine ⟨isWhiteSpace_of_isDigit digit, ?_⟩
      rintro rfl
      cases digit
  have whole : ',' ∉ address := fun comma => (plain _ comma).2 rfl
  have first : ∀ c ∈ address.head?, Binary64.isWhiteSpace c = false := fun c member =>
    (plain c (List.mem_of_head? member)).1
  cases prefixLength with
  | some length => exact tidy_number length whole first
  | none =>
    refine ⟨?_, first, fun c member => (plain c (List.mem_of_getLast? member)).1, whole⟩
    rintro rfl
    cases read

theorem Normal.tidy (normal : Normal platform text block) : Tidy text := by
  cases normal with
  | four read => exact tidy_dotted read _
  | six _ _ tidy => exact tidy

theorem tidy_entryText {rawPrefix : Option (List Char)} {family : Family} (tidy : Tidy proxy)
    (parts : proxy.splitOn '/' = address :: rawPrefix.toList)
    (number : readPrefix family rawPrefix = some prefixLength) :
    Tidy (entryText address prefixLength) := by
  have joins : ['/'].intercalate (proxy.splitOn '/') = proxy := List.intercalate_splitOn '/'
  rw [parts] at joins
  cases rawPrefix with
  | none =>
    obtain rfl := Option.some.inj number
    have same : address = proxy := by simpa using joins
    rw [same]
    exact tidy
  | some digits =>
    have same : address ++ '/' :: digits = proxy := by simpa using joins
    obtain ⟨length, rfl⟩ : ∃ length, prefixLength = some length := by
      unfold readPrefix at number
      dsimp only at number
      split at number
      case isTrue => cases number
      case isFalse =>
        split at number
        case isTrue => cases number
        case isFalse => exact ⟨_, (Option.some.inj number).symm⟩
    refine tidy_number length (fun comma => tidy.whole ?_) fun c member => tidy.first c ?_
    · rw [← same]
      exact List.mem_append_left _ comma
    · rw [← same]
      cases address with
      | nil => cases member
      | cons a address => exact member

/-- What is accepted is normal, and contains of the IPv4 addresses what it did as it was written. -/
theorem normalizeProxy_normal (documented : platform.Documented) (tidy : Tidy proxy)
    (found : normalizeProxy platform proxy = some text) :
    ∃ original block, readEntry proxy = some original ∧ Normal platform text block ∧
      ∀ a < 2 ^ 32, block.Contains (.v4 a) ↔
        original.Contains (.v4 a) ∨ original.Contains (mapped a) := by
  have parts : ∃ address rawPrefix, proxy.splitOn '/' = address :: Option.toList rawPrefix := by
    unfold normalizeProxy at found
    dsimp only at found
    cases split : proxy.splitOn '/' with
    | nil => exact absurd split (List.splitOn_ne_nil _ _)
    | cons address others =>
      cases others with
      | nil => exact ⟨address, none, rfl⟩
      | cons rawPrefix extra =>
        cases extra with
        | nil => exact ⟨address, some rawPrefix, rfl⟩
        | cons more extra =>
          rw [split] at found
          cases found
  obtain ⟨address, rawPrefix, parts⟩ := parts
  have unslashed : '/' ∉ address := (Splitting.mem_splitOn (parts ▸ List.mem_cons_self)).1
  have read : readEntry proxy = readBlock address rawPrefix := by
    rw [readEntry, parts]
    cases rawPrefix <;> rfl
  rw [normalizeProxy_of_parts parts] at found
  rw [read]
  cases kind : platform.isIP address with
  | none =>
    rw [normalizeParts, kind] at found
    cases found
  | some family =>
    cases family with
    | four =>
      obtain ⟨block, original, normal⟩ := normal_of_four documented kind found
      exact ⟨block, block, original, normal, fun a small => normal.contains_or small⟩
    | six =>
      exact normal_of_six documented kind unslashed
        (fun _ number => tidy_entryText tidy parts number) found

end Texts

/-! ### A platform as documented -/

/-- How many zeros follow from this group on. -/
def zerosAt (groups : List Nat) (start : Nat) : Nat :=
  ((groups.drop start).takeWhile (· == 0)).length

/-- The first of the longest runs of zeros. -/
def runStart (groups : List Nat) : Nat :=
  (List.range 8).foldl
    (fun best start => if zerosAt groups best < zerosAt groups start then start else best) 0

def serialise (groups : List Nat) : List Char :=
  let start := runStart groups
  let n := zerosAt groups start
  if n < 2 then joined groups
  else joined (groups.take start) ++ ':' :: ':' :: joined (groups.drop (start + n))

theorem serialise_canonical (groups : List Nat) : Canonical groups (serialise groups) := by
  unfold serialise
  dsimp only
  split
  case isTrue => exact .whole groups
  case isFalse run =>
    let start := runStart groups
    have zeros :
        (groups.drop start).takeWhile (· == 0) = List.replicate (zerosAt groups start) 0 := by
      refine List.eq_replicate_iff.mpr ⟨rfl, fun value member => ?_⟩
      have zero : (value == 0) = true := List.mem_takeWhile_imp (p := (· == 0)) member
      exact beq_iff_eq.mp zero
    have behind : groups.drop (start + zerosAt groups start) =
        (groups.drop start).dropWhile (· == 0) := by
      have split := List.takeWhile_append_dropWhile (p := (· == 0)) (l := groups.drop start)
      rw [← List.drop_drop]
      exact (congrArg (List.drop _) split.symm).trans List.drop_left
    have split : groups = groups.take start ++ (List.replicate (zerosAt groups start) 0 ++
        groups.drop (start + zerosAt groups start)) := by
      rw [behind, ← zeros, List.takeWhile_append_dropWhile, List.take_append_drop]
    have canonical := Canonical.compressed (groups.take start)
      (groups.drop (start + zerosAt groups start)) (Nat.le_of_not_lt run)
    rwa [← split] at canonical

/-- Literals by their readers, and canonical texts. -/
def standard : Platform where
  isIP text :=
    if (readIPv4 text).isSome then some .four
    else if (readIPv6 (unzoned text)).isSome then some .six
    else none
  hostname address := (readIPv6 address).map serialise

theorem standard_documented : standard.Documented where
  four text := by
    unfold standard
    dsimp only
    split
    case isTrue four => exact iff_of_true rfl four
    case isFalse other =>
      split
      case isTrue => exact iff_of_false (by rintro ⟨⟩) other
      case isFalse => exact iff_of_false (by rintro ⟨⟩) other
  six text isSix := by
    unfold standard at isSix
    dsimp only at isSix
    split at isSix
    case isTrue => cases isSix
    case isFalse =>
      split at isSix
      case isTrue six => exact six
      case isFalse => cases isSix
  hostname address groups read :=
    ⟨serialise groups, congrArg (Option.map serialise) read, serialise_canonical groups⟩

/-! ### Settings -/

section Settings

variable {platform : Platform} {raw : List Char} {list : List (List Char)}

theorem mapM_mem {α β ε : Type} {f : α → Except ε β} {l : List α} {l' : List β}
    (mapped : l.mapM f = .ok l') :
    (∀ a ∈ l, ∃ b ∈ l', f a = .ok b) ∧ ∀ b ∈ l', ∃ a ∈ l, f a = .ok b := by
  induction l generalizing l' with
  | nil =>
    cases mapped
    exact ⟨fun a member => absurd member List.not_mem_nil,
      fun b member => absurd member List.not_mem_nil⟩
  | cons a l ih =>
    rw [List.mapM_cons] at mapped
    cases first : f a with
    | error failure =>
      rw [first] at mapped
      cases mapped
    | ok b =>
      cases later : l.mapM f with
      | error failure =>
        rw [first, later] at mapped
        cases mapped
      | ok rest =>
        rw [first, later] at mapped
        cases mapped
        obtain ⟨forth, back⟩ := ih later
        constructor
        · refine List.forall_mem_cons.mpr ⟨⟨b, List.mem_cons_self, first⟩, fun a member => ?_⟩
          obtain ⟨b, inside, same⟩ := forth a member
          exact ⟨b, List.mem_cons_of_mem _ inside, same⟩
        · refine List.forall_mem_cons.mpr ⟨⟨a, List.mem_cons_self, first⟩, fun b member => ?_⟩
          obtain ⟨a, inside, same⟩ := back b member
          exact ⟨a, List.mem_cons_of_mem _ inside, same⟩

theorem mapM_self {α ε : Type} {f : α → Except ε α} {l : List α} (each : ∀ a ∈ l, f a = .ok a) :
    l.mapM f = .ok l := by
  induction l with
  | nil => rfl
  | cons a l ih =>
    obtain ⟨first, later⟩ := List.forall_mem_cons.mp each
    rw [List.mapM_cons, first, ih later]
    rfl

theorem acceptProxy_ok {proxy entry : List Char} :
    acceptProxy platform proxy = .ok entry ↔ normalizeProxy platform proxy = some entry := by
  unfold acceptProxy
  cases normalizeProxy platform proxy with
  | none =>
    constructor
    · rintro ⟨⟩
    · rintro ⟨⟩
  | some text => rw [Except.ok.injEq, Option.some.injEq]

theorem parseTrustedProxies_ok (accepted : parseTrustedProxies platform raw = .ok list) :
    list.Nodup ∧
      (∀ proxy ∈ proxies raw, ∃ entry ∈ list, normalizeProxy platform proxy = some entry) ∧
      ∀ entry ∈ list, ∃ proxy ∈ proxies raw, normalizeProxy platform proxy = some entry := by
  unfold parseTrustedProxies at accepted
  cases mapped : (proxies raw).mapM (acceptProxy platform) with
  | error failure =>
    rw [mapped] at accepted
    cases accepted
  | ok normalized =>
    rw [mapped] at accepted
    obtain rfl := Except.ok.inj accepted
    obtain ⟨forth, back⟩ := mapM_mem mapped
    refine ⟨Distinct.nodup_eraseDups normalized, fun proxy member => ?_, fun entry member => ?_⟩
    · obtain ⟨entry, inside, same⟩ := forth proxy member
      exact ⟨entry, List.mem_eraseDups.mpr inside, acceptProxy_ok.mp same⟩
    · obtain ⟨proxy, inside, same⟩ := back entry (List.mem_eraseDups.mp member)
      exact ⟨proxy, inside, acceptProxy_ok.mp same⟩

/-- The entries that are joined again are those that were. -/
theorem proxies_join (tidy : ∀ entry ∈ list, Tidy entry) :
    proxies ([','].intercalate list) = list := by
  cases list with
  | nil => rfl
  | cons entry entries =>
    have split : ([','].intercalate (entry :: entries)).splitOn ',' = entry :: entries :=
      List.splitOn_intercalate ',' (fun text member => (tidy text member).whole)
        (List.cons_ne_nil _ _)
    have trimmed : (entry :: entries).map trim = entry :: entries := by
      refine (List.map_congr_left fun text member => ?_).trans (List.map_id _)
      exact (tidy text member).trim
    rw [proxies, split, trimmed, List.filter_eq_self]
    intro text member
    have nonempty := (tidy text member).nonempty
    simpa using nonempty

theorem trusts_iff {entry : List Char} {block : Block} (read : readEntry entry = some block)
    (address : Address) : Trusts entry address ↔ block.Contains address := by
  constructor
  · rintro ⟨other, read', contains⟩
    obtain rfl := Option.some.inj (read.symm.trans read')
    exact contains
  · exact fun contains => ⟨block, read, contains⟩

/-- An entry that was accepted trusts what its proxy did. -/
theorem normalizeProxy_trusts (documented : platform.Documented) {proxy entry : List Char}
    (tidy : Tidy proxy) (found : normalizeProxy platform proxy = some entry) {a : Nat}
    (small : a < 2 ^ 32) {address : Address} (spelled : address = .v4 a ∨ address = mapped a) :
    Trusts entry address ↔ Trusts proxy (.v4 a) ∨ Trusts proxy (mapped a) := by
  obtain ⟨original, block, read, normal, same⟩ := normalizeProxy_normal documented tidy found
  rw [trusts_iff (normal.reads documented), trusts_iff read, trusts_iff read, ← same a small]
  obtain rfl | rfl := spelled
  · exact Iff.rfl
  · exact normal.contains_iff small

/-- The list trusts the IPv4 addresses that the setting did, however they are written; no entry of
it covers more than a /8; and it is its own normal form. -/
theorem parseTrustedProxies_preserves (documented : platform.Documented)
    (accepted : parseTrustedProxies platform raw = .ok list) :
    (∀ a < 2 ^ 32, ∀ address, address = .v4 a ∨ address = mapped a →
        ((∃ entry ∈ list, Trusts entry address) ↔
          ∃ entry ∈ proxies raw, Trusts entry (.v4 a) ∨ Trusts entry (mapped a))) ∧
      (∀ entry ∈ list,
        {a | a < 2 ^ 32 ∧ (Trusts entry (.v4 a) ∨ Trusts entry (mapped a))}.ncard ≤ 2 ^ 24) ∧
      parseTrustedProxies platform ([','].intercalate list) = .ok list := by
  obtain ⟨nodup, forth, back⟩ := parseTrustedProxies_ok accepted
  refine ⟨fun a small address spelled => ⟨?_, ?_⟩, fun entry member => ?_, ?_⟩
  · rintro ⟨entry, member, trusts⟩
    obtain ⟨proxy, inside, found⟩ := back entry member
    exact ⟨proxy, inside,
      (normalizeProxy_trusts documented (proxies_tidy inside) found small spelled).mp trusts⟩
  · rintro ⟨proxy, inside, trusts⟩
    obtain ⟨entry, member, found⟩ := forth proxy inside
    exact ⟨entry, member,
      (normalizeProxy_trusts documented (proxies_tidy inside) found small spelled).mpr trusts⟩
  · obtain ⟨proxy, inside, found⟩ := back entry member
    obtain ⟨-, block, -, normal, -⟩ :=
      normalizeProxy_normal documented (proxies_tidy inside) found
    simp only [trusts_iff (normal.reads documented)]
    exact normal.narrow
  · have normal (entry : List Char) (member : entry ∈ list) :
        ∃ block, Normal platform entry block := by
      obtain ⟨proxy, inside, found⟩ := back entry member
      obtain ⟨-, block, -, normal, -⟩ :=
        normalizeProxy_normal documented (proxies_tidy inside) found
      exact ⟨block, normal⟩
    have tidy : ∀ entry ∈ list, Tidy entry := fun entry member =>
      (normal entry member).elim fun _ normal => normal.tidy
    have kept : ∀ entry ∈ list, acceptProxy platform entry = .ok entry := fun entry member =>
      (normal entry member).elim fun _ normal => acceptProxy_ok.mpr (normal.normalizes documented)
    rw [parseTrustedProxies, proxies_join tidy, mapM_self kept]
    exact congrArg Except.ok (Distinct.eraseDups_of_nodup nodup)

theorem standard_preserves :
    let raw := "::ffff:10.0.0.0/104, fe80::1%eth0,192.168.0.1".toList
    let list := ["10.0.0.0/8".toList, "fe80::1%eth0".toList, "192.168.0.1".toList]
    (∀ a < 2 ^ 32, ∀ address, address = .v4 a ∨ address = mapped a →
        ((∃ entry ∈ list, Trusts entry address) ↔
          ∃ entry ∈ proxies raw, Trusts entry (.v4 a) ∨ Trusts entry (mapped a))) ∧
      (∀ entry ∈ list,
        {a | a < 2 ^ 32 ∧ (Trusts entry (.v4 a) ∨ Trusts entry (mapped a))}.ncard ≤ 2 ^ 24) ∧
      parseTrustedProxies standard ([','].intercalate list) = .ok list :=
  parseTrustedProxies_preserves standard_documented (by decide)

end Settings

end WalletBackend.Config
