import Mathlib.Data.List.Basic
import Mathlib.Data.Nat.Digits.Defs

/-! Bytes as texts of hexadecimal digits, written in lowercase and read in either case. -/
namespace Hex

def isDigit (c : Char) : Bool := c.isDigit || ('a' ≤ c && c ≤ 'f') || ('A' ≤ c && c ≤ 'F')

def value (c : Char) : Option Nat :=
  if c.isDigit then some (c.toNat - '0'.toNat)
  else if 'a' ≤ c ∧ c ≤ 'f' then some (c.toNat - 'a'.toNat + 10)
  else if 'A' ≤ c ∧ c ≤ 'F' then some (c.toNat - 'A'.toNat + 10)
  else none

/-- The two digits of a byte. -/
def pair (byte : UInt8) : List Char :=
  [Nat.digitChar (byte.toNat / 16), Nat.digitChar (byte.toNat % 16)]

def encode (bytes : List UInt8) : List Char := bytes.flatMap pair

/-- The bytes of an even number of digits. -/
def decode : List Char → Option (List UInt8)
  | [] => some []
  | [_] => none
  | high :: low :: rest => do
      let high ← value high
      let low ← value low
      let bytes ← decode rest
      some (.ofNat (high * 16 + low) :: bytes)

/-- The bytes in front of the first two characters that are not two digits. -/
def decodeUpTo : List Char → List UInt8
  | high :: low :: rest =>
      match value high, value low with
      | some high, some low => .ofNat (high * 16 + low) :: decodeUpTo rest
      | _, _ => []
  | _ => []

theorem encode_cons (byte : UInt8) (bytes : List UInt8) :
    encode (byte :: bytes) = pair byte ++ encode bytes :=
  List.flatMap_cons

theorem length_encode (bytes : List UInt8) : (encode bytes).length = 2 * bytes.length := by
  induction bytes with
  | nil => rfl
  | cons byte bytes ih =>
    rw [encode_cons, List.length_append, ih, List.length_cons]
    change 2 + _ = _
    omega

section Digits

/-- No digit lies beyond the ASCII characters. -/
theorem isDigit_small {c : Char} (digit : isDigit c = true) : c.toNat < 128 := by
  simp only [isDigit, Bool.or_eq_true, Bool.and_eq_true, decide_eq_true_eq, Char.isDigit_iff_toNat,
    Char.le_def, UInt32.le_iff_toNat_le] at digit
  change (48 ≤ c.toNat ∧ c.toNat ≤ 57 ∨ 97 ≤ c.toNat ∧ c.toNat ≤ 102) ∨
    65 ≤ c.toNat ∧ c.toNat ≤ 70 at digit
  omega

theorem value_isSome (c : Char) : (value c).isSome = isDigit c := by
  rw [value, isDigit]
  split
  case isTrue decimal => rw [decimal, Bool.true_or, Bool.true_or]; rfl
  case isFalse decimal =>
    rw [eq_false_of_ne_true decimal, Bool.false_or]
    split
    case isTrue lower => simp [lower]
    case isFalse lower =>
      have other : (decide ('a' ≤ c) && decide (c ≤ 'f')) = false := by simpa using lower
      rw [other, Bool.false_or]
      split
      case isTrue upper => simp [upper]
      case isFalse upper => simpa using upper

/-- What holds of each small character by computation holds of every digit. -/
theorem of_small {P : Char → Prop} (each : ∀ n < 128, isDigit (Char.ofNat n) = true → P (Char.ofNat n))
    {c : Char} (digit : isDigit c = true) : P c := by
  have same := Char.ofNat_toNat c
  have held := each c.toNat (isDigit_small digit)
  rw [same] at held
  exact held digit

theorem value_spec {c : Char} (digit : isDigit c = true) :
    ∃ n < 16, value c = some n ∧ Nat.digitChar n = c.toLower := by
  refine of_small (P := fun c => ∃ n < 16, value c = some n ∧ Nat.digitChar n = c.toLower) ?_ digit
  decide

theorem value_digitChar {n : Nat} (small : n < 16) : value (Nat.digitChar n) = some n := by
  have each : ∀ n < 16, value (Nat.digitChar n) = some n := by decide
  exact each n small

theorem isDigit_digitChar {n : Nat} (small : n < 16) : isDigit (Nat.digitChar n) = true := by
  rw [← value_isSome, value_digitChar small]
  rfl

theorem toLower_digitChar {n : Nat} (small : n < 16) :
    (Nat.digitChar n).toLower = Nat.digitChar n := by
  have each : ∀ n < 16, (Nat.digitChar n).toLower = Nat.digitChar n := by decide
  exact each n small

theorem isDigit_toLower {c : Char} (digit : isDigit c = true) : isDigit c.toLower = true := by
  refine of_small (P := fun c => isDigit c.toLower = true) ?_ digit
  decide

theorem isDigit_of_toLower {c : Char} (digit : isDigit c.toLower = true) : isDigit c = true := by
  by_cases small : c.toNat < 128
  · have each : ∀ n < 128, isDigit (Char.ofNat n).toLower = true → isDigit (Char.ofNat n) = true := by
      decide
    have held := each c.toNat small
    rw [Char.ofNat_toNat] at held
    exact held digit
  · have same : c.toLower = c := by
      refine dif_neg fun upper => ?_
      simp only [ge_iff_le, UInt32.le_iff_toNat_le] at upper
      change 65 ≤ c.toNat ∧ c.toNat ≤ 90 at upper
      omega
    rwa [same] at digit

end Digits

section Round

theorem pair_digits (byte : UInt8) {c : Char} (member : c ∈ pair byte) :
    isDigit c = true ∧ c.toLower = c := by
  have low : byte.toNat % 16 < 16 := Nat.mod_lt _ (by decide)
  have high : byte.toNat / 16 < 16 := by
    have bound := byte.toNat_lt
    omega
  obtain rfl | member := List.mem_cons.mp member
  · exact ⟨isDigit_digitChar high, toLower_digitChar high⟩
  · rw [List.mem_singleton.mp member]
    exact ⟨isDigit_digitChar low, toLower_digitChar low⟩

theorem encode_digits {bytes : List UInt8} {c : Char} (member : c ∈ encode bytes) :
    isDigit c = true ∧ c.toLower = c := by
  obtain ⟨byte, -, inside⟩ := List.mem_flatMap.mp member
  exact pair_digits byte inside

theorem decode_pair (byte : UInt8) (rest : List Char) :
    decode (pair byte ++ rest) = (decode rest).map (byte :: ·) := by
  have low : byte.toNat % 16 < 16 := Nat.mod_lt _ (by decide)
  have high : byte.toNat / 16 < 16 := by
    have bound := byte.toNat_lt
    omega
  have whole : UInt8.ofNat (byte.toNat / 16 * 16 + byte.toNat % 16) = byte := by
    rw [Nat.div_add_mod']
    exact UInt8.ofNat_toNat
  change decode (_ :: _ :: rest) = _
  rw [decode, value_digitChar high, value_digitChar low]
  simp only [Option.bind_eq_bind, Option.bind_some, whole]
  cases decode rest <;> rfl

/-- What is written is read back. -/
theorem decode_encode (bytes : List UInt8) : decode (encode bytes) = some bytes := by
  induction bytes with
  | nil => rfl
  | cons byte bytes ih =>
    rw [encode_cons, decode_pair, ih]
    rfl

theorem encode_injective {bytes bytes' : List UInt8} (same : encode bytes = encode bytes') :
    bytes = bytes' := by
  have read := congrArg decode same
  rw [decode_encode, decode_encode] at read
  exact Option.some.inj read

/-- A text is read if and only if it is an even number of digits. -/
theorem decode_isSome (chars : List Char) :
    (decode chars).isSome = (decide (chars.length % 2 = 0) && chars.all isDigit) := by
  induction chars using decode.induct with
  | case1 => rfl
  | case2 c => rfl
  | case3 high low rest ih =>
    rw [decode, List.all_cons, List.all_cons, ← value_isSome high, ← value_isSome low,
      List.length_cons, List.length_cons, Nat.add_assoc, Nat.add_mod_right]
    cases value high with
    | none => simp
    | some h =>
      cases value low with
      | none => simp
      | some l =>
        simp only [Option.bind_eq_bind, Option.bind_some, Option.isSome_some, Bool.true_and, ← ih]
        cases decode rest <;> rfl

/-- A text that is read is written again in lowercase. -/
theorem encode_decode {chars : List Char} {bytes : List UInt8} (read : decode chars = some bytes) :
    encode bytes = chars.map Char.toLower := by
  induction chars using decode.induct generalizing bytes with
  | case1 =>
    cases read
    rfl
  | case2 c => cases read
  | case3 high low rest ih =>
    rw [decode] at read
    obtain ⟨h, valueHigh, read⟩ := Option.bind_eq_some_iff.mp read
    obtain ⟨l, valueLow, read⟩ := Option.bind_eq_some_iff.mp read
    obtain ⟨tail, readRest, same⟩ := Option.bind_eq_some_iff.mp read
    cases same
    have highDigit : isDigit high = true := by
      rw [← value_isSome, valueHigh]
      rfl
    have lowDigit : isDigit low = true := by
      rw [← value_isSome, valueLow]
      rfl
    obtain ⟨h', boundHigh, sameHigh, writtenHigh⟩ := value_spec highDigit
    obtain ⟨l', boundLow, sameLow, writtenLow⟩ := value_spec lowDigit
    cases sameHigh.symm.trans valueHigh
    cases sameLow.symm.trans valueLow
    have whole : (UInt8.ofNat (h * 16 + l)).toNat = h * 16 + l := by
      exact UInt8.toNat_ofNat_of_lt' (show h * 16 + l < 256 by omega)
    have upper : (h * 16 + l) / 16 = h := by omega
    have lower : (h * 16 + l) % 16 = l := by omega
    rw [encode_cons, pair, whole, upper, lower, ih readRest, writtenHigh, writtenLow]
    rfl

theorem decodeUpTo_of_decode {chars : List Char} {bytes : List UInt8}
    (read : decode chars = some bytes) : decodeUpTo chars = bytes := by
  induction chars using decode.induct generalizing bytes with
  | case1 =>
    cases read
    rfl
  | case2 c => cases read
  | case3 high low rest ih =>
    rw [decode] at read
    obtain ⟨h, valueHigh, read⟩ := Option.bind_eq_some_iff.mp read
    obtain ⟨l, valueLow, read⟩ := Option.bind_eq_some_iff.mp read
    obtain ⟨tail, readRest, same⟩ := Option.bind_eq_some_iff.mp read
    cases same
    rw [decodeUpTo, valueHigh, valueLow, ih readRest]

section Spelled

variable {chars : List Char} {bytes : List UInt8} (spelled : chars.map Char.toLower = encode bytes)

include spelled

theorem length_of_spelled : chars.length = 2 * bytes.length := by
  rw [← length_encode, ← spelled, List.length_map]

theorem all_isDigit_of_spelled : chars.all isDigit = true := by
  refine List.all_eq_true.mpr fun c member => isDigit_of_toLower ?_
  have written : c.toLower ∈ encode bytes := spelled ▸ List.mem_map_of_mem member
  exact (encode_digits written).1

end Spelled

/-- The texts that are read as some bytes are the spellings of these, in either case. -/
theorem decode_eq_some_iff {chars : List Char} {bytes : List UInt8} :
    decode chars = some bytes ↔ chars.map Char.toLower = encode bytes := by
  constructor
  · exact fun read => (encode_decode read).symm
  · intro spelled
    have readable : (decode chars).isSome = true := by
      rw [decode_isSome, all_isDigit_of_spelled spelled, length_of_spelled spelled,
        Nat.mul_mod_right]
      rfl
    obtain ⟨bytes', read⟩ := Option.isSome_iff_exists.mp readable
    rw [read, encode_injective ((encode_decode read).trans spelled)]

end Round
end Hex
