import WalletBackend.Http.AddressRoutes
import WalletBackend.Library.Base128

/-! The payload of a pointer address is accepted when it is the one encoding of a pointer. -/
namespace WalletBackend.Http
open Base128

variable {bytes : List UInt8} {first : UInt8} {length offset next : Nat}

/-- What stands where a pointer number is expected: a numeral of at most ten groups, of which the
first of ten is small. -/
def Groups (first : UInt8) (part : List UInt8) (count : Nat) : Prop :=
  Numeral part ∧ count ≤ MAX_POINTER_UINT_BYTES ∧
    (count = MAX_POINTER_UINT_BYTES → first.toNat % 128 ≤ 1)

/-- The groups after the first. -/
theorem pointerGroups_later (started : 2 ≤ length) :
    pointerGroups first bytes length = some next ↔
      ∃ part rest, bytes = part ++ rest ∧ next + 1 = length + part.length ∧
        Groups first part next := by
  induction bytes generalizing length with
  | nil =>
    refine iff_of_false nofun ?_
    rintro ⟨part, rest, empty, -, numeral, -⟩
    exact numeral.ne_nil (List.append_eq_nil_iff.mp empty.symm).1
  | cons byte bytes ih =>
    have some' {part : List UInt8} (numeral : Numeral part) : 0 < part.length :=
      List.length_pos_iff.mpr numeral.ne_nil
    rw [pointerGroups]
    split
    case isTrue long =>
      refine iff_of_false nofun ?_
      rintro ⟨part, rest, -, count, numeral, bound, -⟩
      have := some' numeral
      omega
    case isFalse short =>
      rw [if_neg (by omega)]
      split
      case isTrue large =>
        refine iff_of_false nofun ?_
        rintro ⟨part, rest, -, count, numeral, bound, small⟩
        have := some' numeral
        have := small (by omega)
        omega
      case isFalse small =>
        split
        case isTrue last =>
          constructor
          · intro same
            cases same
            refine ⟨[byte], bytes, rfl, rfl, last, by omega, fun full => ?_⟩
            exact Nat.not_lt.mp fun large => small ⟨full, large⟩
          · rintro ⟨part, rest, same, count, numeral, -⟩
            have alone : Numeral [byte] := last
            obtain ⟨rfl, -⟩ := alone.append_injective numeral (List.singleton_append.trans same)
            rw [Nat.succ.inj count]
        case isFalse marked =>
          rw [ih (by omega)]
          constructor
          · rintro ⟨part, rest, rfl, count, numeral, bound⟩
            refine ⟨byte :: part, rest, rfl, ?_, ?_, bound⟩
            · rw [List.length_cons]
              omega
            · exact (numeral_cons numeral.ne_nil).mpr ⟨Nat.not_lt.mp marked, numeral⟩
          · rintro ⟨part, rest, same, count, numeral, bound⟩
            cases part with
            | nil => exact absurd rfl numeral.ne_nil
            | cons other part =>
              obtain ⟨rfl, tails⟩ := List.cons.inj same
              have started : part ≠ [] := by
                rintro rfl
                exact marked numeral
              refine ⟨part, rest, tails, ?_, ((numeral_cons started).mp numeral).2, bound⟩
              rw [List.length_cons] at count
              omega

/-- Ten groups hold what is below two to the sixty-fourth if the first of them is small. -/
theorem groups_iff {part : List UInt8} (minimal : Minimal (first :: part)) :
    Groups first (first :: part) (part.length + 1) ↔ value (first :: part) < 2 ^ 64 := by
  have tail := value_lt part
  have number : value (first :: part) = first.toNat % 128 * 128 ^ part.length + value part := rfl
  constructor
  · rintro ⟨-, bound, small⟩
    by_cases full : part.length = 9
    · have group := small (by rw [full]; rfl)
      have counted : first.toNat % 128 * 128 ^ 9 ≤ 1 * 128 ^ 9 := Nat.mul_le_mul_right _ group
      rw [full] at tail number
      omega
    · have fewer : part.length + 1 ≤ 9 := by
        have bound : part.length + 1 ≤ 10 := bound
        omega
      calc value (first :: part) < 128 ^ (part.length + 1) := value_lt _
        _ ≤ 128 ^ 9 := Nat.pow_le_pow_right (by decide) fewer
        _ < 2 ^ 64 := by decide
  · intro small
    have fewer : part.length < 10 := by
      by_cases ended : part = []
      · rw [ended]
        decide
      · have bound : 128 ^ part.length < 128 ^ 10 := by
          calc 128 ^ part.length ≤ value (first :: part) := minimal.le_value ended
            _ < 2 ^ 64 := small
            _ < 128 ^ 10 := by decide
        exact (Nat.pow_lt_pow_iff_right (by decide)).mp bound
    refine ⟨minimal.1, fewer, fun full => ?_⟩
    have nine : part.length = 9 := Nat.succ.inj full
    rw [nine] at number
    by_contra large
    have counted : 2 * 128 ^ 9 ≤ first.toNat % 128 * 128 ^ 9 :=
      Nat.mul_le_mul_right _ (Nat.not_le.mp large)
    omega

theorem pointerGroups_first {rest : List UInt8} {count : Nat} :
    pointerGroups first (first :: rest) 1 = some count ↔ ∃ part later,
      first :: rest = part ++ later ∧ count = part.length ∧ Minimal part ∧ value part < 2 ^ 64 := by
  have opens {part later : List UInt8} (same : first :: rest = part ++ later)
      (numeral : Numeral part) : ∃ groups, part = first :: groups ∧ rest = groups ++ later := by
    cases part with
    | nil => exact absurd rfl numeral.ne_nil
    | cons other groups =>
      obtain ⟨rfl, tails⟩ := List.cons.inj same
      exact ⟨groups, rfl, tails⟩
  rw [pointerGroups, if_neg (by decide)]
  split
  case isTrue zero =>
    refine iff_of_false nofun ?_
    rintro ⟨part, later, same, -, ⟨numeral, front⟩, -⟩
    obtain ⟨groups, rfl, -⟩ := opens same numeral
    have below := first.toNat_lt
    exact front (congrArg some (UInt8.toNat_inj.mp (by
      change first.toNat = 128
      omega)))
  case isFalse counts =>
    have front : first.toNat ≠ 128 := fun zero => counts (by omega)
    have minimal {groups : List UInt8} (numeral : Numeral (first :: groups)) :
        Minimal (first :: groups) :=
      ⟨numeral, fun zero => front (congrArg UInt8.toNat (Option.some.inj zero))⟩
    rw [if_neg fun full => absurd full.1 (by decide)]
    split
    case isTrue last =>
      have alone : Numeral [first] := last
      constructor
      · intro same
        cases same
        exact ⟨[first], rest, rfl, rfl, minimal alone, (groups_iff (minimal alone)).mp
          ⟨alone, by decide, nofun⟩⟩
      · rintro ⟨part, later, same, rfl, ⟨numeral, -⟩, -⟩
        obtain ⟨rfl, -⟩ := alone.append_injective numeral (List.singleton_append.trans same)
        rfl
    case isFalse marked =>
      rw [pointerGroups_later (Nat.le_refl 2)]
      constructor
      · rintro ⟨groups, later, rfl, counted, numeral, bound⟩
        have whole : Numeral (first :: groups) :=
          (numeral_cons numeral.ne_nil).mpr ⟨Nat.not_lt.mp marked, numeral⟩
        obtain rfl : count = groups.length + 1 := by omega
        exact ⟨first :: groups, later, rfl, rfl, minimal whole,
          (groups_iff (minimal whole)).mp ⟨whole, bound⟩⟩
      · rintro ⟨part, later, same, rfl, least, small⟩
        obtain ⟨groups, rfl, tails⟩ := opens same least.1
        have started : groups ≠ [] := by
          rintro rfl
          exact marked least.1
        obtain ⟨-, bound⟩ := (groups_iff least).mpr small
        exact ⟨groups, later, tails, by rw [List.length_cons]; omega,
          ((numeral_cons started).mp least.1).2, bound⟩

/-- A number is consumed where its shortest numeral stands. -/
theorem nextPointerPart_eq_some : nextPointerPart bytes offset = some next ↔
    ∃ part rest, bytes.drop offset = part ++ rest ∧ next = offset + part.length ∧ Minimal part ∧
      value part < 2 ^ 64 := by
  unfold nextPointerPart
  cases ahead : bytes.drop offset with
  | nil =>
    refine iff_of_false nofun ?_
    rintro ⟨part, rest, empty, -, ⟨numeral, -⟩, -⟩
    exact numeral.ne_nil (List.append_eq_nil_iff.mp empty.symm).1
  | cons first rest =>
    simp only [Option.map_eq_some_iff, pointerGroups_first]
    constructor
    · rintro ⟨_, ⟨part, later, same, rfl, minimal, small⟩, rfl⟩
      exact ⟨part, later, same, rfl, minimal, small⟩
    · rintro ⟨part, later, same, rfl, minimal, small⟩
      exact ⟨part.length, ⟨part, later, same, rfl, minimal, small⟩, rfl⟩

/-- A place in the chain, in numbers of sixty-four bits. -/
structure Pointer where
  slot : Nat
  transactionIndex : Nat
  certificateIndex : Nat
  slot_lt : slot < 2 ^ 64
  transactionIndex_lt : transactionIndex < 2 ^ 64
  certificateIndex_lt : certificateIndex < 2 ^ 64

namespace Pointer

def encode (pointer : Pointer) : List UInt8 :=
  Base128.encode pointer.slot ++
    (Base128.encode pointer.transactionIndex ++ Base128.encode pointer.certificateIndex)

/-- The numbers that a payload denotes, by whatever numerals. -/
def Denoted (pointer : Pointer) (payload : List UInt8) : Prop :=
  ∃ slot transaction certificate, payload = slot ++ (transaction ++ certificate) ∧
    (Numeral slot ∧ value slot = pointer.slot) ∧
    (Numeral transaction ∧ value transaction = pointer.transactionIndex) ∧
    (Numeral certificate ∧ value certificate = pointer.certificateIndex)

theorem denoted_encode (pointer : Pointer) : pointer.Denoted pointer.encode :=
  ⟨_, _, _, rfl, ⟨(encode_minimal _).1, value_encode _⟩, ⟨(encode_minimal _).1, value_encode _⟩,
    ⟨(encode_minimal _).1, value_encode _⟩⟩

/-- A payload denotes one pointer at most. -/
theorem Denoted.unique {pointer pointer' : Pointer} {payload : List UInt8}
    (denoted : pointer.Denoted payload) (denoted' : pointer'.Denoted payload) :
    pointer = pointer' := by
  obtain ⟨slot, transaction, certificate, rfl, ⟨here, first⟩, ⟨here₂, second⟩, here₃, third⟩ :=
    denoted
  obtain ⟨slot', transaction', certificate', same, ⟨there, first'⟩, ⟨there₂, second'⟩, there₃,
    third'⟩ := denoted'
  obtain ⟨rfl, tails⟩ := here.append_injective there same
  obtain ⟨rfl, rfl⟩ := here₂.append_injective there₂ tails
  cases pointer
  cases pointer'
  simp_all

end Pointer

theorem drop_part {part rest : List UInt8} (ahead : bytes.drop offset = part ++ rest) :
    bytes.drop (offset + part.length) = rest := by
  rw [← List.drop_drop, ahead, List.drop_left]

/-- A payload is accepted when it is the encoding of a pointer. -/
theorem hasPointerPayload_iff : hasPointerPayload bytes = true ↔
    ∃ (head : List UInt8) (pointer : Pointer),
      head.length = POINTER_PREFIX_BYTES ∧ bytes = head ++ pointer.encode := by
  simp only [hasPointerPayload, beq_iff_eq, bind, Option.bind_eq_some_iff, nextPointerPart_eq_some]
  constructor
  · rintro ⟨_, ⟨slot, later, ahead, rfl, least, small⟩, _,
      ⟨transaction, later₂, ahead₂, rfl, least₂, small₂⟩,
      certificate, rest, ahead₃, ends, least₃, small₃⟩
    obtain rfl := (drop_part ahead).symm.trans ahead₂
    obtain rfl := (drop_part ahead₂).symm.trans ahead₃
    have nothing := drop_part ahead₃
    rw [← ends, List.drop_length] at nothing
    subst nothing
    have long : POINTER_PREFIX_BYTES ≤ bytes.length := by omega
    refine ⟨bytes.take POINTER_PREFIX_BYTES, ⟨value slot, value transaction, value certificate,
      small, small₂, small₃⟩, List.length_take_of_le long, ?_⟩
    conv_lhs => rw [← List.take_append_drop POINTER_PREFIX_BYTES bytes, ahead]
    rw [Pointer.encode, ← minimal_iff.mp least, ← minimal_iff.mp least₂, ← minimal_iff.mp least₃,
      List.append_nil]
  · rintro ⟨head, pointer, long, rfl⟩
    have ahead : (head ++ pointer.encode).drop POINTER_PREFIX_BYTES = pointer.encode := by
      rw [← long, List.drop_left]
    have ahead₂ := drop_part ahead
    have ahead₃ := drop_part ahead₂
    refine ⟨_, ⟨_, _, ahead, rfl, encode_minimal _, ?_⟩, _,
      ⟨_, _, ahead₂, rfl, encode_minimal _, ?_⟩, _, [], ahead₃.trans (List.append_nil _).symm, ?_,
      encode_minimal _, ?_⟩
    · rw [value_encode]
      exact pointer.slot_lt
    · rw [value_encode]
      exact pointer.transactionIndex_lt
    · rw [List.length_append, Pointer.encode, List.length_append, List.length_append, long]
      omega
    · rw [value_encode]
      exact pointer.certificateIndex_lt

/-- What is accepted is the encoding of one pointer, by numerals that cannot be shortened; and a
pointer has one encoding that is accepted. -/
theorem hasPointerPayload_exact :
    (∀ bytes, hasPointerPayload bytes = true ↔ ∃ (head : List UInt8) (pointer : Pointer),
      head.length = POINTER_PREFIX_BYTES ∧ bytes = head ++ pointer.encode) ∧
    (∀ n numeral, Numeral numeral → value numeral = n →
      (encode n).length ≤ numeral.length ∧
        (numeral.length = (encode n).length → numeral = encode n)) ∧
    (∀ bytes, hasPointerPayload bytes = true →
      ∃! pointer : Pointer, pointer.Denoted (bytes.drop POINTER_PREFIX_BYTES)) ∧
    ∀ (head : List UInt8) (pointer : Pointer), head.length = POINTER_PREFIX_BYTES →
      ∃! bytes, hasPointerPayload bytes = true ∧ bytes.take POINTER_PREFIX_BYTES = head ∧
        pointer.Denoted (bytes.drop POINTER_PREFIX_BYTES) := by
  refine ⟨fun bytes => hasPointerPayload_iff, ?_, ?_, ?_⟩
  · rintro _ numeral proper rfl
    refine ⟨(encode_minimal _).length_le proper (value_encode _), fun long => ?_⟩
    exact proper.injective (encode_minimal _).1 long (value_encode _).symm
  · intro bytes accepted
    obtain ⟨head, pointer, long, rfl⟩ := hasPointerPayload_iff.mp accepted
    have payload : (head ++ pointer.encode).drop POINTER_PREFIX_BYTES = pointer.encode := by
      rw [← long, List.drop_left]
    rw [payload]
    exact ⟨pointer, pointer.denoted_encode, fun other denoted =>
      denoted.unique pointer.denoted_encode⟩
  · intro head pointer long
    have payload : (head ++ pointer.encode).drop POINTER_PREFIX_BYTES = pointer.encode := by
      rw [← long, List.drop_left]
    have accepted := hasPointerPayload_iff.mpr ⟨head, pointer, long, rfl⟩
    refine ⟨head ++ pointer.encode, ⟨accepted, ?_, ?_⟩, ?_⟩
    · rw [← long, List.take_left]
    · rw [payload]
      exact pointer.denoted_encode
    · rintro bytes ⟨accepted, front, denoted⟩
      obtain ⟨head', pointer', long', rfl⟩ := hasPointerPayload_iff.mp accepted
      rw [← long', List.take_left] at front
      rw [← long', List.drop_left] at denoted
      rw [front, denoted.unique pointer'.denoted_encode]

end WalletBackend.Http
