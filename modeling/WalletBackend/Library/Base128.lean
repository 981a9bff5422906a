import Mathlib.Algebra.Order.Ring.Nat
import Mathlib.Data.List.Basic
import Mathlib.Tactic.Ring

/-! Naturals in bytes of seven bits each, the highest first, each byte but the last with its
high bit set. -/
namespace Base128

/-- One numeral, of however many bytes. -/
def Numeral : List UInt8 → Prop
  | [] => False
  | [last] => last.toNat < 128
  | byte :: rest => 128 ≤ byte.toNat ∧ Numeral rest

def value : List UInt8 → Nat
  | [] => 0
  | byte :: rest => byte.toNat % 128 * 128 ^ rest.length + value rest

/-- No group in front is zero, but the only one. -/
def Minimal (bytes : List UInt8) : Prop := Numeral bytes ∧ bytes.head? ≠ some 128

/-- The bytes in front of the last: those of a number that is not zero, marked. -/
def leading (n : Nat) : List UInt8 :=
  if n = 0 then [] else leading (n / 128) ++ [UInt8.ofNat (128 + n % 128)]
termination_by n
decreasing_by exact Nat.div_lt_self (Nat.pos_of_ne_zero ‹_›) (by decide)

def encode (n : Nat) : List UInt8 := leading (n / 128) ++ [UInt8.ofNat (n % 128)]

variable {bytes bytes' rest rest' : List UInt8} {byte : UInt8} {n : Nat}

theorem numeral_cons (started : rest ≠ []) :
    Numeral (byte :: rest) ↔ 128 ≤ byte.toNat ∧ Numeral rest := by
  cases rest with
  | nil => exact absurd rfl started
  | cons next rest => rfl

theorem Numeral.ne_nil (numeral : Numeral bytes) : bytes ≠ [] := by
  rintro rfl
  exact numeral

theorem value_lt (bytes : List UInt8) : value bytes < 128 ^ bytes.length := by
  induction bytes with
  | nil => exact Nat.one_pos
  | cons byte rest ih =>
    have group : byte.toNat % 128 * 128 ^ rest.length ≤ 127 * 128 ^ rest.length :=
      Nat.mul_le_mul_right _ (Nat.le_of_lt_succ (Nat.mod_lt _ (by decide)))
    rw [value, List.length_cons, pow_succ]
    omega

theorem value_append (bytes bytes' : List UInt8) :
    value (bytes ++ bytes') = value bytes * 128 ^ bytes'.length + value bytes' := by
  induction bytes with
  | nil => simp [value]
  | cons byte rest ih =>
    rw [List.cons_append, value, value, ih, List.length_append, pow_add]
    ring

/-- As many bytes with the same number are the same. -/
theorem Numeral.injective (numeral : Numeral bytes) (numeral' : Numeral bytes')
    (long : bytes.length = bytes'.length) (same : value bytes = value bytes') : bytes = bytes' := by
  induction bytes generalizing bytes' with
  | nil => exact absurd rfl numeral.ne_nil
  | cons byte rest ih =>
    cases bytes' with
    | nil => exact absurd rfl numeral'.ne_nil
    | cons byte' rest' =>
      have long : rest.length = rest'.length := Nat.succ.inj long
      rw [value, value, ← long] at same
      have tail := value_lt rest
      have tail' := value_lt rest'
      rw [← long] at tail'
      have positive : 0 < 128 ^ rest.length := Nat.pow_pos (by decide)
      have groups := congrArg (· / 128 ^ rest.length) same
      simp only [Nat.mul_comm (_ % 128), Nat.mul_add_div positive, Nat.div_eq_of_lt tail,
        Nat.div_eq_of_lt tail', Nat.add_zero] at groups
      rw [groups] at same
      have tails := Nat.add_left_cancel same
      have below := byte.toNat_lt
      have below' := byte'.toNat_lt
      by_cases ended : rest = []
      · subst ended
        obtain rfl := List.length_eq_zero_iff.mp long.symm
        have here : byte.toNat < 128 := numeral
        have here' : byte'.toNat < 128 := numeral'
        rw [UInt8.toNat_inj.mp (by omega : byte.toNat = byte'.toNat)]
      · have ended' : rest' ≠ [] := by
          intro nothing
          rw [nothing] at long
          exact ended (List.length_eq_zero_iff.mp long)
        obtain ⟨here, later⟩ := (numeral_cons ended).mp numeral
        obtain ⟨here', later'⟩ := (numeral_cons ended').mp numeral'
        rw [UInt8.toNat_inj.mp (by omega : byte.toNat = byte'.toNat), ih later later' long tails]

/-- A byte at the end is none in front. -/
theorem Numeral.ends (numeral : Numeral (byte :: bytes)) (numeral' : Numeral (byte :: bytes')) :
    bytes = [] ↔ bytes' = [] := by
  by_cases ended : bytes = []
  · subst ended
    have here : byte.toNat < 128 := numeral
    refine iff_of_true rfl (by_contra fun started => ?_)
    exact Nat.not_lt.mpr ((numeral_cons started).mp numeral').1 here
  · have here := ((numeral_cons ended).mp numeral).1
    refine iff_of_false ended ?_
    rintro rfl
    exact Nat.not_lt.mpr here numeral'

/-- No numeral is the front of another one. -/
theorem Numeral.append_injective (numeral : Numeral bytes) (numeral' : Numeral bytes')
    (same : bytes ++ rest = bytes' ++ rest') : bytes = bytes' ∧ rest = rest' := by
  induction bytes generalizing bytes' with
  | nil => exact absurd rfl numeral.ne_nil
  | cons byte later ih =>
    cases bytes' with
    | nil => exact absurd rfl numeral'.ne_nil
    | cons byte' later' =>
      rw [List.cons_append, List.cons_append] at same
      obtain ⟨rfl, tails⟩ := List.cons.inj same
      have ends := numeral.ends numeral'
      by_cases ended : later = []
      · obtain rfl := ended
        obtain rfl := ends.mp rfl
        exact ⟨rfl, tails⟩
      · obtain ⟨-, numeral⟩ := (numeral_cons ended).mp numeral
        obtain ⟨-, numeral'⟩ := (numeral_cons (mt ends.mpr ended)).mp numeral'
        obtain ⟨rfl, rfl⟩ := ih numeral numeral' tails
        exact ⟨rfl, rfl⟩

section Minimality

/-- The first group counts. -/
theorem Minimal.le_value (minimal : Minimal (byte :: rest)) (started : rest ≠ []) :
    128 ^ rest.length ≤ value (byte :: rest) := by
  obtain ⟨numeral, front⟩ := minimal
  have here := ((numeral_cons started).mp numeral).1
  have other : byte.toNat ≠ 128 := by
    intro same
    refine front (congrArg some ?_)
    exact UInt8.toNat_inj.mp same
  have group : 1 ≤ byte.toNat % 128 := by
    have below := byte.toNat_lt
    omega
  have counted : 1 * 128 ^ rest.length ≤ byte.toNat % 128 * 128 ^ rest.length :=
    Nat.mul_le_mul_right _ group
  rw [value]
  omega

/-- No numeral of the same number is shorter. -/
theorem Minimal.length_le (minimal : Minimal bytes) (numeral : Numeral bytes')
    (same : value bytes = value bytes') : bytes.length ≤ bytes'.length := by
  have some' : 0 < bytes'.length := List.length_pos_iff.mpr numeral.ne_nil
  cases bytes with
  | nil => exact Nat.zero_le _
  | cons byte rest =>
    by_cases ended : rest = []
    · rw [ended]
      exact some'
    · have bound : 128 ^ rest.length < 128 ^ bytes'.length := by
        calc 128 ^ rest.length ≤ value (byte :: rest) := minimal.le_value ended
          _ = value bytes' := same
          _ < 128 ^ bytes'.length := value_lt bytes'
      exact (Nat.pow_lt_pow_iff_right (by decide)).mp bound

/-- There is one shortest numeral of a number. -/
theorem Minimal.injective (minimal : Minimal bytes) (minimal' : Minimal bytes')
    (same : value bytes = value bytes') : bytes = bytes' :=
  minimal.1.injective minimal'.1
    (Nat.le_antisymm (minimal.length_le minimal'.1 same) (minimal'.length_le minimal.1 same.symm))
    same

end Minimality

section Encoding

theorem toNat_ofNat_lt (small : n < 256) : (UInt8.ofNat n).toNat = n := by
  rw [UInt8.toNat_ofNat', Nat.mod_eq_of_lt small]

theorem numeral_append {last : UInt8} :
    Numeral (bytes ++ [last]) ↔ (∀ byte ∈ bytes, 128 ≤ byte.toNat) ∧ last.toNat < 128 := by
  induction bytes with
  | nil => exact (and_iff_right nofun).symm
  | cons byte rest ih =>
    rw [List.cons_append, numeral_cons (List.append_ne_nil_of_right_ne_nil _ (List.cons_ne_nil _ _)),
      ih, List.forall_mem_cons, and_assoc]

/-- The marked bytes of a number: its groups, none in front of the first that counts. -/
theorem leading_spec (n : Nat) : (∀ byte ∈ leading n, 128 ≤ byte.toNat) ∧ value (leading n) = n ∧
    (leading n).head? ≠ some 128 := by
  induction n using leading.induct with
  | case1 =>
    rw [leading, if_pos rfl]
    exact ⟨nofun, rfl, nofun⟩
  | case2 n nonzero ih =>
    obtain ⟨marked, number, front⟩ := ih
    have group : (UInt8.ofNat (128 + n % 128)).toNat = 128 + n % 128 :=
      toNat_ofNat_lt (by omega)
    rw [leading, if_neg nonzero]
    refine ⟨?_, ?_, ?_⟩
    · refine List.forall_mem_append.mpr ⟨marked, ?_⟩
      rintro byte member
      rw [List.mem_singleton.mp member, group]
      exact Nat.le_add_right _ _
    · rw [value_append, number, value, value, group, List.length_singleton, List.length_nil]
      omega
    · by_cases first : leading (n / 128) = []
      · rw [first] at number
        intro same
        rw [first] at same
        have byte : (UInt8.ofNat (128 + n % 128)).toNat = 128 :=
          congrArg UInt8.toNat (Option.some.inj same)
        have small : 0 = n / 128 := number
        omega
      · rw [List.head?_append_of_ne_nil _ first]
        exact front

theorem encode_minimal (n : Nat) : Minimal (encode n) := by
  obtain ⟨marked, -, front⟩ := leading_spec (n / 128)
  have last : (UInt8.ofNat (n % 128)).toNat = n % 128 := toNat_ofNat_lt (by omega)
  refine ⟨numeral_append.mpr ⟨marked, ?_⟩, ?_⟩
  · rw [last]
    exact Nat.mod_lt _ (by decide)
  · by_cases first : leading (n / 128) = []
    · rw [encode, first]
      intro same
      have byte := congrArg UInt8.toNat (Option.some.inj same)
      rw [last] at byte
      have small : n % 128 = 128 := byte
      omega
    · rw [encode, List.head?_append_of_ne_nil _ first]
      exact front

@[simp] theorem value_encode (n : Nat) : value (encode n) = n := by
  obtain ⟨-, number, -⟩ := leading_spec (n / 128)
  have last : (UInt8.ofNat (n % 128)).toNat = n % 128 := toNat_ofNat_lt (by omega)
  rw [encode, value_append, number, value, value, last, List.length_singleton, List.length_nil]
  omega

theorem minimal_iff : Minimal bytes ↔ bytes = encode (value bytes) := by
  constructor
  · intro minimal
    exact minimal.injective (encode_minimal _) (value_encode _).symm
  · intro same
    rw [same]
    exact encode_minimal _

end Encoding
end Base128
