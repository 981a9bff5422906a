import Mathlib.Data.List.Forall2
import WalletBackend.Library.Numerals
import WalletBackend.Library.Splitting

/-! Internet addresses as they are written. -/
namespace IpText

open Numerals

/-! ### Dotted decimals -/

/-- A decimal without zeros in front. -/
def octet (text : List Char) : Option Nat :=
  let value := Nat.ofDigitChars 10 text 0
  if text = Nat.toDigits 10 value ∧ value < 256 then some value else none

def readIPv4 (text : List Char) : Option (List Nat) :=
  let parts := text.splitOn '.'
  if parts.length = 4 then parts.mapM octet else none

def dotted (octets : List Nat) : List Char := ['.'].intercalate (octets.map (Nat.toDigits 10))

/-! ### Groups of hexadecimals -/

def hexDigit (c : Char) : Option Nat :=
  if c.isDigit then some (c.toNat - '0'.toNat)
  else if 'a' ≤ c ∧ c ≤ 'f' then some (c.toNat - 'a'.toNat + 10)
  else if 'A' ≤ c ∧ c ≤ 'F' then some (c.toNat - 'A'.toNat + 10)
  else none

def hexNumber (text : List Char) : Nat := numeral 16 (text.filterMap hexDigit)

def group (text : List Char) : Option Nat :=
  if text.length ∈ [1, 2, 3, 4] ∧ text.all (fun c => (hexDigit c).isSome) then
    some (hexNumber text)
  else none

/-- The last of the parts may be a dotted decimal, for two groups. -/
def readGroups : List (List Char) → Option (List Nat)
  | [] => some []
  | [last] =>
      match readIPv4 last with
      | some [a, b, c, d] => some [256 * a + b, 256 * c + d]
      | _ => (group last).map ([·])
  | text :: rest => do
      let first ← group text
      let others ← readGroups rest
      some (first :: others)

/-- The parts of a text between its double colons. -/
def splitDouble : List Char → List (List Char)
  | ':' :: ':' :: rest => [] :: splitDouble rest
  | c :: rest => (splitDouble rest).modifyHead (c :: ·)
  | [] => [[]]

def partsOf (text : List Char) : List (List Char) := if text = [] then [] else text.splitOn ':'

/-- A double colon stands for one group of zeros at least. -/
def readIPv6 (text : List Char) : Option (List Nat) :=
  match splitDouble text with
  | [whole] => (readGroups (partsOf whole)).filter (·.length = 8)
  | [head, tail] => do
      let front ← (partsOf head).mapM group
      let back ← readGroups (partsOf tail)
      if front.length + back.length < 8 then
        some (front ++ (List.replicate (8 - front.length - back.length) 0 ++ back))
      else none
  | _ => none

def joined (groups : List Nat) : List Char := [':'].intercalate (groups.map (Nat.toDigits 16))

/-- The canonical text of eight groups: all of them, or without one run of zeros. -/
inductive Canonical : List Nat → List Char → Prop where
  | whole (groups : List Nat) : Canonical groups (joined groups)
  | compressed (head tail : List Nat) {n : Nat} (run : 2 ≤ n) :
      Canonical (head ++ (List.replicate n 0 ++ tail)) (joined head ++ ':' :: ':' :: joined tail)

/-- Eight groups of sixteen bits. -/
def Groups (groups : List Nat) : Prop := groups.length = 8 ∧ ∀ value ∈ groups, value < 2 ^ 16

theorem forall₂_of_mapM {α β : Type} {f : α → Option β} {l : List α} {l' : List β}
    (mapped : l.mapM f = some l') : List.Forall₂ (fun a b => f a = some b) l l' := by
  induction l generalizing l' with
  | nil =>
    obtain rfl := Option.some.inj mapped
    exact .nil
  | cons a l ih =>
    rw [List.mapM_cons] at mapped
    obtain ⟨b, first, mapped⟩ := Option.bind_eq_some_iff.mp mapped
    obtain ⟨rest, later, same⟩ := Option.bind_eq_some_iff.mp mapped
    obtain rfl := Option.some.inj same
    exact .cons first (ih later)

theorem mapM_of_forall₂ {α β : Type} {f : α → Option β} {l : List α} {l' : List β}
    (each : List.Forall₂ (fun a b => f a = some b) l l') : l.mapM f = some l' := by
  induction each with
  | nil => rfl
  | cons first _ ih =>
    rw [List.mapM_cons, first, ih]
    rfl

theorem forall_of_forall₂ {α β : Type} {f : α → Option β} {P : β → Prop} {l : List α} {l' : List β}
    (each : List.Forall₂ (fun a b => f a = some b) l l') (proper : ∀ a b, f a = some b → P b) :
    ∀ b ∈ l', P b := by
  induction each with
  | nil => exact fun b member => absurd member List.not_mem_nil
  | cons first _ ih => exact List.forall_mem_cons.mpr ⟨proper _ _ first, ih⟩

section Reading

variable {text : List Char} {octets groups : List Nat}

theorem octet_toDigits {value : Nat} (small : value < 256) :
    octet (Nat.toDigits 10 value) = some value := by
  unfold octet
  rw [Nat.ofDigitChars_ten_toDigits]
  exact if_pos ⟨rfl, small⟩

theorem octet_lt {value : Nat} (read : octet text = some value) : value < 256 := by
  unfold octet at read
  dsimp only at read
  split at read
  case isTrue proper => exact Option.some.inj read ▸ proper.2
  case isFalse => cases read

theorem readIPv4_eq_some (read : readIPv4 text = some octets) :
    octets.length = 4 ∧ ∀ value ∈ octets, value < 256 := by
  unfold readIPv4 at read
  dsimp only at read
  split at read
  case isTrue four =>
    have each := forall₂_of_mapM read
    exact ⟨each.length_eq ▸ four, forall_of_forall₂ each fun _ _ => octet_lt⟩
  case isFalse => cases read

/-- A dotted decimal is written in one way. -/
theorem dotted_of_readIPv4 (read : readIPv4 text = some octets) : text = dotted octets := by
  unfold readIPv4 at read
  dsimp only at read
  split at read
  case isTrue four =>
    have each := forall₂_of_mapM read
    have parts : text.splitOn '.' = octets.map (Nat.toDigits 10) := by
      rw [← List.forall₂_eq_eq_eq, List.forall₂_map_right_iff]
      refine each.imp fun part value read => ?_
      unfold octet at read
      dsimp only at read
      split at read
      case isTrue proper => exact Option.some.inj read ▸ proper.1
      case isFalse => cases read
    rw [dotted, ← parts, List.intercalate_splitOn]
  case isFalse => cases read

theorem mem_dotted {c : Char} (member : c ∈ dotted octets) : c = '.' ∨ c.isDigit = true := by
  obtain dot | ⟨part, inside, member⟩ := Splitting.mem_intercalate member
  · exact .inl (List.mem_singleton.mp dot)
  · obtain ⟨value, -, rfl⟩ := List.mem_map.mp inside
    exact .inr (isDigit_of_mem member)

theorem readIPv4_dotted (four : octets.length = 4) (small : ∀ value ∈ octets, value < 256) :
    readIPv4 (dotted octets) = some octets := by
  have parts : (dotted octets).splitOn '.' = octets.map (Nat.toDigits 10) := by
    refine List.splitOn_intercalate '.' ?_ ?_
    · intro text member
      obtain ⟨value, -, rfl⟩ := List.mem_map.mp member
      exact not_mem_toDigits rfl value
    · rw [ne_eq, List.map_eq_nil_iff, ← List.length_eq_zero_iff, four]
      decide
  unfold readIPv4
  dsimp only
  rw [parts, List.length_map, if_pos four]
  refine mapM_of_forall₂ (List.forall₂_map_left_iff.mpr ?_)
  exact List.forall₂_same.mpr fun value member => octet_toDigits (small value member)

theorem hexDigit_lt {c : Char} {value : Nat} (read : hexDigit c = some value) : value < 16 := by
  have bound (first : Char) {last : Char} (most : c ≤ last) :
      c.toNat - first.toNat ≤ last.toNat - first.toNat :=
    Nat.sub_le_sub_right (UInt32.le_iff_toNat_le.mp most) _
  unfold hexDigit at read
  split at read
  case isTrue digit =>
    obtain rfl := Option.some.inj read
    rw [Char.isDigit, Bool.and_eq_true, decide_eq_true_eq, decide_eq_true_eq] at digit
    exact Nat.lt_of_le_of_lt (bound '0' (show c ≤ '9' from digit.2)) (by decide)
  case isFalse =>
    split at read
    case isTrue lower =>
      obtain rfl := Option.some.inj read
      exact Nat.lt_of_le_of_lt (Nat.add_le_add_right (bound 'a' lower.2) 10) (by decide)
    case isFalse =>
      split at read
      case isTrue upper =>
        obtain rfl := Option.some.inj read
        exact Nat.lt_of_le_of_lt (Nat.add_le_add_right (bound 'A' upper.2) 10) (by decide)
      case isFalse => cases read

theorem group_lt {value : Nat} (read : group text = some value) : value < 2 ^ 16 := by
  unfold group at read
  split at read
  case isTrue proper =>
    obtain rfl := Option.some.inj read
    have digits : ∀ digit ∈ text.filterMap hexDigit, digit < 16 := by
      intro digit member
      obtain ⟨c, -, read⟩ := List.mem_filterMap.mp member
      exact hexDigit_lt read
    have short : (text.filterMap hexDigit).length ≤ 4 := by
      refine (List.length_filterMap_le hexDigit text).trans ?_
      simp only [List.mem_cons, List.not_mem_nil, or_false] at proper
      omega
    calc
      hexNumber text < 16 ^ (text.filterMap hexDigit).length := numeral_lt (by decide) digits
      _ ≤ 16 ^ 4 := Nat.pow_le_pow_right (by decide) short
      _ = 2 ^ 16 := by decide
  case isFalse => cases read

theorem readGroups_lt {parts : List (List Char)} (read : readGroups parts = some groups) :
    ∀ value ∈ groups, value < 2 ^ 16 := by
  induction parts using readGroups.induct generalizing groups with
  | case1 =>
    obtain rfl := Option.some.inj read
    exact fun value member => absurd member List.not_mem_nil
  | case2 last a b c d address =>
    rw [readGroups, address] at read
    obtain rfl := Option.some.inj read
    obtain ⟨-, small⟩ := readIPv4_eq_some address
    simp only [List.mem_cons, List.not_mem_nil, or_false, forall_eq_or_imp, forall_eq] at small ⊢
    omega
  | case3 last other =>
    rw [readGroups] at read
    split at read
    case h_1 a b c d address => exact absurd address (other a b c d)
    case h_2 =>
      obtain ⟨value, only, rfl⟩ := Option.map_eq_some_iff.mp read
      exact List.forall_mem_singleton.mpr (group_lt only)
  | case4 text rest several ih =>
    rw [readGroups] at read
    · obtain ⟨first, here, read⟩ := Option.bind_eq_some_iff.mp read
      obtain ⟨others, later, same⟩ := Option.bind_eq_some_iff.mp read
      obtain rfl := Option.some.inj same
      exact List.forall_mem_cons.mpr ⟨group_lt here, ih later⟩
    · exact several

theorem readIPv6_groups (read : readIPv6 text = some groups) : Groups groups := by
  unfold readIPv6 at read
  split at read
  case h_1 whole split =>
    obtain ⟨read, eight⟩ := Option.filter_eq_some_iff.mp read
    exact ⟨of_decide_eq_true eight, readGroups_lt read⟩
  case h_2 head tail split =>
    obtain ⟨front, readFront, read⟩ := Option.bind_eq_some_iff.mp read
    obtain ⟨back, readBack, read⟩ := Option.bind_eq_some_iff.mp read
    have smallFront : ∀ value ∈ front, value < 2 ^ 16 :=
      forall_of_forall₂ (forall₂_of_mapM readFront) fun _ _ => group_lt
    split at read
    case isTrue short =>
      obtain rfl := Option.some.inj read
      refine ⟨?_, fun value member => ?_⟩
      · rw [List.length_append, List.length_append, List.length_replicate]
        omega
      · obtain inFront | member := List.mem_append.mp member
        · exact smallFront value inFront
        · obtain zero | inBack := List.mem_append.mp member
          · rw [List.eq_of_mem_replicate zero]
            decide
          · exact readGroups_lt readBack value inBack
    case isFalse => cases read
  case h_3 => cases read

end Reading

section Writing

variable {groups : List Nat}

theorem hexDigit_digitChar {digit : Nat} (small : digit < 16) :
    hexDigit (Nat.digitChar digit) = some digit := by
  have each : ∀ digit : Fin 16, hexDigit (Nat.digitChar digit) = some digit.val := by decide
  exact each ⟨digit, small⟩

/-- The number that hexadecimals were written for. -/
theorem hex_toDigits (value : Nat) : hexNumber (Nat.toDigits 16 value) = value ∧
    ∀ c ∈ Nat.toDigits 16 value, (hexDigit c).isSome = true := by
  induction value using Nat.strongRecOn with
  | ind value ih =>
    rw [Nat.toDigits_eq_if (by decide)]
    split
    case isTrue small =>
      have digit := hexDigit_digitChar small
      refine ⟨?_, List.forall_mem_singleton.mpr (by rw [digit]; rfl)⟩
      rw [hexNumber, List.filterMap_cons, digit]
      rfl
    case isFalse large =>
      obtain ⟨number, digits⟩ := ih (value / 16) (Nat.div_lt_self (by omega) (by decide))
      have digit := hexDigit_digitChar (Nat.mod_lt value (by decide : 0 < 16))
      constructor
      · rw [hexNumber, List.filterMap_append, numeral_append, ← hexNumber, number,
          List.filterMap_cons, digit]
        simpa [numeral_cons] using Nat.div_add_mod value 16
      · intro c member
        obtain earlier | last := List.mem_append.mp member
        · exact digits c earlier
        · rw [List.mem_singleton.mp last, digit]
          rfl

theorem not_colon_of_hexDigit {c : Char} (digit : (hexDigit c).isSome = true) : c ≠ ':' := by
  rintro rfl
  cases digit

theorem splitDouble_word {word : List Char} (plain : ∀ c ∈ word, c ≠ ':') (rest : List Char) :
    splitDouble (word ++ rest) = (splitDouble rest).modifyHead (word ++ ·) := by
  induction word with
  | nil => exact (congrFun List.modifyHead_id _).symm
  | cons c word ih =>
    obtain ⟨here, later⟩ := List.forall_mem_cons.mp plain
    rw [List.cons_append, splitDouble, ih later, List.modifyHead_modifyHead]
    · rfl
    · exact fun _ same => absurd same here

theorem splitDouble_colon {c : Char} (other : c ≠ ':') (rest : List Char) :
    splitDouble (':' :: c :: rest) = (splitDouble (c :: rest)).modifyHead (':' :: ·) := by
  rw [splitDouble]
  exact fun rest' _ same => absurd (List.cons.inj same).1 other

theorem joined_cons (value next : Nat) (groups : List Nat) :
    joined (value :: next :: groups) = Nat.toDigits 16 value ++ ':' :: joined (next :: groups) := by
  rw [joined, List.map_cons, List.map_cons, List.intercalate_cons_cons, ← List.map_cons, ← joined]
  simp

theorem colon_not_mem_toDigits {value : Nat} : ':' ∉ Nat.toDigits 16 value :=
  fun colon => not_colon_of_hexDigit ((hex_toDigits value).2 _ colon) rfl

/-- Groups that are joined begin with a digit. -/
theorem joined_first (value : Nat) (groups : List Nat) :
    ∃ c rest, joined (value :: groups) = c :: rest ∧ c ≠ ':' := by
  obtain ⟨c, word, first⟩ := List.exists_cons_of_ne_nil (Nat.toDigits_ne_nil (b := 16) (n := value))
  have other : c ≠ ':' := by
    rintro rfl
    exact colon_not_mem_toDigits (first ▸ List.mem_cons_self)
  cases groups with
  | nil => exact ⟨c, word, by simp [joined, first], other⟩
  | cons next groups => exact ⟨c, _, by rw [joined_cons, first, List.cons_append], other⟩

/-- No double colon is within groups that are joined. -/
theorem splitDouble_joined (groups : List Nat) (rest : List Char) :
    splitDouble (joined groups ++ rest) = (splitDouble rest).modifyHead (joined groups ++ ·) := by
  have plain (value : Nat) : ∀ c ∈ Nat.toDigits 16 value, c ≠ ':' := by
    rintro c member rfl
    exact colon_not_mem_toDigits member
  induction groups with
  | nil => exact (congrFun List.modifyHead_id _).symm
  | cons value groups ih =>
    cases groups with
    | nil =>
      have only : joined [value] = Nat.toDigits 16 value := by simp [joined]
      rw [only, splitDouble_word (plain value)]
    | cons next groups =>
      obtain ⟨c, others, starts, other⟩ := joined_first next groups
      rw [joined_cons, List.append_assoc, splitDouble_word (plain value), List.cons_append, starts,
        List.cons_append, splitDouble_colon other, ← List.cons_append, ← starts, ih,
        List.modifyHead_modifyHead, List.modifyHead_modifyHead]
      congr 1
      funext text
      simp

theorem partsOf_joined (groups : List Nat) :
    partsOf (joined groups) = groups.map (Nat.toDigits 16) := by
  cases groups with
  | nil => rfl
  | cons value groups =>
    obtain ⟨c, rest, starts, -⟩ := joined_first value groups
    rw [partsOf, if_neg (by rw [starts]; exact List.cons_ne_nil _ _)]
    refine List.splitOn_intercalate ':' ?_ (List.cons_ne_nil _ _)
    intro text member
    obtain ⟨value, -, rfl⟩ := List.mem_map.mp member
    exact colon_not_mem_toDigits

theorem splitDouble_whole (groups : List Nat) : splitDouble (joined groups) = [joined groups] := by
  have split := splitDouble_joined groups []
  rwa [List.append_nil, splitDouble, List.modifyHead_cons, List.append_nil] at split

theorem splitDouble_compressed (head tail : List Nat) :
    splitDouble (joined head ++ ':' :: ':' :: joined tail) = [joined head, joined tail] := by
  rw [splitDouble_joined, splitDouble, splitDouble_whole, List.modifyHead_cons, List.append_nil]

end Writing

end IpText
