import Mathlib.Data.List.Basic

/-! The grammar of definite-length CBOR: headers with arguments of up to four bytes and the
items built from integers, strings, arrays, maps and tags. Headers and items are
self-delimiting: no encoding is a proper prefix of another. -/
namespace Cbor

/-- A header: its major type, the value of its argument and its bytes. The low five bits of
the first byte are the argument, or say how many bytes of it follow, high byte first. -/
inductive Header : (major value : Nat) → List UInt8 → Prop where
  | inline (b : UInt8) (short : b.toNat % 32 < 24) :
      Header (b.toNat / 32) (b.toNat % 32) [b]
  | one (b x : UInt8) (info : b.toNat % 32 = 24) : Header (b.toNat / 32) x.toNat [b, x]
  | two (b x y : UInt8) (info : b.toNat % 32 = 25) :
      Header (b.toNat / 32) (x.toNat * 256 + y.toNat) [b, x, y]
  | four (b w x y z : UInt8) (info : b.toNat % 32 = 26) :
      Header (b.toNat / 32) (((w.toNat * 256 + x.toNat) * 256 + y.toNat) * 256 + z.toNat)
        [b, w, x, y, z]

/-- A sequence of items, with their number. -/
inductive Items : Nat → List UInt8 → Prop where
  | nil : Items 0 []
  | integer {major value n : Nat} {head rest : List UInt8} (header : Header major value head)
      (kind : major = 0 ∨ major = 1) (others : Items n rest) : Items (n + 1) (head ++ rest)
  | string {major n : Nat} {head content rest : List UInt8}
      (header : Header major content.length head) (kind : major = 2 ∨ major = 3)
      (others : Items n rest) : Items (n + 1) (head ++ content ++ rest)
  | array {count n : Nat} {head content rest : List UInt8} (header : Header 4 count head)
      (elements : Items count content) (others : Items n rest) :
      Items (n + 1) (head ++ content ++ rest)
  | map {count n : Nat} {head content rest : List UInt8} (header : Header 5 count head)
      (entries : Items (2 * count) content) (others : Items n rest) :
      Items (n + 1) (head ++ content ++ rest)
  | tag {number n : Nat} {head content rest : List UInt8} (header : Header 6 number head)
      (tagged : Items 1 content) (others : Items n rest) : Items (n + 1) (head ++ content ++ rest)

variable {major value major' value' n : Nat} {head head' front front' rest rest' : List UInt8}

theorem Header.length_pos (header : Header major value head) : 0 < head.length := by
  cases header <;> simp

theorem Header.length_le (header : Header major value head) : head.length ≤ 5 := by
  cases header <;> simp

/-- A header is read off the front of what follows it in one way. -/
theorem Header.unique (header : Header major value head) (other : Header major' value' head')
    (same : head ++ rest = head' ++ rest') :
    major = major' ∧ value = value' ∧ head = head' ∧ rest = rest' := by
  cases header <;> cases other <;> simp_all

/-- A byte is known by its high three bits and its low five. -/
theorem byte_ext {b c : UInt8} (high : b.toNat / 32 = c.toNat / 32)
    (low : b.toNat % 32 = c.toNat % 32) : b = c := by
  apply UInt8.toNat_inj.mp
  omega

/-- A header of known type and value is known by its length. -/
theorem Header.eq_of_length (header : Header major value head) (other : Header major' value' head')
    (kind : major = major') (argument : value = value') (size : head.length = head'.length) :
    head = head' := by
  cases header with
  | inline b short =>
    cases other with
    | inline c short' => rw [byte_ext kind argument]
    | _ => simp at size
  | one b x info =>
    cases other with
    | one c x' info' => rw [byte_ext kind (info.trans info'.symm), UInt8.toNat_inj.mp argument]
    | _ => simp at size
  | two b x y info =>
    cases other with
    | two c x' y' info' =>
      have := y.toNat_lt
      have := y'.toNat_lt
      have first : x = x' := UInt8.toNat_inj.mp (by omega)
      have second : y = y' := UInt8.toNat_inj.mp (by omega)
      rw [byte_ext kind (info.trans info'.symm), first, second]
    | _ => simp at size
  | four b w x y z info =>
    cases other with
    | four c w' x' y' z' info' =>
      have := x.toNat_lt
      have := x'.toNat_lt
      have := y.toNat_lt
      have := y'.toNat_lt
      have := z.toNat_lt
      have := z'.toNat_lt
      have first : w = w' := UInt8.toNat_inj.mp (by omega)
      have second : x = x' := UInt8.toNat_inj.mp (by omega)
      have third : y = y' := UInt8.toNat_inj.mp (by omega)
      have fourth : z = z' := UInt8.toNat_inj.mp (by omega)
      rw [byte_ext kind (info.trans info'.symm), first, second, third, fourth]
    | _ => simp at size

theorem Items.append {m n : Nat} (items : Items m front) (others : Items n rest) :
    Items (n + m) (front ++ rest) := by
  induction items with
  | nil => exact others
  | integer header kind _ ih =>
    rw [List.append_assoc]
    exact .integer header kind ih
  | string header kind _ ih =>
    rw [List.append_assoc]
    exact .string header kind ih
  | array header elements _ _ ih =>
    rw [List.append_assoc]
    exact .array header elements ih
  | map header entries _ _ ih =>
    rw [List.append_assoc]
    exact .map header entries ih
  | tag header tagged _ _ ih =>
    rw [List.append_assoc]
    exact .tag header tagged ih

/-- What follows the head of the first item, given the type and the value of the head. -/
theorem Items.first {count : Nat} (items : Items (count + 1) front) :
    ∃ major value head content others, Header major value head ∧
      front = head ++ content ++ others ∧ Items count others ∧
      ((major ≤ 1 ∧ content = []) ∨ ((major = 2 ∨ major = 3) ∧ content.length = value) ∨
        (major = 4 ∧ Items value content) ∨ (major = 5 ∧ Items (2 * value) content) ∨
        (major = 6 ∧ Items 1 content)) := by
  cases items with
  | integer header kind others =>
    exact ⟨_, _, _, [], _, header, by simp, others, .inl ⟨by omega, rfl⟩⟩
  | string header kind others => exact ⟨_, _, _, _, _, header, rfl, others, .inr (.inl ⟨kind, rfl⟩)⟩
  | array header elements others =>
    exact ⟨_, _, _, _, _, header, rfl, others, .inr (.inr (.inl ⟨rfl, elements⟩))⟩
  | map header entries others =>
    exact ⟨_, _, _, _, _, header, rfl, others, .inr (.inr (.inr (.inl ⟨rfl, entries⟩)))⟩
  | tag header tagged others =>
    exact ⟨_, _, _, _, _, header, rfl, others, .inr (.inr (.inr (.inr ⟨rfl, tagged⟩)))⟩

/-- A sequence of a known number of items ends where its items say, whatever follows. -/
theorem Items.unique (items : Items n front) (other : Items n front')
    (same : front ++ rest = front' ++ rest') : front = front' ∧ rest = rest' := by
  induction items generalizing front' rest rest' with
  | nil =>
    cases other
    exact ⟨rfl, same⟩
  | integer header kind others ih =>
    obtain ⟨major', value', head', content', others', header', rfl, later, inside⟩ := other.first
    simp only [List.append_assoc] at same
    obtain ⟨type, count, rfl, tail⟩ := header.unique header' same
    obtain rfl : content' = [] := by
      obtain ⟨-, inside⟩ | ⟨other, -⟩ | ⟨other, -⟩ | ⟨other, -⟩ | ⟨other, -⟩ := inside
      · exact inside
      all_goals omega
    rw [List.nil_append] at tail
    obtain ⟨rfl, rfl⟩ := ih later tail
    simp
  | string header kind others ih =>
    obtain ⟨major', value', head', content', others', header', rfl, later, inside⟩ := other.first
    simp only [List.append_assoc] at same
    obtain ⟨type, count, rfl, tail⟩ := header.unique header' same
    have size : content'.length = value' := by
      obtain ⟨other, -⟩ | ⟨-, inside⟩ | ⟨other, -⟩ | ⟨other, -⟩ | ⟨other, -⟩ := inside
      case inr.inl => exact inside
      all_goals omega
    obtain ⟨rfl, ending⟩ := List.append_inj tail (count.trans size.symm)
    obtain ⟨rfl, rfl⟩ := ih later ending
    exact ⟨rfl, rfl⟩
  | array header elements others ihElements ih =>
    obtain ⟨major', value', head', content', others', header', rfl, later, inside⟩ := other.first
    simp only [List.append_assoc] at same
    obtain ⟨type, rfl, rfl, tail⟩ := header.unique header' same
    obtain ⟨other, -⟩ | ⟨other, -⟩ | ⟨-, inside⟩ | ⟨other, -⟩ | ⟨other, -⟩ := inside
    case inr.inr.inl =>
      obtain ⟨rfl, ending⟩ := ihElements inside tail
      obtain ⟨rfl, rfl⟩ := ih later ending
      exact ⟨rfl, rfl⟩
    all_goals omega
  | map header entries others ihEntries ih =>
    obtain ⟨major', value', head', content', others', header', rfl, later, inside⟩ := other.first
    simp only [List.append_assoc] at same
    obtain ⟨type, rfl, rfl, tail⟩ := header.unique header' same
    obtain ⟨other, -⟩ | ⟨other, -⟩ | ⟨other, -⟩ | ⟨-, inside⟩ | ⟨other, -⟩ := inside
    case inr.inr.inr.inl =>
      obtain ⟨rfl, ending⟩ := ihEntries inside tail
      obtain ⟨rfl, rfl⟩ := ih later ending
      exact ⟨rfl, rfl⟩
    all_goals omega
  | tag header tagged others ihTagged ih =>
    obtain ⟨major', value', head', content', others', header', rfl, later, inside⟩ := other.first
    simp only [List.append_assoc] at same
    obtain ⟨type, rfl, rfl, tail⟩ := header.unique header' same
    obtain ⟨other, -⟩ | ⟨other, -⟩ | ⟨other, -⟩ | ⟨other, -⟩ | ⟨-, inside⟩ := inside
    case inr.inr.inr.inr =>
      obtain ⟨rfl, ending⟩ := ihTagged inside tail
      obtain ⟨rfl, rfl⟩ := ih later ending
      exact ⟨rfl, rfl⟩
    all_goals omega

end Cbor
