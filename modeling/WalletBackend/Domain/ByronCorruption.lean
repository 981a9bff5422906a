import WalletBackend.Domain.ByronGrammar

/-! No corruption of an accepted address by one bit, by truncation or by bytes appended is accepted.
A flip in a header changes what the header says or its width, and a changed width does not fit the
number of bytes there are; one in the payload changes the checksum. -/
namespace WalletBackend.Byron

open Cbor

/-- The byte with one bit flipped. -/
def flipBit (k : Fin 8) (b : UInt8) : UInt8 := b ^^^ (1 <<< UInt8.ofNat k)

/-- One bit of the bytes is flipped. -/
inductive Flipped : List UInt8 → List UInt8 → Prop where
  | here (k : Fin 8) (b : UInt8) (rest : List UInt8) : Flipped (b :: rest) (flipBit k b :: rest)
  | there (b : UInt8) {rest rest' : List UInt8} (flipped : Flipped rest rest') :
      Flipped (b :: rest) (b :: rest')

theorem flipBit_bits : ∀ n : Fin 256, ∀ k : Fin 8,
    let b := UInt8.ofNat n
    flipBit k b ≠ b ∧ (b.toNat % 32 < 8 → (flipBit k b).toNat % 32 < 24) ∧
      (24 ≤ b.toNat % 32 → 8 ≤ (flipBit k b).toNat % 32) := by
  set_option maxRecDepth 4000 in decide

variable {k : Fin 8} {b : UInt8} {front front' rest rest' other : List UInt8}

theorem flipBit_spec (k : Fin 8) (b : UInt8) :
    flipBit k b ≠ b ∧ (b.toNat % 32 < 8 → (flipBit k b).toNat % 32 < 24) ∧
      (24 ≤ b.toNat % 32 → 8 ≤ (flipBit k b).toNat % 32) := by
  have bits := flipBit_bits ⟨b.toNat, b.toNat_lt⟩ k
  simpa using bits

theorem Flipped.length_eq (flipped : Flipped front front') : front.length = front'.length := by
  induction flipped with
  | here => rfl
  | there b _ ih => simp [ih]

theorem Flipped.ne (flipped : Flipped front front') : front ≠ front' := by
  induction flipped with
  | here k b rest => simp [(flipBit_spec k b).1.symm]
  | there b _ ih => simp [ih]

/-- The flip is in the one part or in the other. -/
theorem Flipped.append (flipped : Flipped (front ++ rest) other) :
    (∃ front', Flipped front front' ∧ other = front' ++ rest) ∨
      ∃ rest', Flipped rest rest' ∧ other = front ++ rest' := by
  induction front generalizing other with
  | nil => exact .inr ⟨other, flipped, rfl⟩
  | cons b front ih =>
    cases flipped with
    | here k => exact .inl ⟨_, .here k b front, rfl⟩
    | there _ flipped =>
      obtain ⟨front', inside, rfl⟩ | ⟨rest', inside, rfl⟩ := ih flipped
      · exact .inl ⟨b :: front', .there b inside, rfl⟩
      · exact .inr ⟨rest', inside, rfl⟩

/-- The checksum of the changed bytes is another. -/
theorem Flipped.ieee_ne (flipped : Flipped front front') : Crc.ieee front ≠ Crc.ieee front' := by
  obtain ⟨before, b, c, after, change, rfl, rfl⟩ :
      ∃ before b c after, b ≠ c ∧ front = before ++ b :: after ∧ front' = before ++ c :: after := by
    induction flipped with
    | here k b rest => exact ⟨[], b, _, rest, (flipBit_spec k b).1.symm, rfl, rfl⟩
    | there b _ ih =>
      obtain ⟨before, c, d, after, change, rfl, rfl⟩ := ih
      exact ⟨b :: before, c, d, after, change, rfl, rfl⟩
  exact Crc.ieee_ne_of_byte_ne before after change

section Headers

variable {major value major' value' : Nat} {head head' : List UInt8}

/-- A flip inside a header of a value that is not near a width changes what it says. -/
theorem Flipped.header_ne (header : Header major value head)
    (clear : (0 < value ∧ value < 8) ∨ (24 ≤ value ∧ value < 256)) {changed : List UInt8}
    (flipped : Flipped head changed) (header' : Header major' value' head')
    (same : changed ++ rest = head' ++ rest') : ¬ (major = major' ∧ value = value') := by
  rintro ⟨sameMajor, sameValue⟩
  by_cases width : head.length = head'.length
  · obtain ⟨rfl, -⟩ := List.append_inj same (flipped.length_eq.symm.trans width)
    exact flipped.ne (header.eq_of_length header' sameMajor sameValue width)
  have spec (b : UInt8) (k : Fin 8) := flipBit_spec k b
  cases header <;> cases header' <;> cases flipped <;>
    simp only [List.cons_append, List.cons.injEq] at same <;> grind

/-- A flip inside the header of a string does not change its width, as the string would be far
longer or far shorter than what follows. -/
theorem Flipped.width_eq (header : Header major value head) (long : 24 ≤ value)
    {changed : List UInt8} (flipped : Flipped head changed)
    (header' : Header major' value' head') (long' : 24 ≤ value')
    (same : changed ++ rest = head' ++ rest') (least : value ≤ rest.length)
    (most : rest.length ≤ value + 5) (least' : value' ≤ rest'.length)
    (most' : rest'.length ≤ value' + 5) : head.length = head'.length := by
  by_contra width
  have lengths := congrArg List.length same
  simp only [List.length_append, ← flipped.length_eq] at lengths
  cases header <;> cases header' <;> cases flipped <;>
    simp only [List.cons_append, List.cons.injEq, List.length_cons, List.length_nil] at same lengths <;>
      grind [UInt8.toNat_lt]

end Headers

/-- A body ends where its bytes say, whatever follows. -/
theorem AddressBody.unique (body : AddressBody front) (body' : AddressBody front')
    (same : front ++ rest = front' ++ rest') : front = front' ∧ rest = rest' := by
  obtain ⟨isBody, isRoot, size, isMap, areEntries, isType, -⟩ := body
  obtain ⟨isBody', isRoot', size', isMap', areEntries', isType', -⟩ := body'
  simp only [List.append_assoc] at same
  obtain ⟨-, -, rfl, afterBody⟩ := isBody.unique isBody' same
  obtain ⟨-, -, rfl, afterRoot⟩ := isRoot.unique isRoot' afterBody
  obtain ⟨rfl, afterDigest⟩ := List.append_inj afterRoot (size.trans size'.symm)
  obtain ⟨-, rfl, rfl, afterMap⟩ := isMap.unique isMap' afterDigest
  obtain ⟨rfl, afterEntries⟩ := areEntries.unique areEntries' afterMap
  obtain ⟨-, -, rfl, afterType⟩ := isType.unique isType' afterEntries
  exact ⟨rfl, afterType⟩

/-- No address is followed by bytes that make it another address. -/
theorem Address.unique (address : Address front) (address' : Address front')
    (same : front ++ rest = front' ++ rest') : front = front' := by
  obtain ⟨isOuter, isTag, isString, isBody, isChecksum⟩ := address
  obtain ⟨isOuter', isTag', isString', isBody', isChecksum'⟩ := address'
  simp only [List.append_assoc] at same
  obtain ⟨-, -, rfl, afterOuter⟩ := isOuter.unique isOuter' same
  obtain ⟨-, -, rfl, afterTag⟩ := isTag.unique isTag' afterOuter
  obtain ⟨-, -, rfl, afterString⟩ := isString.unique isString' afterTag
  obtain ⟨rfl, afterPayload⟩ := isBody.unique isBody' afterString
  obtain ⟨-, -, rfl, -⟩ := isChecksum.unique isChecksum' afterPayload
  rfl

/-- No address is another one with a bit flipped. -/
theorem Address.not_flipped {raw : List UInt8} (address : Address raw)
    (flipped : Flipped raw other) : ¬ Address other := by
  intro address'
  obtain @⟨outer, tag, string, payload, checksum, isOuter, isTag, isString, isBody, isChecksum⟩ :=
    address
  generalize whole : other = changed at address'
  obtain @⟨outer', tag', string', payload', checksum', isOuter', isTag', isString', isBody',
    isChecksum'⟩ := address'
  obtain ⟨changed, inOuter, rfl⟩ | ⟨afterOuter, inRest, rfl⟩ := flipped.append
  · exact inOuter.header_ne isOuter (by decide) isOuter' whole ⟨rfl, rfl⟩
  obtain ⟨-, -, -, atTag⟩ := isOuter.unique isOuter' whole
  obtain ⟨changed, inTag, rfl⟩ | ⟨afterTag, inItem, rfl⟩ := inRest.append
  · exact inTag.header_ne isTag (by decide) isTag' atTag ⟨rfl, rfl⟩
  obtain ⟨-, -, -, atString⟩ := isTag.unique isTag' atTag
  obtain ⟨changed, inString, rfl⟩ | ⟨afterString, inContent, rfl⟩ := inItem.append
  · have long := isBody.long
    have long' := isBody'.long
    have width := inString.width_eq isString (by omega) isString' (by omega) atString
      (by simp) (by simpa using isChecksum.length_le) (by simp) (by simpa using isChecksum'.length_le)
    obtain ⟨rfl, atPayload⟩ := List.append_inj atString (inString.length_eq.symm.trans width)
    obtain ⟨rfl, -⟩ := isBody.unique isBody' atPayload
    exact inString.ne (isString.eq_of_length isString' rfl rfl width)
  obtain ⟨-, size, -, atPayload⟩ := isString.unique isString' atString
  obtain ⟨changed, inPayload, rfl⟩ | ⟨changed, inChecksum, rfl⟩ := inContent.append
  · obtain ⟨rfl, rfl⟩ := List.append_inj atPayload (inPayload.length_eq.symm.trans size)
    obtain ⟨-, same, -⟩ := isChecksum.unique isChecksum' (rfl : checksum ++ [] = _)
    exact inPayload.ieee_ne (BitVec.eq_of_toNat_eq same)
  · obtain ⟨rfl, rfl⟩ := List.append_inj atPayload size
    exact inChecksum.ne (isChecksum.eq_of_length isChecksum' rfl rfl inChecksum.length_eq)

/-- One bit is flipped, or the end is cut off, or there are more bytes after it. -/
inductive Corrupted (raw : List UInt8) : List UInt8 → Prop where
  | flipped {other : List UInt8} (flip : Flipped raw other) : Corrupted raw other
  | truncated {other : List UInt8} (shorter : other <+: raw) (proper : other ≠ raw) :
      Corrupted raw other
  | extended {other : List UInt8} (longer : raw <+: other) (proper : other ≠ raw) :
      Corrupted raw other

/-- No text that decodes to a corruption of an accepted address is accepted. -/
theorem isByronAddress_rejects_corrupted (base58 : String → Option (List UInt8))
    {value value' : String} {raw other : List UInt8} (decoded : base58 value = some raw)
    (accepted : isByronAddress base58 value = true) (decoded' : base58 value' = some other)
    (corrupted : Corrupted raw other) : isByronAddress base58 value' = false := by
  obtain ⟨raw, again, readsRaw⟩ := isByronAddress_eq_true.mp accepted
  obtain rfl := Option.some.inj (decoded.symm.trans again)
  have address := address_of_raw readsRaw
  rw [Bool.eq_false_iff]
  intro accepted'
  obtain ⟨other, again', readsOther⟩ := isByronAddress_eq_true.mp accepted'
  obtain rfl := Option.some.inj (decoded'.symm.trans again')
  have address' := address_of_raw readsOther
  cases corrupted with
  | flipped flip => exact address.not_flipped flip address'
  | truncated shorter proper =>
    obtain ⟨rest, rfl⟩ := shorter
    exact proper (address'.unique address (List.append_nil _).symm)
  | extended longer proper =>
    obtain ⟨rest, rfl⟩ := longer
    exact proper (address.unique address' (List.append_nil _).symm).symm

/-- The payload of an Icarus address. -/
def icarusPayload : List UInt8 :=
  [0x83, 0x58, 0x1c, 0xba, 0x97, 0x0a, 0xd3, 0x66, 0x54, 0xd8, 0xdd, 0x8f, 0x74, 0x27, 0x4b, 0x73,
    0x34, 0x52, 0xdd, 0xea, 0xb9, 0xa6, 0x2a, 0x39, 0x77, 0x46, 0xbe, 0x3c, 0x42, 0xcc, 0xdd, 0xa0,
    0x00]

def icarusRaw : List UInt8 :=
  [0x82, 0xd8, 0x18, 0x58, 0x21] ++ (icarusPayload ++ [0x1a, 0x90, 0x26, 0xda, 0x5b])

/-- The decoder on the address and on the text of its bytes with one bit of the root flipped. -/
def icarusBase58 (text : String) : Option (List UInt8) :=
  if text = "Ae2tdPwUPEZFRbyhz3cpfC2CumGzNkFBN2L42rcUc2yjQpEkxDbkPodpMAi" then some icarusRaw
  else if text = "Ae2tdPwUPEZFRbztuK6opCRP6iMGhsv64jWpv4hUacGiF6chA2uC5WhtA9p" then
    some (icarusRaw.modify 10 (flipBit 2))
  else none

theorem icarus_address : Address icarusRaw := by
  have body : AddressBody icarusPayload :=
    .mk (.inline 0x83 (by decide)) (.one 0x58 0x1c (by decide))
      (rfl : ((icarusPayload.drop 3).take 28).length = 28) (.inline 0xa0 (by decide)) .nil
      (.inline 0x00 (by decide)) (by decide)
  have crc : (Crc.ieee icarusPayload).toNat = 0x9026da5b := by
    rw [← crc32_eq]
    set_option maxRecDepth 4000 in decide
  have checksum : Header 0 (Crc.ieee icarusPayload).toNat [0x1a, 0x90, 0x26, 0xda, 0x5b] := by
    rw [crc]
    exact .four 0x1a 0x90 0x26 0xda 0x5b (by decide)
  have string : Header 2 icarusPayload.length [0x58, 0x21] := .one 0x58 0x21 (by decide)
  exact .mk (.inline 0x82 (by decide)) (.one 0xd8 0x18 (by decide)) string body checksum

theorem icarus_flip_rejected : isByronAddress icarusBase58
    "Ae2tdPwUPEZFRbztuK6opCRP6iMGhsv64jWpv4hUacGiF6chA2uC5WhtA9p" = false :=
  @isByronAddress_rejects_corrupted icarusBase58
    "Ae2tdPwUPEZFRbyhz3cpfC2CumGzNkFBN2L42rcUc2yjQpEkxDbkPodpMAi" _ icarusRaw _ rfl
    (isByronAddress_eq_true.mpr ⟨icarusRaw, rfl, raw_of_address icarus_address⟩) rfl
    (.flipped (.there _ (.there _ (.there _ (.there _ (.there _ (.there _ (.there _ (.there _
      (.there _ (.there _ (.here 2 _ _))))))))))))

end WalletBackend.Byron
