import WalletBackend.Library.Cbor
import WalletBackend.Library.Crc

/-! `domain/byron-address.ts`: the CBOR reader that walks a Byron address by offset, and the
grammar of the addresses it accepts. A throw is `none`. -/
namespace WalletBackend.Byron

/-- One round of the inner loop of `crc32`. -/
def crcBit (crc : BitVec 32) : BitVec 32 :=
  let mask := -(crc &&& 1#32)
  (crc >>> 1) ^^^ (0xedb88320#32 &&& mask)

def crc32 (bytes : List UInt8) : Nat :=
  let crc := bytes.foldl (fun crc byte => crcBit^[8] (crc ^^^ BitVec.ofNat 32 byte.toNat))
    0xffffffff#32
  (crc ^^^ 0xffffffff#32).toNat

structure CborHeader where
  majorType : Nat
  value : Nat
  headerLength : Nat
  positive : 0 < headerLength := by decide
  deriving DecidableEq

def byteAt (bytes : List UInt8) (offset : Nat) : Option Nat := bytes[offset]?.map UInt8.toNat

def readCborHeader (bytes : List UInt8) (offset : Nat) : Option CborHeader := do
  let first ← byteAt bytes offset
  let majorType := first >>> 5
  let info := first &&& 0x1f
  if info < 24 then some ⟨majorType, info, 1, by decide⟩
  else if info = 24 then do
    let value ← byteAt bytes (offset + 1)
    some ⟨majorType, value, 2, by decide⟩
  else if info = 25 then do
    let high ← byteAt bytes (offset + 1)
    let low ← byteAt bytes (offset + 2)
    some ⟨majorType, (high <<< 8) ||| low, 3, by decide⟩
  else if info = 26 then do
    let top ← byteAt bytes (offset + 1)
    let second ← byteAt bytes (offset + 2)
    let third ← byteAt bytes (offset + 3)
    let fourth ← byteAt bytes (offset + 4)
    some ⟨majorType, top * 0x1000000 + ((second <<< 16) ||| (third <<< 8) ||| fourth), 5, by decide⟩
  else none

def CBOR_MAJOR_UNSIGNED_INT : Nat := 0
def CBOR_MAJOR_NEGATIVE_INT : Nat := 1
def CBOR_MAJOR_BYTE_STRING : Nat := 2
def CBOR_MAJOR_TEXT_STRING : Nat := 3
def CBOR_MAJOR_ARRAY : Nat := 4
def CBOR_MAJOR_MAP : Nat := 5
def CBOR_MAJOR_TAG : Nat := 6
def CBOR_TAG_ENCODED_CBOR : Nat := 24
def BYRON_ADDRESS_ROOT_BYTES : Nat := 28
def VALID_BYRON_ADDRESS_TYPES : List Nat := [0, 1, 2]

theorem readCborHeader_lt {bytes : List UInt8} {offset : Nat} {header : CborHeader}
    (read : readCborHeader bytes offset = some header) : offset < bytes.length := by
  by_contra outside
  have none : byteAt bytes offset = none := by
    simp [byteAt, List.getElem?_eq_none (Nat.le_of_not_lt outside)]
  simp [readCborHeader, none] at read

theorem le_of_past {offset next last : Nat} (past : offset < next) (further : next ≤ last) :
    offset ≤ last := by omega

mutual

/-- The offset past the item at `offset`. -/
def skipCborItem (bytes : List UInt8) (offset : Nat) : Option { next : Nat // offset < next } :=
  match read : readCborHeader bytes offset with
  | none => none
  | some header =>
    have := readCborHeader_lt read
    have := header.positive
    let next := offset + header.headerLength
    if header.majorType = CBOR_MAJOR_UNSIGNED_INT ∨ header.majorType = CBOR_MAJOR_NEGATIVE_INT then
      some ⟨next, by omega⟩
    else if header.majorType = CBOR_MAJOR_BYTE_STRING ∨
        header.majorType = CBOR_MAJOR_TEXT_STRING then
      if next + header.value > bytes.length then none
      else some ⟨next + header.value, by omega⟩
    else if header.majorType = CBOR_MAJOR_ARRAY then
      match skipCborItems bytes header.value next with
      | none => none
      | some ⟨last, past⟩ => some ⟨last, by omega⟩
    else if header.majorType = CBOR_MAJOR_MAP then
      match skipCborItems bytes (2 * header.value) next with
      | none => none
      | some ⟨last, past⟩ => some ⟨last, by omega⟩
    else if header.majorType = CBOR_MAJOR_TAG then
      match skipCborItem bytes next with
      | none => none
      | some ⟨last, past⟩ => some ⟨last, by omega⟩
    else none
termination_by (bytes.length - offset, 0)

/-- A loop of `count` calls of `skipCborItem`, each where the one before stopped. The loops over
the pairs of a map make two calls a round. -/
def skipCborItems (bytes : List UInt8) (count offset : Nat) :
    Option { next : Nat // offset ≤ next } :=
  match count with
  | 0 => some ⟨offset, Nat.le_refl offset⟩
  | count + 1 =>
    match skipCborItem bytes offset with
    | none => none
    | some ⟨next, past⟩ =>
      match skipCborItems bytes count next with
      | none => none
      | some ⟨last, further⟩ => some ⟨last, le_of_past past further⟩
termination_by (bytes.length - offset, count + 1)
decreasing_by
  · simp [Prod.lex_def]
  · simp only [Prod.lex_def]
    omega

end

def isByronAddressPayload (payload : List UInt8) : Option Bool := do
  let offset := 0
  let body ← readCborHeader payload offset
  if body.majorType ≠ CBOR_MAJOR_ARRAY ∨ body.value ≠ 3 then some false
  else do
    let offset := offset + body.headerLength
    let root ← readCborHeader payload offset
    if root.majorType ≠ CBOR_MAJOR_BYTE_STRING ∨ root.value ≠ BYRON_ADDRESS_ROOT_BYTES then
      some false
    else do
      let offset := offset + root.headerLength
      if offset + root.value > payload.length then some false
      else do
        let offset := offset + root.value
        let attributes ← readCborHeader payload offset
        if attributes.majorType ≠ CBOR_MAJOR_MAP then some false
        else do
          let offset := offset + attributes.headerLength
          let ⟨offset, _⟩ ← skipCborItems payload (2 * attributes.value) offset
          let type ← readCborHeader payload offset
          if type.majorType ≠ CBOR_MAJOR_UNSIGNED_INT ∨
              ¬ VALID_BYRON_ADDRESS_TYPES.contains type.value then some false
          else
            let offset := offset + type.headerLength
            some (offset == payload.length)

/-- The body of the `try`, after the decoding. -/
def isByronAddressRaw (raw : List UInt8) : Option Bool := do
  let offset := 0
  let outer ← readCborHeader raw offset
  if outer.majorType ≠ CBOR_MAJOR_ARRAY ∨ outer.value ≠ 2 then some false
  else do
    let offset := offset + outer.headerLength
    let tag ← readCborHeader raw offset
    if tag.majorType ≠ CBOR_MAJOR_TAG ∨ tag.value ≠ CBOR_TAG_ENCODED_CBOR then some false
    else do
      let offset := offset + tag.headerLength
      let payloadHeader ← readCborHeader raw offset
      if payloadHeader.majorType ≠ CBOR_MAJOR_BYTE_STRING then some false
      else do
        let offset := offset + payloadHeader.headerLength
        if offset + payloadHeader.value > raw.length then some false
        else do
          let payload := (raw.drop offset).take payloadHeader.value
          let offset := offset + payloadHeader.value
          let checksum ← readCborHeader raw offset
          if checksum.majorType ≠ CBOR_MAJOR_UNSIGNED_INT then some false
          else do
            let offset := offset + checksum.headerLength
            if offset ≠ raw.length then some false
            else do
              let body ← isByronAddressPayload payload
              if !body then some false
              else some (crc32 payload == checksum.value)

/-- `isByronAddress`, over the base58 decoder. -/
def isByronAddress (base58 : String → Option (List UInt8)) (value : String) : Bool :=
  match (do let raw ← base58 value; isByronAddressRaw raw) with
  | some accepted => accepted
  | none => false

end WalletBackend.Byron
