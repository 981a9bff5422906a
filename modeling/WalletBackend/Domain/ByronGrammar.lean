import WalletBackend.Domain.ByronAddress

/-! The addresses that `isByronAddress` accepts are those of the grammar. -/
namespace WalletBackend.Byron

open Cbor

/-- `[addressRoot, addressAttributes, addressType]`, with nothing after it. -/
inductive AddressBody : List UInt8 → Prop where
  | mk {body root digest attributes entries type : List UInt8} {count kind : Nat}
      (isBody : Header 4 3 body) (isRoot : Header 2 28 root) (size : digest.length = 28)
      (isMap : Header 5 count attributes) (areEntries : Items (2 * count) entries)
      (isType : Header 0 kind type) (known : kind ∈ [0, 1, 2]) :
      AddressBody (body ++ (root ++ (digest ++ (attributes ++ (entries ++ type)))))

/-- `[ #6.24(bytes), crc32 ]`, with nothing after it. -/
inductive Address : List UInt8 → Prop where
  | mk {outer tag string payload checksum : List UInt8} (isOuter : Header 4 2 outer)
      (isTag : Header 6 24 tag) (isString : Header 2 payload.length string)
      (isBody : AddressBody payload) (isChecksum : Header 0 (Crc.ieee payload).toNat checksum) :
      Address (outer ++ (tag ++ (string ++ (payload ++ checksum))))

theorem AddressBody.long {payload : List UInt8} (body : AddressBody payload) :
    28 ≤ payload.length := by
  cases body with
  | mk isBody isRoot size =>
    simp only [List.length_append]
    omega

theorem crcBit_eq (crc : BitVec 32) : crcBit crc = Crc.step Crc.ieeePoly crc := by
  rw [crcBit, Crc.step, Crc.ieeePoly, BitVec.and_one_eq_setWidth_ofBool_getLsbD]
  cases crc.getLsbD 0 <;> simp

theorem crc32_eq (bytes : List UInt8) : crc32 bytes = (Crc.ieee bytes).toNat := by
  have bit : crcBit = Crc.step Crc.ieeePoly := funext crcBit_eq
  have feed : (fun crc (byte : UInt8) => crcBit^[8] (crc ^^^ BitVec.ofNat 32 byte.toNat)) =
      Crc.feed Crc.ieeePoly := by
    funext crc byte
    rw [bit, Crc.feed, UInt8.toNat, BitVec.ofNat_toNat]
  rw [crc32, feed, Crc.ieee_eq_register, Crc.register]
  exact congrArg BitVec.toNat BitVec.xor_allOnes

section Reading

variable {bytes head rest : List UInt8} {offset major value : Nat}

theorem byteAt_eq (at_offset : bytes.drop offset = rest) (k : Nat) :
    byteAt bytes (offset + k) = rest[k]?.map UInt8.toNat := by
  rw [← at_offset, List.getElem?_drop, byteAt]

theorem shiftRight_five (n : Nat) : n >>> 5 = n / 32 := Nat.shiftRight_eq_div_pow n 5

theorem and_low_bits (n : Nat) : n &&& 0x1f = n % 32 := Nat.and_two_pow_sub_one_eq_mod n 5

theorem or_two (x y : UInt8) : (x.toNat <<< 8) ||| y.toNat = x.toNat * 256 + y.toNat := by
  rw [← Nat.shiftLeft_add_eq_or_of_lt y.toNat_lt, Nat.shiftLeft_eq]

theorem or_three (x y z : UInt8) : (x.toNat <<< 16) ||| (y.toNat <<< 8) ||| z.toNat =
    x.toNat * 65536 + y.toNat * 256 + z.toNat := by
  have := y.toNat_lt
  have := z.toNat_lt
  rw [Nat.or_assoc, or_two, ← Nat.shiftLeft_add_eq_or_of_lt (by omega), Nat.shiftLeft_eq]
  omega

/-- The header at an offset is read. -/
theorem readCborHeader_of_header (header : Header major value head)
    (here : bytes.drop offset = head ++ rest) :
    readCborHeader bytes offset = some ⟨major, value, head.length, header.length_pos⟩ := by
  have byte := byteAt_eq here
  cases header with
  | inline b short =>
    rw [readCborHeader, show byteAt bytes offset = some b.toNat from byte 0]
    simp only [Option.bind_eq_bind, Option.bind_some, shiftRight_five, and_low_bits, if_pos short]
    rfl
  | one b x info =>
    rw [readCborHeader, show byteAt bytes offset = some b.toNat from byte 0,
      show byteAt bytes (offset + 1) = some x.toNat from byte 1]
    simp only [Option.bind_eq_bind, Option.bind_some, shiftRight_five, and_low_bits, info]
    rfl
  | two b x y info =>
    rw [readCborHeader, show byteAt bytes offset = some b.toNat from byte 0,
      show byteAt bytes (offset + 1) = some x.toNat from byte 1,
      show byteAt bytes (offset + 2) = some y.toNat from byte 2]
    simp only [Option.bind_eq_bind, Option.bind_some, shiftRight_five, and_low_bits, info, or_two]
    rfl
  | four b w x y z info =>
    have sum : w.toNat * 0x1000000 + (x.toNat * 65536 + y.toNat * 256 + z.toNat) =
        ((w.toNat * 256 + x.toNat) * 256 + y.toNat) * 256 + z.toNat := by
      omega
    rw [readCborHeader, show byteAt bytes offset = some b.toNat from byte 0,
      show byteAt bytes (offset + 1) = some w.toNat from byte 1,
      show byteAt bytes (offset + 2) = some x.toNat from byte 2,
      show byteAt bytes (offset + 3) = some y.toNat from byte 3,
      show byteAt bytes (offset + 4) = some z.toNat from byte 4]
    simp only [Option.bind_eq_bind, Option.bind_some, shiftRight_five, and_low_bits, info, or_three,
      sum]
    rfl

/-- Where a header is read, there is one. -/
theorem exists_header {header : CborHeader} (read : readCborHeader bytes offset = some header) :
    ∃ major value head rest, Header major value head ∧ bytes.drop offset = head ++ rest := by
  have byte := @byteAt_eq bytes _ offset rfl
  cases here : bytes.drop offset with
  | nil =>
    have first : byteAt bytes offset = none := by simpa [here] using byte 0
    simp [readCborHeader, first] at read
  | cons b rest =>
    have first : byteAt bytes offset = some b.toNat := by simpa [here] using byte 0
    simp only [readCborHeader, first, Option.bind_eq_bind, Option.bind_some, shiftRight_five,
      and_low_bits] at read
    have later (k : Nat) : byteAt bytes (offset + (k + 1)) = rest[k]?.map UInt8.toNat := by
      simpa [here] using byte (k + 1)
    split at read
    case isTrue short => exact ⟨_, _, [b], rest, .inline b short, rfl⟩
    split at read
    case isTrue info =>
      obtain _ | ⟨x, rest⟩ := rest
      · simp [later 0] at read
      · exact ⟨_, _, [b, x], rest, .one b x info, rfl⟩
    split at read
    case isTrue info =>
      obtain _ | ⟨x, _ | ⟨y, rest⟩⟩ := rest
      · simp [later 0] at read
      · simp [later 0, later 1] at read
      · exact ⟨_, _, [b, x, y], rest, .two b x y info, rfl⟩
    split at read
    case isTrue info =>
      obtain _ | ⟨w, _ | ⟨x, _ | ⟨y, _ | ⟨z, rest⟩⟩⟩⟩ := rest
      · simp [later 0] at read
      · simp [later 0, later 1] at read
      · simp [later 0, later 1, later 2] at read
      · simp [later 0, later 1, later 2, later 3] at read
      · exact ⟨_, _, [b, w, x, y, z], rest, .four b w x y z info, rfl⟩
    contradiction

/-- What is read at an offset is a header that is there. -/
theorem header_of_readCborHeader {header : CborHeader}
    (read : readCborHeader bytes offset = some header) :
    ∃ head, Header header.majorType header.value head ∧ header.headerLength = head.length ∧
      bytes.drop offset = head ++ bytes.drop (offset + header.headerLength) := by
  obtain ⟨major, value, head, rest, isHeader, here⟩ := exists_header read
  obtain rfl := Option.some.inj ((readCborHeader_of_header isHeader here).symm.trans read)
  refine ⟨head, isHeader, rfl, ?_⟩
  rw [← List.drop_drop, here, List.drop_left]

end Reading

section Skipping

variable {bytes head content others rest : List UInt8} {offset next count major value : Nat}

/-- Where `skipCborItem` stops. -/
def itemEnd (bytes : List UInt8) (offset : Nat) : Option Nat :=
  (skipCborItem bytes offset).map Subtype.val

/-- Where `count` calls of `skipCborItem` stop. -/
def itemsEnd (bytes : List UInt8) (count offset : Nat) : Option Nat :=
  (skipCborItems bytes count offset).map Subtype.val

theorem itemEnd_of_read {header : CborHeader} (read : readCborHeader bytes offset = some header) :
    itemEnd bytes offset =
      let next := offset + header.headerLength
      if header.majorType = CBOR_MAJOR_UNSIGNED_INT ∨
          header.majorType = CBOR_MAJOR_NEGATIVE_INT then some next
      else if header.majorType = CBOR_MAJOR_BYTE_STRING ∨
          header.majorType = CBOR_MAJOR_TEXT_STRING then
        if next + header.value > bytes.length then none else some (next + header.value)
      else if header.majorType = CBOR_MAJOR_ARRAY then itemsEnd bytes header.value next
      else if header.majorType = CBOR_MAJOR_MAP then itemsEnd bytes (2 * header.value) next
      else if header.majorType = CBOR_MAJOR_TAG then itemEnd bytes next
      else none := by
  rw [itemEnd, skipCborItem]
  split
  · simp_all
  · rename_i found same
    obtain rfl := Option.some.inj (same.symm.trans read)
    dsimp only [itemEnd, itemsEnd]
    by_cases integer : found.majorType = CBOR_MAJOR_UNSIGNED_INT ∨
        found.majorType = CBOR_MAJOR_NEGATIVE_INT
    · simp only [if_pos integer, Option.map_some]
    by_cases string : found.majorType = CBOR_MAJOR_BYTE_STRING ∨
        found.majorType = CBOR_MAJOR_TEXT_STRING
    · simp only [if_neg integer, if_pos string]
      split <;> rfl
    by_cases array : found.majorType = CBOR_MAJOR_ARRAY
    · simp only [if_neg integer, if_neg string, if_pos array]
      cases skipCborItems bytes found.value (offset + found.headerLength) <;> rfl
    by_cases map : found.majorType = CBOR_MAJOR_MAP
    · simp only [if_neg integer, if_neg string, if_neg array, if_pos map]
      cases skipCborItems bytes (2 * found.value) (offset + found.headerLength) <;> rfl
    by_cases tag : found.majorType = CBOR_MAJOR_TAG
    · simp only [if_neg integer, if_neg string, if_neg array, if_neg map, if_pos tag]
      cases skipCborItem bytes (offset + found.headerLength) <;> rfl
    simp only [if_neg integer, if_neg string, if_neg array, if_neg map, if_neg tag, Option.map_none]

theorem itemEnd_of_unread (read : readCborHeader bytes offset = none) :
    itemEnd bytes offset = none := by
  rw [itemEnd, skipCborItem]
  split
  · rfl
  · simp_all

@[simp] theorem itemsEnd_zero (bytes : List UInt8) (offset : Nat) :
    itemsEnd bytes 0 offset = some offset := by
  rw [itemsEnd, skipCborItems]
  rfl

@[simp] theorem itemsEnd_succ (bytes : List UInt8) (count offset : Nat) :
    itemsEnd bytes (count + 1) offset =
      (itemEnd bytes offset).bind fun next => itemsEnd bytes count next := by
  rw [itemsEnd, skipCborItems, itemEnd]
  split
  · simp [*]
  · split <;> simp_all [itemsEnd]

theorem itemsEnd_one (bytes : List UInt8) (offset : Nat) :
    itemsEnd bytes 1 offset = itemEnd bytes offset := by
  simp

theorem drop_after (here : bytes.drop offset = head ++ rest) :
    bytes.drop (offset + head.length) = rest := by
  rw [← List.drop_drop, here, List.drop_left]

theorem drop_eq_take_append (bytes : List UInt8) (offset count : Nat) :
    bytes.drop offset = (bytes.drop offset).take count ++ bytes.drop (offset + count) := by
  rw [← List.drop_drop, List.take_append_drop]

/-- Items at an offset are skipped. -/
theorem itemsEnd_of_items (items : Items count content)
    (here : bytes.drop offset = content ++ rest) :
    itemsEnd bytes count offset = some (offset + content.length) := by
  induction items generalizing offset rest with
  | nil => exact itemsEnd_zero bytes offset
  | @integer major value n head others header kind _ ih =>
    rw [List.append_assoc] at here
    have first : itemEnd bytes offset = some (offset + head.length) := by
      rw [itemEnd_of_read (readCborHeader_of_header header here)]
      obtain rfl | rfl := kind <;> rfl
    rw [itemsEnd_succ, first, Option.bind_some, ih (drop_after here)]
    simp [Nat.add_assoc]
  | @string major n head content others header kind _ ih =>
    rw [List.append_assoc, List.append_assoc] at here
    have inside := drop_after here
    have fits : ¬ offset + head.length + content.length > bytes.length := by
      have lengths := congrArg List.length here
      have := header.length_pos
      simp only [List.length_drop, List.length_append] at lengths
      omega
    have first : itemEnd bytes offset = some (offset + head.length + content.length) := by
      rw [itemEnd_of_read (readCborHeader_of_header header here)]
      obtain rfl | rfl := kind <;> exact if_neg fits
    rw [itemsEnd_succ, first, Option.bind_some, ih (drop_after inside)]
    simp [Nat.add_assoc]
  | @array value n head content others header _ _ ihElements ih =>
    rw [List.append_assoc, List.append_assoc] at here
    have inside := drop_after here
    have contentEnd := ihElements inside
    have first : itemEnd bytes offset = some (offset + head.length + content.length) := by
      rw [itemEnd_of_read (readCborHeader_of_header header here)]
      exact contentEnd
    rw [itemsEnd_succ, first, Option.bind_some, ih (drop_after inside)]
    simp [Nat.add_assoc]
  | @map value n head content others header _ _ ihEntries ih =>
    rw [List.append_assoc, List.append_assoc] at here
    have inside := drop_after here
    have contentEnd := ihEntries inside
    have first : itemEnd bytes offset = some (offset + head.length + content.length) := by
      rw [itemEnd_of_read (readCborHeader_of_header header here)]
      exact contentEnd
    rw [itemsEnd_succ, first, Option.bind_some, ih (drop_after inside)]
    simp [Nat.add_assoc]
  | @tag number n head content others header _ _ ihTagged ih =>
    rw [List.append_assoc, List.append_assoc] at here
    have inside := drop_after here
    have contentEnd := ihTagged inside
    rw [itemsEnd_one] at contentEnd
    have first : itemEnd bytes offset = some (offset + head.length + content.length) := by
      rw [itemEnd_of_read (readCborHeader_of_header header here)]
      exact contentEnd
    rw [itemsEnd_succ, first, Option.bind_some, ih (drop_after inside)]
    simp [Nat.add_assoc]

mutual

/-- What is skipped is an item. -/
theorem item_of_itemEnd (bytes : List UInt8) (offset : Nat) {next : Nat}
    (skipped : itemEnd bytes offset = some next) :
    ∃ content, Items 1 content ∧ bytes.drop offset = content ++ bytes.drop next := by
  cases read : readCborHeader bytes offset with
  | none => simp [itemEnd_of_unread read] at skipped
  | some header =>
    obtain ⟨head, isHeader, size, here⟩ := header_of_readCborHeader read
    have inside := readCborHeader_lt read
    have positive := header.positive
    obtain ⟨major, value, headerLength, _⟩ := header
    dsimp only at *
    rw [itemEnd_of_read read] at skipped
    dsimp only at skipped
    split at skipped
    case isTrue kind =>
      obtain rfl := Option.some.inj skipped
      exact ⟨head ++ [], .integer isHeader kind .nil, by simpa using here⟩
    split at skipped
    case isTrue kind =>
      split at skipped
      · contradiction
      · rename_i fits
        obtain rfl := Option.some.inj skipped
        generalize made : (bytes.drop (offset + headerLength)).take value = content
        have length : content.length = value := by
          rw [← made, List.length_take, List.length_drop]
          omega
        have rest : bytes.drop (offset + headerLength) =
            content ++ bytes.drop (offset + headerLength + value) := by
          rw [← made]
          exact drop_eq_take_append bytes (offset + headerLength) value
        exact ⟨head ++ content ++ [], .string (length ▸ isHeader) kind .nil, by simp [here, rest]⟩
    split at skipped
    case isTrue kind =>
      obtain rfl := kind
      obtain ⟨content, elements, rest⟩ := items_of_itemsEnd bytes _ _ skipped
      exact ⟨head ++ content ++ [], .array isHeader elements .nil, by simp [here, rest]⟩
    split at skipped
    case isTrue kind =>
      obtain rfl := kind
      obtain ⟨content, entries, rest⟩ := items_of_itemsEnd bytes _ _ skipped
      exact ⟨head ++ content ++ [], .map isHeader entries .nil, by simp [here, rest]⟩
    split at skipped
    case isTrue kind =>
      obtain rfl := kind
      obtain ⟨content, tagged, rest⟩ := item_of_itemEnd bytes _ skipped
      exact ⟨head ++ content ++ [], .tag isHeader tagged .nil, by simp [here, rest]⟩
    contradiction
termination_by (bytes.length - offset, 0)

/-- What a loop skips are its items. -/
theorem items_of_itemsEnd (bytes : List UInt8) (count offset : Nat) {next : Nat}
    (skipped : itemsEnd bytes count offset = some next) :
    ∃ content, Items count content ∧ bytes.drop offset = content ++ bytes.drop next := by
  match count with
  | 0 =>
    obtain rfl := Option.some.inj ((itemsEnd_zero bytes offset).symm.trans skipped)
    exact ⟨[], .nil, rfl⟩
  | count + 1 =>
    rw [itemsEnd_succ] at skipped
    obtain ⟨middle, first, others⟩ := Option.bind_eq_some_iff.mp skipped
    have past : offset < middle := by
      obtain ⟨⟨next, past⟩, -, rfl⟩ := Option.map_eq_some_iff.mp first
      exact past
    obtain ⟨item, isItem, here⟩ := item_of_itemEnd bytes offset first
    obtain ⟨content, areItems, rest⟩ := items_of_itemsEnd bytes count middle others
    exact ⟨item ++ content, isItem.append areItems, by rw [here, rest, List.append_assoc]⟩
termination_by (bytes.length - offset, count + 1)
decreasing_by
  · simp [Prod.lex_def]
  · simp only [Prod.lex_def]
    omega

end

end Skipping

section Checking

variable {payload raw : List UInt8}

theorem skipCborItems_of_itemsEnd {bytes : List UInt8} {count offset next : Nat}
    (skipped : itemsEnd bytes count offset = some next) :
    ∃ past, skipCborItems bytes count offset = some ⟨next, past⟩ := by
  obtain ⟨⟨next, past⟩, found, rfl⟩ := Option.map_eq_some_iff.mp skipped
  exact ⟨past, found⟩

theorem payload_of_addressBody (isAddress : AddressBody payload) :
    isByronAddressPayload payload = some true := by
  obtain @⟨body, root, digest, attributes, entries, type, count, kind, isBody, isRoot, size, isMap,
    areEntries, isType, known⟩ := isAddress
  generalize whole : body ++ (root ++ (digest ++ (attributes ++ (entries ++ type)))) = payload
  have atBody : payload.drop 0 = _ := whole.symm
  have atRoot := drop_after atBody
  have atDigest := drop_after atRoot
  have atMap := drop_after atDigest
  rw [size] at atMap
  have atEntries := drop_after atMap
  have atType : payload.drop (0 + body.length + root.length + 28 + attributes.length +
      entries.length) = type ++ [] := by
    rw [List.append_nil]
    exact drop_after atEntries
  obtain ⟨past, skipped⟩ := skipCborItems_of_itemsEnd (itemsEnd_of_items areEntries atEntries)
  have lengths := congrArg List.length whole
  simp only [List.length_append] at lengths
  have fits : ¬ 0 + body.length + root.length + 28 > payload.length := by omega
  have ending : 0 + body.length + root.length + 28 + attributes.length + entries.length +
      type.length = payload.length := by omega
  have valid : ¬ (0 ≠ CBOR_MAJOR_UNSIGNED_INT ∨ ¬ VALID_BYRON_ADDRESS_TYPES.contains kind) := by
    rw [VALID_BYRON_ADDRESS_TYPES, CBOR_MAJOR_UNSIGNED_INT, List.contains_iff_mem]
    exact fun wrong => wrong.elim (fun other => other rfl) fun unknown => unknown known
  rw [isByronAddressPayload]
  simp only [Option.bind_eq_bind]
  rw [readCborHeader_of_header isBody atBody, Option.bind_some, if_neg (by simp [CBOR_MAJOR_ARRAY]),
    readCborHeader_of_header isRoot atRoot, Option.bind_some]
  dsimp only
  rw [if_neg (by decide), if_neg fits, readCborHeader_of_header isMap atMap, Option.bind_some]
  dsimp only
  rw [if_neg (by decide), skipped, Option.bind_some, readCborHeader_of_header isType atType,
    Option.bind_some]
  dsimp only
  rw [if_neg valid, ending, beq_self_eq_true]

/-- A check that returns `false` has not. -/
theorem refuse_eq_some {wrong : Prop} [Decidable wrong] {checks : Option Bool} :
    (if wrong then some false else checks) = some true ↔ ¬ wrong ∧ checks = some true := by
  by_cases found : wrong <;> simp [found]

theorem addressBody_of_payload (accepted : isByronAddressPayload payload = some true) :
    AddressBody payload := by
  simp only [isByronAddressPayload, Option.bind_eq_bind] at accepted
  obtain ⟨body, readBody, accepted⟩ := Option.bind_eq_some_iff.mp accepted
  obtain ⟨bodyKind, accepted⟩ := refuse_eq_some.mp accepted
  obtain ⟨root, readRoot, accepted⟩ := Option.bind_eq_some_iff.mp accepted
  obtain ⟨rootKind, accepted⟩ := refuse_eq_some.mp accepted
  obtain ⟨rootFits, accepted⟩ := refuse_eq_some.mp accepted
  obtain ⟨attributes, readAttributes, accepted⟩ := Option.bind_eq_some_iff.mp accepted
  obtain ⟨mapKind, accepted⟩ := refuse_eq_some.mp accepted
  obtain ⟨⟨afterEntries, past⟩, skipped, accepted⟩ := Option.bind_eq_some_iff.mp accepted
  obtain ⟨type, readType, accepted⟩ := Option.bind_eq_some_iff.mp accepted
  obtain ⟨typeKind, accepted⟩ := refuse_eq_some.mp accepted
  have ending : afterEntries + type.headerLength = payload.length := by simpa using accepted
  obtain ⟨bodyHead, isBody, -, atBody⟩ := header_of_readCborHeader readBody
  obtain ⟨rootHead, isRoot, -, atRoot⟩ := header_of_readCborHeader readRoot
  obtain ⟨mapHead, isMap, -, atMap⟩ := header_of_readCborHeader readAttributes
  obtain ⟨entries, areEntries, atEntries⟩ :=
    items_of_itemsEnd payload (2 * attributes.value) _ (congrArg (Option.map Subtype.val) skipped)
  obtain ⟨typeHead, isType, -, atType⟩ := header_of_readCborHeader readType
  dsimp only at atEntries atType
  rw [ending, List.drop_length, List.append_nil] at atType
  have atDigest := drop_eq_take_append payload (0 + body.headerLength + root.headerLength) root.value
  have size : ((payload.drop (0 + body.headerLength + root.headerLength)).take root.value).length =
      root.value := by
    rw [List.length_take, List.length_drop]
    omega
  generalize (payload.drop (0 + body.headerLength + root.headerLength)).take root.value = digest
    at atDigest size
  have whole : payload =
      bodyHead ++ (rootHead ++ (digest ++ (mapHead ++ (entries ++ typeHead)))) := by
    rw [← atType, ← atEntries, ← atMap, ← atDigest, ← atRoot, ← atBody, List.drop_zero]
  obtain ⟨bodyMajor, bodyValue⟩ : body.majorType = CBOR_MAJOR_ARRAY ∧ body.value = 3 := by
    simpa using bodyKind
  obtain ⟨rootMajor, rootValue⟩ :
      root.majorType = CBOR_MAJOR_BYTE_STRING ∧ root.value = BYRON_ADDRESS_ROOT_BYTES := by
    simpa using rootKind
  have mapMajor : attributes.majorType = CBOR_MAJOR_MAP := by simpa using mapKind
  obtain ⟨typeMajor, known⟩ : type.majorType = CBOR_MAJOR_UNSIGNED_INT ∧
      type.value ∈ VALID_BYRON_ADDRESS_TYPES := by
    simpa using typeKind
  rw [bodyMajor, bodyValue] at isBody
  rw [rootMajor, rootValue] at isRoot
  rw [mapMajor] at isMap
  rw [typeMajor] at isType
  rw [whole]
  exact .mk isBody isRoot (size.trans rootValue) isMap areEntries isType known

theorem address_of_raw (accepted : isByronAddressRaw raw = some true) : Address raw := by
  simp only [isByronAddressRaw, Option.bind_eq_bind] at accepted
  obtain ⟨outer, readOuter, accepted⟩ := Option.bind_eq_some_iff.mp accepted
  obtain ⟨outerKind, accepted⟩ := refuse_eq_some.mp accepted
  obtain ⟨tag, readTag, accepted⟩ := Option.bind_eq_some_iff.mp accepted
  obtain ⟨tagKind, accepted⟩ := refuse_eq_some.mp accepted
  obtain ⟨string, readString, accepted⟩ := Option.bind_eq_some_iff.mp accepted
  obtain ⟨stringKind, accepted⟩ := refuse_eq_some.mp accepted
  obtain ⟨fits, accepted⟩ := refuse_eq_some.mp accepted
  obtain ⟨checksum, readChecksum, accepted⟩ := Option.bind_eq_some_iff.mp accepted
  obtain ⟨checksumKind, accepted⟩ := refuse_eq_some.mp accepted
  obtain ⟨ending, accepted⟩ := refuse_eq_some.mp accepted
  obtain ⟨body, isBody, accepted⟩ := Option.bind_eq_some_iff.mp accepted
  obtain ⟨verdict, accepted⟩ := refuse_eq_some.mp accepted
  obtain ⟨outerHead, isOuter, -, atOuter⟩ := header_of_readCborHeader readOuter
  obtain ⟨tagHead, isTag, -, atTag⟩ := header_of_readCborHeader readTag
  obtain ⟨stringHead, isString, -, atString⟩ := header_of_readCborHeader readString
  obtain ⟨checksumHead, isChecksum, -, atChecksum⟩ := header_of_readCborHeader readChecksum
  rw [not_not.mp ending, List.drop_length, List.append_nil] at atChecksum
  generalize start : 0 + outer.headerLength + tag.headerLength + string.headerLength = offset
    at *
  have atPayload := drop_eq_take_append raw offset string.value
  have size : ((raw.drop offset).take string.value).length = string.value := by
    rw [List.length_take, List.length_drop]
    omega
  generalize (raw.drop offset).take string.value = payload at *
  have whole : raw = outerHead ++ (tagHead ++ (stringHead ++ (payload ++ checksumHead))) := by
    rw [← atChecksum, ← atPayload, ← atString, ← atTag, ← atOuter, List.drop_zero]
  obtain ⟨outerMajor, outerValue⟩ : outer.majorType = CBOR_MAJOR_ARRAY ∧ outer.value = 2 := by
    simpa using outerKind
  obtain ⟨tagMajor, tagValue⟩ :
      tag.majorType = CBOR_MAJOR_TAG ∧ tag.value = CBOR_TAG_ENCODED_CBOR := by
    simpa using tagKind
  have stringMajor : string.majorType = CBOR_MAJOR_BYTE_STRING := by simpa using stringKind
  have checksumMajor : checksum.majorType = CBOR_MAJOR_UNSIGNED_INT := by simpa using checksumKind
  obtain rfl : body = true := by simpa using verdict
  have same : crc32 payload = checksum.value := by simpa using accepted
  rw [crc32_eq] at same
  rw [outerMajor, outerValue] at isOuter
  rw [tagMajor, tagValue] at isTag
  rw [stringMajor, ← size] at isString
  rw [checksumMajor, ← same] at isChecksum
  rw [whole]
  exact .mk isOuter isTag isString (addressBody_of_payload isBody) isChecksum

theorem raw_of_address (isAddress : Address raw) : isByronAddressRaw raw = some true := by
  obtain @⟨outer, tag, string, payload, checksum, isOuter, isTag, isString, isBody, isChecksum⟩ :=
    isAddress
  generalize whole : outer ++ (tag ++ (string ++ (payload ++ checksum))) = raw
  have atOuter : raw.drop 0 = _ := whole.symm
  have atTag := drop_after atOuter
  have atString := drop_after atTag
  have atPayload := drop_after atString
  have atChecksum : raw.drop (0 + outer.length + tag.length + string.length + payload.length) =
      checksum ++ [] := by
    rw [List.append_nil]
    exact drop_after atPayload
  have taken : (raw.drop (0 + outer.length + tag.length + string.length)).take payload.length =
      payload := by
    rw [atPayload, List.take_left]
  have lengths := congrArg List.length whole
  simp only [List.length_append] at lengths
  have fits : ¬ 0 + outer.length + tag.length + string.length + payload.length > raw.length := by
    omega
  have ending : 0 + outer.length + tag.length + string.length + payload.length +
      checksum.length = raw.length := by omega
  rw [isByronAddressRaw]
  simp only [Option.bind_eq_bind]
  rw [readCborHeader_of_header isOuter atOuter, Option.bind_some, if_neg (by simp [CBOR_MAJOR_ARRAY]),
    readCborHeader_of_header isTag atTag, Option.bind_some]
  dsimp only
  rw [if_neg (by decide), readCborHeader_of_header isString atString, Option.bind_some]
  dsimp only
  rw [if_neg (by decide), if_neg fits, readCborHeader_of_header isChecksum atChecksum,
    Option.bind_some]
  dsimp only
  rw [if_neg (by decide), if_neg (not_not.mpr ending), taken, payload_of_addressBody isBody,
    Option.bind_some, if_neg (by decide), crc32_eq, beq_self_eq_true]

theorem isByronAddressRaw_iff (raw : List UInt8) :
    isByronAddressRaw raw = some true ↔ Address raw :=
  ⟨address_of_raw, raw_of_address⟩

theorem isByronAddress_eq_true {base58 : String → Option (List UInt8)} {value : String} :
    isByronAddress base58 value = true ↔
      ∃ raw, base58 value = some raw ∧ isByronAddressRaw raw = some true := by
  rw [isByronAddress]
  cases base58 value with
  | none => simp
  | some raw =>
    simp only [Option.bind_eq_bind, Option.bind_some, Option.some.injEq, exists_eq_left']
    cases isByronAddressRaw raw <;> simp

theorem address_of_accepted {base58 : String → Option (List UInt8)} {value : String}
    (accepted : isByronAddress base58 value = true) :
    ∃ raw, base58 value = some raw ∧ Address raw := by
  obtain ⟨raw, decoded, valid⟩ := isByronAddress_eq_true.mp accepted
  exact ⟨raw, decoded, (isByronAddressRaw_iff raw).mp valid⟩

/-- The checker ends on every byte string and accepts the strings of the grammar. -/
theorem isByronAddress_iff_grammar (base58 : String → Option (List UInt8)) (value : String) :
    isByronAddress base58 value = true ↔ ∃ raw, base58 value = some raw ∧ Address raw := by
  refine ⟨address_of_accepted, ?_⟩
  rintro ⟨raw, decoded, address⟩
  exact isByronAddress_eq_true.mpr ⟨raw, decoded, (isByronAddressRaw_iff raw).mpr address⟩

end Checking

end WalletBackend.Byron
