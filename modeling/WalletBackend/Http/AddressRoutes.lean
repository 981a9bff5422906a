import WalletBackend.Http.AccountRoutes
import WalletBackend.Koios.Addresses
import WalletBackend.Library.Distinct

/-! The routes that are keyed by an address set. -/
namespace WalletBackend.Http
open Interaction Koios

def CREDENTIAL_BYTES : Nat := 28
def BASE_ADDRESS_BYTES : Nat := 1 + CREDENTIAL_BYTES * 2
def ENTERPRISE_ADDRESS_BYTES : Nat := 1 + CREDENTIAL_BYTES
def POINTER_PREFIX_BYTES : Nat := 1 + CREDENTIAL_BYTES
def MAX_POINTER_UINT_BYTES : Nat := 10

def PAYMENT_ADDRESS_ERROR : String :=
  "addresses must be valid payment addresses (bech32 addr / addr_test, or Byron base58)"
def FILTER_USED_ERROR : String :=
  "addresses must be valid payment addresses or bech32 payment key hashes (addr_vkh)"
def ADDRESSES_BODY_ERROR : String :=
  "body must be \x7b \"addresses\": [<address>, ...] \x7d (1 to 1000)"
def ADDRESSES_AFTER_BODY_ERROR : String :=
  "body must be \x7b \"addresses\": [<address>, ...], \"after\"?: <block height> \x7d " ++
    "(1 to 1000 addresses)"

/-- The groups of one number, from its `length`-th on: how many there are. -/
def pointerGroups (first : UInt8) : (bytes : List UInt8) → (length : Nat) → Option Nat
  | [], _ => none
  | byte :: rest, length =>
      if MAX_POINTER_UINT_BYTES < length then none
      else if length = 1 ∧ 128 ≤ byte.toNat ∧ byte.toNat % 128 = 0 then none
      else if length = MAX_POINTER_UINT_BYTES ∧ 1 < first.toNat % 128 then none
      else if byte.toNat < 128 then some length
      else pointerGroups first rest (length + 1)

def nextPointerPart (bytes : List UInt8) (offset : Nat) : Option Nat :=
  match bytes.drop offset with
  | [] => none
  | first :: rest => (pointerGroups first (first :: rest) 1).map (offset + ·)

/-- Slot, transaction index and certificate index, and nothing after them. -/
def hasPointerPayload (bytes : List UInt8) : Bool :=
  let parts := do
    let slot ← nextPointerPart bytes POINTER_PREFIX_BYTES
    let transaction ← nextPointerPart bytes slot
    nextPointerPart bytes transaction
  parts == some bytes.length

/-- The codecs of payment addresses: bech32, and the validation of Byron addresses in
base58. -/
structure AddressCodecs where
  bech32 : Bech32
  isByronAddress : String → Bool

/-- The bech32 codec is as documented, and base58 is alphanumeric. -/
structure AddressCodecs.Documented (codecs : AddressCodecs) : Prop where
  bech32 : codecs.bech32.Documented
  base58 : ∀ value, codecs.isByronAddress value = true → ∀ c ∈ value.toList, c.isAlphanum

section Validation

variable (codecs : AddressCodecs)

def isBech32PaymentAddress (value : String) (expectedNetworkId : Option Nat) : Bool :=
  (codecs.bech32.decodeUnsafe value BECH32_LIMIT).any fun decoded =>
    (codecs.bech32.fromWordsUnsafe decoded.words).any fun bytes =>
      bytes.head?.any fun header =>
        let type := header.toNat / 16
        let networkId := header.toNat % 16
        (networkId == 0 || networkId == 1) &&
          decoded.hrp == (if networkId = 1 then "addr" else "addr_test") &&
          expectedNetworkId.all (networkId == ·) &&
          (if type ≤ 3 then bytes.length == BASE_ADDRESS_BYTES
          else if type ≤ 5 then POINTER_PREFIX_BYTES < bytes.length && hasPointerPayload bytes
          else if type ≤ 7 then bytes.length == ENTERPRISE_ADDRESS_BYTES
          else false)

def isPaymentAddress (value : String) (expectedNetworkId : Option Nat) : Bool :=
  isBech32PaymentAddress codecs value expectedNetworkId || codecs.isByronAddress value

/-- Two hexadecimal digits. -/
def hexByte (byte : UInt8) : List Char :=
  [Nat.digitChar (byte.toNat / 16), Nat.digitChar (byte.toNat % 16)]

def paymentCredentialHex (value : String) : Option String := do
  let decoded ← codecs.bech32.decodeUnsafe value BECH32_LIMIT
  if decoded.hrp ≠ "addr_vkh" then none
  else
    let bytes ← codecs.bech32.fromWordsUnsafe decoded.words
    if bytes.length ≠ 28 then none else some (String.ofList (bytes.flatMap hexByte))

/-- `[...new Set(addresses)]`. -/
def distinct (addresses : List String) : List String := addresses.eraseDups

theorem distinct_nodup (addresses : List String) : (distinct addresses).Nodup :=
  Distinct.nodup_eraseDups addresses

theorem mem_distinct {addresses : List String} {address : String} :
    address ∈ distinct addresses ↔ address ∈ addresses := List.mem_eraseDups

/-- `addressesBody`: between one and a thousand strings, none empty. -/
def isAddressesBody (addresses : List String) : Bool :=
  1 ≤ addresses.length && addresses.length ≤ 1000 && addresses.all (· ≠ "")

/-- The credentials with the inputs that named them, and the payment addresses. -/
structure FilterInputs where
  credentials : List (String × String)
  paymentAddresses : List String

def filterInputs (expectedNetworkId : Option Nat) :
    FilterInputs → List String → Except BadRequest FilterInputs
  | sorted, [] => .ok sorted
  | sorted, input :: inputs =>
      match paymentCredentialHex codecs input with
      | some credential =>
          filterInputs expectedNetworkId
            { sorted with credentials := sorted.credentials ++ [(input, credential)] } inputs
      | none =>
          if isPaymentAddress codecs input expectedNetworkId then
            filterInputs expectedNetworkId
              { sorted with paymentAddresses := sorted.paymentAddresses ++ [input] } inputs
          else .error ⟨FILTER_USED_ERROR⟩

end Validation

variable (codecs : AddressCodecs) (network : String) (attempts : ReadAttempts) (bodyLimit : Nat)

section FilterUsed

variable (filterUsedPaymentCredentials : List String → Read (List String))

/-- The inputs whose address or credential is used, in the order of the request. -/
def usedInputs (inputs : List String) (sorted : FilterInputs) : Read (List String) := do
  let (addressSet, credentialSet) ← Async.both
    (if sorted.paymentAddresses.length = 0 then pure []
      else filterUsedAddresses attempts bodyLimit sorted.paymentAddresses)
    (if sorted.credentials.length = 0 then pure []
      else filterUsedPaymentCredentials (sorted.credentials.map Prod.snd))
  pure (inputs.filter fun input =>
    match sorted.credentials.lookup input with
    | none => addressSet.contains input
    | some credential => credentialSet.contains credential)

/-- `/v1/addresses/filter-used`. -/
def addressesFilterUsed (addresses : List String) : Except BadRequest (Read (List String)) :=
  if ¬ isAddressesBody addresses then .error ⟨ADDRESSES_BODY_ERROR⟩
  else do
    let inputs := distinct addresses
    let sorted ← filterInputs codecs (configuredNetworkId network) ⟨[], []⟩ inputs
    pure (usedInputs attempts bodyLimit filterUsedPaymentCredentials inputs sorted)

end FilterUsed

/-- `/v1/addresses/utxos`. -/
def addressesUtxos (addresses : List String) :
    Except BadRequest (PagedRead UtxoRow String (List ScriptedUtxo)) :=
  if ¬ isAddressesBody addresses then .error ⟨ADDRESSES_BODY_ERROR⟩
  else if ¬ addresses.all fun address =>
      isPaymentAddress codecs address (configuredNetworkId network) then
    .error ⟨PAYMENT_ADDRESS_ERROR⟩
  else .ok (getUtxosByAddresses attempts bodyLimit (distinct addresses))

/-- `/v1/addresses/txs`; `after` is a safe integer. -/
def addressesTxs (addresses : List String) (after : Option Nat) :
    Except BadRequest (Read (List WalletTransaction)) :=
  if ¬ (isAddressesBody addresses && after.all (· ≤ maxSafeInteger)) then
    .error ⟨ADDRESSES_AFTER_BODY_ERROR⟩
  else if ¬ addresses.all fun address =>
      isPaymentAddress codecs address (configuredNetworkId network) then
    .error ⟨PAYMENT_ADDRESS_ERROR⟩
  else .ok (getTxHistoryByAddresses attempts bodyLimit (distinct addresses) after)

end WalletBackend.Http
