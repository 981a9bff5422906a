import Mathlib.Data.List.Basic

/-! Shelley reward addresses as the service admits them, over the bech32 codec it uses. -/
namespace WalletBackend

/-- A text taken apart: the human-readable part in lowercase, and the 5-bit words. -/
structure Decoded where
  hrp : String
  words : List Nat

structure Bech32 where
  decodeUnsafe : String → Nat → Option Decoded
  fromWordsUnsafe : List Nat → Option (List UInt8)

/-- What the codec documents: a text of all capitals is the same address, and a text is a
human-readable part, the separator and alphanumeric data, no longer than the limit. -/
structure Bech32.Documented (bech32 : Bech32) : Prop where
  uppercase : ∀ value limit decoded, value.toLower = value →
    bech32.decodeUnsafe value limit = some decoded →
      bech32.decodeUnsafe value.toUpper limit = some decoded
  shape : ∀ value limit decoded, bech32.decodeUnsafe value limit = some decoded →
    ∃ data, value.toLower = decoded.hrp ++ "1" ++ data ∧ ∀ c ∈ data.toList, c.isAlphanum
  short : ∀ value limit decoded, bech32.decodeUnsafe value limit = some decoded →
    value.length ≤ limit

def REWARD_ADDRESS_BYTES : Nat := 29
def REWARD_KEY_HASH_TYPE : Nat := 14
def REWARD_SCRIPT_HASH_TYPE : Nat := 15
def MAINNET_NETWORK_ID : Nat := 1
def BECH32_LIMIT : Nat := 1023

def configuredNetworkId (network : String) : Option Nat :=
  if network = "mainnet" then some MAINNET_NETWORK_ID
  else if network = "preprod" ∨ network = "preview" then some 0
  else none

def isStakeAddressForNetwork (bech32 : Bech32) (value network : String) : Bool :=
  (bech32.decodeUnsafe value BECH32_LIMIT).any fun decoded =>
    (bech32.fromWordsUnsafe decoded.words).any fun bytes =>
      bytes.length == REWARD_ADDRESS_BYTES && bytes.head?.any fun header =>
        let addressType := header.toNat / 16
        let networkId := header.toNat % 16
        (addressType == REWARD_KEY_HASH_TYPE || addressType == REWARD_SCRIPT_HASH_TYPE) &&
          decoded.hrp == (if networkId = MAINNET_NETWORK_ID then "stake" else "stake_test") &&
          configuredNetworkId network == some networkId

/-- What the service admits has been decoded, and begins with one of the two parts. -/
theorem isStakeAddress_decoded {bech32 : Bech32} {value network : String}
    (admitted : isStakeAddressForNetwork bech32 value network = true) :
    ∃ decoded, bech32.decodeUnsafe value BECH32_LIMIT = some decoded ∧
      (decoded.hrp = "stake" ∨ decoded.hrp = "stake_test") := by
  simp only [isStakeAddressForNetwork, Option.any_eq_true, Bool.and_eq_true, beq_iff_eq] at admitted
  obtain ⟨decoded, found, bytes, -, -, header, -, ⟨-, hrp⟩, -⟩ := admitted
  refine ⟨decoded, found, ?_⟩
  rw [hrp]
  split
  · exact .inl rfl
  · exact .inr rfl

/-- The check reads nothing but the decoded text. -/
theorem isStakeAddress_congr {bech32 : Bech32} {value value' : String} (network : String)
    (same : bech32.decodeUnsafe value' BECH32_LIMIT = bech32.decodeUnsafe value BECH32_LIMIT) :
    isStakeAddressForNetwork bech32 value' network =
      isStakeAddressForNetwork bech32 value network := by
  rw [isStakeAddressForNetwork, same, isStakeAddressForNetwork]

end WalletBackend
