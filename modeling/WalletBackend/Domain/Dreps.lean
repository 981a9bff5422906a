import WalletBackend.Domain.StakeAddress

/-! The identifiers of delegate representatives, of `domain/drep.ts`, and their shape of
`domain/types`. -/
namespace WalletBackend

def DREP_CREDENTIAL_BYTES : Nat := 28
def CIP129_DREP_BYTES : Nat := DREP_CREDENTIAL_BYTES + 1
def CIP129_DREP_KEY_HEADER : UInt8 := 0x22
def CIP129_DREP_SCRIPT_HEADER : UInt8 := 0x23

/-- Two lowercase digits a byte. -/
def toHex (bytes : List UInt8) : String :=
  String.ofList (bytes.flatMap fun byte =>
    [Nat.digitChar (byte.toNat / 16), Nat.digitChar (byte.toNat % 16)])

section Credential

variable (bech32 : Bech32) (value : String)

/-- The bytes of an identifier under the `drep` prefix. -/
def drepBytes : Option (List UInt8) := do
  let decoded ← bech32.decodeUnsafe value BECH32_LIMIT
  if decoded.hrp = "drep" then bech32.fromWordsUnsafe decoded.words else none

/-- The 28-byte credential in lowercase hex, of either form of identifier. -/
def drepCredentialHex : Option String := do
  let bytes ← drepBytes bech32 value
  if bytes.length = CIP129_DREP_BYTES then
    let header ← bytes.head?
    if header ≠ CIP129_DREP_KEY_HEADER ∧ header ≠ CIP129_DREP_SCRIPT_HEADER then none
    else some (toHex bytes.tail)
  -- Deprecated CIP-105: the bare credential, no header byte.
  else if bytes.length = DREP_CREDENTIAL_BYTES then some (toHex bytes)
  else none

end Credential

inductive DrepStatus where
  | registered
  | deregistered
  | not_registered
  deriving DecidableEq

structure DrepInfo where
  drepId : String
  hex : String
  hasScript : Bool
  status : DrepStatus
  active : Bool
  deposit : String
  votingPower : String
  expiresEpoch : Option Nat
  metadataUrl : Option String
  metadataHash : Option String
  name : Option String
  image : Option String
  deriving DecidableEq

/-- What the chain says of a DRep. -/
def DrepInfo.onChain (drep : DrepInfo) : DrepInfo := { drep with name := none, image := none }

structure DrepListParams where
  limit : Nat
  offset : Nat

end WalletBackend
