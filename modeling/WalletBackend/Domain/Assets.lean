/-! The shape of a native token in `domain/types`, and the lengths of what names it. -/
namespace WalletBackend

/-- A policy id is the hash of a script: 28 bytes. -/
def POLICY_ID_HEX_LEN : Nat := 56

inductive TokenMetadataSource where
  | registry
  | cip25
  | cip68
  | none
  deriving DecidableEq

structure TokenMetadata where
  subject : String
  policyId : String
  assetName : String
  assetNameAscii : Option String
  fingerprint : String
  supply : String
  source : TokenMetadataSource
  name : Option String
  ticker : Option String
  description : Option String
  decimals : Option Nat
  url : Option String
  image : Option String
  traits : Option (List (String × String))
  deriving DecidableEq

end WalletBackend
