import WalletBackend.Blockfrost.Concurrency
import WalletBackend.Blockfrost.Resources
import WalletBackend.Koios.Assets

/-! The token metadata of Blockfrost's `assets.ts`. There is no batch form: each token is looked up
by its subject, and what its mint or its datum says comes decoded. -/
namespace WalletBackend.Blockfrost.Assets
open Interaction
open JsonTree (Value)
open Koios.Assets (emptyToUndefined cip25String hexBytes safeCount)

def ASSET_LOOKUP_CONCURRENCY : Nat := 10

/-- `registryMetadata`. -/
structure RegistryMetadata where
  name : Option String
  description : Option String
  ticker : Option String
  url : Option String
  decimals : Option Nat

/-- `assetRow`, as far as it is read. -/
structure AssetRow where
  fingerprint : String
  quantity : Numeric
  onchain_metadata : Option (List (String × Value))
  onchain_metadata_standard : Option String
  metadata : Option RegistryMetadata

/-- `onchain[key]`. -/
def onchainField (onchain : List (String × Value)) (key : String) : Option Value :=
  (Value.object onchain).property key

/-- `asString`. -/
def asString (value : Option Value) : Option String :=
  emptyToUndefined (value.bind Value.string?)

def toDecimals : Option Value → Option Nat
  | some (.number value) => safeCount value
  | some (.string value) => if isDigits value then safeCount (Binary64.ofText value) else none
  | _ => none

/-- The same as Koios's. -/
def extractTraits (entry : List (String × Value)) : Option (List (String × String)) :=
  Koios.Assets.extractTraits (.object entry)

def isPrintable (byte : UInt8) : Bool := 0x20 ≤ byte && byte ≤ 0x7e

/-- The name as printable ASCII. -/
def asciiAssetName (assetNameHex : String) : Option String := do
  let bytes ← hexBytes assetNameHex.toList
  if bytes.all isPrintable then
    emptyToUndefined (some (String.ofList (bytes.map fun byte => Char.ofNat byte.toNat)))
  else none

/-- What is published of every token. -/
def baseOf (subject : String) (row : AssetRow) : TokenMetadata where
  subject := subject
  policyId := String.ofList (subject.toList.take WalletBackend.POLICY_ID_HEX_LEN)
  assetName := String.ofList (subject.toList.drop WalletBackend.POLICY_ID_HEX_LEN)
  assetNameAscii := asciiAssetName (String.ofList (subject.toList.drop WalletBackend.POLICY_ID_HEX_LEN))
  fingerprint := row.fingerprint
  supply := row.quantity.text
  source := .none
  name := none
  ticker := none
  description := none
  decimals := none
  url := none
  image := none
  traits := none

def RegistryMetadata.isEntry (m : RegistryMetadata) : Bool :=
  m.name.isSome || m.ticker.isSome || m.description.isSome || m.url.isSome || m.decimals.isSome

def isCip68 (standard : Option String) : Bool :=
  standard.any fun text => "cip68".toList.isPrefixOf text.toLower.toList

/-- A string is truthy unless it is empty. -/
def truthy (text : Option String) : Bool := (emptyToUndefined text).isSome

/-- What is published of the metadata on chain, if there is anything to display. -/
def onchainTokenMetadata (base : TokenMetadata) (standard : Option String)
    (onchain : List (String × Value)) : Option TokenMetadata :=
  let name := cip25String (onchainField onchain "name")
  let description := cip25String (onchainField onchain "description")
  let image := cip25String (onchainField onchain "image") <|> cip25String (onchainField onchain "logo")
  if isCip68 standard then
    let ticker := asString (onchainField onchain "ticker")
    let url := cip25String (onchainField onchain "url")
    let decimals := toDecimals (onchainField onchain "decimals")
    if truthy name || truthy ticker || truthy description || truthy url || truthy image ||
        decimals.isSome then
      some { base with source := .cip68, name, ticker, description, decimals, url, image }
    else none
  else
    let traits := extractTraits onchain
    if truthy name || truthy description || truthy image || traits.isSome then
      some { base with source := .cip25, name, description, image, traits }
    else none

/-- The registry comes first, then what is on chain. -/
def mapTokenMetadata (subject : String) (row : AssetRow) : TokenMetadata :=
  let base := baseOf subject row
  match row.metadata.filter RegistryMetadata.isEntry with
  | some m =>
      { base with
        source := .registry
        name := m.name
        ticker := m.ticker
        description := m.description
        decimals := m.decimals
        url := m.url }
  | none =>
      (row.onchain_metadata.bind (onchainTokenMetadata base row.onchain_metadata_standard)).getD base

section Read

/-- The answer of `/assets/{asset}`. -/
abbrev Answer : String → Type := Client.Answer fun _ => AssetRow

abbrev AssetRead (α : Type) := Async Answer Failure α

def getOrUndefined (subject : String) : AssetRead (Option AssetRow) := Client.getOrUndefined subject

/-- One lookup for each subject; what is not on chain is left out. -/
def getTokenMetadata (subjects : List String) : AssetRead (List TokenMetadata) :=
  if subjects.length = 0 then pure []
  else do
    let mapped ← mapWithConcurrency (subjects.map String.toLower) ASSET_LOOKUP_CONCURRENCY
      fun subject _ => do pure ((← getOrUndefined subject).map (mapTokenMetadata subject))
    pure mapped.reduceOption

end Read

end WalletBackend.Blockfrost.Assets
