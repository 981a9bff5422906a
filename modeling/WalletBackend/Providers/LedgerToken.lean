import WalletBackend.Blockfrost.Assets

/-! A token as its ledger and the registry have it, and how each service tells of it: Koios with the
metadata of the mint and the datum as they stand on chain, Blockfrost with what it has decoded. -/
namespace WalletBackend.Providers
open JsonTree (Value)
open Koios.Assets (emptyToUndefined cip25String valueForKeyHex hexOf asDecimals unwrapNested mapEntries
  member policyMap cip25Keys)
open Blockfrost.Assets (RegistryMetadata)

/-- What a minter has published: the record of the token in the metadata of its mint, or the map in
its datum. -/
inductive Published where
  | nothing
  | mint (record : List (String × Value))
  | datum (fields : List Value)

structure LedgerToken where
  policyId : String
  assetName : String
  fingerprint : String
  supply : Nat
  registry : RegistryMetadata
  published : Published
  policy : policyId.toList.length = POLICY_ID_HEX_LEN

def LedgerToken.subject (token : LedgerToken) : String := token.policyId ++ token.assetName

/-- A text in the record of a mint. -/
def mintText (record : List (String × Value)) (key : String) : Option String :=
  cip25String ((Value.object record).property key)

/-- A text in the map of a datum. -/
def datumText (fields : List Value) (key : String) : Option String :=
  Koios.Assets.asString (valueForKeyHex fields (hexOf key))

def datumDecimals (fields : List Value) : Option Nat :=
  asDecimals (valueForKeyHex fields (hexOf "decimals"))

section Koios

/-- The record of the token stands under one or more of the names it can be filed under. -/
structure Minted (minting : Option Value) (policyId assetName : String)
    (record : List (String × Value)) : Prop where
  filed : ∃ nft byPolicy keys, policyMap minting policyId = some (nft, byPolicy) ∧
    cip25Keys nft assetName = .ok keys ∧
    (∀ key ∈ keys, byPolicy.property key = some (.object record) ∨ byPolicy.property key = none) ∧
    ∃ key ∈ keys, byPolicy.property key = some (.object record)

/-- The map of the token is that of the datum, or is nested in it. -/
structure Held (cip68 : Option Value) (policyId assetName : String) (fields : List Value) : Prop where
  held : ∃ datum datumFields top, ((cip68.filter Value.isRecord).map Value.entries).bind List.head? =
      some datum ∧
    (member (some datum.2) "fields").bind Value.items? = some datumFields ∧
    mapEntries datumFields[0]? = some top ∧
    (unwrapNested top policyId assetName).getD top = fields

/-- What the row has of the chain. -/
def ShowsPublished (token : LedgerToken) (row : Koios.Assets.AssetInfoRow) : Published → Prop
  | .nothing => policyMap row.minting_tx_metadata token.policyId = none ∧ row.cip68_metadata = none
  | .mint record => Minted row.minting_tx_metadata token.policyId token.assetName record ∧
      row.cip68_metadata = none
  | .datum fields => policyMap row.minting_tx_metadata token.policyId = none ∧
      Held row.cip68_metadata token.policyId token.assetName fields

/-- A row of `/asset_info` about the token. -/
structure KoiosTells (token : LedgerToken) (row : Koios.Assets.AssetInfoRow) : Prop where
  policy_id : row.policy_id = token.policyId
  asset_name : row.asset_name = token.assetName
  ascii : emptyToUndefined row.asset_name_ascii = Blockfrost.Assets.asciiAssetName token.assetName
  fingerprint : row.fingerprint = token.fingerprint
  supply : row.total_supply.text = toString token.supply
  registry : (⟨row.name, row.description, row.ticker, row.url, row.decimals⟩ : RegistryMetadata) =
    token.registry
  published : ShowsPublished token row token.published

/-- The tokens that Koios knows are answered for, in lowercase and in any order, and no others. -/
structure KoiosServes (known : String → Option LedgerToken)
    (answer : List (String × String) → List Koios.Assets.AssetInfoRow) : Prop where
  rows : ∀ chunk, ∀ row ∈ answer chunk, ∃ token, known row.subject = some token ∧ KoiosTells token row
  complete : ∀ chunk, ∀ pair ∈ chunk, (known (pair.1 ++ pair.2)).isSome →
    ∃ row ∈ answer chunk, row.subject = pair.1 ++ pair.2

end Koios

section Blockfrost

/-- The decoded datum has the texts of the datum. -/
structure Decoded (fields : List Value) (onchain : List (String × Value)) : Prop where
  texts : ∀ key ∈ ["name", "description", "image", "logo", "url"],
    cip25String (Blockfrost.Assets.onchainField onchain key) = datumText fields key
  ticker : Blockfrost.Assets.asString (Blockfrost.Assets.onchainField onchain "ticker") =
    datumText fields "ticker"
  decimals : Blockfrost.Assets.toDecimals (Blockfrost.Assets.onchainField onchain "decimals") =
    datumDecimals fields

def DecodesPublished (row : Blockfrost.Assets.AssetRow) : Published → Prop
  | .nothing => row.onchain_metadata = none
  | .mint record => row.onchain_metadata = some record ∧
      Blockfrost.Assets.isCip68 row.onchain_metadata_standard = false
  | .datum fields => (∃ onchain, row.onchain_metadata = some onchain ∧ Decoded fields onchain) ∧
      Blockfrost.Assets.isCip68 row.onchain_metadata_standard = true

/-- The answer of `/assets/{asset}` about the token. -/
structure BlockfrostTells (token : LedgerToken) (row : Blockfrost.Assets.AssetRow) : Prop where
  fingerprint : row.fingerprint = token.fingerprint
  supply : row.quantity.text = toString token.supply
  registry : row.metadata.getD ⟨none, none, none, none, none⟩ = token.registry
  published : DecodesPublished row token.published

/-- The tokens that Blockfrost knows are answered for, and the others with a 404. -/
def BlockfrostServes (known : String → Option LedgerToken)
    (answer : String → Option Blockfrost.Assets.AssetRow) : Prop :=
  ∀ subject, match known subject with
    | some token => ∃ row, answer subject = some row ∧ BlockfrostTells token row
    | none => answer subject = none

end Blockfrost

end WalletBackend.Providers
