import WalletBackend.Blockfrost.TxInfo
import WalletBackend.Koios.TxInfo

/-! A transaction as the ledger has it, and how each service lists it: Koios in one
`/tx_info` row, Blockfrost over its resources. -/
namespace WalletBackend.Providers
open Interaction

theorem isDigits_toString (n : Nat) : isDigits (toString n) = true := by
  rw [isDigits, Numerals.toList_toString, Bool.and_eq_true, Bool.not_eq_true',
    List.isEmpty_eq_false_iff]
  exact Numerals.toDigits_proper n

/-- A quantity as a decimal string. -/
def decimal (n : Nat) : Numeric := .digits (toString n) (isDigits_toString n)

@[simp] theorem text_decimal (n : Nat) : (decimal n).text = toString n := rfl

@[simp] theorem toNumber_decimal (n : Nat) : (decimal n).toNumber = toDouble n := by
  rw [decimal, Numeric.toNumber, Numerals.toList_toString, Nat.ofDigitChars_ten_toDigits]

/-- A quantity of a native asset, its policy and name in hexadecimal. -/
structure LedgerAsset where
  policyId : String
  assetName : String
  quantity : Nat
  policy : policyId.toList.length = Blockfrost.POLICY_ID_HEX_LEN
  unit : Blockfrost.matchesUnitPattern (policyId ++ assetName) = true

/-- An output; no asset occurs twice, however it is spelled. -/
structure LedgerOutput where
  address : String
  lovelace : Nat
  assets : List LedgerAsset
  distinct : (assets.map fun asset => (asset.policyId ++ asset.assetName).toLower).Nodup

/-- An input, with the output it refers to. -/
structure LedgerInput where
  source : LedgerOutput
  txHash : String
  outputIndex : Nat

/-- The certificate types that Blockfrost exposes. -/
inductive ExposedCertificate where
  | stakeRegistration
  | stakeDeregistration
  | delegation
  | reserveMir
  | treasuryMir
  | poolUpdate
  | poolRetire
  deriving DecidableEq

structure LedgerCertificate where
  index : Nat
  type : ExposedCertificate
  deriving DecidableEq

structure LedgerWithdrawal where
  stakeAddress : String
  amount : Nat

/-- A transaction on chain. A failed phase 2 takes the collateral; neither service's
listings read below depend on it. -/
structure LedgerTransaction where
  hash : String
  phase2Failed : Bool
  block : Nat
  blockHash : String
  blockIndex : Nat
  slot : Nat
  epoch : Nat
  blockTime : Nat
  fee : Nat
  invalidHereafter : Option UInt64
  inputs : List LedgerInput
  collateralInputs : List LedgerInput
  referenceInputs : List LedgerInput
  outputs : List LedgerOutput
  collateralReturn : Option LedgerOutput
  withdrawals : List LedgerWithdrawal
  certificates : List LedgerCertificate
  indexed : certificates.Pairwise fun a b => a.index < b.index
  metadata : List (String × Json)
  labelled : (metadata.map Prod.fst).Nodup

/-! The `/tx_info` row. -/

def LedgerAsset.assetItem (asset : LedgerAsset) : Koios.AssetItem where
  policy_id := asset.policyId
  asset_name := asset.assetName
  quantity := decimal asset.quantity

def LedgerOutput.txIoRow (output : LedgerOutput) : Koios.TxIoRow where
  payment_addr := some output.address
  value := decimal output.lovelace
  asset_list := some (output.assets.map LedgerAsset.assetItem)

def LedgerInput.txInputRow (input : LedgerInput) : Koios.TxInputRow where
  toTxIoRow := input.source.txIoRow
  tx_hash := input.txHash
  tx_index := input.outputIndex

/-- The certificate type as Koios spells it. -/
def ExposedCertificate.koiosType : ExposedCertificate → String
  | .stakeRegistration => "stake_registration"
  | .stakeDeregistration => "stake_deregistration"
  | .delegation => "delegation"
  | .reserveMir => "reserve_MIR"
  | .treasuryMir => "treasury_MIR"
  | .poolUpdate => "pool_update"
  | .poolRetire => "pool_retire"

/-- Metadata as one object keyed by label. -/
def metadataObject (metadata : List (String × Json)) : Option Json :=
  if metadata = [] then none else some (.object fun label => metadata.lookup label)

/-- Collateral and references stand in fields of their own, which are not read. -/
def LedgerTransaction.txInfo (tx : LedgerTransaction) : Koios.TxInfoRow where
  tx_hash := tx.hash
  block_hash := tx.blockHash
  block_height := tx.block
  epoch_no := tx.epoch
  absolute_slot := tx.slot
  tx_timestamp := tx.blockTime
  tx_block_index := tx.blockIndex
  fee := decimal tx.fee
  invalid_after := tx.invalidHereafter.map fun bound => .digits bound.toNat
  inputs := some (tx.inputs.map LedgerInput.txInputRow)
  outputs := some (tx.outputs.map LedgerOutput.txIoRow)
  withdrawals := some (tx.withdrawals.map fun w => ⟨w.stakeAddress, decimal w.amount⟩)
  certificates := some (tx.certificates.map fun c => ⟨c.index, c.type.koiosType⟩)
  metadata := metadataObject tx.metadata

/-! The Blockfrost resources. -/

def LedgerAsset.amountItem (asset : LedgerAsset) : Blockfrost.AmountItem where
  unit := asset.policyId ++ asset.assetName
  quantity := decimal asset.quantity
  valid := by simp [Blockfrost.isValidUnit, asset.unit]

def LedgerOutput.amount (output : LedgerOutput) : Blockfrost.AmountList :=
  ⟨"lovelace", decimal output.lovelace, Blockfrost.isValidUnit_lovelace⟩ ::
    output.assets.map LedgerAsset.amountItem

def LedgerOutput.outputRow (collateral : Bool) (output : LedgerOutput) (index : Nat) :
    Blockfrost.UtxoOutputRow where
  address := output.address
  amount := output.amount
  output_index := index
  collateral := collateral

def LedgerInput.inputRow (collateral reference : Bool) (input : LedgerInput) :
    Blockfrost.UtxoInputRow where
  address := input.source.address
  amount := input.source.amount
  tx_hash := input.txHash
  output_index := input.outputIndex
  collateral := collateral
  reference := some reference

/-- The sub-resource that lists a certificate; registrations and deregistrations of
stake keys are listed under `/stakes`. -/
def ExposedCertificate.resource : ExposedCertificate → Option Blockfrost.CertResource
  | .stakeRegistration => none
  | .stakeDeregistration => none
  | .delegation => some .delegations
  | .reserveMir => some .mirs
  | .treasuryMir => some .mirs
  | .poolUpdate => some .pool_updates
  | .poolRetire => some .pool_retires

/-- The certificates that a sub-resource lists. -/
def LedgerTransaction.under (tx : LedgerTransaction) (resource : Option Blockfrost.CertResource) :
    List LedgerCertificate :=
  tx.certificates.filter fun c => c.type.resource = resource

def LedgerTransaction.content (tx : LedgerTransaction) : Blockfrost.TxContentRow where
  block := tx.blockHash
  block_height := tx.block
  block_time := tx.blockTime
  slot := tx.slot
  index := tx.blockIndex
  fees := decimal tx.fee
  invalid_hereafter := tx.invalidHereafter.map fun bound => decimal bound.toNat
  withdrawal_count := tx.withdrawals.length
  delegation_count := (tx.under (some .delegations)).length
  stake_cert_count := (tx.under none).length
  mir_cert_count := (tx.under (some .mirs)).length
  pool_update_count := (tx.under (some .pool_updates)).length
  pool_retire_count := (tx.under (some .pool_retires)).length

/-- Every input and output is listed, with its flags. -/
def LedgerTransaction.utxos (tx : LedgerTransaction) : Blockfrost.TxUtxosRow where
  inputs := tx.inputs.map (LedgerInput.inputRow false false) ++
    tx.collateralInputs.map (LedgerInput.inputRow true false) ++
    tx.referenceInputs.map (LedgerInput.inputRow false true)
  outputs := tx.outputs.mapIdx (fun index output => output.outputRow false index) ++
    tx.collateralReturn.toList.map fun output => output.outputRow true tx.outputs.length

def LedgerTransaction.details (tx : LedgerTransaction) : Blockfrost.TxDetails where
  content := tx.content
  utxos := tx.utxos
  metadata := tx.metadata.map fun (label, json_metadata) => ⟨label, json_metadata⟩
  epoch := tx.epoch
  withdrawals := tx.withdrawals.map fun w => ⟨w.stakeAddress, decimal w.amount⟩
  stakes := (tx.under none).map fun c => ⟨c.index, decide (c.type = .stakeRegistration)⟩
  certs resource := (tx.under (some resource)).map fun c => ⟨c.index⟩

end WalletBackend.Providers
