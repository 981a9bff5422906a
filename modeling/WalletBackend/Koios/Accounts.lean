import WalletBackend.Koios.AccountHistory
import WalletBackend.Koios.KeysetWalk
import WalletBackend.Library.StaticRuns

/-! The stake-account reads of the Koios provider. -/
namespace WalletBackend.Koios
open Interaction

/-- An output as `/account_utxos` and `/address_utxos` list it. -/
structure UtxoRow where
  tx_hash : String
  tx_index : Nat
  address : String
  block_height : Nat
  value : Numeric
  asset_list : Option (List AssetItem)
  datum_hash : Option String
  inline_datum : Option String
  reference_script : Option ReferenceScript
  deriving DecidableEq

/-- An output with the script it carries. -/
structure ScriptedUtxo extends Utxo where
  referenceScript : Option ReferenceScript
  deriving DecidableEq

def mapUtxo (row : UtxoRow) : ScriptedUtxo where
  txHash := row.tx_hash
  outputIndex := row.tx_index
  address := row.address
  blockHeight := row.block_height
  value := row.value.text
  assets := mapAssets row.asset_list
  datumHash := row.datum_hash
  inlineDatum := row.inline_datum
  referenceScriptHash := row.reference_script.map ReferenceScript.hash
  referenceScript := row.reference_script

def UtxoRow.keyset (row : UtxoRow) : String × Nat := (row.tx_hash, row.tx_index)

def UtxoRow.rowKey (row : UtxoRow) : String := OutputRef.key row.keyset

/-- A body whose items are strings without a quote or an escape. -/
def quotedBody (before after : String) : BodyBuilder String where
  before
  item text := "\"" ++ text ++ "\""
  after

/-- The body of an `/account_utxos` request. -/
def accountUtxosBody : BodyBuilder String :=
  quotedBody "\x7b\"_stake_addresses\":" ",\"_extended\":true\x7d"

def ACCOUNT_UTXOS_PATH : String := "/account_utxos?order=tx_hash.asc,tx_index.asc"

section Methods

variable (attempts : ReadAttempts) (stakeAddress : String)

def getAccountState : Read AccountState := do
  let canonicalStakeAddress := stakeAddress.toLower
  let rows ← get attempts (.accountInfo canonicalStakeAddress)
  match rows.head? with
  | none =>
      pure
        { stakeAddress := canonicalStakeAddress
          registered := false
          balance := "0"
          rewardsAvailable := "0"
          rewardsSum := "0"
          withdrawalsSum := "0"
          delegatedPool := none
          delegatedDrep := none }
  | some row =>
      if rows.length ≠ 1 ∨ row.stake_address ≠ canonicalStakeAddress then
        throw (.malformed "koios returned invalid account_info row identity")
      else
        pure
          { stakeAddress := canonicalStakeAddress
            registered := row.registered
            balance := row.total_balance.text
            rewardsAvailable := row.rewards_available.text
            rewardsSum := row.rewards.text
            withdrawalsSum := row.withdrawals.text
            delegatedPool := row.delegated_pool
            delegatedDrep := row.delegated_drep }

def getAccountUtxos : PagedRead UtxoRow String (List ScriptedUtxo) := do
  let rows ← batchAllPages ACCOUNT_UTXOS_PATH (accountUtxosBody.stringify [stakeAddress]) attempts
    { rowKey := some UtxoRow.rowKey
      keyset := some UtxoRow.keyset
      verifyConsistency := true }
  pure (rows.map mapUtxo)

def mapReward (row : RewardRow) : AccountReward where
  earnedEpoch := row.earned_epoch
  spendableEpoch := row.spendable_epoch
  amount := row.amount.text
  kind := row.type
  poolId := row.pool_id

/-- The rewards of the row of an account, none without a row or without a list. -/
def rewardsOf (rows : List AccountRewardsRow) (stakeAddress : String) : List RewardRow :=
  ((rows.find? fun row => row.stake_address = stakeAddress).bind AccountRewardsRow.rewards).getD []

def getRewardHistory (afterEpoch : Option Nat) : Read (List AccountReward) := do
  let rows ← get attempts (.accountRewards stakeAddress)
  let rewards := (rewardsOf rows stakeAddress).filter fun row => ∀ epoch ∈ afterEpoch,
    epoch < row.earned_epoch
  pure ((rewards.insertionSort fun a b => a.earned_epoch ≤ b.earned_epoch).map mapReward)

end Methods

end WalletBackend.Koios
