import WalletBackend.Blockfrost.TxHistory
import WalletBackend.Domain.Account

/-! The two paged lists of `account.ts`, an account's addresses and its rewards, and the
histories read through them. -/
namespace WalletBackend.Blockfrost
open Interaction

/-- `REWARD_KIND`. -/
def RewardType.kind : RewardType → RewardKind
  | .leader => .leader
  | .member => .member
  | .pool_deposit_refund => .refund

namespace Account

def LIST_PAGE_SIZE : Nat := 100
def REWARD_MAX_PAGES : Nat := 100
def ADDRESS_MAX_PAGES : Nat := 100

/-- The loop both lists are read by: at most `remaining` pages from page `number` on, and
one request more when the last of them was full. -/
def walkPages {Row : Type} (page : Nat → Read (Option (List Row))) (exceeded : Failure) :
    (remaining number : Nat) → List Row → Read (List Row)
  | 0, number, rows => do
      match ← page number with
      | none => pure rows
      | some probe => if probe.length = 0 then pure rows else throw exceeded
  | remaining + 1, number, rows => do
      match ← page number with
      -- Whichever page is missing, the list is taken to be empty.
      | none => pure []
      | some pageRows =>
          let rows := rows ++ pageRows
          if pageRows.length < LIST_PAGE_SIZE then pure rows
          else walkPages page exceeded remaining (number + 1) rows

def addressesExceeded : Failure :=
  .plain ("blockfrost account addresses exceed this provider's " ++
    s!"{ADDRESS_MAX_PAGES * LIST_PAGE_SIZE}-address scan bound")

def rewardsExceeded : Failure :=
  .plain ("blockfrost account rewards exceed this provider's " ++
    s!"{REWARD_MAX_PAGES * LIST_PAGE_SIZE}-reward scan bound")

def enumerateAccountAddresses (stakeAddress : String) : Read (List String) := do
  let rows ← walkPages (fun page => getOrUndefined (.accountAddresses stakeAddress page))
    addressesExceeded ADDRESS_MAX_PAGES 1 []
  pure (rows.map AccountAddressRow.address)

def getTxHistory (stakeAddress : String) (afterBlock : Option Nat) :
    Read (List WalletTransaction) := do
  let addresses ← enumerateAccountAddresses stakeAddress
  addressSetTxHistory addresses afterBlock ADDRESS_FANOUT HYDRATE_FANOUT

/-- Paged on the epoch in which a reward was earned. -/
def past (afterEpoch : Option Nat) (row : RewardRow) : Bool := afterEpoch.all (· < row.epoch)

/-- Paid two epochs in arrears; a refund has no paying pool. -/
def rewardOf (row : RewardRow) : AccountReward where
  earnedEpoch := row.epoch
  spendableEpoch := row.epoch + 2
  amount := row.amount.text
  kind := row.type.kind
  poolId := if row.type.kind = .refund then none else some row.pool_id

/-- The rewards past the cursor, by the epoch earned. -/
def rewardsPast (afterEpoch : Option Nat) (rows : List RewardRow) : List AccountReward :=
  ((rows.filter (past afterEpoch)).insertionSort fun a b => a.epoch ≤ b.epoch).map rewardOf

def getRewardHistory (stakeAddress : String) (afterEpoch : Option Nat) :
    Read (List AccountReward) := do
  let rows ← walkPages (fun page => getOrUndefined (.accountRewards stakeAddress page))
    rewardsExceeded REWARD_MAX_PAGES 1 []
  pure (rewardsPast afterEpoch rows)

end Account

end WalletBackend.Blockfrost
