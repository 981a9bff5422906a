import WalletBackend.Domain.StakeAddress
import WalletBackend.Koios.Accounts

/-! The account routes over the Koios provider. A handler validates what it was called
with and hands on to the provider. -/
namespace WalletBackend.Http
open Interaction Koios

/-- A request that is answered with 400. -/
structure BadRequest where
  message : String
  deriving DecidableEq, Repr

/-- A cursor of the query: digits, within the safe integers. -/
def cursor (message : String) : Option String → Except BadRequest (Option Nat)
  | none => .ok none
  | some after =>
      let n := toDouble (Nat.ofDigitChars 10 after.toList 0)
      if isDigits after && n ≤ maxSafeInteger then .ok (some n) else .error ⟨message⟩

variable (bech32 : Bech32) (network : String) (attempts : ReadAttempts) (bodyLimit : Nat)

def assertStakeAddress (value : String) : Except BadRequest String :=
  if isStakeAddressForNetwork bech32 value network then .ok value
  else .error ⟨"invalid stake address"⟩

/-- `/v1/account/:stake/state`. -/
def accountState (stake : String) : Except BadRequest (Read AccountState) := do
  pure (getAccountState attempts (← assertStakeAddress bech32 network stake))

/-- `/v1/account/:stake/utxos`. -/
def accountUtxos (stake : String) :
    Except BadRequest (PagedRead UtxoRow String (List ScriptedUtxo)) := do
  pure (getAccountUtxos attempts (← assertStakeAddress bech32 network stake))

/-- `/v1/account/:stake/txs`. -/
def accountTxs (stake : String) (after : Option String) :
    Except BadRequest (Read (List WalletTransaction)) := do
  let afterBlock ← cursor "after must be a non-negative block height" after
  pure (getTxHistory attempts bodyLimit (← assertStakeAddress bech32 network stake) afterBlock)

/-- `/v1/account/:stake/rewards`. -/
def accountRewards (stake : String) (after : Option String) :
    Except BadRequest (Read (List AccountReward)) := do
  let afterEpoch ← cursor "after must be a non-negative epoch number" after
  pure (getRewardHistory attempts (← assertStakeAddress bech32 network stake) afterEpoch)

end WalletBackend.Http
