import WalletBackend.Blockfrost.UtxoScan

/-! The stake-account reads of `account.ts`. -/
namespace WalletBackend.Blockfrost.Account
open Interaction Containers

/-- Far above any realistic wallet. -/
def UTXO_MAX_PAGES : Nat := 50

def utxosChanged : Failure :=
  .plain "blockfrost account utxos changed during paged read; retry"

def utxosExceeded : Failure :=
  .plain ("blockfrost account utxos exceed this provider's " ++
    s!"{UTXO_MAX_PAGES * UTXO_PAGE_SIZE}-utxo scan bound")

def heightUnresolved : Failure :=
  .plain "blockfrost account utxo references a block whose height was not resolved"

def scanAccountUtxos (stakeAddress : String) : Read (UtxoScan String) :=
  scanUtxos (.account stakeAddress) UTXO_MAX_PAGES utxosChanged utxosExceeded

/-- Heights are resolved once a scan has settled; the spellings of asset units are
shared across all rows. -/
def settle (rows : List (UtxoRow String)) : Read (List Utxo) := do
  let blockHeights ← resolveBlockHeights (rows.map UtxoRow.block)
  Async.ofExcept (mapUtxos id heightUnresolved blockHeights rows (some .empty))

def getAccountUtxos (stakeAddress : String) : Read (List Utxo) :=
  retryUtxoScanAfterRollback do
    settle (← readUtxos (scanAccountUtxos stakeAddress) utxosChanged)

end WalletBackend.Blockfrost.Account
