import WalletBackend.Blockfrost.UtxoScan

/-! The address-set reads of `addresses.ts`. -/
namespace WalletBackend.Blockfrost.Addresses
open Interaction Containers

/-- A runaway guard only. -/
def UTXO_MAX_PAGES : Nat := 10000

def ADDRESS_UTXO_CONCURRENCY : Nat := 10

def utxosChanged : Failure :=
  .plain "blockfrost address utxos changed during paged read; retry"

def utxosExceeded : Failure :=
  .plain ("blockfrost address utxos exceed this provider's " ++
    s!"{UTXO_MAX_PAGES * UTXO_PAGE_SIZE}-utxo runaway guard")

def heightUnresolved : Failure :=
  .plain "blockfrost utxo references a block whose height was not resolved"

def fetchAddressUtxos (address : String) : Read (UtxoScan (Option String)) :=
  scanUtxos (.address address) UTXO_MAX_PAGES utxosChanged utxosExceeded

/-- A row that omits its address stands for the queried one. -/
def addressOf (queriedAddress : String) (field : Option String) : String :=
  field.getD queriedAddress

/-- Map one address's rows. No spellings are shared: each list is split alone. -/
def mapPortion (blockHeights : KeyedMap String Nat) (queriedAddress : String)
    (rows : List (UtxoRow (Option String))) : Except Failure (List Utxo) :=
  mapUtxos (addressOf queriedAddress) heightUnresolved blockHeights rows none

/-- `perAddress.flatMap((rows, index) => ..)`. -/
def mapPortions (blockHeights : KeyedMap String Nat) :
    List String → List (List (UtxoRow (Option String))) → Except Failure (List Utxo)
  | address :: addresses, rows :: perAddress => do
      let portion ← mapPortion blockHeights address rows
      let portions ← mapPortions blockHeights addresses perAddress
      .ok (portion ++ portions)
  | _, _ => .ok []

def getUtxosByAddresses (addresses : List String) : Read (List Utxo) :=
  if addresses.length = 0 then pure []
  else retryUtxoScanAfterRollback do
    let perAddress ← mapWithConcurrency addresses ADDRESS_UTXO_CONCURRENCY fun address _ =>
      readUtxos (fetchAddressUtxos address) utxosChanged
    let blockHeights ← resolveBlockHeights (perAddress.flatten.map UtxoRow.block)
    Async.ofExcept (mapPortions blockHeights addresses perAddress)

end WalletBackend.Blockfrost.Addresses
