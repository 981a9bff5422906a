import WalletBackend.Domain.TxStatus
import WalletBackend.Koios.Client

/-! `getTxStatus` of the Koios `tx.ts`. -/
namespace WalletBackend.Koios.Tx
open Interaction

structure TxStatusRow where
  tx_hash : String
  num_confirmations : Option Confirmations
  deriving DecidableEq

/-- The answer of `/tx_status` for some hashes. -/
abbrev Answer (_ : List String) : Type := Except Failure (List TxStatusRow)

/-- `rows.find((r) => r.tx_hash.toLowerCase() === normalizedHash)`. -/
def rowOf (normalizedHash : String) (rows : List TxStatusRow) : Option TxStatusRow :=
  rows.find? fun row => row.tx_hash.toLower = normalizedHash

def statusOf (normalizedHash : String) (rows : List TxStatusRow) : Except Failure TxStatus :=
  let row := rowOf normalizedHash rows
  if 0 < rows.length ∧ row = none then
    .error (.malformed "koios returned tx_status rows for a different tx")
  else
    match row.bind TxStatusRow.num_confirmations with
    -- Koios knows nothing of the mempool, so this is no proof of anything.
    | none => .ok unknownTxStatus
    | some confirmations => .ok confirmations.status

def getTxStatus (attempts : ReadAttempts) (hash : String) : Async Answer Failure TxStatus := do
  let normalizedHash := hash.toLower
  let rows ← read attempts do Async.ofExcept (← Async.ask [normalizedHash])
  Async.ofExcept (statusOf normalizedHash rows)

end WalletBackend.Koios.Tx
