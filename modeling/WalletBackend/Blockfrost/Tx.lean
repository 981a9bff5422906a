import WalletBackend.Blockfrost.Resources
import WalletBackend.Domain.TxStatus

/-! `getTxStatus` of Blockfrost's `tx.ts`: the transaction, or else the mempool, which is only looked
into for what it may add, and then the block. -/
namespace WalletBackend.Blockfrost.Tx
open Interaction

inductive Request where
  | tx (hash : String)
  | mempool (hash : String)
  | block (hash : String)
  deriving DecidableEq

structure TxRow where
  block : String

structure BlockRow where
  confirmations : Confirmations

/-- `mempoolRow`, whose `tx` has this hash. -/
structure MempoolRow where
  hash : String

abbrev Request.Row : Request → Type
  | .tx _ => TxRow
  | .mempool _ => MempoolRow
  | .block _ => BlockRow

abbrev Request.Answer : Request → Type := Client.Answer Request.Row

abbrev StatusRead (α : Type) := Async Request.Answer Failure α

def getOrUndefined (request : Request) : StatusRead (Option request.Row) :=
  Client.getOrUndefined request

def get (request : Request) (path : String) : StatusRead request.Row := Client.get request path

/-- `error instanceof ProviderError || error instanceof ProviderTimeoutError`. -/
def isUnavailable : Failure → Bool
  | .provider .. | .creationBlockRolledBack | .timeout _ => true
  | .malformed _ | .typeError _ => false

/-- What the mempool makes of a transaction that is not on chain. -/
def mempoolStatus (normalizedHash : String) : StatusRead TxStatus := do
  let mempool ← tryCatch (getOrUndefined (.mempool normalizedHash)) fun error =>
    -- An instance without a mempool index answers in its own way, as if there were no such entry.
    if isUnavailable error then pure none else throw error
  match mempool with
  | none => pure unknownTxStatus
  | some entry =>
      if entry.hash.toLower ≠ normalizedHash then
        throw (.malformed "blockfrost returned mempool content for a different transaction")
      else pure pendingTxStatus

def getTxStatus (hash : String) : StatusRead TxStatus := do
  let normalizedHash := hash.toLower
  match ← getOrUndefined (.tx normalizedHash) with
  | none => mempoolStatus normalizedHash
  | some tx => do
      let block ← get (.block tx.block) s!"/blocks/{tx.block}"
      pure block.confirmations.status

end WalletBackend.Blockfrost.Tx
