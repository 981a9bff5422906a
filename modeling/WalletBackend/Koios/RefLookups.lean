import WalletBackend.Koios.Accounts
import WalletBackend.Library.KeyedJoin

/-! The lookup of outputs by reference, of the Koios `tx.ts`. -/
namespace WalletBackend.Koios.Refs
open Interaction Containers

/-- A row of `/utxo_info`, which also tells whether the output is spent. -/
structure UtxoInfoRow extends UtxoRow where
  is_spent : Bool
  deriving DecidableEq

structure ResolvedOutput extends ScriptedUtxo where
  spent : Bool
  deriving DecidableEq

def mapResolved (row : UtxoInfoRow) : ResolvedOutput where
  toScriptedUtxo := mapUtxo row.toUtxoRow
  spent := row.is_spent

/-- The answer of `/utxo_info` for some references. -/
abbrev Answer (_ : List String) : Type := Except Failure (List UtxoInfoRow)

abbrev RefRead (α : Type) := Async Answer Failure α

/-- `{ _utxo_refs: chunk, _extended: true }`. -/
def utxoRefsBody : BodyBuilder String :=
  quotedBody "\x7b\"_utxo_refs\":" ",\"_extended\":true\x7d"

variable (attempts : ReadAttempts) (bodyLimit : Nat)

/-- `koios.batch`: fetch, validate and retry. -/
def batch (refs : List String) : RefRead (List UtxoInfoRow) :=
  read attempts do Async.ofExcept (← Async.ask refs)

/-- The outputs that were found, in the order of the references; of two rows for one the
later. -/
def joinRefs (refs : List String) (rows : List UtxoInfoRow) : List ResolvedOutput :=
  let byRef : KeyedMap String UtxoInfoRow :=
    .ofEntries (rows.map fun row => (row.toUtxoRow.rowKey, row))
  refs.filterMap fun ref => (byRef.get? ref.toLower).map mapResolved

def getUtxosByRef (refs : List String) : RefRead (List ResolvedOutput) :=
  if refs.length = 0 then pure []
  else do
    let rows ← batchAll utxoRefsBody (batch attempts) bodyLimit refs
    pure (joinRefs refs rows)

end WalletBackend.Koios.Refs
