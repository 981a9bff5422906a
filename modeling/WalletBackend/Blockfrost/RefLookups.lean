import WalletBackend.Blockfrost.Blocks
import WalletBackend.Blockfrost.TxInfo

/-! The lookup of outputs by reference, of `tx.ts`, with the spent state of each. -/
namespace WalletBackend.Blockfrost.Refs
open Interaction Containers

def REF_LOOKUP_CONCURRENCY : Nat := 10

/-- A bare `txHash#index`, split once. -/
structure ParsedRef where
  ref : String
  hash : String
  index : Nat
  deriving DecidableEq

/-- `ref.slice(0, ref.indexOf('#'))` and what follows; without a `#` the index is `-1`. -/
def splitRef (ref : List Char) : List Char × List Char :=
  match ref.idxOf? '#' with
  | some i => (ref.take i, ref.drop (i + 1))
  | none => (ref.dropLast, ref)

/-- What is no reference is dropped. -/
def parseRef (ref : String) : Option ParsedRef :=
  let (hash, indexPart) := splitRef ref.toList
  if hash.length = 64 ∧ hash.all Hex.isDigit ∧ indexPart ≠ [] ∧ indexPart.all Char.isDigit then
    let index := Nat.ofDigitChars 10 indexPart 0
    if index ≤ maxSafeInteger then some ⟨ref, (String.ofList hash).toLower, index⟩ else none
  else none

def spentKey (ref : ParsedRef) : String := OutputRef.key (ref.hash, ref.index)

/-- `undefined` if the transaction is not on chain. -/
def fetchTxUtxos (hash : String) : Read (Option TxUtxosRow) := getOrUndefined (.txUtxos hash)

section Collateral

variable (txHash : String) (outputIndex : Nat)

/-- The row is about the output wanted. -/
def holds (row : AddressUtxoRefRow) : Bool :=
  row.tx_hash.toLower == txHash.toLower && row.output_index == outputIndex

/-- The pages from `page` on, of which `remaining` are permitted. -/
def walkCollateral (address : String) : (remaining page : Nat) → Read (Option Bool)
  | 0, _ => pure none
  | remaining + 1, page => do
      match ← getOrUndefined (.addressUtxoRefs address page) with
      -- An address Blockfrost has never seen controls nothing.
      | none => pure (some true)
      | some rows =>
          if rows.any (holds txHash outputIndex) then pure (some false)
          -- A short page ends the set.
          else if rows.length < LIST_PAGE_SIZE then pure (some true)
          else walkCollateral address remaining (page + 1)

/-- Whether a collateral output has been consumed, if that can be established. -/
def resolveCollateralSpent (address : String) : Read (Option Bool) :=
  walkCollateral txHash outputIndex address LIST_MAX_PAGES 1

/-- A recorded consumer is conclusive, the lack of one on an ordinary output alone. -/
def resolveOutputSpent (output : UtxoOutputRow) : Read (Option Bool) :=
  match output.consumed_by_tx with
  | some _ => pure (some true)
  | none =>
      if output.collateral then resolveCollateralSpent txHash outputIndex output.address
      else pure (some false)

end Collateral

def mapResolvedOutput (txHash : String) (outputIndex : Nat) (output : UtxoOutputRow) (spent : Bool)
    (blockHeight : Nat) : Except Failure ResolvedUtxo := do
  let (amount, _) ← splitAmount output.amount none
  .ok
    { txHash
      outputIndex
      address := output.address
      blockHeight
      value := amount.value
      assets := amount.assets
      datumHash := output.data_hash
      inlineDatum := output.inline_datum
      referenceScriptHash := output.reference_script_hash
      spent }

/-- One lookup per distinct transaction; those gone from the chain are absent. -/
def resolveTxBlockHeights (txHashes : List String) : Read (KeyedMap String Nat) := do
  let entries ← mapWithConcurrency txHashes.eraseDups BLOCK_LOOKUP_CONCURRENCY fun hash _ => do
    let tx ← getOrUndefined (.txContent hash)
    pure (tx.map fun tx => (hash, tx.block_height))
  pure (entries.reduceOption.foldl (fun heights entry => heights.set entry.1 entry.2) .empty)

/-- `new Map(keys.map((key, i) => [key, values[i]]))`. -/
def zipMap {V : Type} (keys : List String) (values : List V) : KeyedMap String V :=
  (keys.zip values).foldl (fun map entry => map.set entry.1 entry.2) .empty

/-- The references that resolve to an output. -/
def foundOutputs (byHash : KeyedMap String (Option TxUtxosRow)) (parsed : List (Option ParsedRef)) :
    List (ParsedRef × UtxoOutputRow) :=
  parsed.filterMap fun ref => do
    let ref ← ref
    let utxos ← (byHash.get? ref.hash).join
    let output ← utxos.outputs.find? fun output => output.output_index = ref.index
    pure (ref, output)

/-- Each distinct output once, where it was first referenced. -/
def distinctOutputs (found : List (ParsedRef × UtxoOutputRow)) :
    KeyedMap String (ParsedRef × UtxoOutputRow) :=
  found.foldl (fun outputs entry => outputs.set (spentKey entry.1) entry) .empty

/-- The outputs whose state and height are known. -/
def mapFound (spentByKey : KeyedMap String (Option Bool)) (blockHeights : KeyedMap String Nat) :
    List (ParsedRef × UtxoOutputRow) → Except Failure (List ResolvedUtxo)
  | [] => .ok []
  | (ref, output) :: found =>
      match (spentByKey.get? (spentKey ref)).join, blockHeights.get? ref.hash with
      | some spent, some blockHeight => do
          let utxo ← mapResolvedOutput ref.hash ref.index output spent blockHeight
          let utxos ← mapFound spentByKey blockHeights found
          .ok (utxo :: utxos)
      | _, _ => mapFound spentByKey blockHeights found

def getUtxosByRef (refs : List String) : Read (List ResolvedUtxo) :=
  if refs.length = 0 then pure []
  else do
    let parsed := refs.map parseRef
    let uniqueHashes := (parsed.reduceOption.map ParsedRef.hash).eraseDups
    let fetched ← mapWithConcurrency uniqueHashes REF_LOOKUP_CONCURRENCY fun hash _ =>
      fetchTxUtxos hash
    let found := foundOutputs (zipMap uniqueHashes fetched) parsed
    let distinct := (distinctOutputs found).entries.map Prod.snd
    let states ← mapWithConcurrency distinct REF_LOOKUP_CONCURRENCY fun entry _ =>
      resolveOutputSpent entry.1.hash entry.1.index entry.2
    let spentByKey := zipMap (distinct.map fun entry => spentKey entry.1) states
    let blockHeights ← resolveTxBlockHeights (found.map fun entry => entry.1.hash)
    Async.ofExcept (mapFound spentByKey blockHeights found)

end WalletBackend.Blockfrost.Refs
