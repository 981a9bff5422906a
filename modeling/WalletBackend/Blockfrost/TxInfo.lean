import WalletBackend.Blockfrost.Client
import WalletBackend.Blockfrost.Concurrency
import Mathlib.Data.List.Sort

/-! Hydration of a transaction: Blockfrost spreads it over several resources, which
are read together and stitched back into one record. -/
namespace WalletBackend.Blockfrost
open Interaction

def HISTORY_PAGE_SIZE : Nat := 50
def LIST_PAGE_SIZE : Nat := 100
def LIST_MAX_PAGES : Nat := 200
def ADDRESS_FANOUT : Nat := 10
def HYDRATE_FANOUT : Nat := 10

def mapTxIo (address : String) (amount : AmountList) : Except Failure TxIo := do
  let (split, _) ← splitAmount amount none
  pure { address := some address, value := split.value, assets := split.assets }

def mapTxInput (row : UtxoInputRow) : Except Failure TxInput := do
  pure { ← mapTxIo row.address row.amount with
    txHash := row.tx_hash, outputIndex := row.output_index }

def mapTxOutput (row : UtxoOutputRow) : Except Failure TxIo := mapTxIo row.address row.amount

/-- `out[row.label] = row.json_metadata` for each row. -/
def metadataByLabel (rows : List MetadataRow) : String → Option Json :=
  rows.foldl (fun out row label => if label = row.label then some row.json_metadata else out label)
    fun _ => none

def mapMetadata (rows : List MetadataRow) : Option Json :=
  if rows.length = 0 then none else some (.object (metadataByLabel rows))

/-- Identifiers are alphanumeric, which `encodeURIComponent` leaves as they are. -/
def txPath (hash : String) : String := "/txs/" ++ hash

/-- Without the memo of a hydration run: transactions of one block share one request
there, each asks its own here. -/
def epochOf (blockHash : String) : Read Nat := do
  pure (← get (.blockEpoch blockHash) ("/blocks/" ++ blockHash)).epoch

def CertResource.suffix : CertResource → String
  | .delegations => "delegations"
  | .mirs => "mirs"
  | .pool_updates => "pool_updates"
  | .pool_retires => "pool_retires"

def CertResource.kind : CertResource → CertificateKind
  | .delegations => .stake_delegation
  | .mirs => .move_instantaneous_rewards
  | .pool_updates => .pool_registration
  | .pool_retires => .pool_retirement

def StakeCertRow.certificate (row : StakeCertRow) : TxCertificate where
  kind := if row.registration then .stake_registration else .stake_deregistration
  index := row.cert_index

def CertIndexRow.certificate (kind : CertificateKind) (row : CertIndexRow) : TxCertificate where
  kind := kind
  index := row.cert_index

def stakeCerts (hash : String) : Read (List TxCertificate) := do
  pure ((← get (.txStakes hash) (txPath hash ++ "/stakes")).map StakeCertRow.certificate)

def indexCerts (hash : String) (resource : CertResource) : Read (List TxCertificate) := do
  pure ((← get (.txCerts hash resource) (txPath hash ++ "/" ++ resource.suffix)).map
    (CertIndexRow.certificate resource.kind))

/-- The certificate requests of a transaction: only where its count is not zero. -/
def certRequests (hash : String) (tx : TxContentRow) : List (Read (List TxCertificate)) :=
  (if 0 < tx.stake_cert_count then [stakeCerts hash] else []) ++
  (if 0 < tx.delegation_count then [indexCerts hash .delegations] else []) ++
  (if 0 < tx.mir_cert_count then [indexCerts hash .mirs] else []) ++
  (if 0 < tx.pool_update_count then [indexCerts hash .pool_updates] else []) ++
  (if 0 < tx.pool_retire_count then [indexCerts hash .pool_retires] else [])

def byIndex (certificates : List TxCertificate) : List TxCertificate :=
  certificates.insertionSort fun a b => a.index ≤ b.index

def fetchCertificates (hash : String) (tx : TxContentRow) : Read (List TxCertificate) := do
  let groups ← promiseAll (certRequests hash tx)
  pure (byIndex groups.flatten)

def WithdrawalRow.withdrawal (row : WithdrawalRow) : Withdrawal where
  stakeAddress := row.address
  amount := row.amount.text

def fetchWithdrawals (hash : String) (tx : TxContentRow) : Read (List Withdrawal) :=
  if 0 < tx.withdrawal_count then do
    pure ((← get (.txWithdrawals hash) (txPath hash ++ "/withdrawals")).map
      WithdrawalRow.withdrawal)
  else pure []

structure HydratedTx where
  tx : WalletTransaction
  /-- The position in the block, which only orders the page. -/
  blockIndex : Nat

/-- Collateral is consumed only by a failed script and a reference never is. -/
def UtxoInputRow.spent (row : UtxoInputRow) : Bool :=
  !row.collateral && row.reference != some true

/-- The record of a transaction, once its parts have been read. -/
def hydrated (hash : String) (tx : TxContentRow) (utxos : TxUtxosRow) (metadata : List MetadataRow)
    (epoch : Nat) (withdrawals : List Withdrawal) (certificates : List TxCertificate) :
    Except Failure HydratedTx := do
  let inputs ← (utxos.inputs.filter UtxoInputRow.spent).mapM mapTxInput
  let outputs ← utxos.outputs.mapM mapTxOutput
  pure
    { blockIndex := tx.index
      tx :=
        { txHash := hash
          block := tx.block_height
          blockHash := tx.block
          slot := tx.slot
          epoch
          blockTime := tx.block_time
          fee := tx.fees.text
          ttl := tx.invalid_hereafter.map Numeric.toNumber
          inputs
          outputs
          withdrawals
          certificates
          metadata := mapMetadata metadata } }

def hydrateOne (hash : String) : Read HydratedTx := do
  let (tx, utxos, metadata) ← Async.both (get (.txContent hash) (txPath hash))
    (Async.both (get (.txUtxos hash) (txPath hash ++ "/utxos"))
      (get (.txMetadata hash) (txPath hash ++ "/metadata")))
  let (epoch, withdrawals, certificates) ← Async.both (epochOf tx.block)
    (Async.both (fetchWithdrawals hash tx) (fetchCertificates hash tx))
  Async.ofExcept (hydrated hash tx utxos metadata epoch withdrawals certificates)

/-- By block, then by position in the block. -/
def hydratedOrder (a b : HydratedTx) : Prop :=
  a.tx.block < b.tx.block ∨ (a.tx.block = b.tx.block ∧ a.blockIndex ≤ b.blockIndex)

instance (a b : HydratedTx) : Decidable (hydratedOrder a b) := inferInstanceAs (Decidable (_ ∨ _))

def hydrateTransactions (hashes : List String) (concurrency : Nat) :
    Read (List WalletTransaction) :=
  if hashes.length = 0 then pure []
  else do
    let hydrated ← mapWithConcurrency hashes concurrency fun hash _ => hydrateOne hash
    pure ((hydrated.insertionSort hydratedOrder).map HydratedTx.tx)

/-- Everything the resources say about one transaction. -/
structure TxDetails where
  content : TxContentRow
  utxos : TxUtxosRow
  metadata : List MetadataRow
  epoch : Nat
  withdrawals : List WithdrawalRow
  stakes : List StakeCertRow
  certs : CertResource → List CertIndexRow

namespace TxDetails

/-- The withdrawals read: none unless they are counted. -/
def countedWithdrawals (details : TxDetails) : List Withdrawal :=
  if 0 < details.content.withdrawal_count then
    details.withdrawals.map WithdrawalRow.withdrawal
  else []

def listed (details : TxDetails) (resource : CertResource) : List TxCertificate :=
  (details.certs resource).map (CertIndexRow.certificate resource.kind)

/-- The certificates read, by resource. -/
def certGroups (details : TxDetails) : List (List TxCertificate) :=
  let tx := details.content
  (if 0 < tx.stake_cert_count then [details.stakes.map StakeCertRow.certificate] else []) ++
  (if 0 < tx.delegation_count then [details.listed .delegations] else []) ++
  (if 0 < tx.mir_cert_count then [details.listed .mirs] else []) ++
  (if 0 < tx.pool_update_count then [details.listed .pool_updates] else []) ++
  (if 0 < tx.pool_retire_count then [details.listed .pool_retires] else [])

def hydrate (details : TxDetails) (hash : String) : Except Failure HydratedTx :=
  hydrated hash details.content details.utxos details.metadata details.epoch
    details.countedWithdrawals (byIndex details.certGroups.flatten)

end TxDetails

section Runs

variable {T : Type} {trace : List (Exchange T Endpoint.Answer)} {details : TxDetails}
  {hash : String}

/-- Every resource of the transaction `hash` was answered from `details`. -/
structure ServesTx (details : TxDetails) (hash : String)
    (trace : List (Exchange T Endpoint.Answer)) : Prop where
  content : Found trace (.txContent hash) details.content
  utxos : Found trace (.txUtxos hash) details.utxos
  metadata : Found trace (.txMetadata hash) details.metadata
  epoch : Found trace (.blockEpoch details.content.block) ⟨details.epoch⟩
  withdrawals : Found trace (.txWithdrawals hash) details.withdrawals
  stakes : Found trace (.txStakes hash) details.stakes
  certs : ∀ resource, Found trace (.txCerts hash resource) (details.certs resource)

theorem settles_stakeCerts (serves : ServesTx details hash trace) :
    Async.Settles trace (stakeCerts hash) (.ok (details.stakes.map StakeCertRow.certificate)) :=
  (settles_get serves.stakes).bind (Async.settles_pure _)

theorem settles_indexCerts (serves : ServesTx details hash trace) (resource : CertResource) :
    Async.Settles trace (indexCerts hash resource) (.ok (details.listed resource)) :=
  (settles_get (serves.certs resource)).bind (Async.settles_pure _)

theorem settles_fetchCertificates (serves : ServesTx details hash trace) :
    Async.Settles trace (fetchCertificates hash details.content)
      (.ok (byIndex details.certGroups.flatten)) := by
  have one : ∀ {counted : Prop} [Decidable counted] {call : Read (List TxCertificate)}
      {group : List TxCertificate}, Async.Settles trace call (.ok group) →
      List.Forall₂ (fun call group => Async.Settles trace call (.ok group))
        (if counted then [call] else []) (if counted then [group] else []) := by
    intro counted _ call group settles
    split
    · exact .cons settles .nil
    · exact .nil
  refine (settles_promiseAll ?_).bind (Async.settles_pure _)
  refine List.rel_append (List.rel_append (List.rel_append (List.rel_append ?_ ?_) ?_) ?_) ?_
  · exact one (settles_stakeCerts serves)
  all_goals exact one (settles_indexCerts serves _)

theorem settles_fetchWithdrawals (serves : ServesTx details hash trace) :
    Async.Settles trace (fetchWithdrawals hash details.content)
      (.ok details.countedWithdrawals) := by
  unfold fetchWithdrawals TxDetails.countedWithdrawals
  split
  · exact (settles_get serves.withdrawals).bind (Async.settles_pure _)
  · exact Async.settles_pure _

/-- However its requests are interleaved, a hydration comes to what its resources say. -/
theorem settles_hydrateOne (serves : ServesTx details hash trace) :
    Async.Settles trace (hydrateOne hash) (details.hydrate hash) := by
  refine ((settles_get serves.content).both ((settles_get serves.utxos).both
    (settles_get serves.metadata))).bind ?_
  have epoch : Async.Settles trace (epochOf details.content.block) (.ok details.epoch) :=
    (settles_get serves.epoch).bind (Async.settles_pure _)
  exact (epoch.both ((settles_fetchWithdrawals serves).both (settles_fetchCertificates serves))).bind
    (Async.settles_ofExcept _)

/-- An upstream that knows the one transaction. -/
def TxDetails.serve (details : TxDetails) : (endpoint : Endpoint) → endpoint.Answer
  | .txContent _ => .ok (some details.content)
  | .txUtxos _ => .ok (some details.utxos)
  | .txMetadata _ => .ok (some details.metadata)
  | .txWithdrawals _ => .ok (some details.withdrawals)
  | .txStakes _ => .ok (some details.stakes)
  | .txCerts _ resource => .ok (some (details.certs resource))
  | .blockEpoch _ => .ok (some ⟨details.epoch⟩)
  | _ => .ok none

theorem serve_servesTx (static : Async.Static details.serve trace) :
    ServesTx details hash trace where
  content _ _ asked := static _ asked
  utxos _ _ asked := static _ asked
  metadata _ _ asked := static _ asked
  epoch _ _ asked := static _ asked
  withdrawals _ _ asked := static _ asked
  stakes _ _ asked := static _ asked
  certs _ _ _ asked := static _ asked

/-- A hydration returns. -/
theorem exists_hydration (details : TxDetails) (hash : String) :
    ∃ trace : List (Exchange Unit Endpoint.Answer), ServesTx details hash trace ∧
      (hydrateOne hash).Runs trace (details.hydrate hash) := by
  have run : ∃ (trace : List (Exchange Unit Endpoint.Answer)) (outcome : _),
      Async.Static details.serve trace ∧ (hydrateOne hash).Runs trace outcome :=
    Async.exists_run _ _
  obtain ⟨trace, outcome, static, runs⟩ := run
  have serves : ServesTx details hash trace := serve_servesTx static
  exact ⟨trace, serves, settles_hydrateOne serves trace outcome (.refl _) runs ▸ runs⟩

end Runs

end WalletBackend.Blockfrost
