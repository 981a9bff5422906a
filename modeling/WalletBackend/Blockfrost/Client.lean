import WalletBackend.Blockfrost.Resources
import WalletBackend.Blockfrost.Schema
import WalletBackend.Domain.Transactions
import Mathlib.Data.Rat.Defs

/-! The read side of the Blockfrost client as the capability modules see it: the resources
that they ask for. -/
namespace WalletBackend.Blockfrost
open Interaction

/-- Which unspent-output listing is being paged. -/
inductive UtxoOwner where
  | account (stakeAddress : String)
  | address (address : String)
  deriving DecidableEq

/-- The account rows must carry their address, the address rows may omit it. -/
def UtxoOwner.AddressField : UtxoOwner → Type
  | .account _ => String
  | .address _ => Option String

/-- A row of `account_utxo_content` or `address_utxo_content`. -/
structure UtxoRow (AddressField : Type) where
  address : AddressField
  tx_hash : String
  output_index : Nat
  amount : AmountList
  block : String
  data_hash : Option String
  inline_datum : Option String
  reference_script_hash : Option String

def UtxoRow.ref {A : Type} (row : UtxoRow A) : OutputRef :=
  (row.tx_hash, row.output_index)

/-- `/blocks/{hash}` projected to the height. -/
structure BlockHeightRow where
  height : Nat

/-- One thin row of `/addresses/{address}/transactions`. -/
structure AddressTxRow where
  tx_hash : String
  tx_index : Nat
  block_height : Nat
  deriving DecidableEq, Repr

/-- `tx_content`, as far as it is read. -/
structure TxContentRow where
  block : String
  block_height : Nat
  block_time : Nat
  slot : Nat
  index : Nat
  fees : Numeric
  invalid_hereafter : Option Numeric
  withdrawal_count : Nat
  delegation_count : Nat
  stake_cert_count : Nat
  mir_cert_count : Nat
  pool_update_count : Nat
  pool_retire_count : Nat

/-- One input of `tx_content_utxo`. -/
structure UtxoInputRow where
  address : String
  amount : AmountList
  tx_hash : String
  output_index : Nat
  collateral : Bool
  reference : Option Bool

/-- One output of `tx_content_utxo`. -/
structure UtxoOutputRow where
  address : String
  amount : AmountList
  output_index : Nat
  collateral : Bool
  data_hash : Option String := none
  inline_datum : Option String := none
  reference_script_hash : Option String := none
  /-- Always null for a collateral output, spent or not. -/
  consumed_by_tx : Option String := none

/-- A row of `address_utxo_content`, projected to the reference. -/
structure AddressUtxoRefRow where
  tx_hash : String
  output_index : Nat
  deriving DecidableEq

structure TxUtxosRow where
  inputs : List UtxoInputRow
  outputs : List UtxoOutputRow

structure WithdrawalRow where
  address : String
  amount : Numeric

/-- A registration, or else a deregistration. -/
structure StakeCertRow where
  cert_index : Nat
  registration : Bool

structure CertIndexRow where
  cert_index : Nat

structure MetadataRow where
  label : String
  json_metadata : Json

/-- `/blocks/{hash}` projected to the epoch. -/
structure BlockRow where
  epoch : Nat

/-- `poolIdBech32`: `/^pool1[0-9a-z]+$/`. -/
def isPoolIdBech32 (text : String) : Bool :=
  "pool1".toList.isPrefixOf text.toList && 5 < text.length &&
    (text.toList.drop 5).all fun c => c.isDigit || c.isLower

/-- The metadata fields of a pool, as far as they are mapped. -/
structure PoolMetaFields where
  ticker : Option String
  name : Option String
  homepage : Option String
  description : Option String
  deriving DecidableEq

/-- One row of `pool_list_extended`, projected. -/
structure PoolExtendedRow where
  pool_id : String
  active_stake : Option Numeric
  metadata : Option PoolMetaFields
  valid : isPoolIdBech32 pool_id = true
  deriving DecidableEq

/-- `pool`, projected to the fields that are mapped. -/
structure PoolRow where
  pool_id : String
  hex : String
  blocks_minted : Option Nat
  live_stake : Option Numeric
  live_saturation : Option ℚ
  live_delegators : Option Nat
  active_stake : Option Numeric
  declared_pledge : Option Numeric
  live_pledge : Option Numeric
  margin_cost : ℚ
  fixed_cost : Option Numeric
  registration : List String
  retirement : List String
  valid : isPoolIdBech32 pool_id = true

/-- One row of `pool_list_retire`. -/
structure PoolRetireRow where
  pool_id : String
  epoch : Nat
  valid : isPoolIdBech32 pool_id = true

/-- The kinds of reward that the endpoint labels. -/
inductive RewardType where
  | leader
  | member
  | pool_deposit_refund
  deriving DecidableEq

/-- One row of `/accounts/{stake_address}/rewards`. -/
structure RewardRow where
  epoch : Nat
  amount : Numeric
  pool_id : String
  type : RewardType
  deriving DecidableEq

/-- One row of `/accounts/{stake_address}/addresses`. -/
structure AccountAddressRow where
  address : String
  deriving DecidableEq

/-- The certificate sub-resources that list indices alone. -/
inductive CertResource where
  | delegations
  | mirs
  | pool_updates
  | pool_retires
  deriving DecidableEq

/-- The resources read, each with the schema it is read through. -/
inductive Endpoint where
  | utxos (owner : UtxoOwner) (page : Nat)
  /-- The outputs of an address, newest first. -/
  | addressUtxoRefs (address : String) (page : Nat)
  | blockHeight (hash : String)
  | addressTransactions (address : String) (page : Nat) (from_ : Option Nat)
  | txContent (hash : String)
  | txUtxos (hash : String)
  | txMetadata (hash : String)
  | txWithdrawals (hash : String)
  | txStakes (hash : String)
  | txCerts (hash : String) (resource : CertResource)
  | blockEpoch (hash : String)
  | accountAddresses (stakeAddress : String) (page : Nat)
  | accountRewards (stakeAddress : String) (page : Nat)
  | poolsExtended (page : Nat)
  | poolsRetiring (page : Nat)
  | pool (id : String)
  | poolMetadata (id : String)
  deriving DecidableEq

abbrev Endpoint.Row : Endpoint → Type
  | .utxos owner _ => List (UtxoRow owner.AddressField)
  | .addressUtxoRefs .. => List AddressUtxoRefRow
  | .blockHeight _ => BlockHeightRow
  | .addressTransactions .. => List AddressTxRow
  | .txContent _ => TxContentRow
  | .txUtxos _ => TxUtxosRow
  | .txMetadata _ => List MetadataRow
  | .txWithdrawals _ => List WithdrawalRow
  | .txStakes _ => List StakeCertRow
  | .txCerts .. => List CertIndexRow
  | .blockEpoch _ => BlockRow
  | .accountAddresses .. => List AccountAddressRow
  | .accountRewards .. => List RewardRow
  | .poolsExtended _ => List PoolExtendedRow
  | .poolsRetiring _ => List PoolRetireRow
  | .pool _ => PoolRow
  | .poolMetadata _ => PoolMetaFields

abbrev Endpoint.Answer : Endpoint → Type := Client.Answer Endpoint.Row

/-- A program reading from Blockfrost. -/
abbrev Read (α : Type) := Async Endpoint.Answer Failure α

def getOrUndefined (endpoint : Endpoint) : Read (Option endpoint.Row) := Client.getOrUndefined endpoint

def get (endpoint : Endpoint) (path : String) : Read endpoint.Row := Client.get endpoint path

variable {T : Type}

/-- The resource is there whenever it is asked for. -/
def Found (trace : List (Exchange T Endpoint.Answer)) (endpoint : Endpoint) (row : endpoint.Row) :
    Prop :=
  ∀ t answer, ⟨t, endpoint, answer⟩ ∈ trace → answer = .ok (some row)

theorem settles_getOrUndefined {endpoint : Endpoint} {trace : List (Exchange T Endpoint.Answer)}
    {answer : endpoint.Answer}
    (there : ∀ t answer', ⟨t, endpoint, answer'⟩ ∈ trace → answer' = answer) :
    Async.Settles trace (getOrUndefined endpoint) answer := by
  rintro part result sub ⟨t, answer', rest, rfl, rfl, rfl⟩
  exact there t answer' (sub.subset List.mem_cons_self)

/-- Reading a resource that is there returns it. -/
theorem settles_get {endpoint : Endpoint} {path : String}
    {trace : List (Exchange T Endpoint.Answer)} {row : endpoint.Row}
    (found : Found trace endpoint row) : Async.Settles trace (get endpoint path) (.ok row) :=
  (settles_getOrUndefined found).bind (Async.settles_pure row)

end WalletBackend.Blockfrost
