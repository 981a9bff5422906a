import WalletBackend.Domain.Types

/-! The transaction shapes of `domain/types/transactions.ts`. -/
namespace WalletBackend

/-- A JSON value, for what is passed through unread. An object is the property read
under each name; the order of its properties is not part of it. -/
inductive Json where
  | null
  | bool (value : Bool)
  | number (text : String)
  | string (value : String)
  | array (items : List Json)
  | object (property : String → Option Json)

/-- One side of a transaction. -/
structure TxIo where
  address : Option String
  value : String
  assets : List Asset
  deriving DecidableEq, Repr

/-- A consumed input, with the output it spent. -/
structure TxInput extends TxIo where
  txHash : String
  outputIndex : Nat
  deriving DecidableEq, Repr

structure Withdrawal where
  stakeAddress : String
  amount : String
  deriving DecidableEq, Repr

inductive CertificateKind where
  | stake_registration
  | stake_deregistration
  | stake_delegation
  | pool_registration
  | pool_retirement
  | vote_delegation
  | drep_registration
  | drep_update
  | drep_deregistration
  | committee_hot_auth
  | committee_cold_resign
  | move_instantaneous_rewards
  | genesis_key_delegation
  | other
  deriving DecidableEq, Repr

structure TxCertificate where
  kind : CertificateKind
  index : Nat
  deriving DecidableEq, Repr

/-- A transaction as both providers publish it. -/
structure WalletTransaction where
  txHash : String
  block : Nat
  blockHash : String
  slot : Nat
  epoch : Nat
  blockTime : Nat
  fee : String
  ttl : Option Nat
  inputs : List TxInput
  outputs : List TxIo
  withdrawals : List Withdrawal
  certificates : List TxCertificate
  metadata : Option Json

end WalletBackend
