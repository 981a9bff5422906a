import WalletBackend.Domain.Errors
import WalletBackend.Domain.Numbers

/-! The lifecycle of a submitted transaction, of `domain/types/transactions.ts`. The kind of a status
settles all of its fields, except for the number of confirmations. -/
namespace WalletBackend

/-- What a wallet does with the overlay it keeps for a pending transaction. -/
inductive OverlayAction where
  | retain
  | reconcile
  | rollback
  deriving DecidableEq

inductive TxTerminalCode where
  | TX_REJECTED
  | TX_EXPIRED
  deriving DecidableEq

structure TxTerminalReason where
  code : TxTerminalCode
  reason : String
  deriving DecidableEq

/-- The `status` of a `TxStatus`. -/
inductive TxStage where
  | unknown
  | pending
  | confirmed
  | rejected
  | expired
  deriving DecidableEq

/-- `TxStatus`, as a record: a provider may get its fields wrong. -/
structure TxStatus where
  status : TxStage
  seen : Bool
  confirmations : Int
  overlayAction : OverlayAction
  terminal : Option TxTerminalReason
  deriving DecidableEq

/-- `Number.isSafeInteger(confirmations) && confirmations >= 0`. -/
def isConfirmationCount (confirmations : Int) : Bool :=
  0 ≤ confirmations && confirmations ≤ maxSafeInteger

def unknownTxStatus : TxStatus := ⟨.unknown, false, 0, .retain, none⟩

def pendingTxStatus : TxStatus := ⟨.pending, false, 0, .retain, none⟩

/-- The proof stands for the `RangeError` of any other count. -/
def confirmedTxStatus (confirmations : Int) (_ : isConfirmationCount confirmations = true) :
    TxStatus :=
  ⟨.confirmed, true, confirmations, .reconcile, none⟩

def rejectedTxStatus : TxStatus :=
  ⟨.rejected, false, 0, .rollback,
    some ⟨.TX_REJECTED, "The transaction was definitively rejected."⟩⟩

def expiredTxStatus : TxStatus :=
  ⟨.expired, false, 0, .rollback,
    some ⟨.TX_EXPIRED, "The transaction validity interval expired before confirmation."⟩⟩

/-- Rebuilt from its kind and its count, nothing else of it being passed on. -/
def publicTxStatus (status : TxStatus) : Except Failure TxStatus :=
  match status.status with
  | .unknown => .ok unknownTxStatus
  | .pending => .ok pendingTxStatus
  | .confirmed =>
      if count : isConfirmationCount status.confirmations = true then
        .ok (confirmedTxStatus status.confirmations count)
      else .error (.malformed "provider returned an invalid transaction confirmation count")
  | .rejected => .ok rejectedTxStatus
  | .expired => .ok expiredTxStatus

/-- A count as the row schemas accept it. -/
@[ext] structure Confirmations where
  count : Nat
  safe : count ≤ maxSafeInteger

instance : DecidableEq Confirmations := fun a b =>
  decidable_of_iff (a.count = b.count) Confirmations.ext_iff.symm

theorem Confirmations.isCount (confirmations : Confirmations) :
    isConfirmationCount confirmations.count = true := by
  have safe := confirmations.safe
  simp only [isConfirmationCount, Bool.and_eq_true, decide_eq_true_eq]
  omega

def Confirmations.status (confirmations : Confirmations) : TxStatus :=
  confirmedTxStatus confirmations.count confirmations.isCount

/-- A status that a read may return: nothing proves that a transaction has failed. -/
inductive Readable : TxStatus → Prop where
  | unknown : Readable unknownTxStatus
  | pending : Readable pendingTxStatus
  | confirmed (confirmations : Confirmations) : Readable confirmations.status

/-- What is readable is published as it is, and no wallet rolls back on it. -/
theorem Readable.published {status : TxStatus} (readable : Readable status) :
    publicTxStatus status = .ok status ∧ status.overlayAction ≠ .rollback := by
  cases readable with
  | unknown => exact ⟨rfl, nofun⟩
  | pending => exact ⟨rfl, nofun⟩
  | confirmed confirmations => exact ⟨dif_pos confirmations.isCount, nofun⟩

end WalletBackend
