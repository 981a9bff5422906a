import WalletBackend.Blockfrost.Client
import WalletBackend.Blockfrost.Concurrency

/-! Creation-block heights for UTxO reads, and the retry of a complete scan whose
creation blocks rolled back under it. -/
namespace WalletBackend.Blockfrost
open Interaction Containers

def BLOCK_LOOKUP_CONCURRENCY : Nat := 10
def BLOCK_LOOKUP_ATTEMPTS : Nat := 2
def UTXO_ROLLBACK_SCAN_ATTEMPTS : Nat := 3

/-- Look a block up again while attempts are left; then it has rolled back. -/
def lookupBlock (hash : String) : Nat → Read (String × Nat)
  | 0 => throw .creationBlockRolledBack
  | attempts + 1 => do
      match ← getOrUndefined (.blockHeight hash) with
      | some block => pure (hash, block.height)
      | none => lookupBlock hash attempts

/-- One lookup per distinct block. -/
def resolveBlockHeights (blockHashes : List String) : Read (KeyedMap String Nat) := do
  let entries ← mapWithConcurrency blockHashes.eraseDups BLOCK_LOOKUP_CONCURRENCY
    fun hash _ => lookupBlock hash BLOCK_LOOKUP_ATTEMPTS
  pure (entries.foldl (fun heights entry => heights.set entry.1 entry.2) .empty)

/-- Repeat the scan on a rollback, at most `retries` more times. -/
def retryScan {α : Type} (scan : Read α) : Nat → Read α
  | 0 => scan
  | retries + 1 => tryCatch scan fun error =>
      if error = .creationBlockRolledBack then retryScan scan retries else throw error

def retryUtxoScanAfterRollback {α : Type} (scan : Read α) : Read α :=
  retryScan scan (UTXO_ROLLBACK_SCAN_ATTEMPTS - 1)

theorem retryScan_eq {α : Type} (scan : Read α) (retries : Nat) :
    retryScan scan retries = scan.retrying (· = .creationBlockRolledBack) retries := by
  induction retries with
  | zero => rfl
  | succ retries ih => rw [retryScan, ih, Async.retrying]

variable {T : Type}

/-- A retried scan ends as its last attempt does. -/
theorem retryScan_runs {α : Type} {scan : Read α} {retries : Nat}
    {trace : List (Exchange T Endpoint.Answer)} {outcome : Except Failure α}
    (runs : (retryScan scan retries).Runs trace outcome) :
    ∃ before last, trace = before ++ last ∧ scan.Runs last outcome := by
  rw [retryScan_eq] at runs
  exact Async.retrying_runs runs

end WalletBackend.Blockfrost
