import WalletBackend.Domain.Account
import WalletBackend.Domain.Transactions
import WalletBackend.Koios.Paging
import WalletBackend.Koios.Schema
import WalletBackend.Library.PoolRuns

/-! The history reads of the Koios client: thin transaction lists, their details
through `/tx_info`, and batches packed into several requests. -/
namespace WalletBackend.Koios
open Interaction

/-- A thin row of `/account_txs`, `/address_txs` or `/credential_txs`, as far as it is
read. -/
structure HistoryRow where
  tx_hash : String
  block_height : Nat
  deriving DecidableEq, Repr

structure TxIoRow where
  payment_addr : Option String
  value : Numeric
  asset_list : Option (List AssetItem)
  deriving DecidableEq

structure TxInputRow extends TxIoRow where
  tx_hash : String
  tx_index : Nat
  deriving DecidableEq

structure WithdrawalRow where
  stake_addr : String
  amount : Numeric
  deriving DecidableEq

structure CertRow where
  index : Nat
  type : String
  deriving DecidableEq, Repr

/-- `invalidAfter` before its transform: a number, or a canonical decimal string. -/
inductive InvalidAfter where
  | number (n : Nat)
  | digits (n : Nat)
  deriving DecidableEq, Repr

structure TxInfoRow where
  tx_hash : String
  block_hash : String
  block_height : Nat
  epoch_no : Nat
  absolute_slot : Nat
  tx_timestamp : Nat
  tx_block_index : Nat
  fee : Numeric
  invalid_after : Option InvalidAfter
  inputs : Option (List TxInputRow)
  outputs : Option (List TxIoRow)
  withdrawals : Option (List WithdrawalRow)
  certificates : Option (List CertRow)
  metadata : Option Json

/-- A row of `/account_info`; its status is `registered` or `not registered`. -/
structure AccountInfoRow where
  stake_address : String
  registered : Bool
  delegated_pool : Option String
  delegated_drep : Option String
  total_balance : SignedNumeric
  rewards_available : Numeric
  rewards : Numeric
  withdrawals : Numeric
  deriving DecidableEq

structure RewardRow where
  earned_epoch : Nat
  spendable_epoch : Nat
  amount : Numeric
  type : RewardKind
  pool_id : Option String
  deriving DecidableEq

/-- One stake address of `/account_rewards`, with its own reward list. -/
structure AccountRewardsRow where
  stake_address : String
  rewards : Option (List RewardRow)
  deriving DecidableEq

/-- The resources read, each answered by rows that passed their schema. -/
inductive Endpoint where
  | accountTxs (stakeAddress : String) (afterBlock : Option Nat)
  | txInfo (hashes : List String)
  | addressTxs (addresses : List String) (afterBlock : Option Nat) (limit offset : Nat)
  | accountInfo (stakeAddress : String)
  | accountRewards (stakeAddress : String)
  | addressInfo (addresses : List String)
  /-- `/credential_txs?limit=1`. -/
  | credentialTxs (credentials : List String)
  deriving DecidableEq

abbrev Endpoint.Rows : Endpoint → Type
  | .accountTxs .. => List HistoryRow
  | .txInfo _ => List TxInfoRow
  | .addressTxs .. => PageResponse HistoryRow
  | .accountInfo _ => List AccountInfoRow
  | .accountRewards _ => List AccountRewardsRow
  | .addressInfo _ => List String
  | .credentialTxs _ => List HistoryRow

abbrev Endpoint.Answer (endpoint : Endpoint) : Type := Except Failure endpoint.Rows

abbrev Read (α : Type) := Async Endpoint.Answer Failure α

/-- One request, not retried. -/
def request (endpoint : Endpoint) : Read endpoint.Rows := do
  Async.ofExcept (← Async.ask endpoint)

/-- `koios.get` and `koios.batch`: fetch, validate and retry. -/
def get (attempts : ReadAttempts) (endpoint : Endpoint) : Read endpoint.Rows :=
  read attempts (request endpoint)

/-- The limit a 413 names, if it names a usable one. -/
def limitFrom413 : Failure → Option Nat
  | .provider _ (some 413) (some details) => namedLimit details.toList
  | _ => none
where
  /-- `/body size is below (\d+) bytes/`, and `Number.isSafeInteger(limit) && limit > 0`. -/
  namedLimit : List Char → Option Nat
  | [] => none
  | c :: rest =>
      match matchHere (c :: rest) with
      | some limit => if 0 < limit ∧ limit ≤ maxSafeInteger then some limit else none
      | none => namedLimit rest
  matchHere (chars : List Char) : Option Nat := do
    let rest ← dropPrefix "body size is below ".toList chars
    let digits := rest.takeWhile Char.isDigit
    let _ ← dropPrefix " bytes".toList (rest.dropWhile Char.isDigit)
    number? digits
  dropPrefix (front chars : List Char) : Option (List Char) :=
    if front.isPrefixOf chars then some (chars.drop front.length) else none

section Batch

variable {Req : Type} {Resp : Req → Type} {Item Row : Type} (body : BodyBuilder Item)
  (send : List Item → Async Resp Failure (List Row))

/-- Pack, send every chunk at once, concatenate. -/
def sendPacked (items : List Item) (bodyLimit : Nat) : Async Resp Failure (List Row) := do
  let chunks ← Async.ofExcept (packBySize items body bodyLimit)
  let perChunk ← promiseAll (chunks.map send)
  pure perChunk.flatten

/-- Once a 413 has named a smaller limit, repack under it and run once more. -/
def packAdaptively (bodyLimit : Nat) (items : List Item) : Async Resp Failure (List Row) :=
  tryCatch (sendPacked body send items bodyLimit) fun error =>
    match limitFrom413 error with
    | none => throw error
    | some said =>
        if bodyLimit ≤ said then throw error else sendPacked body send items said

def batchAll (bodyLimit : Nat) (items : List Item) : Async Resp Failure (List Row) :=
  if items.length = 0 then pure [] else packAdaptively body send bodyLimit items

end Batch

section Runs

variable {T : Type} {trace : List (Exchange T Endpoint.Answer)}

theorem request_runs {endpoint : Endpoint} {outcome : Except Failure endpoint.Rows} :
    (request endpoint).Runs trace outcome ↔ ∃ t, trace = [⟨t, endpoint, outcome⟩] := by
  constructor
  · rintro ⟨t, answer, rest, rfl, rfl, rfl⟩
    exact ⟨t, rfl⟩
  · rintro ⟨t, rfl⟩
    exact ⟨t, outcome, [], rfl, rfl, rfl⟩

/-- What a retried request comes to was answered to it. -/
theorem get_runs {attempts : ReadAttempts} {endpoint : Endpoint} {outcome : Except Failure endpoint.Rows}
    (runs : (get attempts endpoint).Runs trace outcome) : ∃ t, ⟨t, endpoint, outcome⟩ ∈ trace := by
  obtain ⟨t, answer, member, rfl⟩ := read_asked runs
  exact ⟨t, member⟩

end Runs

section BatchRuns

variable {T Req : Type} {Resp : Req → Type} {Item Row : Type} {body : BodyBuilder Item}
  {send : List Item → Async Resp Failure (List Row)} {trace : List (Exchange T Resp)}

/-- Each chunk that was sent came back, in its place, during the run. -/
theorem sendPacked_runs {items : List Item} {bodyLimit : Nat} {rows : List Row}
    (runs : (sendPacked body send items bodyLimit).Runs trace (.ok rows)) :
    ∃ chunks perChunk, chunks.flatten = items ∧ rows = perChunk.flatten ∧
      List.Forall₂ (fun chunk part => ∃ inside, inside.Sublist trace ∧
        (send chunk).Runs inside (.ok part)) chunks perChunk := by
  obtain ⟨_, rest, chunks, rfl, ⟨rfl, packed⟩, tail⟩ := Async.runs_bind_ok.mp runs
  obtain ⟨sent, _, perChunk, rfl, all, rfl, same⟩ := Async.runs_bind_ok.mp tail
  cases same
  rw [List.nil_append, List.append_nil]
  exact ⟨chunks, perChunk, packBySize_flatten packed, rfl, promiseAll_runs all⟩

/-- Packing that returns has sent chunks that concatenate to the items. -/
theorem packAdaptively_runs {items : List Item} {bodyLimit : Nat} {rows : List Row}
    (runs : (packAdaptively body send bodyLimit items).Runs trace (.ok rows)) :
    ∃ chunks perChunk, chunks.flatten = items ∧ rows = perChunk.flatten ∧
      List.Forall₂ (fun chunk part => ∃ inside, inside.Sublist trace ∧
        (send chunk).Runs inside (.ok part)) chunks perChunk := by
  obtain ⟨_, packed, same⟩ | ⟨first, rest, error, rfl, -, again⟩ := Async.runs_tryCatch.mp runs
  · cases same
    exact sendPacked_runs packed
  · cases limit : limitFrom413 error with
    | none =>
      rw [limit] at again
      exact nomatch again.2
    | some said =>
      simp only [limit] at again
      split at again
      · exact nomatch again.2
      · obtain ⟨chunks, perChunk, all, same, each⟩ := sendPacked_runs again
        refine ⟨chunks, perChunk, all, same, each.imp ?_⟩
        rintro chunk part ⟨inside, sub, ran⟩
        exact ⟨inside, sub.trans (List.sublist_append_right first rest), ran⟩

/-- A batch that returns has been sent in chunks that concatenate to the items. -/
theorem batchAll_runs {items : List Item} {bodyLimit : Nat} {rows : List Row}
    (runs : (batchAll body send bodyLimit items).Runs trace (.ok rows)) :
    ∃ chunks perChunk, chunks.flatten = items ∧ rows = perChunk.flatten ∧
      List.Forall₂ (fun chunk part => ∃ inside, inside.Sublist trace ∧
        (send chunk).Runs inside (.ok part)) chunks perChunk := by
  unfold batchAll at runs
  split at runs
  case isTrue none =>
    obtain ⟨-, same⟩ := runs
    cases same
    exact ⟨[], [], (List.length_eq_zero_iff.mp none).symm, rfl, .nil⟩
  case isFalse => exact packAdaptively_runs runs

/-- Every row came back with a chunk of the items. -/
theorem batchAll_row {items : List Item} {bodyLimit : Nat} {rows : List Row} {row : Row}
    (runs : (batchAll body send bodyLimit items).Runs trace (.ok rows)) (member : row ∈ rows) :
    ∃ chunk part inside, chunk ⊆ items ∧ row ∈ part ∧ inside.Sublist trace ∧
      (send chunk).Runs inside (.ok part) := by
  obtain ⟨chunks, perChunk, rfl, rfl, each⟩ := batchAll_runs runs
  obtain ⟨part, there, found⟩ := List.mem_flatten.mp member
  obtain ⟨i, bound, rfl⟩ := List.getElem_of_mem there
  obtain ⟨inside, sub, ran⟩ := (List.forall₂_iff_get.mp each).2 i (each.length_eq ▸ bound) bound
  exact ⟨_, _, inside, fun _ => List.mem_flatten_of_mem (List.get_mem _ _), found, sub, ran⟩

/-- Every item was sent in a chunk, whose rows came back. -/
theorem batchAll_item {items : List Item} {bodyLimit : Nat} {rows : List Row} {item : Item}
    (runs : (batchAll body send bodyLimit items).Runs trace (.ok rows)) (member : item ∈ items) :
    ∃ chunk part inside, item ∈ chunk ∧ part ⊆ rows ∧ inside.Sublist trace ∧
      (send chunk).Runs inside (.ok part) := by
  obtain ⟨chunks, perChunk, rfl, rfl, each⟩ := batchAll_runs runs
  obtain ⟨chunk, there, found⟩ := List.mem_flatten.mp member
  obtain ⟨i, bound, rfl⟩ := List.getElem_of_mem there
  obtain ⟨inside, sub, ran⟩ := (List.forall₂_iff_get.mp each).2 i bound (each.length_eq ▸ bound)
  exact ⟨_, _, inside, found, fun _ => List.mem_flatten_of_mem (List.get_mem _ _), sub, ran⟩

/-- Items that fit into one body are sent by it. -/
theorem batchAll_lone {items : List Item} {bodyLimit : Nat} {rows : List Row} (some : items.length ≠ 0)
    (packed : packBySize items body bodyLimit = .ok [items])
    (runs : (send items).Runs trace (.ok rows)) :
    (batchAll body send bodyLimit items).Runs trace (.ok rows) := by
  unfold batchAll
  rw [if_neg some, packAdaptively, sendPacked, packed]
  have all : (promiseAll ([items].map send)).Runs trace (.ok [rows]) :=
    fanOut_lone (by simp) runs
  refine Async.runs_tryCatch.mpr (.inl ⟨rows, ?_, rfl⟩)
  refine Async.runs_bind_ok.mpr ⟨[], trace, [items], rfl, ⟨rfl, rfl⟩, ?_⟩
  exact Async.runs_bind_ok.mpr ⟨trace, [], [rows], (List.append_nil _).symm, all, rfl, by simp⟩

/-- Items that fit, sent by requests that do not fail, come back. -/
theorem sendPacked_returns {items : List Item} {bodyLimit : Nat} {outcome : Except Failure (List Row)}
    (fits : ∀ item ∈ items, body.Fits bodyLimit item)
    (sends : ∀ chunk ⊆ items, ∀ part e, part.Sublist trace → ¬ (send chunk).Runs part (.error e))
    (runs : (sendPacked body send items bodyLimit).Runs trace outcome) :
    ∃ rows, outcome = .ok rows := by
  cases outcome with
  | ok rows => exact ⟨rows, rfl⟩
  | error e =>
    obtain ⟨chunks, packed⟩ := packBySize_fits fits
    obtain ⟨_, rest, chunks', rfl, ⟨rfl, same⟩, tail⟩ | ⟨_, ⟨-, same⟩, -⟩ := Async.runs_bind.mp runs
    · obtain ⟨_, _, _, _, _, done⟩ | ⟨_, failed, same'⟩ := Async.runs_bind.mp tail
      · exact nomatch done.2
      · obtain ⟨chunk, sent, part, sub, ran⟩ := promiseAll_fails failed
        have inside : chunk ⊆ items := by
          rw [← packBySize_flatten same]
          exact fun item member => List.mem_flatten_of_mem sent member
        exact absurd ran (sends _ inside _ _ (by simpa using sub))
    · rw [packed] at same
      cases same

theorem packAdaptively_returns {items : List Item} {bodyLimit : Nat}
    {outcome : Except Failure (List Row)} (fits : ∀ item ∈ items, body.Fits bodyLimit item)
    (sends : ∀ chunk ⊆ items, ∀ part e, part.Sublist trace → ¬ (send chunk).Runs part (.error e))
    (runs : (packAdaptively body send bodyLimit items).Runs trace outcome) :
    ∃ rows, outcome = .ok rows := by
  obtain ⟨rows, -, same⟩ | ⟨first, rest, error, rfl, failed, -⟩ := Async.runs_tryCatch.mp runs
  · exact ⟨rows, same.symm⟩
  · have inside := List.sublist_append_left first rest
    obtain ⟨_, same⟩ := sendPacked_returns fits
      (fun chunk some' part e sub => sends chunk some' part e (sub.trans inside)) failed
    cases same

theorem batchAll_returns {items : List Item} {bodyLimit : Nat} {outcome : Except Failure (List Row)}
    (fits : ∀ item ∈ items, body.Fits bodyLimit item)
    (sends : ∀ chunk ⊆ items, ∀ part e, part.Sublist trace → ¬ (send chunk).Runs part (.error e))
    (runs : (batchAll body send bodyLimit items).Runs trace outcome) :
    ∃ rows, outcome = .ok rows := by
  unfold batchAll at runs
  split at runs
  · exact ⟨[], runs.2.symm⟩
  · exact packAdaptively_returns fits sends runs

end BatchRuns

end WalletBackend.Koios
