import WalletBackend.Domain.Hashes
import WalletBackend.Koios.HistoryPage

/-! The stake-account history. One list request, capped by the upstream, is cut to a
page; the block of the page's last transaction is the next cursor. -/
namespace WalletBackend.Koios
open Interaction BlockPaging

/-- The most rows the upstream returns to one list request. -/
def UPSTREAM_ROW_CAP : Nat := 1000

def getTxHistory (attempts : ReadAttempts) (bodyLimit : Nat) (stakeAddress : String)
    (afterBlock : Option Nat) : Read (List WalletTransaction) := do
  let list ← get attempts (.accountTxs stakeAddress afterBlock)
  if list.length = 0 then pure []
  else hydrateTxHistory attempts bodyLimit ((selectPage list).map HistoryRow.tx_hash)

/-- What the upstream may answer to a list request: as many of the matching rows as
the cap allows, whichever, in any order. -/
def Capped (matching rows : List HistoryRow) : Prop :=
  rows.Subperm matching ∧ rows.length = min UPSTREAM_ROW_CAP matching.length

/-- The rows above the cursor. -/
def ChainHistory.matching (history : ChainHistory) (afterBlock : Option Nat) : List HistoryRow :=
  (above TxInfoRow.block_height afterBlock history.txs).map TxInfoRow.thin

/-- An upstream that serves the history of `stakeAddress` under the row cap. -/
structure HonestAccount {T : Type} (history : ChainHistory) (stakeAddress : String)
    (trace : List (Exchange T Endpoint.Answer)) : Prop where
  lists : ∀ t after rows, ⟨t, .accountTxs stakeAddress after, .ok rows⟩ ∈ trace →
    Capped (history.matching after) rows
  details : ∀ t asked answer, ⟨t, .txInfo asked, answer⟩ ∈ trace →
    ServesTxInfo history asked answer

/-- A page that one call with the cursor may return. -/
def AccountPage (attempts : ReadAttempts) (history : ChainHistory) (stakeAddress : String)
    (afterBlock : Option Nat) (page : List WalletTransaction) : Prop :=
  ∃ trace : List (Exchange Unit Endpoint.Answer), HonestAccount history stakeAddress trace ∧
    (getTxHistory attempts KOIOS_BODY_LIMIT_BYTES stakeAddress afterBlock).Runs trace (.ok page)

variable {history : ChainHistory} {attempts : ReadAttempts} {stakeAddress : String}

/-- The hashes of an answer are distinct hashes of the chain. -/
theorem Capped.hashes {after : Option Nat} {list : List HistoryRow}
    (capped : Capped (history.matching after) list) :
    ((selectPage list).map HistoryRow.tx_hash).Nodup ∧
      ∀ hash ∈ (selectPage list).map HistoryRow.tx_hash,
        hash ∈ (above TxInfoRow.block_height after history.txs).map TxInfoRow.tx_hash := by
  obtain ⟨part, same, sub⟩ := (selectPage_subperm list).trans capped.1
  have hashes := sub.map HistoryRow.tx_hash
  rw [ChainHistory.matching, List.map_map] at hashes
  have unique : ((above TxInfoRow.block_height after history.txs).map TxInfoRow.tx_hash).Nodup :=
    history.distinct.sublist (List.filter_sublist.map _)
  refine ⟨(same.map _).nodup_iff.mp (unique.sublist hashes), fun hash member => ?_⟩
  exact hashes.subset ((same.map _).mem_iff.mpr member)

/-- An upstream that answers the cursor `after` with `list`, other cursors with the
oldest rows, and every `/tx_info` request. -/
def upstream (history : ChainHistory) (after : Option Nat) (list : List HistoryRow) :
    (endpoint : Endpoint) → endpoint.Answer
  | .accountTxs _ after' =>
      if after' = after then .ok list else .ok ((history.matching after').take UPSTREAM_ROW_CAP)
  | .txInfo asked => .ok (history.under asked)
  | .addressTxs .. | .accountInfo _ | .accountRewards _ | .addressInfo _ | .credentialTxs _ =>
      .error (.plain "")

theorem capped_take (matching : List HistoryRow) :
    Capped matching (matching.take UPSTREAM_ROW_CAP) :=
  ⟨(List.take_sublist _ _).subperm, by rw [List.length_take]⟩

/-- A call returns the transactions on the page cut from some answer under the cap,
and for each such answer there is a call that does. -/
theorem accountPage_iff {after : Option Nat} {page : List WalletTransaction} :
    AccountPage attempts history stakeAddress after page ↔
      ∃ list, Capped (history.matching after) list ∧ page = (history.page list).map mapTx := by
  constructor
  · rintro ⟨trace, honest, runs⟩
    obtain ⟨first, rest, list, rfl, listed, tail⟩ := Async.runs_bind_ok.mp runs
    obtain ⟨t, asked⟩ := get_runs listed
    refine ⟨list, honest.lists t after list (List.mem_append_left _ asked), ?_⟩
    split at tail
    case isTrue none =>
      obtain ⟨rfl, same⟩ := tail
      cases same
      rw [ChainHistory.page, List.length_eq_zero_iff.mp none, selectPage_nil, List.map_nil,
        under_nil]
      rfl
    case isFalse =>
      exact hydrateTxHistory_runs tail fun t asked answer member =>
        honest.details t asked answer (List.mem_append_right _ member)
  · rintro ⟨list, capped, rfl⟩
    have run : ∃ (trace : List (Exchange Unit Endpoint.Answer)) (outcome : _),
        Async.Static (upstream history after list) trace ∧
        (getTxHistory attempts KOIOS_BODY_LIMIT_BYTES stakeAddress after).Runs trace outcome :=
      Async.exists_run _ _
    obtain ⟨trace, outcome, static, runs⟩ := run
    have answers : ∀ t asked answer, ⟨t, .txInfo asked, answer⟩ ∈ trace →
        ∃ rows, answer = .ok rows ∧ rows.Perm (history.under asked) :=
      fun t asked answer member => ⟨_, static _ member, .refl _⟩
    have honest : HonestAccount history stakeAddress trace := by
      constructor
      · intro t after' rows member
        have served := static _ member
        simp only [upstream] at served
        split at served
        case isTrue same =>
          cases served
          rw [same]
          exact capped
        case isFalse =>
          cases served
          exact capped_take _
      · intro t asked answer member
        obtain ⟨rows, rfl, perm⟩ := answers t asked answer member
        exact perm
    refine ⟨trace, honest, ?_⟩
    obtain ⟨first, rest, list', rfl, listed, tail⟩ | ⟨e, failed, -⟩ := Async.runs_bind.mp runs
    · obtain ⟨t, asked⟩ := get_runs listed
      have served := static _ (List.mem_append_left _ asked)
      simp only [upstream, if_true] at served
      cases served
      suffices settled : outcome = .ok ((history.page list).map mapTx) by
        rw [← settled]
        exact runs
      split at tail
      case isTrue none =>
        rw [← tail.2, ChainHistory.page, List.length_eq_zero_iff.mp none, selectPage_nil,
          List.map_nil, under_nil]
        rfl
      case isFalse =>
        obtain ⟨nodup, known⟩ := capped.hashes
        refine hydrateTxHistory_returns nodup (fun hash member => ?_) (fun hash member => ?_) tail
          fun t asked answer member => answers t asked answer (List.mem_append_right _ member)
        · exact (List.filter_sublist.map _).subset (known hash member)
        · obtain ⟨tx, found, rfl⟩ := List.mem_map.mp (known hash member)
          exact history.fits tx (List.mem_of_mem_filter found)
    · obtain ⟨t, asked⟩ := get_runs failed
      have served := static _ asked
      simp only [upstream, if_true] at served
      cases served

/-- Given every matching row, the page is the window above the cursor. -/
theorem page_matching (history : ChainHistory) (after : Option Nat) :
    history.page (history.matching after) =
      window HISTORY_PAGE_SIZE TxInfoRow.block_height
        (above TxInfoRow.block_height after history.txs) := by
  have ordered : (history.matching after).Pairwise fun a b => a.block_height ≤ b.block_height :=
    List.pairwise_map.mpr (ordered_txs history).above
  rw [ChainHistory.page, selectPage, ordered.insertionSort_eq, ChainHistory.matching, window_map,
    List.map_map]
  exact history.under_part ((window_sublist _).trans List.filter_sublist)

/-- The transactions of a page lie above the cursor. -/
theorem mem_page {after : Option Nat} {list : List HistoryRow}
    (capped : Capped (history.matching after) list) {tx : TxInfoRow}
    (member : tx ∈ history.page list) :
    tx ∈ above TxInfoRow.block_height after history.txs := by
  obtain ⟨present, hash⟩ := ChainHistory.mem_under.mp member
  obtain ⟨tx', found, same⟩ := List.mem_map.mp (capped.hashes.2 _ hash)
  rwa [← history.tx_eq (List.mem_of_mem_filter found) present same]

/-- From every cursor the pages come to an end. -/
theorem exists_pages (attempts : ReadAttempts) (history : ChainHistory) (stakeAddress : String)
    (after : Option Nat) : ∃ pages, Enumeration (AccountPage attempts history stakeAddress)
      WalletTransaction.block after pages := by
  obtain ⟨bound, upTo⟩ := exists_bound TxInfoRow.block_height history.txs
  refine exists_enumeration bound (fun after => ?_) (fun after txs last read final => ?_) after
  · exact ⟨_, accountPage_iff.mpr ⟨_, capped_take _, rfl⟩⟩
  · obtain ⟨list, capped, rfl⟩ := accountPage_iff.mp read
    obtain ⟨tx, member, rfl⟩ := List.mem_map.mp (List.mem_of_getLast? final)
    obtain ⟨present, past⟩ := mem_above.mp (mem_page capped member)
    exact ⟨past, upTo tx present⟩

/-- Every transaction enumerated from a cursor lies above it. -/
theorem mem_pages {after : Option Nat} {pages : List (List WalletTransaction)}
    (enumeration : Enumeration (AccountPage attempts history stakeAddress)
      WalletTransaction.block after pages) {w : WalletTransaction} (member : w ∈ pages.flatten) :
    ∃ tx ∈ above TxInfoRow.block_height after history.txs, w = mapTx tx := by
  induction enumeration with
  | done after empty => exact absurd member List.not_mem_nil
  | next after txs last pages read final rest ih =>
    obtain ⟨list, capped, rfl⟩ := accountPage_iff.mp read
    obtain here | later := List.mem_append.mp (List.flatten_cons ▸ member)
    · obtain ⟨tx, found, rfl⟩ := List.mem_map.mp here
      exact ⟨tx, mem_page capped found, rfl⟩
    · obtain ⟨tx, found, rfl⟩ := ih later
      obtain ⟨present, past⟩ := mem_above.mp found
      obtain ⟨tx', found', same⟩ := List.mem_map.mp (List.mem_of_getLast? final)
      refine ⟨tx, mem_above.mpr ⟨present, fun a member => ?_⟩, rfl⟩
      have beyond := past _ rfl
      rw [← same] at beyond
      exact ((mem_above.mp (mem_page capped found')).2 a member).trans beyond

theorem capped_rest {oldest : TxInfoRow} {rest : List TxInfoRow}
    (same : history.txs = oldest :: rest) (long : UPSTREAM_ROW_CAP < history.txs.length) :
    Capped (history.matching none) ((rest.map TxInfoRow.thin).take UPSTREAM_ROW_CAP) := by
  rw [same, List.length_cons] at long
  rw [ChainHistory.matching, above_none, same]
  refine ⟨((List.take_sublist _ _).trans (List.sublist_cons_self _ _)).subperm, ?_⟩
  simp only [List.length_take, List.length_map, List.length_cons]
  omega

/-- A history longer than the cap can be enumerated without its oldest transaction:
the first answer leaves it out, and no later cursor goes back to it. -/
theorem pages_miss_oldest (attempts : ReadAttempts) (history : ChainHistory)
    (stakeAddress : String) (long : UPSTREAM_ROW_CAP < history.txs.length) :
    ∃ pages, Enumeration (AccountPage attempts history stakeAddress)
      WalletTransaction.block none pages ∧ pages.flatten ≠ history.txs.map mapTx := by
  cases same : history.txs with
  | nil => simp [same] at long
  | cons oldest rest =>
    have capped := capped_rest same long
    have first : AccountPage attempts history stakeAddress none _ :=
      accountPage_iff.mpr ⟨_, capped, rfl⟩
    cases final : ((history.page ((rest.map TxInfoRow.thin).take UPSTREAM_ROW_CAP)).map
        mapTx).getLast? with
    | none =>
      rw [List.getLast?_eq_none_iff.mp final] at first
      exact ⟨[], .done none first, by simp⟩
    | some last =>
      obtain ⟨pages, later⟩ := exists_pages attempts history stakeAddress (some last.block)
      refine ⟨_ :: pages, .next none _ last pages first final later, fun all => ?_⟩
      have present : mapTx oldest ∈ (oldest :: rest).map mapTx := List.mem_cons_self
      rw [← all, List.flatten_cons] at present
      obtain here | there := List.mem_append.mp present
      · obtain ⟨tx, found, mapped⟩ := List.mem_map.mp here
        have hash : tx.tx_hash = oldest.tx_hash := congrArg WalletTransaction.txHash mapped
        obtain ⟨row, listed, hash'⟩ := List.mem_map.mp (ChainHistory.mem_under.mp found).2
        have inRest := List.mem_of_mem_take ((selectPage_subperm _).subset listed)
        obtain ⟨tx', member, rfl⟩ := List.mem_map.mp inRest
        have distinct := history.distinct
        rw [same, List.map_cons, List.nodup_cons] at distinct
        exact distinct.1 (List.mem_map.mpr ⟨tx', member, hash'.trans hash⟩)
      · obtain ⟨tx, found, mapped⟩ := mem_pages later there
        have past := (mem_above.mp found).2 _ rfl
        have block : oldest.block_height = tx.block_height := congrArg WalletTransaction.block mapped
        obtain ⟨tx', found', rfl⟩ := List.mem_map.mp (List.mem_of_getLast? final)
        have member := (mem_above.mp (mem_page capped found')).1
        have ordered := ordered_txs history
        rw [same] at member ordered
        have oldestFirst : oldest.block_height ≤ tx'.block_height := by
          obtain rfl | later := List.mem_cons.mp member
          · exact le_refl _
          · exact (List.pairwise_cons.mp ordered).1 tx' later
        have beyond : tx'.block_height < tx.block_height := past
        omega

/-- Up to the cap, the pages enumerate the whole history. -/
theorem pages_complete (short : history.txs.length ≤ UPSTREAM_ROW_CAP)
    {pages : List (List WalletTransaction)}
    (enumeration : Enumeration (AccountPage attempts history stakeAddress)
      WalletTransaction.block none pages) : pages.flatten = history.txs.map mapTx := by
  have windows : ∀ after txs, AccountPage attempts history stakeAddress after txs →
      txs = window HISTORY_PAGE_SIZE WalletTransaction.block
        (above WalletTransaction.block after (history.txs.map mapTx)) := by
    intro after txs read
    obtain ⟨list, capped, rfl⟩ := accountPage_iff.mp read
    have few : (history.matching after).length ≤ history.txs.length := by
      rw [ChainHistory.matching, List.length_map]
      exact List.length_filter_le _ _
    have full : list.Perm (history.matching after) :=
      capped.1.perm_of_length_le (by rw [capped.2]; omega)
    rw [page_perm full, page_matching, above_map, window_map]
    rfl
  have ordered : Ordered WalletTransaction.block (history.txs.map mapTx) :=
    List.pairwise_map.mpr (ordered_txs history)
  rw [enumeration.complete (by decide) ordered windows, above_none]

/-- Calling the account history again and again with the block of the last
transaction seen enumerates the whole history, each transaction once and in chain
order, whatever the capped upstream chooses to return, exactly when the history is
no longer than the cap. -/
theorem account_history_complete_iff (attempts : ReadAttempts) (history : ChainHistory)
    (stakeAddress : String) :
    ((∃ pages, Enumeration (AccountPage attempts history stakeAddress)
        WalletTransaction.block none pages) ∧
      ∀ pages, Enumeration (AccountPage attempts history stakeAddress)
        WalletTransaction.block none pages → pages.flatten = history.txs.map mapTx) ↔
    history.txs.length ≤ UPSTREAM_ROW_CAP := by
  constructor
  · rintro ⟨-, complete⟩
    by_contra long
    obtain ⟨pages, enumeration, misses⟩ :=
      pages_miss_oldest attempts history stakeAddress (Nat.lt_of_not_le long)
    exact misses (complete pages enumeration)
  · exact fun short => ⟨exists_pages attempts history stakeAddress none,
      fun pages enumeration => pages_complete short enumeration⟩

theorem numberedHash_fits {n : Nat} (small : n < 4096) :
    txInfoBody.Fits KOIOS_BODY_LIMIT_BYTES (numberedHash n) := by
  have quoted : txInfoBody.itemBytes (numberedHash n) = 66 := by
    simp only [BodyBuilder.itemBytes, txInfoBody, String.utf8ByteSize_append,
      numberedHash_size small]
    decide
  rw [BodyBuilder.Fits, quoted]
  decide

theorem fee_digits : isDigits "170000" = true := by decide

def numberedTx (n : Nat) : TxInfoRow where
  tx_hash := numberedHash n
  block_hash := numberedHash n
  block_height := n
  epoch_no := 0
  absolute_slot := n
  tx_timestamp := n
  tx_block_index := 0
  fee := .digits "170000" fee_digits
  invalid_after := none
  inputs := none
  outputs := none
  withdrawals := none
  certificates := none
  metadata := none

/-- The shortest history over the cap, one transaction a block. -/
def overCap : ChainHistory where
  txs := (List.range 1001).map numberedTx
  ordered := List.pairwise_map.mpr (List.pairwise_lt_range.imp .inl)
  distinct := by
    rw [List.map_map]
    refine List.Nodup.map_on (fun a left b right same => ?_) List.nodup_range
    rw [List.mem_range] at left right
    exact numberedHash_inj (by omega) (by omega) same
  fits := by
    intro tx member
    obtain ⟨n, present, rfl⟩ := List.mem_map.mp member
    rw [List.mem_range] at present
    exact numberedHash_fits (by omega)

theorem account_history_incomplete :
    ∃ pages, Enumeration (AccountPage ⟨2, by decide, by decide⟩ overCap "stake1")
      WalletTransaction.block none pages ∧ pages.flatten ≠ overCap.txs.map mapTx := by
  refine pages_miss_oldest _ overCap _ ?_
  rw [overCap, List.length_map, List.length_range]
  decide

end WalletBackend.Koios
