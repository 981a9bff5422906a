import WalletBackend.Blockfrost.SettledPage
import WalletBackend.Domain.Hashes

/-! The history of an address set: settle the oldest page of the merged cursors, then
hydrate its transactions. -/
namespace WalletBackend.Blockfrost
open Interaction Containers BlockPaging

def addressSetTxHistory (addresses : List String) (afterBlock : Option Nat)
    (addressFanout hydrateFanout : Nat) : Read (List WalletTransaction) :=
  if addresses.length = 0 then pure []
  else do
    let cursors ← mapWithConcurrency (addresses.map AddressCursor.start) addressFanout
      fun cursor _ => advanceCursor afterBlock cursor
    let cursors ← settleCursors afterBlock addressFanout (cursors.length * LIST_MAX_PAGES + 1)
      cursors
    hydrateTransactions ((mergePage cursors).page.map AddressTxRow.tx_hash) hydrateFanout

section History

variable {T : Type} {chain : AddressChain} {afterBlock : Option Nat} {addresses : List String}
  {trace : List (Exchange T Endpoint.Answer)}

/-- The transactions that touch one of the addresses. -/
def AddressChain.touching (chain : AddressChain) (addresses : List String) : List ChainTx :=
  chain.txs.filter fun tx => addresses.any fun address => tx.row ∈ chain.listing address

/-- The block of a transaction. -/
def ChainTx.height (tx : ChainTx) : Nat := tx.row.block_height

theorem unionAbove_eq : chain.unionAbove addresses afterBlock =
    (above ChainTx.height afterBlock (chain.touching addresses)).map ChainTx.row := by
  refine eq_of_mem_iff unionAbove_before (List.pairwise_map.mpr
    (chain.ordered.sublist (List.filter_sublist.trans List.filter_sublist))) fun row => ?_
  rw [mem_unionAbove, List.mem_map]
  constructor
  · rintro ⟨⟨address, present, member⟩, past⟩
    obtain ⟨tx, known, rfl⟩ := List.mem_map.mp ((chain.listed address).subset member)
    refine ⟨tx, mem_above.mpr ⟨List.mem_filter.mpr ⟨known, ?_⟩, past⟩, rfl⟩
    exact List.any_eq_true.mpr ⟨address, present, decide_eq_true member⟩
  · rintro ⟨tx, member, rfl⟩
    obtain ⟨touches, past⟩ := mem_above.mp member
    obtain ⟨address, present, member⟩ := List.any_eq_true.mp (List.mem_filter.mp touches).2
    exact ⟨⟨address, present, of_decide_eq_true member⟩, past⟩

/-- The transactions of the page. -/
def AddressChain.pageTxs (chain : AddressChain) (addresses : List String)
    (afterBlock : Option Nat) : List ChainTx :=
  window HISTORY_PAGE_SIZE ChainTx.height (above ChainTx.height afterBlock (chain.touching addresses))

theorem reference_eq : chain.reference addresses afterBlock =
    (chain.pageTxs addresses afterBlock).map ChainTx.row := by
  rw [AddressChain.reference, unionAbove_eq, window_map]
  rfl

/-- The records under the hashes of a part of the chain are those of the part. -/
theorem records_part {part : List ChainTx} (inside : part.Sublist chain.txs) :
    chain.records ((part.map ChainTx.row).map AddressTxRow.tx_hash) = part.map ChainTx.record := by
  rw [AddressChain.records, List.map_map]
  exact congrArg _ (filter_keys inside chain.distinct)

theorem pageTxs_sublist : (chain.pageTxs addresses afterBlock).Sublist chain.txs :=
  (window_sublist _).trans (List.filter_sublist.trans List.filter_sublist)

/-- What is hydrated from a part of the chain, in chain order. -/
theorem settles_hydrateTransactions {concurrency : Nat} (honest : HonestHistory chain trace)
    {part : List ChainTx} (inside : part.Sublist chain.txs) :
    Async.Settles trace (hydrateTransactions
      ((part.map ChainTx.row).map AddressTxRow.tx_hash) concurrency)
      (.ok (part.map ChainTx.record)) := by
  rw [hydrateTransactions]
  split
  case isTrue none =>
    rw [List.length_map, List.length_map, List.length_eq_zero_iff] at none
    rw [none]
    exact Async.settles_pure []
  case isFalse =>
    let result := fun tx : ChainTx => (⟨tx.record, tx.row.tx_index⟩ : HydratedTx)
    have each : Async.Settles trace (mapWithConcurrency
        ((part.map ChainTx.row).map AddressTxRow.tx_hash) concurrency fun hash _ => hydrateOne hash)
        (.ok (part.map result)) := by
      refine settles_fanOut ?_
      rw [List.map_map, List.forall₂_map_left_iff, List.forall₂_map_right_iff, List.forall₂_same]
      intro tx member i
      rw [← tx.hydrates]
      exact settles_hydrateOne (honest.details tx (inside.subset member))
    have sorted : (part.map result).Pairwise hydratedOrder := by
      refine List.pairwise_map.mpr ((chain.ordered.sublist inside).imp fun {a b} less => ?_)
      unfold before at less
      change a.record.block < b.record.block ∨
        (a.record.block = b.record.block ∧ a.row.tx_index ≤ b.row.tx_index)
      rw [a.block, b.block]
      omega
    refine each.bind ?_
    rw [sorted.insertionSort_eq, List.map_map]
    exact Async.settles_pure _

theorem settles_addressSetTxHistory {addressFanout hydrateFanout : Nat}
    (honest : HonestHistory chain trace) :
    Async.Settles trace (addressSetTxHistory addresses afterBlock addressFanout hydrateFanout)
      (.ok ((chain.pageTxs addresses afterBlock).map ChainTx.record)) := by
  rw [addressSetTxHistory]
  split
  case isTrue none =>
    have empty : chain.pageTxs addresses afterBlock = [] := by
      have untouched : chain.touching addresses = [] := by
        rw [List.length_eq_zero_iff.mp none]
        exact List.filter_eq_nil_iff.mpr fun tx _ => by simp
      rw [AddressChain.pageTxs, untouched]
      rfl
    rw [empty]
    exact Async.settles_pure []
  case isFalse =>
    let first := addresses.map fun address =>
      (AddressCursor.start address).next chain afterBlock
    have start : Async.Settles trace (mapWithConcurrency (addresses.map AddressCursor.start)
        addressFanout fun cursor _ => advanceCursor afterBlock cursor) (.ok first) := by
      refine settles_fanOut ?_
      rw [List.forall₂_map_left_iff, List.forall₂_map_right_iff, List.forall₂_same]
      exact fun address _ _ => AddressCursor.settles_advance (AddressCursor.open_start address) honest
    have same : first.map AddressCursor.address = addresses := by
      rw [List.map_map]
      exact (List.map_congr_left fun address _ => AddressCursor.next_address _).trans
        (List.map_id addresses)
    have tracks : ∀ c ∈ first, c.Tracks chain afterBlock := by
      intro c member
      obtain ⟨address, -, rfl⟩ := List.mem_map.mp member
      exact (AddressCursor.open_start address).next
    obtain ⟨final, settles, settled⟩ := settles_settleCursors honest same tracks
      (Nat.lt_of_lt_of_le (Nat.lt_succ_self _) (Nat.le_add_right _ _))
    refine start.bind (settles.bind ?_)
    rw [settled.page, reference_eq]
    exact settles_hydrateTransactions honest pageTxs_sublist

def AddressChain.find (chain : AddressChain) (hash : String) : Option ChainTx :=
  chain.txs.find? fun tx => tx.row.tx_hash = hash

/-- An upstream that serves the chain. -/
def AddressChain.serve (chain : AddressChain) : (endpoint : Endpoint) → endpoint.Answer
  | .addressTransactions address page afterBlock => .ok (chain.answer address page afterBlock)
  | .txContent hash => .ok ((chain.find hash).map (·.details.content))
  | .txUtxos hash => .ok ((chain.find hash).map (·.details.utxos))
  | .txMetadata hash => .ok ((chain.find hash).map (·.details.metadata))
  | .txWithdrawals hash => .ok ((chain.find hash).map (·.details.withdrawals))
  | .txStakes hash => .ok ((chain.find hash).map (·.details.stakes))
  | .txCerts hash resource => .ok ((chain.find hash).map (·.details.certs resource))
  | .blockEpoch block => .ok ((chain.txs.find? fun tx => tx.details.content.block = block).map
      fun tx => ⟨tx.details.epoch⟩)
  | _ => .ok none

theorem find_hash {tx : ChainTx} (member : tx ∈ chain.txs) :
    chain.find tx.row.tx_hash = some tx := by
  cases found : chain.find tx.row.tx_hash with
  | none => simpa using List.find?_eq_none.mp found tx member
  | some other =>
    have same : other.row.tx_hash = tx.row.tx_hash := by simpa using List.find?_some found
    exact congrArg some (List.inj_on_of_nodup_map chain.distinct (List.mem_of_find?_eq_some found)
      member same)

theorem serve_honest (static : Async.Static chain.serve trace) : HonestHistory chain trace := by
  have answered : ∀ t endpoint answer, (⟨t, endpoint, answer⟩ : Exchange T Endpoint.Answer) ∈ trace →
      answer = chain.serve endpoint := fun t endpoint answer member => static _ member
  refine ⟨fun t _ _ _ answer member => answered t _ answer member, fun tx member => ?_⟩
  have found := find_hash member
  refine ⟨?_, ?_, ?_, ?_, ?_, ?_, ?_⟩
  case refine_4 =>
    intro t answer asked
    rw [answered t _ answer asked, AddressChain.serve]
    cases first : chain.txs.find? fun other => other.details.content.block =
        tx.details.content.block with
    | none => simpa using List.find?_eq_none.mp first tx member
    | some other =>
      have same : other.details.content.block = tx.details.content.block := by
        simpa using List.find?_some first
      rw [Option.map_some, chain.epochs other (List.mem_of_find?_eq_some first) tx member same]
  case refine_7 =>
    intro resource t answer asked
    rw [answered t _ answer asked, AddressChain.serve, found]
    rfl
  all_goals
    intro t answer asked
    rw [answered t _ answer asked, AddressChain.serve, found]
    rfl

/-- A page that one call with the cursor may return. -/
def HistoryPage (chain : AddressChain) (addresses : List String)
    (addressFanout hydrateFanout : Nat) (afterBlock : Option Nat) (page : List WalletTransaction) :
    Prop :=
  ∃ trace : List (Exchange Unit Endpoint.Answer), HonestHistory chain trace ∧
    (addressSetTxHistory addresses afterBlock addressFanout hydrateFanout).Runs trace (.ok page)

theorem historyPage_iff {addressFanout hydrateFanout : Nat} {page : List WalletTransaction} :
    HistoryPage chain addresses addressFanout hydrateFanout afterBlock page ↔
      page = (chain.pageTxs addresses afterBlock).map ChainTx.record := by
  constructor
  · rintro ⟨trace, honest, runs⟩
    exact Except.ok.inj (settles_addressSetTxHistory honest trace _ (.refl _) runs)
  · rintro rfl
    have run : ∃ (trace : List (Exchange Unit Endpoint.Answer)) (outcome : _),
        Async.Static chain.serve trace ∧
        (addressSetTxHistory addresses afterBlock addressFanout hydrateFanout).Runs trace outcome :=
      Async.exists_run _ _
    obtain ⟨trace, outcome, static, runs⟩ := run
    have honest := serve_honest static
    refine ⟨trace, honest, ?_⟩
    rw [← settles_addressSetTxHistory honest trace _ (.refl _) runs]
    exact runs

theorem touching_ordered (chain : AddressChain) (addresses : List String) :
    Ordered WalletTransaction.block ((chain.touching addresses).map ChainTx.record) := by
  refine List.pairwise_map.mpr ((chain.ordered.sublist List.filter_sublist).imp fun {a b} less => ?_)
  rw [a.block, b.block]
  unfold before at less
  omega

theorem pageTxs_records : (chain.pageTxs addresses afterBlock).map ChainTx.record =
    window HISTORY_PAGE_SIZE WalletTransaction.block (above WalletTransaction.block afterBlock
      ((chain.touching addresses).map ChainTx.record)) := by
  have block : (fun tx : ChainTx => tx.record.block) = ChainTx.height := funext ChainTx.block
  rw [above_map, window_map, block]
  rfl

/-- The history of an address set is its reference. On an upstream that serves the
chain every run returns, and returns the records of the reference page; and calling
again with the block of the last transaction seen visits every transaction of the
addresses once, in chain order. -/
theorem address_set_history_is_reference (chain : AddressChain) (addresses : List String)
    (addressFanout hydrateFanout : Nat) :
    (∀ {T : Type} (trace : List (Exchange T Endpoint.Answer)) (afterBlock : Option Nat)
      (outcome : Except Failure (List WalletTransaction)), HonestHistory chain trace →
      (addressSetTxHistory addresses afterBlock addressFanout hydrateFanout).Runs trace outcome →
      outcome = .ok (chain.records
        ((chain.reference addresses afterBlock).map AddressTxRow.tx_hash))) ∧
    (∀ afterBlock, ∃ page, HistoryPage chain addresses addressFanout hydrateFanout afterBlock page) ∧
    (∃ pages, Enumeration (HistoryPage chain addresses addressFanout hydrateFanout)
      WalletTransaction.block none pages) ∧
    ∀ pages, Enumeration (HistoryPage chain addresses addressFanout hydrateFanout)
      WalletTransaction.block none pages →
      pages.flatten = chain.records
        ((chain.unionAbove addresses none).map AddressTxRow.tx_hash) := by
  refine ⟨fun trace afterBlock outcome honest runs => ?_, fun afterBlock => ?_, ?_, ?_⟩
  · rw [reference_eq, records_part pageTxs_sublist]
    exact settles_addressSetTxHistory honest trace _ (.refl _) runs
  · exact ⟨_, historyPage_iff.mpr rfl⟩
  · obtain ⟨bound, upTo⟩ := exists_bound ChainTx.height chain.txs
    refine exists_enumeration bound (fun after => ⟨_, historyPage_iff.mpr rfl⟩)
      (fun after txs last read final => ?_) none
    obtain rfl := historyPage_iff.mp read
    obtain ⟨tx, member, rfl⟩ := List.mem_map.mp (List.mem_of_getLast? final)
    rw [tx.block]
    exact ⟨(mem_above.mp ((window_sublist _).subset member)).2,
      upTo tx (pageTxs_sublist.subset member)⟩
  · intro pages enumeration
    have inside : (chain.touching addresses).Sublist chain.txs := List.filter_sublist
    rw [unionAbove_eq, above_none, records_part inside, enumeration.complete (by decide)
      (touching_ordered chain addresses) fun after txs read =>
        (historyPage_iff.mp read).trans pageTxs_records, above_none]

/-- One of the payments of five lovelace that fill the block at height 10 with 120 of them and begin
the next one. -/
def paymentAt (n : Nat) : ChainTx where
  row := { tx_hash := numberedHash n, tx_index := n % 120, block_height := 10 + n / 120 }
  details :=
    { content :=
        { block := numberedHash (n / 120), block_height := 10 + n / 120, block_time := 1000, slot := 200
          index := n % 120, fees := .digits "2" (by decide), invalid_hereafter := none
          withdrawal_count := 0, delegation_count := 0, stake_cert_count := 0
          mir_cert_count := 0, pool_update_count := 0, pool_retire_count := 0 }
      utxos :=
        { inputs := []
          outputs :=
            [{ address := "addr1"
               amount := [⟨"lovelace", .digits "5" (by decide), isValidUnit_lovelace⟩]
               output_index := 0, collateral := false }] }
      metadata := [], epoch := 3, withdrawals := [], stakes := [], certs := fun _ => [] }
  record :=
    { txHash := numberedHash n, block := 10 + n / 120, blockHash := numberedHash (n / 120), slot := 200
      epoch := 3, blockTime := 1000, fee := "2", ttl := none, inputs := []
      outputs := [⟨some "addr1", "5", []⟩], withdrawals := [], certificates := [], metadata := none }
  hydrates := rfl
  block := rfl

/-- The first address has 130 payments, and the second every other one of them and the last twenty. -/
def takesPart (address : String) (n : Nat) : Bool :=
  (address == "addr1" && decide (n < 130)) || (address == "addr2" && decide (n % 2 = 0 ∨ 130 ≤ n))

/-- The chain of 150 such payments. -/
def crowdedChain : AddressChain where
  txs := (List.range 150).map paymentAt
  ordered := List.pairwise_map.mpr (List.pairwise_lt_range.imp fun less => by
    unfold before
    simp only [paymentAt]
    omega)
  distinct := by
    rw [List.map_map]
    refine List.Nodup.map_on (fun a left b right same => ?_) List.nodup_range
    rw [List.mem_range] at left right
    exact numberedHash_inj (by omega) (by omega) same
  listing address := ((List.range 150).filter (takesPart address)).map fun n => (paymentAt n).row
  listed address := by
    rw [List.map_map]
    exact List.filter_sublist.map _
  sparse address block := by
    refine Nat.lt_of_le_of_lt (List.length_filter_le _ _) ?_
    rw [List.length_map]
    refine Nat.lt_of_le_of_lt (List.length_filter_le _ _) ?_
    rw [List.length_range]
    decide
  epochs tx listed tx' listed' _ := by
    obtain ⟨_, -, rfl⟩ := List.mem_map.mp listed
    obtain ⟨_, -, rfl⟩ := List.mem_map.mp listed'
    rfl
  seen address := (List.range 150).any (takesPart address)
  unseen address never := by
    rw [List.any_eq_false] at never
    rw [List.filter_eq_nil_iff.mpr never, List.map_nil]

theorem crowdedChain_touching : crowdedChain.touching ["addr1", "addr2"] = crowdedChain.txs := by
  refine List.filter_eq_self.mpr fun tx member => ?_
  obtain ⟨n, inside, rfl⟩ := List.mem_map.mp member
  have listed : ∀ address, takesPart address n = true →
      (paymentAt n).row ∈ crowdedChain.listing address :=
    fun address part => List.mem_map_of_mem (List.mem_filter.mpr ⟨inside, part⟩)
  rw [List.any_eq_true]
  by_cases early : n < 130
  · exact ⟨"addr1", by decide, decide_eq_true (listed _ (by simp [takesPart, early]))⟩
  · exact ⟨"addr2", by decide, decide_eq_true (listed _ (by simp [takesPart, Nat.le_of_not_lt early]))⟩

/-- The records of the page are those of a window of the numbers. -/
theorem crowdedChain_records (afterBlock : Option Nat) :
    crowdedChain.records
      ((crowdedChain.reference ["addr1", "addr2"] afterBlock).map AddressTxRow.tx_hash) =
      (window HISTORY_PAGE_SIZE (10 + · / 120) (above (10 + · / 120) afterBlock
        (List.range 150))).map fun n => (paymentAt n).record := by
  have txs : crowdedChain.txs = (List.range 150).map paymentAt := rfl
  rw [reference_eq, records_part pageTxs_sublist, AddressChain.pageTxs, crowdedChain_touching, txs,
    above_map, window_map, List.map_map]
  rfl

/-- The first page is the whole first block: half of what follows the hundredth payment there is on
the second page of the first address and listed nowhere else. The second page is the rest. -/
theorem crowded_history_is_reference :
    (∃ trace : List (Exchange Unit Endpoint.Answer), HonestHistory crowdedChain trace ∧
      (addressSetTxHistory ["addr1", "addr2"] none 10 10).Runs trace
        (.ok ((List.range 120).map fun n => (paymentAt n).record))) ∧
    ∃ trace : List (Exchange Unit Endpoint.Answer), HonestHistory crowdedChain trace ∧
      (addressSetTxHistory ["addr1", "addr2"] (some 10) 10 10).Runs trace
        (.ok ((List.range' 120 30).map fun n => (paymentAt n).record)) := by
  obtain ⟨returns, pages, -⟩ := address_set_history_is_reference crowdedChain ["addr1", "addr2"] 10 10
  have page : ∀ afterBlock, ∃ trace : List (Exchange Unit Endpoint.Answer),
      HonestHistory crowdedChain trace ∧
      (addressSetTxHistory ["addr1", "addr2"] afterBlock 10 10).Runs trace (.ok (crowdedChain.records
        ((crowdedChain.reference ["addr1", "addr2"] afterBlock).map AddressTxRow.tx_hash))) := by
    intro afterBlock
    obtain ⟨page, trace, honest, runs⟩ := pages afterBlock
    refine ⟨trace, honest, ?_⟩
    rw [← returns trace afterBlock _ honest runs]
    exact runs
  have first : window HISTORY_PAGE_SIZE (10 + · / 120) (above (10 + · / 120) none (List.range 150)) =
      List.range 120 := by
    decide
  have rest : window HISTORY_PAGE_SIZE (10 + · / 120) (above (10 + · / 120) (some 10) (List.range 150)) =
      List.range' 120 30 := by
    decide
  have before := page none
  have after := page (some 10)
  rw [crowdedChain_records, first] at before
  rw [crowdedChain_records, rest] at after
  exact ⟨before, after⟩

end History

end WalletBackend.Blockfrost
