import WalletBackend.Blockfrost.TxHistory
import WalletBackend.Koios.AddressHistory
import WalletBackend.Providers.TxAgreement

/-! The history of an address set on one ledger. Both drivers page it alike, so a client may be
moved from one to the other at any page. -/
namespace WalletBackend.Providers
open Interaction BlockPaging
open Blockfrost (CROWDED HISTORY_PAGE_SIZE)

/-- The transactions of a ledger, oldest first, and which addresses each of them touches: fewer
than `CROWDED` of one address in any block. -/
structure LedgerHistory where
  txs : List LedgerTransaction
  ordered : txs.Pairwise fun a b =>
    a.block < b.block ∨ (a.block = b.block ∧ a.blockIndex < b.blockIndex)
  distinct : (txs.map LedgerTransaction.hash).Nodup
  epochs : ∀ tx ∈ txs, ∀ tx' ∈ txs, tx.blockHash = tx'.blockHash → tx.epoch = tx'.epoch
  touches : String → LedgerTransaction → Bool
  sparse : ∀ address block,
    ((txs.filter (touches address)).filter fun tx => tx.block = block).length < CROWDED

namespace LedgerHistory

def touching (ledger : LedgerHistory) (addresses : List String) : List LedgerTransaction :=
  ledger.txs.filter fun tx => addresses.any fun address => ledger.touches address tx

/-- The oldest transactions of the addresses above the block, and the rest of the last one's. -/
def page (ledger : LedgerHistory) (addresses : List String) (afterBlock : Option Nat) :
    List LedgerTransaction :=
  window HISTORY_PAGE_SIZE LedgerTransaction.block
    (above LedgerTransaction.block afterBlock (ledger.touching addresses))

variable {ledger : LedgerHistory} {addresses : List String} {afterBlock : Option Nat}

theorem mem_touching {tx : LedgerTransaction} : tx ∈ ledger.touching addresses ↔
    tx ∈ ledger.txs ∧ ∃ address ∈ addresses, ledger.touches address tx = true := by
  rw [touching, List.mem_filter, List.any_eq_true]

theorem page_sublist : (ledger.page addresses afterBlock).Sublist ledger.txs :=
  (window_sublist _).trans (List.filter_sublist.trans List.filter_sublist)

theorem touching_ordered : Ordered LedgerTransaction.block (ledger.touching addresses) :=
  (ledger.ordered.sublist List.filter_sublist).imp fun less => by omega

end LedgerHistory

/-! The upstreams that list the ledger. -/

def LedgerTransaction.row (tx : LedgerTransaction) : Blockfrost.AddressTxRow where
  tx_hash := tx.hash
  tx_index := tx.blockIndex
  block_height := tx.block

/-- The record that Blockfrost's driver publishes. -/
def LedgerTransaction.blockfrostRecord (tx : LedgerTransaction) : WalletTransaction :=
  tx.record tx.blockfrostTtl (tx.outputs ++ tx.collateralReturn.toList)

def LedgerTransaction.chainTx (tx : LedgerTransaction) : Blockfrost.ChainTx where
  row := tx.row
  details := tx.details
  record := tx.blockfrostRecord
  hydrates := hydrate_details tx
  block := rfl

/-- The chain as Blockfrost lists it. -/
def LedgerHistory.chain (ledger : LedgerHistory) : Blockfrost.AddressChain where
  txs := ledger.txs.map LedgerTransaction.chainTx
  ordered := List.pairwise_map.mpr ledger.ordered
  distinct := by
    rw [List.map_map]
    exact ledger.distinct
  listing address := (ledger.txs.filter (ledger.touches address)).map LedgerTransaction.row
  listed address := by
    rw [List.map_map]
    exact List.filter_sublist.map _
  sparse address block := by
    rw [List.filter_map, List.length_map]
    exact ledger.sparse address block
  epochs := by
    intro tx member tx' member' same
    obtain ⟨known, present, rfl⟩ := List.mem_map.mp member
    obtain ⟨known', present', rfl⟩ := List.mem_map.mp member'
    exact ledger.epochs known present known' present' same
  seen address := ledger.txs.any (ledger.touches address)
  unseen address never := by
    rw [List.any_eq_false] at never
    rw [List.filter_eq_nil_iff.mpr never, List.map_nil]

/-- A Koios index of the ledger, however its rows are ordered within a block and repeated. -/
structure Indexes (ledger : LedgerHistory) (index : Koios.AddressIndex) : Prop where
  txs : index.history.txs = ledger.txs.map LedgerTransaction.txInfo
  lists : ∀ address row, row ∈ index.stream [address] none ↔
    ∃ tx ∈ ledger.txs, ledger.touches address tx = true ∧ row = tx.txInfo.thin

section Pages

variable {ledger : LedgerHistory} {index : Koios.AddressIndex} {addresses : List String}
  {afterBlock : Option Nat}

/-- A page that Koios's driver answers on such an index. -/
def KoiosPage (index : Koios.AddressIndex) (addresses : List String) (afterBlock : Option Nat)
    (page : List WalletTransaction) : Prop :=
  ∃ (attempts : Koios.ReadAttempts) (bodyLimit : Nat)
    (trace : List (Exchange Unit Koios.Endpoint.Answer)),
    Koios.HonestAddresses index trace ∧
    (∀ t asked answer, ⟨t, .txInfo asked, answer⟩ ∈ trace →
      Koios.ServesTxInfo index.history asked answer) ∧
    (Koios.getTxHistoryByAddresses attempts bodyLimit addresses afterBlock).Runs trace (.ok page)

/-- A page that Blockfrost's driver answers. -/
def BlockfrostPage (ledger : LedgerHistory) (addresses : List String) (afterBlock : Option Nat)
    (page : List WalletTransaction) : Prop :=
  ∃ addressFanout hydrateFanout,
    Blockfrost.HistoryPage ledger.chain addresses addressFanout hydrateFanout afterBlock page

/-- A page that either driver answers. -/
def EitherPage (ledger : LedgerHistory) (index : Koios.AddressIndex) (addresses : List String)
    (afterBlock : Option Nat) (page : List WalletTransaction) : Prop :=
  KoiosPage index addresses afterBlock page ∨ BlockfrostPage ledger addresses afterBlock page

theorem chain_touching :
    ledger.chain.touching addresses = (ledger.touching addresses).map LedgerTransaction.chainTx := by
  rw [Blockfrost.AddressChain.touching, LedgerHistory.chain, List.filter_map]
  refine congrArg _ (List.filter_congr fun tx present => ?_)
  refine congrArg (addresses.any ·) (funext fun address => ?_)
  have listed : tx.row ∈ (ledger.txs.filter (ledger.touches address)).map LedgerTransaction.row ↔
      ledger.touches address tx = true := by
    rw [List.mem_map]
    constructor
    · rintro ⟨other, member, same⟩
      obtain ⟨known, touched⟩ := List.mem_filter.mp member
      have hash := congrArg Blockfrost.AddressTxRow.tx_hash same
      rwa [List.inj_on_of_nodup_map ledger.distinct known present hash] at touched
    · intro touched
      exact ⟨tx, List.mem_filter.mpr ⟨present, touched⟩, rfl⟩
  exact Bool.eq_iff_iff.mpr (decide_eq_true_iff.trans listed)

theorem BlockfrostPage.eq {page : List WalletTransaction}
    (answers : BlockfrostPage ledger addresses afterBlock page) :
    page = (ledger.page addresses afterBlock).map LedgerTransaction.blockfrostRecord := by
  obtain ⟨addressFanout, hydrateFanout, answered⟩ := answers
  rw [Blockfrost.historyPage_iff.mp answered, Blockfrost.AddressChain.pageTxs, chain_touching,
    above_map, window_map, List.map_map]
  rfl

/-- What the index lists above the block is what touches the addresses there, in an order of its
own within a block. -/
theorem Indexes.unionAbove_perm (indexes : Indexes ledger index) :
    (index.unionAbove addresses afterBlock).Perm
      ((above LedgerTransaction.block afterBlock (ledger.touching addresses)).map fun tx =>
        tx.txInfo.thin) := by
  have known : (above LedgerTransaction.block afterBlock (ledger.touching addresses)).Sublist
      ledger.txs := List.filter_sublist.trans List.filter_sublist
  have hashes : (((above LedgerTransaction.block afterBlock (ledger.touching addresses)).map
      fun tx => tx.txInfo.thin).map Koios.HistoryRow.tx_hash).Nodup := by
    rw [List.map_map]
    exact ledger.distinct.sublist (known.map LedgerTransaction.hash)
  refine (List.perm_ext_iff_of_nodup ?_ hashes.of_map).mpr fun row => ?_
  · exact Koios.unionAbove_ascending.imp fun less => less.ne
  rw [Koios.mem_unionAbove, List.mem_map]
  constructor
  · rintro ⟨address, listed, member⟩
    obtain ⟨member, past⟩ := (index.above _ _ _).mp member
    obtain ⟨tx, present, touched, rfl⟩ := (indexes.lists address row).mp member
    exact ⟨tx, mem_above.mpr ⟨LedgerHistory.mem_touching.mpr ⟨present, address, listed, touched⟩,
      past⟩, rfl⟩
  · rintro ⟨tx, member, rfl⟩
    obtain ⟨touches, past⟩ := mem_above.mp member
    obtain ⟨present, address, listed, touched⟩ := LedgerHistory.mem_touching.mp touches
    exact ⟨address, listed, (index.above _ _ _).mpr
      ⟨(indexes.lists _ _).mpr ⟨tx, present, touched, rfl⟩, past⟩⟩

/-- A page does not cut a block in two, so the order within one does not matter to it. -/
theorem Indexes.reference_perm (indexes : Indexes ledger index) :
    (index.reference addresses afterBlock).Perm
      ((ledger.page addresses afterBlock).map fun tx => tx.txInfo.thin) := by
  have ordered : Ordered Koios.HistoryRow.block_height
      ((above LedgerTransaction.block afterBlock (ledger.touching addresses)).map fun tx =>
        tx.txInfo.thin) :=
    List.pairwise_map.mpr LedgerHistory.touching_ordered.above
  have listed : Ordered Koios.HistoryRow.block_height (index.unionAbove addresses afterBlock) :=
    Koios.unionAbove_ascending.imp fun less => Koios.block_height_monotone less.le
  have pages := window_perm (by decide : 0 < HISTORY_PAGE_SIZE) indexes.unionAbove_perm listed ordered
  rw [window_map] at pages
  exact pages

theorem Indexes.under_page (indexes : Indexes ledger index) :
    index.history.under ((index.reference addresses afterBlock).map Koios.HistoryRow.tx_hash) =
      (ledger.page addresses afterBlock).map LedgerTransaction.txInfo := by
  have hashes : ((index.reference addresses afterBlock).map Koios.HistoryRow.tx_hash).Perm
      ((ledger.page addresses afterBlock).map LedgerTransaction.hash) := by
    have rows : (index.reference addresses afterBlock).Perm _ := indexes.reference_perm
    have same := rows.map Koios.HistoryRow.tx_hash
    rwa [List.map_map] at same
  have part : (ledger.txs.filter fun tx =>
      tx.hash ∈ (ledger.page addresses afterBlock).map LedgerTransaction.hash) =
        ledger.page addresses afterBlock :=
    Containers.filter_keys LedgerHistory.page_sublist ledger.distinct
  rw [Koios.ChainHistory.under, indexes.txs, List.filter_map]
  conv_rhs => rw [← part]
  refine congrArg _ (List.filter_congr fun tx _ => ?_)
  exact decide_eq_decide.mpr hashes.mem_iff

theorem KoiosPage.eq {page : List WalletTransaction} (indexes : Indexes ledger index)
    (answers : KoiosPage index addresses afterBlock page) :
    page = (ledger.page addresses afterBlock).map fun tx => Koios.mapTx tx.txInfo := by
  obtain ⟨attempts, bodyLimit, trace, honest, details, runs⟩ := answers
  by_cases none : addresses = []
  · rw [Koios.getTxHistoryByAddresses, if_pos (List.length_eq_zero_iff.mpr none)] at runs
    obtain ⟨-, same⟩ := runs
    cases same
    have untouched : ledger.touching addresses = [] := by
      rw [none]
      exact List.filter_eq_nil_iff.mpr fun tx _ => Bool.false_ne_true
    rw [LedgerHistory.page, untouched]
    rfl
  · rw [Koios.getTxHistoryByAddresses_runs none honest details runs, indexes.under_page,
      List.map_map]
    rfl

/-- The place and the hash of a transaction, which both drivers publish alike. -/
def place (tx : WalletTransaction) : Nat × String := (tx.block, tx.txHash)

def LedgerTransaction.place (tx : LedgerTransaction) : Nat × String := (tx.block, tx.hash)

theorem EitherPage.places {page : List WalletTransaction} (indexes : Indexes ledger index)
    (answers : EitherPage ledger index addresses afterBlock page) :
    page.map place = (ledger.page addresses afterBlock).map LedgerTransaction.place := by
  obtain koios | blockfrost := answers
  · rw [koios.eq indexes, List.map_map]
    refine List.map_congr_left fun tx _ => ?_
    rw [Function.comp_apply, mapTx_txInfo]
    rfl
  · rw [blockfrost.eq, List.map_map]
    rfl

theorem EitherPage.hashes {page : List WalletTransaction} (indexes : Indexes ledger index)
    (answers : EitherPage ledger index addresses afterBlock page) :
    page.map WalletTransaction.txHash =
      (ledger.page addresses afterBlock).map LedgerTransaction.hash := by
  have places := congrArg (List.map Prod.snd) (answers.places indexes)
  rwa [List.map_map, List.map_map] at places

/-- The window of the places is where the transactions of the page are. -/
theorem page_places : (ledger.page addresses afterBlock).map LedgerTransaction.place =
    window HISTORY_PAGE_SIZE Prod.fst (above Prod.fst afterBlock
      ((ledger.touching addresses).map LedgerTransaction.place)) := by
  rw [above_map, window_map]
  rfl

/-- The drivers answer a page with the same transactions, and with the same records exactly if each
of them is one on which they agree. A caller who goes on from the block of the last transaction
seen, by whichever driver is in use for that page, is given every transaction of the addresses
once, in chain order. -/
theorem pages_interchange (indexes : Indexes ledger index) (addresses : List String) :
    (∀ afterBlock page, EitherPage ledger index addresses afterBlock page →
      page.map WalletTransaction.txHash =
        (ledger.page addresses afterBlock).map LedgerTransaction.hash) ∧
    (∀ afterBlock page page', KoiosPage index addresses afterBlock page →
      BlockfrostPage ledger addresses afterBlock page' →
        (page = page' ↔ ∀ tx ∈ ledger.page addresses afterBlock, tx.collateralReturn = none ∧
          ∀ bound ∈ tx.invalidHereafter, bound.toNat ≤ maxSafeInteger)) ∧
    ∀ pages, Enumeration (EitherPage ledger index addresses) WalletTransaction.block none pages →
      pages.flatten.map WalletTransaction.txHash =
        (ledger.touching addresses).map LedgerTransaction.hash := by
  refine ⟨fun afterBlock page answers => answers.hashes indexes, ?_, ?_⟩
  · intro afterBlock page page' koios blockfrost
    rw [koios.eq indexes, blockfrost.eq, List.map_inj_left]
    refine forall₂_congr fun tx _ => ?_
    rw [mapTx_txInfo, ← records_agree_iff]
    exact eq_comm
  · intro pages enumeration
    have ordered : Ordered Prod.fst ((ledger.touching addresses).map LedgerTransaction.place) :=
      List.pairwise_map.mpr LedgerHistory.touching_ordered
    have complete := (enumeration.map place Prod.fst (fun _ => rfl)).complete
      (by decide : 0 < HISTORY_PAGE_SIZE) ordered fun afterBlock places ⟨page, answers, same⟩ => by
        rw [same, answers.places indexes, page_places]
    rw [above_none, ← List.map_flatten] at complete
    have hashes := congrArg (List.map Prod.snd) complete
    rwa [List.map_map, List.map_map] at hashes

/-- Where no stream is longer than the bound of the merge, Koios's driver has every page. -/
theorem exists_koiosPage (some : addresses ≠ [])
    (fits : ∀ address ∈ addresses,
      (Koios.addressTxsBody afterBlock).Fits Koios.KOIOS_BODY_LIMIT_BYTES address)
    (short : ∀ chunk, (index.stream chunk afterBlock).length ≤ Koios.HISTORY_MAX_LIST_ROWS) :
    ∃ page, KoiosPage index addresses afterBlock page := by
  have run : ∃ (trace : List (Exchange Unit Koios.Endpoint.Answer)) (outcome : _),
      Async.Static index.serve trace ∧ (Koios.getTxHistoryByAddresses .single
        Koios.KOIOS_BODY_LIMIT_BYTES addresses afterBlock).Runs trace outcome :=
    Async.exists_run _ _
  obtain ⟨trace, outcome, static, runs⟩ := run
  obtain ⟨honest, answers⟩ := Koios.serve_honest static
  have details : ∀ t asked answer, ⟨t, .txInfo asked, answer⟩ ∈ trace →
      answer = .ok (index.history.under asked) := fun t asked answer member => static _ member
  have returned := Koios.getTxHistoryByAddresses_returns some honest answers
    (fun t asked answer member => ⟨_, details t asked answer member, .refl _⟩) fits
    index.history.fits short runs
  refine ⟨_, .single, _, trace, honest, fun t asked answer member => ?_, returned ▸ runs⟩
  rw [details t asked answer member]
  exact .refl _

theorem exists_blockfrostPage (ledger : LedgerHistory) (addresses : List String)
    (afterBlock : Option Nat) : ∃ page, BlockfrostPage ledger addresses afterBlock page :=
  ⟨_, 10, 10, Blockfrost.historyPage_iff.mpr rfl⟩

section Shared

/-- Ninety payments, three to a block. -/
def sharedPayment (n : Nat) : LedgerTransaction :=
  { payment with hash := numberedHash n, block := 10 + n / 3, blockIndex := n % 3 }

/-- Who takes part in the payment at a place: the first address early, the second late, and both
for a while. -/
def partiesAt (block blockIndex : Nat) : List String :=
  let n := 3 * (block - 10) + blockIndex
  (if n < 70 then ["addr1"] else []) ++ if 40 ≤ n then ["addr2"] else []

def sharedPayments : List LedgerTransaction := (List.range 90).map sharedPayment

theorem sharedPayments_ordered : sharedPayments.Pairwise fun a b =>
    a.block < b.block ∨ (a.block = b.block ∧ a.blockIndex < b.blockIndex) := by
  refine List.pairwise_map.mpr (List.pairwise_lt_range.imp fun less => ?_)
  simp only [sharedPayment]
  omega

theorem sharedPayments_distinct : (sharedPayments.map LedgerTransaction.hash).Nodup := by
  rw [sharedPayments, List.map_map]
  refine List.Nodup.map_on (fun a left b right same => ?_) List.nodup_range
  rw [List.mem_range] at left right
  exact numberedHash_inj (by omega) (by omega) same

theorem sharedPayments_epochs : ∀ tx ∈ sharedPayments, ∀ tx' ∈ sharedPayments,
    tx.blockHash = tx'.blockHash → tx.epoch = tx'.epoch := by
  intro tx member tx' member' _
  obtain ⟨_, -, rfl⟩ := List.mem_map.mp member
  obtain ⟨_, -, rfl⟩ := List.mem_map.mp member'
  rfl

def touchesShared (address : String) (tx : LedgerTransaction) : Bool :=
  decide (address ∈ partiesAt tx.block tx.blockIndex)

theorem sharedPayments_sparse (address : String) (block : Nat) :
    ((sharedPayments.filter (touchesShared address)).filter fun tx => tx.block = block).length <
      CROWDED := by
  refine Nat.lt_of_le_of_lt ((List.length_filter_le _ _).trans (List.length_filter_le _ _)) ?_
  rw [sharedPayments, List.length_map, List.length_range]
  decide

def sharedLedger : LedgerHistory where
  txs := sharedPayments
  ordered := sharedPayments_ordered
  distinct := sharedPayments_distinct
  epochs := sharedPayments_epochs
  touches := touchesShared
  sparse := sharedPayments_sparse

theorem sharedPayments_infos : (sharedPayments.map LedgerTransaction.txInfo).Pairwise fun a b =>
    a.block_height < b.block_height ∨
      (a.block_height = b.block_height ∧ a.tx_block_index < b.tx_block_index) :=
  List.pairwise_map.mpr sharedPayments_ordered

theorem sharedPayments_hashes :
    ((sharedPayments.map LedgerTransaction.txInfo).map Koios.TxInfoRow.tx_hash).Nodup := by
  rw [List.map_map]
  exact sharedPayments_distinct

theorem sharedPayments_fit : ∀ tx ∈ sharedPayments.map LedgerTransaction.txInfo,
    Koios.txInfoBody.Fits Koios.KOIOS_BODY_LIMIT_BYTES tx.tx_hash := by
  intro tx member
  obtain ⟨_, listed, rfl⟩ := List.mem_map.mp member
  obtain ⟨n, inside, rfl⟩ := List.mem_map.mp listed
  rw [List.mem_range] at inside
  exact Koios.numberedHash_fits (by omega)

def sharedChain : Koios.ChainHistory where
  txs := sharedPayments.map LedgerTransaction.txInfo
  ordered := sharedPayments_infos
  distinct := sharedPayments_hashes
  fits := sharedPayments_fit

def sharedParties (tx : Koios.TxInfoRow) : List String := partiesAt tx.block_height tx.tx_block_index

theorem sharedChain_sorted : sharedChain.txs.Pairwise fun a b => a.thin < b.thin := by
  refine List.pairwise_map.mpr (List.pairwise_map.mpr (List.pairwise_lt_range.imp_of_mem
    fun left right less => ?_))
  rw [List.mem_range] at left right
  refine Koios.row_lt_iff.mpr ?_
  obtain earlier | same := Nat.lt_or_eq_of_le (Nat.div_le_div_right (c := 3) less.le)
  · exact .inl (Nat.add_lt_add_left earlier 10)
  · exact .inr ⟨congrArg (10 + ·) same, numberedHash_lt less (by omega)⟩

theorem sharedChain_few :
    (sharedChain.txs.map fun tx => (sharedParties tx).length).sum ≤ 180 := by
  have each := List.sum_le_card_nsmul (sharedChain.txs.map fun tx => (sharedParties tx).length) 2
    fun size member => by
      obtain ⟨tx, -, rfl⟩ := List.mem_map.mp member
      simp only [sharedParties, partiesAt, List.length_append]
      split <;> split <;> decide
  simpa [sharedChain, sharedPayments] using each

def sharedIndex : Koios.AddressIndex :=
  .ofParties sharedChain sharedParties sharedChain_sorted (sharedChain_few.trans (by decide))

theorem shared_indexes : Indexes sharedLedger sharedIndex where
  txs := rfl
  lists address row := by
    refine Koios.mem_partyRows.trans ?_
    constructor
    · rintro ⟨tx, member, -, ⟨party, takesPart, listed⟩, rfl⟩
      obtain ⟨known, present, rfl⟩ := List.mem_map.mp member
      obtain rfl := List.mem_singleton.mp listed
      exact ⟨known, present, decide_eq_true takesPart, rfl⟩
    · rintro ⟨tx, present, touched, rfl⟩
      exact ⟨tx.txInfo, List.mem_map_of_mem present, by simp,
        ⟨address, of_decide_eq_true touched, List.mem_singleton_self _⟩, rfl⟩

theorem shared_touching : sharedLedger.touching ["addr1", "addr2"] = sharedLedger.txs := by
  refine List.filter_eq_self.mpr fun tx _ => List.any_eq_true.mpr ?_
  by_cases early : 3 * (tx.block - 10) + tx.blockIndex < 70
  · exact ⟨"addr1", by decide, by simp [sharedLedger, touchesShared, partiesAt, early]⟩
  · exact ⟨"addr2", by decide, by simp [sharedLedger, touchesShared, partiesAt, (by omega :
      40 ≤ 3 * (tx.block - 10) + tx.blockIndex)]⟩

theorem shared_page (afterBlock : Option Nat) :
    (sharedLedger.page ["addr1", "addr2"] afterBlock) =
      (window HISTORY_PAGE_SIZE (10 + · / 3) (above (10 + · / 3) afterBlock (List.range 90))).map
        sharedPayment := by
  have txs : sharedLedger.txs = (List.range 90).map sharedPayment := rfl
  rw [LedgerHistory.page, shared_touching, txs, above_map, window_map]
  rfl

theorem shared_pages : sharedLedger.page ["addr1", "addr2"] none = (List.range 51).map sharedPayment ∧
    sharedLedger.page ["addr1", "addr2"] (some 26) = (List.range' 51 39).map sharedPayment ∧
    sharedLedger.page ["addr1", "addr2"] (some 39) = [] := by
  simp only [shared_page]
  exact ⟨congrArg _ (by decide), congrArg _ (by decide), List.map_eq_nil_iff.mpr (by decide)⟩

theorem shared_koiosPage (afterBlock : Option Nat) (fits : ∀ address ∈ ["addr1", "addr2"],
      (Koios.addressTxsBody afterBlock).Fits Koios.KOIOS_BODY_LIMIT_BYTES address) :
    ∃ page, KoiosPage sharedIndex ["addr1", "addr2"] afterBlock page := by
  refine exists_koiosPage (List.cons_ne_nil _ _) fits fun chunk => ?_
  exact (Koios.length_partyRows sharedChain sharedParties chunk afterBlock).trans
    (sharedChain_few.trans (by decide))

/-- The first page is the same by either driver, and a client of Koios's who goes on by Blockfrost's
is given the rest. -/
theorem shared_interchange :
    ∃ first rest : List WalletTransaction,
      KoiosPage sharedIndex ["addr1", "addr2"] none first ∧
      BlockfrostPage sharedLedger ["addr1", "addr2"] none first ∧
      KoiosPage sharedIndex ["addr1", "addr2"] (some 26) rest ∧
      BlockfrostPage sharedLedger ["addr1", "addr2"] (some 26) rest ∧
      first.map WalletTransaction.txHash = (List.range 51).map numberedHash ∧
      Enumeration (EitherPage sharedLedger sharedIndex ["addr1", "addr2"]) WalletTransaction.block
        none [first, rest] ∧
      [first, rest].flatten.map WalletTransaction.txHash = (List.range 90).map numberedHash := by
  obtain ⟨answered, same, complete⟩ := pages_interchange shared_indexes ["addr1", "addr2"]
  have alike : ∀ afterBlock page page', KoiosPage sharedIndex ["addr1", "addr2"] afterBlock page →
      BlockfrostPage sharedLedger ["addr1", "addr2"] afterBlock page' → page = page' := by
    intro afterBlock page page' koios blockfrost
    refine (same afterBlock page page' koios blockfrost).mpr fun tx member => ?_
    obtain ⟨n, -, rfl⟩ := List.mem_map.mp (LedgerHistory.page_sublist.subset member)
    refine ⟨rfl, fun bound given => ?_⟩
    cases given
    decide
  have fits : ∀ afterBlock ∈ [none, some 26], ∀ address ∈ ["addr1", "addr2"],
      (Koios.addressTxsBody afterBlock).Fits Koios.KOIOS_BODY_LIMIT_BYTES address := by
    unfold Koios.BodyBuilder.Fits
    decide
  obtain ⟨first, koios⟩ := shared_koiosPage none (fits _ List.mem_cons_self)
  obtain ⟨page, blockfrost⟩ := exists_blockfrostPage sharedLedger ["addr1", "addr2"] none
  obtain ⟨rest, koios'⟩ := shared_koiosPage (some 26) (fits _ (List.mem_cons_of_mem _ List.mem_cons_self))
  obtain ⟨page', blockfrost'⟩ := exists_blockfrostPage sharedLedger ["addr1", "addr2"] (some 26)
  obtain ⟨last, blockfrost''⟩ := exists_blockfrostPage sharedLedger ["addr1", "addr2"] (some 39)
  obtain rfl := alike none first page koios blockfrost
  obtain rfl := alike (some 26) rest page' koios' blockfrost'
  obtain ⟨firstPart, restPart, noPart⟩ := shared_pages
  have firstPage := koios.eq shared_indexes
  have restPage := koios'.eq shared_indexes
  rw [firstPart, List.map_map] at firstPage
  rw [restPart, List.map_map] at restPage
  obtain rfl : last = [] := blockfrost''.eq.trans (by rw [noPart]; rfl)
  have enumeration : Enumeration (EitherPage sharedLedger sharedIndex ["addr1", "addr2"])
      WalletTransaction.block none [first, rest] := by
    refine .next none first (Koios.mapTx (sharedPayment 50).txInfo) [rest] (.inl koios) ?_ ?_
    · rw [firstPage, List.getLast?_map, List.getLast?_range]
      rfl
    refine .next (some 26) rest (Koios.mapTx (sharedPayment 89).txInfo) [] (.inr blockfrost') ?_ ?_
    · rw [restPage, List.getLast?_map, List.getLast?_range']
      rfl
    · exact .done (some 39) (.inr blockfrost'')
  refine ⟨first, rest, koios, blockfrost, koios', blockfrost', ?_, enumeration, ?_⟩
  · rw [firstPage, List.map_map]
    rfl
  · rw [complete _ enumeration, shared_touching]
    exact List.map_map

end Shared

end Pages

end WalletBackend.Providers
