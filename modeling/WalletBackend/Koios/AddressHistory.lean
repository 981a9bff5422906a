import WalletBackend.Koios.AccountHistory
import WalletBackend.Koios.AddressMerge
import WalletBackend.Library.KeyedMap

/-! The history of an address set. The packed batches are ordered streams, merged by
their heads until the first page of distinct transactions and the rest of its last
block are known. -/
namespace WalletBackend.Koios
open Interaction Containers BlockPaging StreamMerge

/-- The body of an `/address_txs` request. -/
def addressTxsBody (afterBlock : Option Nat) : BodyBuilder String where
  before := "\x7b\"_addresses\":"
  item address := "\"" ++ address ++ "\""
  after := match afterBlock with
    | none => "\x7d"
    | some block => ",\"_after_block_height\":" ++ toString block ++ "\x7d"

/-- The stream of one chunk, filled, in a one-item list. -/
def startStream (afterBlock : Option Nat) (chunk : List String) :
    Read (List AddressHistoryStream) := do
  pure [← fillAddressHistoryStream (.start chunk afterBlock)]

def boundedAddressHistoryRows (bodyLimit : Nat) (addresses : List String)
    (afterBlock : Option Nat) : Read (List HistoryRow) := do
  let streams ← packAdaptively (addressTxsBody afterBlock) (startStream afterBlock) bodyLimit
    addresses
  mergeStreams (streams.length * HISTORY_MAX_LIST_ROWS + 1)
    { streams, distinct := [], boundaryBlock := none }

/-- The last row under each hash, at the place of the first. -/
def byHash (rows : List HistoryRow) : KeyedMap String HistoryRow :=
  rows.foldl (fun map row => map.set row.tx_hash row) .empty

/-- The rows of the page. -/
def addressPage (rows : List HistoryRow) : List HistoryRow :=
  selectPage ((byHash rows).entries.map Prod.snd)

def getTxHistoryByAddresses (attempts : ReadAttempts) (bodyLimit : Nat) (addresses : List String)
    (afterBlock : Option Nat) : Read (List WalletTransaction) :=
  if addresses.length = 0 then pure []
  else do
    let rows ← read attempts (boundedAddressHistoryRows bodyLimit addresses afterBlock)
    if rows.length = 0 then pure []
    else hydrateTxHistory attempts bodyLimit ((addressPage rows).map HistoryRow.tx_hash)

/-- The union of the streams of the addresses above the cursor, without repeated
hashes, by block and hash. -/
def AddressIndex.unionAbove (index : AddressIndex) (addresses : List String)
    (afterBlock : Option Nat) : List HistoryRow :=
  (distinctBy HistoryRow.tx_hash (BlockPaging.above HistoryRow.block_height afterBlock
    (addresses.flatMap fun address => index.stream [address] none))).insertionSort (· ≤ ·)

/-- The page the history is to return. -/
def AddressIndex.reference (index : AddressIndex) (addresses : List String)
    (afterBlock : Option Nat) : List HistoryRow :=
  window HISTORY_PAGE_SIZE HistoryRow.block_height (index.unionAbove addresses afterBlock)

section Reference

variable {index : AddressIndex} {addresses : List String} {afterBlock : Option Nat}

/-- A transaction has one place in the chain. -/
theorem AddressIndex.row_eq (index : AddressIndex) {addresses others : List String}
    {after after' : Option Nat} {a b : HistoryRow} (left : a ∈ index.stream addresses after)
    (right : b ∈ index.stream others after') (same : a.tx_hash = b.tx_hash) : a = b := by
  obtain ⟨tx, present, rfl⟩ := index.known addresses after a left
  obtain ⟨tx', present', rfl⟩ := index.known others after' b right
  rw [index.history.tx_eq present present' same]

theorem mem_unionAbove {row : HistoryRow} : row ∈ index.unionAbove addresses afterBlock ↔
    ∃ address ∈ addresses, row ∈ index.stream [address] afterBlock := by
  rw [AddressIndex.unionAbove, List.mem_insertionSort, mem_distinctBy, mem_above,
    List.mem_flatMap]
  · constructor
    · rintro ⟨⟨address, listed, member⟩, past⟩
      exact ⟨address, listed, (index.above _ _ _).mpr ⟨member, past⟩⟩
    · rintro ⟨address, listed, member⟩
      obtain ⟨member, past⟩ := (index.above _ _ _).mp member
      exact ⟨⟨address, listed, member⟩, past⟩
  · intro a left b right same
    obtain ⟨_, -, left⟩ := List.mem_flatMap.mp (mem_above.mp left).1
    obtain ⟨_, -, right⟩ := List.mem_flatMap.mp (mem_above.mp right).1
    exact index.row_eq left right same

theorem unionAbove_hashes : ∀ a ∈ index.unionAbove addresses afterBlock,
    ∀ b ∈ index.unionAbove addresses afterBlock, a.tx_hash = b.tx_hash → a = b := by
  intro a left b right same
  obtain ⟨_, -, left⟩ := mem_unionAbove.mp left
  obtain ⟨_, -, right⟩ := mem_unionAbove.mp right
  exact index.row_eq left right same

theorem unionAbove_ascending : (index.unionAbove addresses afterBlock).Pairwise (· < ·) := by
  have nodup : (index.unionAbove addresses afterBlock).Nodup :=
    (List.perm_insertionSort _ _).nodup_iff.mpr (nodup_distinctBy _).of_map
  exact (List.pairwise_insertionSort (· ≤ ·) _).imp₂ (fun _ _ => lt_of_le_of_ne) nodup

/-- The reference depends on the set of addresses alone. -/
theorem reference_congr {others : List String} (same : ∀ a, a ∈ others ↔ a ∈ addresses) :
    index.reference others afterBlock = index.reference addresses afterBlock := by
  have union : index.unionAbove others afterBlock = index.unionAbove addresses afterBlock :=
    eq_of_mem_iff unionAbove_ascending unionAbove_ascending fun row => by
      simp only [mem_unionAbove, same]
  rw [AddressIndex.reference, union, AddressIndex.reference]

end Reference

section Page

variable {rows : List HistoryRow}

theorem foldl_set {map : KeyedMap String HistoryRow}
    (fresh : (map.keys ++ rows.map HistoryRow.tx_hash).Nodup) :
    (rows.foldl (fun map row => map.set row.tx_hash row) map).entries =
      map.entries ++ rows.map fun row => (row.tx_hash, row) := by
  induction rows generalizing map with
  | nil => simp
  | cons row rows ih =>
    have unseen : row.tx_hash ∉ map.keys := fun member =>
      (List.nodup_append.mp fresh).2.2 _ member _ List.mem_cons_self rfl
    have entries : (map.set row.tx_hash row).entries = map.entries ++ [(row.tx_hash, row)] := by
      rw [KeyedMap.set, dif_neg unseen]
    rw [List.foldl_cons, ih, entries]
    · simp
    · rw [KeyedMap.keys, entries]
      simpa [KeyedMap.keys] using fresh

/-- Rows under distinct hashes are all kept. -/
theorem byHash_of_nodup (nodup : (rows.map HistoryRow.tx_hash).Nodup) :
    (byHash rows).entries.map Prod.snd = rows := by
  rw [byHash, foldl_set (by simpa [KeyedMap.empty, KeyedMap.keys] using nodup)]
  simp [KeyedMap.empty, Function.comp_def]

/-- The page of a merged page is that page. -/
theorem addressPage_window {union : List HistoryRow} (ordered : union.Pairwise (· < ·))
    (hashes : ∀ a ∈ union, ∀ b ∈ union, a.tx_hash = b.tx_hash → a = b) :
    addressPage (window HISTORY_PAGE_SIZE HistoryRow.block_height union) =
      window HISTORY_PAGE_SIZE HistoryRow.block_height union := by
  have byBlock : Ordered HistoryRow.block_height union :=
    ordered.imp fun less => block_height_monotone less.le
  have inside : (window HISTORY_PAGE_SIZE HistoryRow.block_height union).Sublist union :=
    window_sublist union
  have nodup : ((window HISTORY_PAGE_SIZE HistoryRow.block_height union).map
      HistoryRow.tx_hash).Nodup :=
    List.Nodup.map_on (fun a left b right => hashes a (inside.subset left) b (inside.subset right))
      ((ordered.sublist inside).imp ne_of_lt)
  have sorted : (window HISTORY_PAGE_SIZE HistoryRow.block_height union).Pairwise
      fun a b => a.block_height ≤ b.block_height := byBlock.sublist inside
  rw [addressPage, byHash_of_nodup nodup, selectPage, sorted.insertionSort_eq,
    window_window (by decide) byBlock]

end Page

section Parties

/-- The rows of a batch: one for each address of it that takes part in a transaction. -/
def partyRows (history : ChainHistory) (parties : TxInfoRow → List String)
    (addresses : List String) (after : Option Nat) : List HistoryRow :=
  (above TxInfoRow.block_height after history.txs).flatMap fun tx =>
    ((parties tx).filter (· ∈ addresses)).map fun _ => tx.thin

theorem mem_partyRows {history : ChainHistory} {parties : TxInfoRow → List String}
    {addresses : List String} {after : Option Nat} {row : HistoryRow} :
    row ∈ partyRows history parties addresses after ↔ ∃ tx ∈ history.txs,
      (∀ a ∈ after, a < tx.block_height) ∧ (∃ party ∈ parties tx, party ∈ addresses) ∧
      row = tx.thin := by
  simp only [partyRows, List.mem_flatMap, List.mem_map, List.mem_filter, decide_eq_true_eq, mem_above]
  constructor
  · rintro ⟨tx, ⟨present, past⟩, party, listed, rfl⟩
    exact ⟨tx, present, past, ⟨party, listed⟩, rfl⟩
  · rintro ⟨tx, present, past, ⟨party, listed⟩, rfl⟩
    exact ⟨tx, ⟨present, past⟩, party, listed, rfl⟩

theorem length_partyRows (history : ChainHistory) (parties : TxInfoRow → List String)
    (addresses : List String) (after : Option Nat) :
    (partyRows history parties addresses after).length ≤
      (history.txs.map fun tx => (parties tx).length).sum := by
  have inside : (above TxInfoRow.block_height after history.txs).Sublist history.txs :=
    List.filter_sublist
  rw [partyRows, List.length_flatMap]
  refine le_trans (List.sum_le_sum fun tx _ => ?_) ((inside.map _).sum_le_sum fun _ _ => Nat.zero_le _)
  rw [List.length_map]
  exact List.length_filter_le _ _

theorem partyRows_ascending {history : ChainHistory} {parties : TxInfoRow → List String}
    (sorted : history.txs.Pairwise fun a b => a.thin < b.thin) (addresses : List String)
    (after : Option Nat) : (partyRows history parties addresses after).Pairwise (· ≤ ·) := by
  refine List.pairwise_flatMap.mpr ⟨fun tx _ => ?_, ?_⟩
  · exact List.pairwise_map.mpr (List.pairwise_of_forall fun _ _ => le_refl _)
  · refine (sorted.sublist List.filter_sublist).imp fun less x left y right => ?_
    obtain ⟨_, -, rfl⟩ := List.mem_map.mp left
    obtain ⟨_, -, rfl⟩ := List.mem_map.mp right
    exact less.le

/-- The index of a chain whose transactions have these `parties`. A batch lists a transaction once
for each address of it that takes part. -/
def AddressIndex.ofParties (history : ChainHistory) (parties : TxInfoRow → List String)
    (sorted : history.txs.Pairwise fun a b => a.thin < b.thin)
    (few : (history.txs.map fun tx => (parties tx).length).sum ≤ maxSafeInteger) :
    AddressIndex where
  history := history
  stream := partyRows history parties
  ordered addresses after := (partyRows_ascending sorted addresses after).imp fun upTo =>
    not_lt.mp (mt compare_pos.mp (not_lt.mpr upTo))
  counted addresses after := (length_partyRows history parties addresses after).trans few
  known addresses after row member := by
    obtain ⟨tx, present, -, -, same⟩ := mem_partyRows.mp member
    exact ⟨tx, present, same⟩
  union addresses row := by
    simp only [mem_partyRows, List.mem_singleton]
    constructor
    · rintro ⟨tx, present, past, ⟨party, takesPart, listed⟩, rfl⟩
      exact ⟨party, listed, tx, present, past, ⟨party, takesPart, rfl⟩, rfl⟩
    · rintro ⟨address, listed, tx, present, past, ⟨party, takesPart, rfl⟩, rfl⟩
      exact ⟨tx, present, past, ⟨party, takesPart, listed⟩, rfl⟩
  above addresses after row := by
    rw [mem_partyRows, mem_partyRows]
    constructor
    · rintro ⟨tx, present, past, listed, rfl⟩
      exact ⟨⟨tx, present, nofun, listed, rfl⟩, past⟩
    · rintro ⟨⟨tx, present, -, listed, rfl⟩, past⟩
      exact ⟨tx, present, past, listed, rfl⟩

variable {history : ChainHistory} {parties : TxInfoRow → List String}
  {sorted : history.txs.Pairwise fun a b => a.thin < b.thin}
  {few : (history.txs.map fun tx => (parties tx).length).sum ≤ maxSafeInteger}

/-- The union of the streams is the transactions that one of the addresses takes part in. -/
theorem ofParties_unionAbove {addresses : List String} {afterBlock : Option Nat} :
    (AddressIndex.ofParties history parties sorted few).unionAbove addresses afterBlock =
      ((above TxInfoRow.block_height afterBlock history.txs).filter fun tx =>
        (parties tx).any (· ∈ addresses)).map TxInfoRow.thin := by
  refine eq_of_mem_iff unionAbove_ascending (List.pairwise_map.mpr (sorted.sublist
    (List.filter_sublist.trans List.filter_sublist))) fun row => ?_
  simp only [mem_unionAbove, AddressIndex.ofParties, mem_partyRows, List.mem_singleton, List.mem_map,
    List.mem_filter, mem_above, List.any_eq_true, decide_eq_true_eq]
  constructor
  · rintro ⟨address, listed, tx, present, past, ⟨party, takesPart, rfl⟩, rfl⟩
    exact ⟨tx, ⟨⟨present, past⟩, party, takesPart, listed⟩, rfl⟩
  · rintro ⟨tx, ⟨⟨present, past⟩, party, takesPart, listed⟩, rfl⟩
    exact ⟨party, listed, tx, present, past, ⟨party, takesPart, rfl⟩, rfl⟩

end Parties

section Runs

variable {T : Type} {index : AddressIndex} {bodyLimit : Nat} {addresses : List String}
  {afterBlock : Option Nat} {trace : List (Exchange T Endpoint.Answer)}

theorem startStream_runs {chunk : List String}
    {outcome : Except Failure (List AddressHistoryStream)} (honest : HonestAddresses index trace)
    (runs : (startStream afterBlock chunk).Runs trace outcome) :
    (∃ stream, outcome = .ok [stream] ∧
      (AddressHistoryStream.start chunk afterBlock).Filled index stream) ∨
    ∃ e, outcome = .error e ∧ ¬ AnswersAddresses trace := by
  have tracks : (AddressHistoryStream.start chunk afterBlock).Tracks index :=
    AddressHistoryStream.tracks_start chunk afterBlock
  obtain ⟨first, _, stream, rfl, fill, rfl, same⟩ | ⟨e, fill, rfl⟩ := Async.runs_bind.mp runs
  · obtain ⟨_, ok, filled⟩ | ⟨e, failed, -⟩ :=
      fill_runs tracks (honest.sub (List.sublist_append_left first [])) fill
    · cases ok
      exact .inl ⟨stream, same.symm, filled⟩
    · cases failed
  · obtain ⟨_, ok, -⟩ | ⟨_, failed, exceeds⟩ := fill_runs tracks honest fill
    · cases ok
    · cases failed
      refine .inr ⟨e, rfl, fun answers => ?_⟩
      -- A stream that has taken nothing cannot have met the bound.
      obtain ⟨-, full, -⟩ := exceeds answers
      have none : 0 = HISTORY_MAX_LIST_ROWS := full
      exact absurd none (by decide)

/-- One stream for each chunk, none of it taken. -/
theorem startStreams {chunks : List (List String)} {perChunk : List (List AddressHistoryStream)}
    (honest : HonestAddresses index trace)
    (each : List.Forall₂ (fun chunk part => ∃ inside, inside.Sublist trace ∧
      (startStream afterBlock chunk).Runs inside (.ok part)) chunks perChunk) :
    List.Forall₂ (fun chunk stream =>
      (AddressHistoryStream.start chunk afterBlock).Filled index stream) chunks perChunk.flatten := by
  induction each with
  | nil => exact .nil
  | cons here _ ih =>
    obtain ⟨inside, sub, runs⟩ := here
    obtain ⟨stream, same, filled⟩ | ⟨_, same, -⟩ := startStream_runs (honest.sub sub) runs
    · cases same
      exact .cons filled ih
    · cases same

theorem mem_stream_iff {chunks : List (List String)} {row : HistoryRow} :
    row ∈ index.unionAbove chunks.flatten afterBlock ↔
      ∃ chunk ∈ chunks, row ∈ index.stream chunk afterBlock := by
  rw [mem_unionAbove]
  constructor
  · rintro ⟨address, listed, member⟩
    obtain ⟨chunk, present, inside⟩ := List.mem_flatten.mp listed
    obtain ⟨member, past⟩ := (index.above _ _ _).mp member
    exact ⟨chunk, present, (index.above _ _ _).mpr
      ⟨(index.union _ _).mpr ⟨address, inside, member⟩, past⟩⟩
  · rintro ⟨chunk, present, member⟩
    obtain ⟨member, past⟩ := (index.above _ _ _).mp member
    obtain ⟨address, inside, member⟩ := (index.union _ _).mp member
    exact ⟨address, List.mem_flatten_of_mem present inside, (index.above _ _ _).mpr ⟨member, past⟩⟩

/-- The merge starts with the union of the streams ahead of it. -/
theorem tracks_startStreams {chunks : List (List String)} {streams : List AddressHistoryStream}
    (started : List.Forall₂ (fun chunk stream =>
      (AddressHistoryStream.start chunk afterBlock).Filled index stream) chunks streams) :
    HistoryMerge.Tracks index chunks.flatten afterBlock
      (index.unionAbove chunks.flatten afterBlock)
      { streams, distinct := [], boundaryBlock := none } := by
  have rests : streams.map (·.rest index) = chunks.map (index.stream · afterBlock) :=
    map_eq_of_forall₂ (started.imp fun chunk stream filled => filled.rest)
  have from_ := exists_of_forall₂ started
  refine ⟨fun stream member => ?_, fun stream member => ?_, ?_, ⟨rfl, nofun⟩,
    fun stream member row taken => ?_⟩
  · obtain ⟨_, -, filled⟩ := from_ stream member
    exact filled.tracks
  · obtain ⟨chunk, listed, filled⟩ := from_ stream member
    rw [filled.addresses, filled.afterBlock]
    exact ⟨fun address inside => List.mem_flatten_of_mem listed inside, rfl⟩
  · rw [rests]
    refine merged_start (fun rest member => ?_) fun row => ?_
    · obtain ⟨chunk, -, rfl⟩ := List.mem_map.mp member
      exact index.ascending chunk afterBlock
    · rw [mem_stream_iff]
      simp
  · obtain ⟨_, -, filled⟩ := from_ stream member
    rw [filled.taken] at taken
    cases taken

/-- What the merge returns is cut to the page of the union of the streams. -/
theorem boundedAddressHistoryRows_page (honest : HonestAddresses index trace) {rows : List HistoryRow}
    (runs : (boundedAddressHistoryRows bodyLimit addresses afterBlock).Runs trace (.ok rows)) :
    addressPage rows = index.reference addresses afterBlock := by
  obtain ⟨first, rest, streams, rfl, packed, tail⟩ := Async.runs_bind_ok.mp runs
  obtain ⟨chunks, perChunk, rfl, rfl, each⟩ := packAdaptively_runs packed
  have started := startStreams (honest.sub (List.sublist_append_left first rest)) each
  obtain returned | ⟨_, failed, -⟩ := mergeStreams_runs (tracks_startStreams started)
    unionAbove_hashes unionAbove_ascending (honest.sub (List.sublist_append_right first rest))
    (Nat.lt_of_lt_of_le (Nat.lt_succ_self _) (Nat.le_add_right _ _)) tail
  · cases returned
    exact addressPage_window unionAbove_ascending unionAbove_hashes
  · cases failed

/-- A merge whose requests are all answered fails on a stream that is too long alone. -/
theorem boundedAddressHistoryRows_fails (honest : HonestAddresses index trace)
    (answers : AnswersAddresses trace)
    (fits : ∀ address ∈ addresses, (addressTxsBody afterBlock).Fits bodyLimit address) {e : Failure}
    (runs : (boundedAddressHistoryRows bodyLimit addresses afterBlock).Runs trace (.error e)) :
    e = AddressHistoryStream.overflow ∧
      Unsettled index addresses afterBlock (index.reference addresses afterBlock) := by
  have sends : ∀ chunk part e', part.Sublist trace →
      ¬ (startStream afterBlock chunk).Runs part (.error e') := by
    intro chunk part e' sub ran
    obtain ⟨_, ok, -⟩ | ⟨_, -, failed⟩ := startStream_runs (honest.sub sub) ran
    · cases ok
    · exact failed (answers.sub sub)
  obtain ⟨first, rest, streams, rfl, packed, tail⟩ | ⟨_, packed, -⟩ := Async.runs_bind.mp runs
  · obtain ⟨chunks, perChunk, rfl, rfl, each⟩ := packAdaptively_runs packed
    have started := startStreams (honest.sub (List.sublist_append_left first rest)) each
    have later := List.sublist_append_right first rest
    obtain returned | ⟨_, failed, cause⟩ := mergeStreams_runs (tracks_startStreams started)
      unionAbove_hashes unionAbove_ascending (honest.sub later)
      (Nat.lt_of_lt_of_le (Nat.lt_succ_self _) (Nat.le_add_right _ _)) tail
    · cases returned
    · cases failed
      exact cause (answers.sub later)
  · obtain ⟨_, same⟩ := packAdaptively_returns fits (fun chunk _ => sends chunk) packed
    cases same

/-- The page of an address-set history, for every way in which the addresses are
packed. What the merge returns is cut to the page of the union of the streams, which
depends on the set of addresses alone. If it fails although every request is answered
and every address can be asked for, then some stream has more rows than the bound and
all of those up to the bound belong on the page. -/
theorem address_history_is_reference (honest : HonestAddresses index trace) :
    (∀ rows, (boundedAddressHistoryRows bodyLimit addresses afterBlock).Runs trace (.ok rows) →
      ∀ others : List String, (∀ address, address ∈ others ↔ address ∈ addresses) →
        addressPage rows = index.reference others afterBlock) ∧
    ∀ e, (boundedAddressHistoryRows bodyLimit addresses afterBlock).Runs trace (.error e) →
      AnswersAddresses trace →
      (∀ address ∈ addresses, (addressTxsBody afterBlock).Fits bodyLimit address) →
        e = AddressHistoryStream.overflow ∧
        Unsettled index addresses afterBlock (index.reference addresses afterBlock) := by
  constructor
  · intro rows runs others same
    rw [reference_congr same]
    exact boundedAddressHistoryRows_page honest runs
  · intro e runs answers fits
    exact boundedAddressHistoryRows_fails honest answers fits runs

/-- Ninety transactions, three to a block. -/
def sharedTx (n : Nat) : TxInfoRow :=
  { numberedTx n with block_height := n / 3, tx_block_index := n % 3 }

def sharedTxs : List TxInfoRow := (List.range 90).map sharedTx

/-- Who takes part: the first address ends early, the second starts late, and the third is in
every other transaction. -/
def sharedParties (tx : TxInfoRow) : List String :=
  let n := 3 * tx.block_height + tx.tx_block_index
  (if n < 70 then ["addr1"] else []) ++ (if 40 ≤ n then ["addr2"] else []) ++
    if n % 2 = 0 then ["addr3"] else []

def sharedHistory : ChainHistory where
  txs := sharedTxs
  ordered := List.pairwise_map.mpr (List.pairwise_lt_range.imp fun less => by
    simp only [sharedTx]
    omega)
  distinct := by
    rw [sharedTxs, List.map_map]
    refine List.Nodup.map_on (fun a left b right same => ?_) List.nodup_range
    rw [List.mem_range] at left right
    exact numberedHash_inj (by omega) (by omega) same
  fits := by
    intro tx member
    obtain ⟨n, present, rfl⟩ := List.mem_map.mp member
    rw [List.mem_range] at present
    exact numberedHash_fits (by omega)

theorem sharedHistory_sorted : sharedHistory.txs.Pairwise fun a b => a.thin < b.thin := by
  refine List.pairwise_map.mpr (List.pairwise_lt_range.imp_of_mem fun left right less => ?_)
  rw [List.mem_range] at left right
  refine row_lt_iff.mpr ?_
  obtain earlier | same := Nat.lt_or_eq_of_le (Nat.div_le_div_right (c := 3) less.le)
  · exact .inl earlier
  · exact .inr ⟨same, numberedHash_lt less (by omega)⟩

theorem length_sharedParties (tx : TxInfoRow) : (sharedParties tx).length ≤ 3 := by
  simp only [sharedParties, List.length_append]
  split <;> split <;> split <;> decide

theorem sharedHistory_few :
    (sharedHistory.txs.map fun tx => (sharedParties tx).length).sum ≤ 270 := by
  have each := List.sum_le_card_nsmul (sharedHistory.txs.map fun tx => (sharedParties tx).length) 3
    fun size member => by
      obtain ⟨tx, -, rfl⟩ := List.mem_map.mp member
      exact length_sharedParties tx
  simpa [sharedHistory, sharedTxs] using each

def sharedIndex : AddressIndex :=
  .ofParties sharedHistory sharedParties sharedHistory_sorted
    (sharedHistory_few.trans (by decide))

def sharedAddresses : List String := ["addr1", "addr2", "addr3"]

/-- The first page ends with the block of the fiftieth transaction, the second with the chain. -/
theorem sharedIndex_reference (after : Option Nat) :
    sharedIndex.reference sharedAddresses after =
      (window HISTORY_PAGE_SIZE (· / 3) (above (· / 3) after (List.range 90))).map fun n =>
        (sharedTx n).thin := by
  have some : ∀ tx ∈ above TxInfoRow.block_height after sharedHistory.txs,
      ((sharedParties tx).any (· ∈ sharedAddresses)) = true := by
    intro tx _
    rw [List.any_eq_true]
    by_cases early : 3 * tx.block_height + tx.tx_block_index < 70
    · exact ⟨"addr1", by simp [sharedParties, early], by decide⟩
    · exact ⟨"addr2", by simp [sharedParties, (by omega : 40 ≤ 3 * tx.block_height +
        tx.tx_block_index)], by decide⟩
  have listed : sharedHistory.txs = (List.range 90).map sharedTx := rfl
  rw [AddressIndex.reference, sharedIndex, ofParties_unionAbove, List.filter_eq_self.mpr some,
    listed, above_map, window_map, window_map, List.map_map]
  rfl

/-- An upstream that serves `index`. -/
def AddressIndex.serve (index : AddressIndex) : (endpoint : Endpoint) → endpoint.Answer
  | .accountTxs .. => .ok []
  | .txInfo asked => .ok (index.history.under asked)
  | .addressTxs addresses after limit offset =>
      let listing := index.stream addresses after
      let rows := (listing.drop offset).take limit
      .ok ⟨rows, 206, some (renderRange offset rows.length listing.length)⟩
  | .accountInfo _ | .accountRewards _ | .addressInfo _ | .credentialTxs _ => .ok []

theorem serve_honest {trace : List (Exchange T Endpoint.Answer)}
    (static : Async.Static index.serve trace) :
    HonestAddresses index trace ∧ AnswersAddresses trace := by
  constructor
  · intro t addresses after limit offset answer member
    have served : answer = index.serve (.addressTxs addresses after limit offset) :=
      static _ member
    rw [served]
    exact ⟨rfl, rfl, fun _ => rfl⟩
  · intro t addresses after limit offset e member
    exact nomatch static _ member

/-- Three addresses with transactions in common, two of them in a body of at most 160 bytes and the
third in another, then all three in one: the two pages are the chain. -/
theorem shared_history_is_reference :
    ∃ (first second : List (Exchange Unit Endpoint.Answer)) (rows rows' : List HistoryRow),
      (boundedAddressHistoryRows 160 sharedAddresses none).Runs first (.ok rows) ∧
      addressPage rows = (List.range 51).map (fun n => (sharedTx n).thin) ∧
      (boundedAddressHistoryRows KOIOS_BODY_LIMIT_BYTES sharedAddresses.reverse (some 16)).Runs
        second (.ok rows') ∧
      addressPage rows' = (List.range' 51 39).map fun n => (sharedTx n).thin := by
  have pages : ∀ bodyLimit addresses after, (∀ address, address ∈ sharedAddresses ↔ address ∈ addresses) →
      (∀ address ∈ addresses, (addressTxsBody after).Fits bodyLimit address) →
      ∃ (trace : List (Exchange Unit Endpoint.Answer)) (rows : List HistoryRow),
        (boundedAddressHistoryRows bodyLimit addresses after).Runs trace (.ok rows) ∧
        addressPage rows = sharedIndex.reference sharedAddresses after := by
    intro bodyLimit addresses after same fits
    have run : ∃ (trace : List (Exchange Unit Endpoint.Answer)) (outcome : _),
        Async.Static sharedIndex.serve trace ∧
        (boundedAddressHistoryRows bodyLimit addresses after).Runs trace outcome :=
      Async.exists_run _ _
    obtain ⟨trace, outcome, static, runs⟩ := run
    obtain ⟨honest, answers⟩ := serve_honest static
    obtain ⟨returns, fails⟩ := address_history_is_reference honest
    cases outcome with
    | ok rows => exact ⟨trace, rows, runs, returns rows runs _ same⟩
    | error e =>
      obtain ⟨-, chunk, -, long, -⟩ := fails e runs answers fits
      have short : (sharedIndex.stream chunk after).length ≤ 270 :=
        (length_partyRows _ _ chunk after).trans sharedHistory_few
      simp only [HISTORY_MAX_LIST_ROWS] at long
      omega
  obtain ⟨first, rows, ran, page⟩ := pages 160 sharedAddresses none (fun _ => Iff.rfl) (by
    unfold BodyBuilder.Fits
    decide)
  obtain ⟨second, rows', ran', page'⟩ := pages KOIOS_BODY_LIMIT_BYTES sharedAddresses.reverse (some 16)
    (fun _ => List.mem_reverse.symm) (by
      unfold BodyBuilder.Fits
      decide)
  refine ⟨first, second, rows, rows', ran, ?_, ran', ?_⟩
  · rw [page, sharedIndex_reference]
    exact congrArg _ (by decide)
  · rw [page', sharedIndex_reference]
    exact congrArg _ (by decide)

/-- The history returned is the transactions of the page, detailed, in chain order. -/
theorem getTxHistoryByAddresses_runs {attempts : ReadAttempts} {result : List WalletTransaction}
    (some : addresses ≠ []) (honest : HonestAddresses index trace)
    (details : ∀ t asked answer, ⟨t, .txInfo asked, answer⟩ ∈ trace →
      ServesTxInfo index.history asked answer)
    (runs : (getTxHistoryByAddresses attempts bodyLimit addresses afterBlock).Runs trace
      (.ok result)) :
    result = (index.history.under
      ((index.reference addresses afterBlock).map HistoryRow.tx_hash)).map mapTx := by
  rw [getTxHistoryByAddresses, if_neg (mt List.length_eq_zero_iff.mp some)] at runs
  obtain ⟨first, rest, rows, rfl, listed, tail⟩ := Async.runs_bind_ok.mp runs
  obtain ⟨before, last, rfl, ran⟩ := read_runs listed
  have page := boundedAddressHistoryRows_page (honest.sub ((List.sublist_append_right before
    last).trans (List.sublist_append_left _ rest))) ran
  split at tail
  case isTrue none =>
    obtain ⟨-, same⟩ := tail
    cases same
    rw [← page, List.length_eq_zero_iff.mp none]
    change [] = (index.history.under []).map mapTx
    rw [under_nil]
    rfl
  case isFalse =>
    rw [← page]
    exact hydrateTxHistory_runs tail fun t asked answer member =>
      details t asked answer (List.mem_append_right _ member)

theorem reference_hashes (index : AddressIndex) (addresses : List String) (afterBlock : Option Nat) :
    ((index.reference addresses afterBlock).map HistoryRow.tx_hash).Nodup ∧
    ∀ hash ∈ (index.reference addresses afterBlock).map HistoryRow.tx_hash,
      ∃ tx ∈ index.history.txs, tx.tx_hash = hash := by
  have inside : (index.reference addresses afterBlock).Sublist (index.unionAbove addresses afterBlock) :=
    window_sublist _
  constructor
  · exact List.Nodup.map_on (fun a left b right => unionAbove_hashes a (inside.subset left) b
      (inside.subset right)) ((unionAbove_ascending.sublist inside).imp ne_of_lt)
  · intro hash member
    obtain ⟨row, listed, rfl⟩ := List.mem_map.mp member
    obtain ⟨address, -, streamed⟩ := mem_unionAbove.mp (inside.subset listed)
    obtain ⟨tx, present, rfl⟩ := index.known _ _ _ streamed
    exact ⟨tx, present, rfl⟩

/-- Where every request is answered and no stream is longer than the bound, the history returns. -/
theorem getTxHistoryByAddresses_returns {attempts : ReadAttempts}
    {outcome : Except Failure (List WalletTransaction)} (some : addresses ≠ [])
    (honest : HonestAddresses index trace) (answers : AnswersAddresses trace)
    (details : ∀ t asked answer, ⟨t, .txInfo asked, answer⟩ ∈ trace →
      ∃ rows, answer = .ok rows ∧ rows.Perm (index.history.under asked))
    (fits : ∀ address ∈ addresses, (addressTxsBody afterBlock).Fits bodyLimit address)
    (hashes : ∀ tx ∈ index.history.txs, txInfoBody.Fits bodyLimit tx.tx_hash)
    (short : ∀ chunk, (index.stream chunk afterBlock).length ≤ HISTORY_MAX_LIST_ROWS)
    (runs : (getTxHistoryByAddresses attempts bodyLimit addresses afterBlock).Runs trace outcome) :
    outcome = .ok ((index.history.under
      ((index.reference addresses afterBlock).map HistoryRow.tx_hash)).map mapTx) := by
  rw [getTxHistoryByAddresses, if_neg (mt List.length_eq_zero_iff.mp some)] at runs
  obtain ⟨first, rest, rows, rfl, listed, tail⟩ | ⟨e, listed, -⟩ := Async.runs_bind.mp runs
  · obtain ⟨before, last, rfl, ran⟩ := read_runs listed
    have page := boundedAddressHistoryRows_page (honest.sub ((List.sublist_append_right before
      last).trans (List.sublist_append_left _ rest))) ran
    obtain ⟨nodup, known⟩ := reference_hashes index addresses afterBlock
    split at tail
    case isTrue none =>
      rw [← tail.2, ← page, List.length_eq_zero_iff.mp none]
      change _ = Except.ok ((index.history.under []).map mapTx)
      rw [under_nil]
      rfl
    case isFalse =>
      rw [page] at tail
      refine hydrateTxHistory_returns nodup (fun hash member => ?_) (fun hash member => ?_) tail
        fun t asked answer member => details t asked answer (List.mem_append_right _ member)
      · obtain ⟨tx, present, rfl⟩ := known hash member
        exact List.mem_map_of_mem present
      · obtain ⟨tx, present, rfl⟩ := known hash member
        exact hashes tx present
  · obtain ⟨before, last, rfl, ran⟩ := read_runs listed
    have later := List.sublist_append_right before last
    obtain ⟨-, chunk, -, long, -⟩ :=
      boundedAddressHistoryRows_fails (honest.sub later) (answers.sub later) fits ran
    exact absurd (short chunk) (Nat.not_le.mpr long)

end Runs

end WalletBackend.Koios
