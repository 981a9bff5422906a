import WalletBackend.Blockfrost.TxInfo
import WalletBackend.Library.BlockWindow

/-! The cursors of an address set: one an address, advanced page by page, and what a
cursor holds of a chain that does not change. -/
namespace WalletBackend.Blockfrost
open Interaction Containers BlockPaging

/-- The paging state of one address. -/
structure AddressCursor where
  address : String
  page : Nat
  rows : List AddressTxRow
  full : Bool
  done : Bool

def AddressCursor.start (address : String) : AddressCursor where
  address := address
  page := 0
  rows := []
  full := false
  done := false

/-- A page folded into the cursor that asked for it. -/
def AddressCursor.fold (afterBlock : Option Nat) (cursor : AddressCursor) :
    Option (List AddressTxRow) → AddressCursor
  | none => { cursor with done := true }
  | some pageRows =>
      let full := decide (pageRows.length = LIST_PAGE_SIZE)
      { cursor with
        rows := cursor.rows ++ above AddressTxRow.block_height afterBlock pageRows
        full
        done := cursor.done || !full || decide (LIST_MAX_PAGES ≤ cursor.page) }

def advanceCursor (afterBlock : Option Nat) (cursor : AddressCursor) : Read AddressCursor :=
  if cursor.done then pure cursor
  else do
    let asking := { cursor with page := cursor.page + 1 }
    let pageRows ← getOrUndefined (.addressTransactions asking.address asking.page afterBlock)
    pure (asking.fold afterBlock pageRows)

/-- By block, then by index in the block. -/
def rowOrder (a b : AddressTxRow) : Prop :=
  a.block_height < b.block_height ∨ (a.block_height = b.block_height ∧ a.tx_index ≤ b.tx_index)

instance (a b : AddressTxRow) : Decidable (rowOrder a b) := inferInstanceAs (Decidable (_ ∨ _))

instance : Std.Total rowOrder := ⟨fun a b => by unfold rowOrder; omega⟩

instance : IsTrans AddressTxRow rowOrder := ⟨fun a b c => by unfold rowOrder; omega⟩

/-- The first row under each hash, oldest first. -/
def arrange (rows : List AddressTxRow) : List AddressTxRow :=
  (distinctBy AddressTxRow.tx_hash rows).insertionSort rowOrder

structure MergedPage where
  page : List AddressTxRow
  boundaryBlock : Option Nat

def mergePage (cursors : List AddressCursor) : MergedPage :=
  let sorted := arrange (cursors.flatMap AddressCursor.rows)
  { page := window HISTORY_PAGE_SIZE AddressTxRow.block_height sorted
    boundaryBlock := boundary HISTORY_PAGE_SIZE AddressTxRow.block_height sorted }

/-- Whether the address might still hold transactions of the oldest page. -/
def AddressCursor.needs (boundaryBlock : Option Nat) (cursor : AddressCursor) : Bool :=
  if cursor.done || !cursor.full then false
  else
    match boundaryBlock, cursor.rows.getLast? with
    | some block, some last => last.block_height ≤ block
    | _, _ => true

/-- The cursors with those that `needs` picks replaced, in order. -/
def replaceNeeding (needs : AddressCursor → Bool) :
    List AddressCursor → List AddressCursor → List AddressCursor
  | [], _ => []
  | cursor :: cursors, [] => cursor :: cursors
  | cursor :: cursors, next :: advanced =>
      if needs cursor then next :: replaceNeeding needs cursors advanced
      else cursor :: replaceNeeding needs cursors (next :: advanced)

/-- The loop that settles the oldest page. Every round turns a page of some address,
so the page bound of the addresses bounds the rounds. -/
def settleCursors (afterBlock : Option Nat) (addressFanout : Nat) :
    (rounds : Nat) → List AddressCursor → Read (List AddressCursor)
  | 0, _ => throw (.plain "")
  | rounds + 1, cursors => do
      let needs := AddressCursor.needs (mergePage cursors).boundaryBlock
      let needing := cursors.filter needs
      if needing.length = 0 then pure cursors
      else
        let advanced ← mapWithConcurrency needing addressFanout fun cursor _ =>
          advanceCursor afterBlock cursor
        settleCursors afterBlock addressFanout rounds (replaceNeeding needs cursors advanced)

/-- A transaction with its details, and the record they hydrate to. -/
structure ChainTx where
  row : AddressTxRow
  details : TxDetails
  record : WalletTransaction
  hydrates : details.hydrate row.tx_hash = .ok ⟨record, row.tx_index⟩
  block : record.block = row.block_height

/-- Strictly earlier in the chain. -/
def before (a b : AddressTxRow) : Prop :=
  a.block_height < b.block_height ∨ (a.block_height = b.block_height ∧ a.tx_index < b.tx_index)

/-- More transactions of one address than a block may hold. -/
def CROWDED : Nat := 9900

/-- A chain that does not change, and what each address lists of it: its transactions
in chain order, fewer than `CROWDED` in any block. -/
structure AddressChain where
  txs : List ChainTx
  ordered : txs.Pairwise fun a b => before a.row b.row
  distinct : (txs.map fun tx => tx.row.tx_hash).Nodup
  listing : String → List AddressTxRow
  listed : ∀ address, (listing address).Sublist (txs.map ChainTx.row)
  sparse : ∀ address block,
    ((listing address).filter fun row => row.block_height = block).length < CROWDED
  epochs : ∀ tx ∈ txs, ∀ tx' ∈ txs, tx.details.content.block = tx'.details.content.block →
    tx.details.epoch = tx'.details.epoch
  seen : String → Bool
  unseen : ∀ address, seen address = false → listing address = []

namespace AddressChain

/-- The rows of the chain, oldest first. -/
def rows (chain : AddressChain) : List AddressTxRow := chain.txs.map ChainTx.row

/-- The rows from the cursor block on, the block itself included. -/
def from_ (chain : AddressChain) (address : String) (afterBlock : Option Nat) :
    List AddressTxRow :=
  (chain.listing address).filter fun row => ∀ after ∈ afterBlock, after ≤ row.block_height

/-- The answer to a page request; an address never seen is a 404. -/
def answer (chain : AddressChain) (address : String) (page : Nat) (afterBlock : Option Nat) :
    Option (List AddressTxRow) :=
  if chain.seen address then
    some (((chain.from_ address afterBlock).drop (LIST_PAGE_SIZE * (page - 1))).take LIST_PAGE_SIZE)
  else none

/-- The union over the addresses of the transactions above the cursor. -/
def unionAbove (chain : AddressChain) (addresses : List String) (afterBlock : Option Nat) :
    List AddressTxRow :=
  arrange (above AddressTxRow.block_height afterBlock (addresses.flatMap chain.listing))

/-- The page the history is to return. -/
def reference (chain : AddressChain) (addresses : List String) (afterBlock : Option Nat) :
    List AddressTxRow :=
  window HISTORY_PAGE_SIZE AddressTxRow.block_height (chain.unionAbove addresses afterBlock)

/-- The records of the transactions under `hashes`, in chain order. -/
def records (chain : AddressChain) (hashes : List String) : List WalletTransaction :=
  (chain.txs.filter fun tx => tx.row.tx_hash ∈ hashes).map ChainTx.record

end AddressChain

/-- Every request was answered from the chain. -/
structure HonestHistory {T : Type} (chain : AddressChain)
    (trace : List (Exchange T Endpoint.Answer)) : Prop where
  pages : ∀ t address page afterBlock answer,
    ⟨t, .addressTransactions address page afterBlock, answer⟩ ∈ trace →
      answer = .ok (chain.answer address page afterBlock)
  details : ∀ tx ∈ chain.txs, ServesTx tx.details tx.row.tx_hash trace

section Arrange

variable {chain : AddressChain}

theorem AddressChain.rows_before (chain : AddressChain) : chain.rows.Pairwise before :=
  List.pairwise_map.mpr chain.ordered

theorem AddressChain.row_eq {a b : AddressTxRow} (left : a ∈ chain.rows) (right : b ∈ chain.rows)
    (same : a.tx_hash = b.tx_hash) : a = b :=
  List.inj_on_of_nodup_map (by rw [AddressChain.rows, List.map_map]; exact chain.distinct)
    left right same

theorem AddressChain.place_eq {a b : AddressTxRow} (left : a ∈ chain.rows) (right : b ∈ chain.rows)
    (forth : rowOrder a b) (back : rowOrder b a) : a = b := by
  have forward : chain.rows.Pairwise fun a b => rowOrder a b → rowOrder b a → a = b :=
    chain.rows_before.imp fun less _ back => by unfold before rowOrder at *; omega
  have backward : chain.rows.Pairwise (flip fun a b => rowOrder a b → rowOrder b a → a = b) :=
    chain.rows_before.imp fun less back _ => by unfold before rowOrder at *; omega
  exact List.Pairwise.forall_of_forall_of_flip (fun _ _ _ _ => rfl) forward backward left right
    forth back

theorem before_ordered {xs : List AddressTxRow} (sorted : xs.Pairwise before) :
    Ordered AddressTxRow.block_height xs :=
  sorted.imp fun less => by unfold before at less; omega

/-- Rows in chain order are determined by which rows they are. -/
theorem eq_of_mem_iff {xs ys : List AddressTxRow} (left : xs.Pairwise before)
    (right : ys.Pairwise before) (same : ∀ row, row ∈ xs ↔ row ∈ ys) : xs = ys := by
  have irreflexive : ∀ {a b : AddressTxRow}, before a b → a ≠ b := by
    rintro a _ less rfl
    unfold before at less
    omega
  have perm : xs.Perm ys := (List.perm_ext_iff_of_nodup (left.imp irreflexive)
    (right.imp irreflexive)).mpr same
  refine perm.eq_of_pairwise (fun a b _ _ forth back => ?_) left right
  unfold before at forth back
  omega

theorem mem_arrange {rows : List AddressTxRow} (known : rows ⊆ chain.rows) {row : AddressTxRow} :
    row ∈ arrange rows ↔ row ∈ rows := by
  rw [arrange, List.mem_insertionSort]
  exact mem_distinctBy fun a left b right => chain.row_eq (known left) (known right)

theorem arrange_before {rows : List AddressTxRow} (known : rows ⊆ chain.rows) :
    (arrange rows).Pairwise before := by
  have distinct : (arrange rows).Nodup :=
    (List.perm_insertionSort _ _).nodup_iff.mpr (nodup_distinctBy rows).of_map
  refine List.Pairwise.imp_of_mem (fun {a b} left right less => ?_)
    ((List.pairwise_insertionSort rowOrder _).and distinct)
  obtain ⟨upTo, other⟩ := less
  have inChain := fun {row} (member : row ∈ arrange rows) => known ((mem_arrange known).mp member)
  by_contra notBefore
  refine other (chain.place_eq (inChain left) (inChain right) upTo ?_)
  unfold rowOrder before at *
  omega

end Arrange

section Cursors

variable {T : Type} {chain : AddressChain} {afterBlock : Option Nat} {cursor : AddressCursor}
  {trace : List (Exchange T Endpoint.Answer)}

namespace AddressCursor

/-- What the address has listed up to the cursor's page. -/
def read (chain : AddressChain) (afterBlock : Option Nat) (cursor : AddressCursor) :
    List AddressTxRow :=
  (chain.from_ cursor.address afterBlock).take (LIST_PAGE_SIZE * cursor.page)

/-- A cursor that has not come to the end of its address: all its pages were full. -/
structure Open (chain : AddressChain) (afterBlock : Option Nat) (cursor : AddressCursor) :
    Prop where
  going : cursor.done = false
  full : cursor.full = decide (1 ≤ cursor.page)
  reaches : LIST_PAGE_SIZE * cursor.page ≤ (chain.from_ cursor.address afterBlock).length
  rows : cursor.rows = above AddressTxRow.block_height afterBlock (cursor.read chain afterBlock)
  room : cursor.page + 1 < LIST_MAX_PAGES

/-- A cursor after a page: it holds what was listed above the cursor block, and is
done exactly when the address has no more. -/
structure Tracks (chain : AddressChain) (afterBlock : Option Nat) (cursor : AddressCursor) :
    Prop where
  started : 1 ≤ cursor.page
  room : cursor.page < LIST_MAX_PAGES
  rows : cursor.rows = above AddressTxRow.block_height afterBlock (cursor.read chain afterBlock)
  full : cursor.full =
    decide (LIST_PAGE_SIZE * cursor.page ≤ (chain.from_ cursor.address afterBlock).length)
  done : cursor.done = !cursor.full

/-- The cursor with its next page. -/
def next (chain : AddressChain) (afterBlock : Option Nat) (cursor : AddressCursor) :
    AddressCursor :=
  { cursor with page := cursor.page + 1 }.fold afterBlock
    (chain.answer cursor.address (cursor.page + 1) afterBlock)

theorem open_start (address : String) : (start address).Open chain afterBlock where
  going := rfl
  full := rfl
  reaches := Nat.zero_le _
  rows := rfl
  room := (by decide : 0 + 1 < LIST_MAX_PAGES)

theorem Tracks.opens (tracks : cursor.Tracks chain afterBlock) (full : cursor.full = true)
    (room : cursor.page + 1 < LIST_MAX_PAGES) : cursor.Open chain afterBlock where
  going := by rw [tracks.done, full]; rfl
  full := by rw [full, decide_eq_true tracks.started]
  reaches := of_decide_eq_true (tracks.full.symm.trans full)
  rows := tracks.rows
  room := room

theorem next_address (cursor : AddressCursor) :
    (cursor.next chain afterBlock).address = cursor.address := by
  unfold next
  cases chain.answer cursor.address (cursor.page + 1) afterBlock <;> rfl

theorem next_page (cursor : AddressCursor) :
    (cursor.next chain afterBlock).page = cursor.page + 1 := by
  unfold next
  cases chain.answer cursor.address (cursor.page + 1) afterBlock <;> rfl

theorem above_append (xs ys : List AddressTxRow) :
    above AddressTxRow.block_height afterBlock (xs ++ ys) =
      above AddressTxRow.block_height afterBlock xs ++
        above AddressTxRow.block_height afterBlock ys := List.filter_append ..

/-- Turning a page keeps the cursor in step with its address. -/
theorem Open.next (opened : cursor.Open chain afterBlock) :
    (cursor.next chain afterBlock).Tracks chain afterBlock := by
  have room := opened.room
  cases known : chain.seen cursor.address with
  | false =>
    have none : chain.from_ cursor.address afterBlock = [] := by
      rw [AddressChain.from_, chain.unseen _ known, List.filter_nil]
    have first : cursor.page = 0 := by
      have reaches := opened.reaches
      rw [none] at reaches
      simp only [List.length_nil, LIST_PAGE_SIZE] at reaches
      omega
    have empty : cursor.rows = [] := by
      rw [opened.rows, read, none, List.take_nil]
      rfl
    have rough : cursor.full = false := by rw [opened.full, first]; rfl
    have turned : cursor.next chain afterBlock =
        { cursor with page := cursor.page + 1, done := true } := by
      rw [AddressCursor.next, AddressChain.answer, if_neg (by rw [known]; decide)]
      rfl
    rw [turned]
    refine ⟨Nat.le_add_left _ _, room, ?_, ?_, by rw [rough]; rfl⟩
    · change cursor.rows = above _ _ ((chain.from_ cursor.address afterBlock).take _)
      rw [empty, none, List.take_nil]
      rfl
    · change cursor.full = decide (_ ≤ (chain.from_ cursor.address afterBlock).length)
      rw [rough, none, first]
      rfl
  | true =>
    let page := ((chain.from_ cursor.address afterBlock).drop (LIST_PAGE_SIZE * cursor.page)).take
      LIST_PAGE_SIZE
    have turned : cursor.next chain afterBlock =
        { cursor with
          page := cursor.page + 1
          rows := cursor.rows ++ above AddressTxRow.block_height afterBlock page
          full := decide (page.length = LIST_PAGE_SIZE)
          done := cursor.done || !decide (page.length = LIST_PAGE_SIZE) ||
            decide (LIST_MAX_PAGES ≤ cursor.page + 1) } := by
      rw [AddressCursor.next, AddressChain.answer, if_pos known]
      rfl
    rw [turned]
    refine ⟨Nat.le_add_left _ _, room, ?_, ?_, ?_⟩
    · change cursor.rows ++ _ = above _ _ ((chain.from_ cursor.address afterBlock).take
        (LIST_PAGE_SIZE * (cursor.page + 1)))
      rw [Nat.mul_succ, List.take_add, above_append, opened.rows]
      rfl
    · have size : page.length =
          min LIST_PAGE_SIZE ((chain.from_ cursor.address afterBlock).length -
            LIST_PAGE_SIZE * cursor.page) := by
        rw [List.length_take, List.length_drop]
      refine decide_eq_decide.mpr ?_
      change page.length = LIST_PAGE_SIZE ↔ LIST_PAGE_SIZE * (cursor.page + 1) ≤ _
      rw [size, Nat.mul_succ]
      simp only [LIST_PAGE_SIZE]
      omega
    · have early : decide (LIST_MAX_PAGES ≤ cursor.page + 1) = false :=
        decide_eq_false (by omega)
      simp [opened.going, early]

theorem settles_advance (opened : cursor.Open chain afterBlock) (honest : HonestHistory chain trace) :
    Async.Settles trace (advanceCursor afterBlock cursor)
      (.ok (cursor.next chain afterBlock)) := by
  rw [advanceCursor, if_neg (by rw [opened.going]; decide)]
  exact (settles_getOrUndefined fun t answer asked => honest.pages t _ _ _ answer asked).bind
    (Async.settles_pure _)

theorem read_sublist (cursor : AddressCursor) :
    (cursor.read chain afterBlock).Sublist (chain.listing cursor.address) :=
  (List.take_sublist _ _).trans List.filter_sublist

theorem Tracks.rows_sublist (tracks : cursor.Tracks chain afterBlock) :
    cursor.rows.Sublist (chain.listing cursor.address) := by
  rw [tracks.rows]
  exact List.filter_sublist.trans (read_sublist cursor)

theorem Tracks.rows_before (tracks : cursor.Tracks chain afterBlock) :
    cursor.rows.Pairwise before :=
  chain.rows_before.sublist (tracks.rows_sublist.trans (chain.listed _))

theorem block_count (chain : AddressChain) {rows : List AddressTxRow} {address : String}
    (inside : rows.Sublist (chain.listing address)) (block : Nat) :
    rows.countP (fun row => row.block_height = block) < CROWDED := by
  have sparse := chain.sparse address block
  rw [← List.countP_eq_length_filter] at sparse
  exact (inside.countP_le).trans_lt sparse

/-- The pages hold the rows kept and less than a crowd from the cursor block. -/
theorem Tracks.length_read (tracks : cursor.Tracks chain afterBlock) :
    (cursor.read chain afterBlock).length < cursor.rows.length + CROWDED := by
  have split := List.length_eq_countP_add_countP
    (fun row : AddressTxRow => decide (∀ a ∈ afterBlock, a < row.block_height))
    (l := cursor.read chain afterBlock)
  rw [List.countP_eq_length_filter] at split
  have kept : cursor.rows.length = ((cursor.read chain afterBlock).filter fun row =>
      decide (∀ a ∈ afterBlock, a < row.block_height)).length := by
    rw [tracks.rows]
    rfl
  have cut : (cursor.read chain afterBlock).countP
      (fun row => ¬ decide (∀ a ∈ afterBlock, a < row.block_height) = true) < CROWDED := by
    cases afterBlock with
    | none =>
      rw [List.countP_eq_zero.mpr (by simp)]
      decide
    | some after =>
      refine lt_of_le_of_lt (List.countP_mono_left fun row member notAbove => ?_)
        (block_count chain (read_sublist cursor) after)
      have since := (List.mem_filter.mp (List.mem_of_mem_take member)).2
      simp only [Option.mem_def, Option.some.injEq, forall_eq', decide_eq_true_eq, not_lt]
        at since notAbove ⊢
      omega
  omega

/-- A full page more of rows lies in the block that would fill the page. -/
theorem Tracks.length_rows (tracks : cursor.Tracks chain afterBlock) {pivot last : AddressTxRow}
    (found : cursor.rows[HISTORY_PAGE_SIZE - 1]? = some pivot)
    (final : cursor.rows.getLast? = some last) (upTo : last.block_height ≤ pivot.block_height) :
    cursor.rows.length < HISTORY_PAGE_SIZE - 1 + CROWDED := by
  obtain ⟨bound, here⟩ := List.getElem?_eq_some_iff.mp found
  have ordered := before_ordered tracks.rows_before
  have later : ∀ row ∈ cursor.rows.drop (HISTORY_PAGE_SIZE - 1),
      row.block_height = pivot.block_height := by
    intro row member
    have below := Ordered.le_last ordered final (List.mem_of_mem_drop member)
    have rest := ordered.sublist (List.drop_sublist (HISTORY_PAGE_SIZE - 1) cursor.rows)
    rw [List.drop_eq_getElem_cons bound, here] at rest member
    obtain rfl | behind := List.mem_cons.mp member
    · rfl
    · have above_ := (List.pairwise_cons.mp rest).1 row behind
      omega
  have all : (cursor.rows.drop (HISTORY_PAGE_SIZE - 1)).countP
      (fun row => row.block_height = pivot.block_height) =
        (cursor.rows.drop (HISTORY_PAGE_SIZE - 1)).length :=
    List.countP_eq_length.mpr fun row member => decide_eq_true (later row member)
  have few := block_count chain ((List.drop_sublist (HISTORY_PAGE_SIZE - 1) cursor.rows).trans
    tracks.rows_sublist) pivot.block_height
  rw [all, List.length_drop] at few
  omega

end AddressCursor

end Cursors

end WalletBackend.Blockfrost
