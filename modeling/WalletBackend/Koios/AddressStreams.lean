import WalletBackend.Koios.HistoryPage
import WalletBackend.Library.StreamMerge
import Mathlib.Data.String.Basic
import Mathlib.Data.Prod.Lex

/-! The ordered transaction stream of one packed address batch, filled a page at a
time as the merge asks for its head. -/
namespace WalletBackend.Koios
open Interaction

def HISTORY_MAX_LIST_ROWS : Nat := 100000

def ADDRESS_TXS_PATH : String := "/address_txs?order=block_height.asc,tx_hash.asc"

/-- By block, then by hash. Hashes are hex, which UTF-16 units order as characters do. -/
def compareAddressTxRows (left right : HistoryRow) : Int :=
  if left.block_height ≠ right.block_height then (left.block_height : Int) - right.block_height
  else if left.tx_hash = right.tx_hash then 0
  else if left.tx_hash < right.tx_hash then -1 else 1

instance : LinearOrder HistoryRow :=
  LinearOrder.lift' (fun row => toLex (row.block_height, row.tx_hash)) (by
    rintro ⟨hash, height⟩ ⟨hash', height'⟩ same
    simp only [EmbeddingLike.apply_eq_iff_eq, Prod.mk.injEq] at same
    rw [same.1, same.2])

theorem row_lt_iff {a b : HistoryRow} : a < b ↔ a.block_height < b.block_height ∨
    (a.block_height = b.block_height ∧ a.tx_hash < b.tx_hash) :=
  Prod.Lex.lt_iff

theorem block_height_monotone : Monotone HistoryRow.block_height := by
  intro a b upTo
  obtain rfl | less := upTo.eq_or_lt
  · exact le_refl _
  · obtain lower | ⟨same, -⟩ := row_lt_iff.mp less
    · exact lower.le
    · exact same.le

theorem compare_neg {a b : HistoryRow} : compareAddressTxRows a b < 0 ↔ a < b := by
  rw [row_lt_iff, compareAddressTxRows]
  split
  case isTrue => omega
  case isFalse level =>
    split
    case isTrue same =>
      rw [same]
      simp
      omega
    case isFalse =>
      split <;> simp_all

theorem compare_pos {a b : HistoryRow} : 0 < compareAddressTxRows a b ↔ b < a := by
  rw [row_lt_iff, compareAddressTxRows]
  split
  case isTrue => omega
  case isFalse level =>
    split
    case isTrue same =>
      rw [same]
      simp
      omega
    case isFalse other =>
      split
      case isTrue less => simp [less.not_gt]; omega
      case isFalse notLess =>
        have greater := lt_of_le_of_ne (not_lt.mp notLess) (Ne.symm other)
        simp_all

structure AddressHistoryStream where
  addresses : List String
  afterBlock : Option Nat
  rows : List HistoryRow
  index : Nat
  offset : Nat
  done : Bool
  last : Option HistoryRow

/-- A page once its range has been parsed. -/
structure AddressTxPage where
  rows : List HistoryRow
  status : Nat
  range : Option ContentRange

def parsePage (stream : AddressHistoryStream) (limit : Nat) (response : PageResponse HistoryRow) :
    Except Failure AddressTxPage := do
  let range ← match response.contentRange with
    | none => .ok none
    | some value => do
        let path := s!"{ADDRESS_TXS_PATH}&limit={limit}&offset={stream.offset}"
        pure (some (← parseContentRange value path))
  pure { rows := response.rows, status := response.status, range }

/-- `koios.batchPageOnce` on the next page of the stream. -/
def batchPageOnce (stream : AddressHistoryStream) (limit : Nat) : Read AddressTxPage := do
  let response ← request (.addressTxs stream.addresses stream.afterBlock limit stream.offset)
  Async.ofExcept (parsePage stream limit response)

namespace AddressHistoryStream

def start (addresses : List String) (afterBlock : Option Nat) : AddressHistoryStream where
  addresses := addresses
  afterBlock := afterBlock
  rows := []
  index := 0
  offset := 0
  done := false
  last := none

/-- The offset after a page, and whether the page ends the stream. -/
def takeRange (stream : AddressHistoryStream) (limit : Nat) (page : AddressTxPage) :
    Except Failure (Nat × Bool) :=
  match page.range with
  | none => do
      refuse (page.status = 206 ∨ stream.offset ≠ 0)
        s!"koios omitted Content-Range from a partial response for {ADDRESS_TXS_PATH}"
      refuse (limit ≤ page.rows.length)
        s!"koios returned a full page without Content-Range for {ADDRESS_TXS_PATH}"
      pure (stream.offset + page.rows.length, true)
  | some (.empty total) => do
      refuse (page.rows.length ≠ 0 ∨ total ≠ stream.offset)
        s!"koios returned a contradictory empty Content-Range on {ADDRESS_TXS_PATH}"
      pure (stream.offset, true)
  | some (.span start last total _ _) => do
      refuse (start ≠ stream.offset ∨ page.rows.length ≠ last - start + 1)
        s!"koios returned a non-contiguous page for {ADDRESS_TXS_PATH}"
      let offset := last + 1
      refuse (HISTORY_MAX_LIST_ROWS < offset)
        s!"koios paged result exceeds {HISTORY_MAX_LIST_ROWS} rows for {ADDRESS_TXS_PATH}"
      let done := decide (offset = total)
      refuse (done = false ∧ page.status ≠ 206)
        s!"koios returned an incomplete successful response for {ADDRESS_TXS_PATH}"
      pure (offset, done)

/-- The last row, once every row is known not to precede the one before it. -/
def checkOrder : Option HistoryRow → List HistoryRow → Except Failure (Option HistoryRow)
  | last, [] => .ok last
  | last, row :: rows => do
      refuse (last.any fun last => 0 < compareAddressTxRows last row)
        s!"koios returned an out-of-order page for {ADDRESS_TXS_PATH}"
      checkOrder (some row) rows

/-- `fillAddressHistoryStream` from the response on. -/
def takePage (stream : AddressHistoryStream) (limit : Nat) (page : AddressTxPage) :
    Except Failure AddressHistoryStream := do
  let (offset, done) ← stream.takeRange limit page
  let last ← checkOrder stream.last page.rows
  pure { stream with rows := page.rows, index := 0, offset, done, last }

/-- The bound is probed with one row. -/
def limit (stream : AddressHistoryStream) : Nat :=
  if HISTORY_MAX_LIST_ROWS ≤ stream.offset then 1 else HISTORY_PAGE_SIZE

end AddressHistoryStream

def fillAddressHistoryStream (stream : AddressHistoryStream) : Read AddressHistoryStream :=
  if stream.done ∨ stream.index < stream.rows.length then pure stream
  else do
    let page ← batchPageOnce stream stream.limit
    Async.ofExcept (stream.takePage stream.limit page)

/-- The stream, filled, and its head. -/
def peekAddressHistoryStream (stream : AddressHistoryStream) :
    Read (AddressHistoryStream × Option HistoryRow) := do
  let stream ← fillAddressHistoryStream stream
  pure (stream, stream.rows[stream.index]?)

/-- An address index that does not change: the transactions of the chain, and for
every batch of addresses and cursor the stream it serves. A transaction may stand in
a stream more than once. -/
structure AddressIndex where
  history : ChainHistory
  stream : List String → Option Nat → List HistoryRow
  ordered : ∀ addresses after,
    (stream addresses after).Pairwise fun a b => compareAddressTxRows a b ≤ 0
  counted : ∀ addresses after, (stream addresses after).length ≤ maxSafeInteger
  known : ∀ addresses after, ∀ row ∈ stream addresses after, ∃ tx ∈ history.txs, row = tx.thin
  union : ∀ addresses row,
    row ∈ stream addresses none ↔ ∃ address ∈ addresses, row ∈ stream [address] none
  above : ∀ addresses after row, row ∈ stream addresses after ↔
    row ∈ stream addresses none ∧ ∀ b ∈ after, b < row.block_height

/-- Every page was computed from the streams of `index`, or the request failed. -/
def HonestAddresses {T : Type} (index : AddressIndex) (trace : List (Exchange T Endpoint.Answer)) :
    Prop :=
  ∀ t addresses after limit offset answer,
    ⟨t, .addressTxs addresses after limit offset, answer⟩ ∈ trace →
      ServesPage limit (index.stream addresses after) offset answer

/-- Every page request was answered with a page. -/
def AnswersAddresses {T : Type} (trace : List (Exchange T Endpoint.Answer)) : Prop :=
  ∀ t addresses after limit offset e,
    ⟨t, .addressTxs addresses after limit offset, .error e⟩ ∉ trace

theorem HonestAddresses.sub {T : Type} {index : AddressIndex}
    {part trace : List (Exchange T Endpoint.Answer)} (honest : HonestAddresses index trace)
    (sub : part.Sublist trace) : HonestAddresses index part :=
  fun t _ _ _ _ answer member => honest t _ _ _ _ answer (sub.subset member)

theorem AnswersAddresses.sub {T : Type} {part trace : List (Exchange T Endpoint.Answer)}
    (answers : AnswersAddresses trace) (sub : part.Sublist trace) : AnswersAddresses part :=
  fun t _ _ _ _ e member => answers t _ _ _ _ e (sub.subset member)

theorem AddressIndex.ascending (index : AddressIndex) (addresses : List String)
    (after : Option Nat) : (index.stream addresses after).Pairwise (· ≤ ·) :=
  (index.ordered addresses after).imp fun upTo =>
    not_lt.mp fun less => absurd (compare_pos.mpr less) (by omega)

theorem parseContentRange_renderRange {start count total : Nat} (path : String)
    (within : count = 0 ∨ start + count ≤ total) (safe : total ≤ maxSafeInteger) :
    ∃ parsed, parseContentRange (renderRange start count total) path = .ok parsed := by
  unfold renderRange
  split
  case isTrue =>
    rw [parseContentRange_empty, if_pos safe]
    exact ⟨_, rfl⟩
  case isFalse some =>
    rw [parseContentRange_span, dif_pos ⟨safe, by omega, by omega⟩]
    exact ⟨_, rfl⟩

namespace AddressHistoryStream

/-- How many rows of the stream the merge has taken. -/
def taken (stream : AddressHistoryStream) : Nat :=
  stream.offset - (stream.rows.length - stream.index)

def content (index : AddressIndex) (stream : AddressHistoryStream) : List HistoryRow :=
  index.stream stream.addresses stream.afterBlock

/-- What the merge has not taken yet. -/
def rest (index : AddressIndex) (stream : AddressHistoryStream) : List HistoryRow :=
  (stream.content index).drop stream.taken

/-- A stream in step with what it is read from: its page ends at its offset. Every
page but the last is full, so the offset meets the bound exactly. -/
structure Tracks (index : AddressIndex) (stream : AddressHistoryStream) : Prop where
  inside : stream.index ≤ stream.rows.length
  read : stream.rows.length ≤ stream.offset
  page : stream.rows = ((stream.content index).take stream.offset).drop
    (stream.offset - stream.rows.length)
  within : stream.offset ≤ (stream.content index).length
  bounded : stream.offset ≤ HISTORY_MAX_LIST_ROWS
  last : stream.last = ((stream.content index).take stream.offset).getLast?
  ends : stream.done = true → stream.offset = (stream.content index).length
  aligned : stream.done = false → HISTORY_PAGE_SIZE ∣ stream.offset
  unread : stream.done = false → stream.offset = 0 ∨ stream.offset < (stream.content index).length

/-- The merge can look at the head of the stream. -/
def Ready (stream : AddressHistoryStream) : Prop :=
  stream.index < stream.rows.length ∨ stream.done = true

/-- More rows than the bound, and all up to the bound taken. -/
def Overflows (index : AddressIndex) (stream : AddressHistoryStream) : Prop :=
  stream.taken = HISTORY_MAX_LIST_ROWS ∧ HISTORY_MAX_LIST_ROWS < (stream.content index).length

def overflow : Failure :=
  .malformed s!"koios paged result exceeds {HISTORY_MAX_LIST_ROWS} rows for {ADDRESS_TXS_PATH}"

variable {index : AddressIndex} {stream next : AddressHistoryStream}

theorem tracks_start (addresses : List String) (after : Option Nat) :
    (start addresses after).Tracks index where
  inside := le_refl _
  read := le_refl _
  page := rfl
  within := Nat.zero_le _
  bounded := Nat.zero_le _
  last := rfl
  ends := nofun
  aligned _ := dvd_zero _
  unread _ := .inl rfl

/-- A stream that is ready shows the first of what it has left. -/
theorem Tracks.head (tracks : stream.Tracks index) (ready : stream.Ready) :
    stream.rows[stream.index]? = (stream.rest index).head? := by
  rw [rest, List.head?_drop]
  have inside := tracks.inside
  have read := tracks.read
  by_cases more : stream.index < stream.rows.length
  · rw [tracks.page, List.getElem?_drop, List.getElem?_take, if_pos (by omega), taken]
    congr 1
    omega
  · have done := tracks.ends (ready.resolve_left more)
    rw [List.getElem?_eq_none (by omega), List.getElem?_eq_none]
    rw [← done, taken]
    omega

/-- Taking the head of the page. -/
def advance (stream : AddressHistoryStream) : AddressHistoryStream :=
  { stream with index := stream.index + 1 }

theorem Tracks.advance (tracks : stream.Tracks index) (more : stream.index < stream.rows.length) :
    stream.advance.Tracks index where
  inside := more
  read := tracks.read
  page := tracks.page
  within := tracks.within
  bounded := tracks.bounded
  last := tracks.last
  ends := tracks.ends
  aligned := tracks.aligned
  unread := tracks.unread

theorem Tracks.taken_advance (tracks : stream.Tracks index)
    (more : stream.index < stream.rows.length) : stream.advance.taken = stream.taken + 1 := by
  have read := tracks.read
  simp only [AddressHistoryStream.advance, taken]
  omega

theorem Tracks.taken_le (tracks : stream.Tracks index) : stream.taken ≤ HISTORY_MAX_LIST_ROWS :=
  (Nat.sub_le _ _).trans tracks.bounded

/-- Rows in ascending order pass the check. -/
theorem checkOrder_of_ascending {last : Option HistoryRow} {rows : List HistoryRow}
    (ascending : (last.toList ++ rows).Pairwise (· ≤ ·)) :
    checkOrder last rows = .ok ((last.toList ++ rows).getLast?) := by
  induction rows generalizing last with
  | nil => cases last <;> rfl
  | cons row rows ih =>
    have inOrder : ¬ (last.any fun last => 0 < compareAddressTxRows last row) = true := by
      cases last with
      | none => simp
      | some last =>
        have upTo : last ≤ row := (List.pairwise_cons.mp ascending).1 row List.mem_cons_self
        simpa using not_lt.mp fun less => absurd (compare_pos.mp less) upTo.not_gt
    have rest : (Option.toList (some row) ++ rows).Pairwise (· ≤ ·) :=
      ascending.sublist (List.sublist_append_right _ _)
    refine bind_ok.mpr ⟨(), refuse_ok.mpr inOrder, ?_⟩
    rw [ih rest]
    cases last <;> simp

/-- The rows of the next page follow those read. -/
theorem ascending_page (content : List HistoryRow) (ascending : content.Pairwise (· ≤ ·))
    (offset limit : Nat) :
    ((content.take offset).getLast?.toList ++ (content.drop offset).take limit).Pairwise
      (· ≤ ·) := by
  have last : (content.take offset).getLast?.toList.Sublist (content.take offset) := by
    cases final : (content.take offset).getLast? with
    | none => exact List.nil_sublist _
    | some row => exact List.singleton_sublist.mpr (List.mem_of_getLast? final)
  refine ascending.sublist ((last.append (List.take_sublist _ _)).trans ?_)
  rw [List.take_append_drop]

theorem limit_pos (stream : AddressHistoryStream) : 0 < stream.limit := by
  unfold limit
  split <;> decide

/-- `next` is the stream with its head in view. -/
structure Filled (index : AddressIndex) (stream next : AddressHistoryStream) : Prop where
  tracks : next.Tracks index
  ready : next.Ready
  taken : next.taken = stream.taken
  addresses : next.addresses = stream.addresses
  afterBlock : next.afterBlock = stream.afterBlock

theorem Filled.content (filled : stream.Filled index next) :
    next.content index = stream.content index := by
  rw [AddressHistoryStream.content, filled.addresses, filled.afterBlock]
  rfl

theorem Filled.rest (filled : stream.Filled index next) :
    next.rest index = stream.rest index := by
  rw [AddressHistoryStream.rest, AddressHistoryStream.rest, filled.content, filled.taken]

/-- The page of rows from the offset on, and what it says of itself. -/
structure Served (index : AddressIndex) (stream : AddressHistoryStream) (page : AddressTxPage) :
    Prop where
  rows : page.rows = ((stream.content index).drop stream.offset).take stream.limit
  range : (page.rows.length = 0 ∧ page.range = some (.empty (stream.content index).length)) ∨
    0 < page.rows.length ∧ ∃ ordered within, page.range = some (.span stream.offset
      (stream.offset + page.rows.length - 1) (stream.content index).length ordered within)
  partly : stream.offset + page.rows.length < (stream.content index).length → page.status = 206

theorem Served.size {page : AddressTxPage} (served : stream.Served index page) :
    page.rows.length = min stream.limit ((stream.content index).length - stream.offset) := by
  rw [served.rows, List.length_take, List.length_drop]

theorem Served.read {page : AddressTxPage} (served : stream.Served index page) :
    (stream.content index).take (stream.offset + page.rows.length) =
      (stream.content index).take stream.offset ++ page.rows := by
  have upTo : ((stream.content index).drop stream.offset).take page.rows.length = page.rows := by
    conv_rhs => rw [served.rows]
    rw [List.take_eq_take_iff, served.size, List.length_drop]
    omega
  rw [List.take_add, upTo]

/-- A range that fits the bound is taken. -/
theorem takeRange_served {page : AddressTxPage} (served : stream.Served index page)
    (tracks : stream.Tracks index)
    (room : stream.offset + page.rows.length ≤ HISTORY_MAX_LIST_ROWS) :
    stream.takeRange stream.limit page = .ok (stream.offset + page.rows.length,
      decide (stream.offset + page.rows.length = (stream.content index).length)) := by
  have size := served.size
  have some := stream.limit_pos
  have within := tracks.within
  obtain ⟨none, range⟩ | ⟨_, _, _, range⟩ := served.range
  · have whole : (stream.content index).length = stream.offset := by omega
    simp only [takeRange, range]
    refine bind_ok.mpr ⟨(), refuse_ok.mpr (by omega), ?_⟩
    simp [pure, Except.pure, none, whole]
  · simp only [takeRange, range]
    have next : stream.offset + page.rows.length - 1 + 1 = stream.offset + page.rows.length := by
      omega
    refine bind_ok.mpr ⟨(), refuse_ok.mpr (by omega), ?_⟩
    rw [next]
    refine bind_ok.mpr ⟨(), refuse_ok.mpr (by omega), ?_⟩
    refine bind_ok.mpr ⟨(), refuse_ok.mpr ?_, rfl⟩
    rintro ⟨incomplete, status⟩
    exact status (served.partly (by simp at incomplete; omega))

/-- A range past the bound is refused. -/
theorem takeRange_overflow {page : AddressTxPage} (served : stream.Served index page)
    (full : stream.offset = HISTORY_MAX_LIST_ROWS)
    (more : HISTORY_MAX_LIST_ROWS < (stream.content index).length) :
    stream.takeRange stream.limit page = .error overflow := by
  have size := served.size
  have some := stream.limit_pos
  obtain ⟨none, -⟩ | ⟨_, _, _, range⟩ := served.range
  · omega
  · simp only [takeRange, range]
    have contiguous : ¬ (stream.offset ≠ stream.offset ∨ page.rows.length ≠
        stream.offset + page.rows.length - 1 - stream.offset + 1) := by omega
    have beyond : HISTORY_MAX_LIST_ROWS < stream.offset + page.rows.length - 1 + 1 := by omega
    rw [refuse, if_neg contiguous, refuse, if_pos beyond]
    rfl

/-- Filling an exhausted page moves on to the next one, or meets the bound. -/
theorem takePage_served {page : AddressTxPage} (served : stream.Served index page)
    (tracks : stream.Tracks index) (idle : stream.done = false)
    (spent : stream.index = stream.rows.length) :
    (∃ next, stream.takePage stream.limit page = .ok next ∧ stream.Filled index next) ∨
    (stream.takePage stream.limit page = .error overflow ∧ stream.Overflows index) := by
  have size := served.size
  have within := tracks.within
  have bounded := tracks.bounded
  have taken : stream.taken = stream.offset := by simp [AddressHistoryStream.taken, spent]
  by_cases full : HISTORY_MAX_LIST_ROWS ≤ stream.offset
  · obtain none | more := tracks.unread idle
    · rw [none] at full
      exact absurd full (by decide)
    · have met : stream.offset = HISTORY_MAX_LIST_ROWS := by omega
      refine .inr ⟨?_, taken.trans met, by omega⟩
      rw [takePage, takeRange_overflow served met (by omega)]
      rfl
  · obtain ⟨pages, aligned⟩ := tracks.aligned idle
    rw [limit, if_neg full] at size
    have room : stream.offset + page.rows.length ≤ HISTORY_MAX_LIST_ROWS := by
      simp only [HISTORY_MAX_LIST_ROWS, HISTORY_PAGE_SIZE] at *
      omega
    refine .inl ⟨_, bind_ok.mpr ⟨_, takeRange_served served tracks room,
      bind_ok.mpr ⟨_, checkOrder_of_ascending ?_, rfl⟩⟩, ?_, ?_, ?_, rfl, rfl⟩
    · rw [tracks.last, served.rows]
      exact ascending_page _ (index.ascending _ _) _ _
    · exact
        { inside := Nat.zero_le _
          read := Nat.le_add_left _ _
          page := by
            change page.rows = ((stream.content index).take (stream.offset + page.rows.length)).drop
              (stream.offset + page.rows.length - page.rows.length)
            rw [served.read, Nat.add_sub_cancel, List.drop_left' (List.length_take_of_le within)]
          within := by
            change stream.offset + page.rows.length ≤ (stream.content index).length
            omega
          bounded := room
          last := by
            change _ = ((stream.content index).take (stream.offset + page.rows.length)).getLast?
            rw [served.read, List.getLast?_append, List.getLast?_append, tracks.last]
            cases ((stream.content index).take stream.offset).getLast? <;> rfl
          ends := fun done => of_decide_eq_true done
          aligned := fun goes => by
            have more : stream.offset + page.rows.length ≠ (stream.content index).length :=
              of_decide_eq_false goes
            refine ⟨pages + 1, ?_⟩
            change stream.offset + page.rows.length = _
            rw [Nat.mul_succ, ← aligned]
            omega
          unread := fun goes => by
            have more : stream.offset + page.rows.length ≠ (stream.content index).length :=
              of_decide_eq_false goes
            refine .inr ?_
            change stream.offset + page.rows.length < (stream.content index).length
            omega }
    · by_cases some : 0 < page.rows.length
      · exact .inl some
      · exact .inr (decide_eq_true (by simp only [HISTORY_PAGE_SIZE] at size; omega))
    · rw [taken]
      simp [AddressHistoryStream.taken]

end AddressHistoryStream

section Fill

variable {T : Type} {index : AddressIndex} {stream : AddressHistoryStream}
  {trace : List (Exchange T Endpoint.Answer)}

theorem batchPageOnce_runs {limit : Nat} {outcome : Except Failure AddressTxPage}
    (runs : (batchPageOnce stream limit).Runs trace outcome) :
    ∃ t answer, ⟨t, .addressTxs stream.addresses stream.afterBlock limit stream.offset, answer⟩ ∈
      trace ∧ outcome = answer >>= parsePage stream limit := by
  obtain ⟨first, rest, response, rfl, asked, rfl, parsed⟩ | ⟨e, asked, rfl⟩ :=
    Async.runs_bind.mp runs
  · obtain ⟨t, rfl⟩ := request_runs.mp asked
    exact ⟨t, .ok response, List.mem_append_left _ List.mem_cons_self, parsed.symm⟩
  · obtain ⟨t, rfl⟩ := request_runs.mp asked
    exact ⟨t, .error e, List.mem_cons_self, rfl⟩

/-- An honest page arrives with its range parsed, unless the request failed. -/
theorem batchPageOnce_served (tracks : stream.Tracks index) (honest : HonestAddresses index trace)
    {outcome : Except Failure AddressTxPage}
    (runs : (batchPageOnce stream stream.limit).Runs trace outcome) :
    (∃ page, outcome = .ok page ∧ stream.Served index page) ∨
    ∃ e, outcome = .error e ∧ ¬ AnswersAddresses trace := by
  obtain ⟨t, answer, asked, rfl⟩ := batchPageOnce_runs runs
  have serves := honest t _ _ _ _ _ asked
  cases answer with
  | error e => exact .inr ⟨e, rfl, fun answers => answers t _ _ _ _ e asked⟩
  | ok response =>
    obtain ⟨rows, range, partly⟩ := serves
    have size := congrArg List.length rows
    rw [List.length_take, List.length_drop] at size
    have within : stream.offset ≤ (index.stream stream.addresses stream.afterBlock).length :=
      tracks.within
    have inside : response.rows.length = 0 ∨ stream.offset + response.rows.length ≤
        (index.stream stream.addresses stream.afterBlock).length := by
      omega
    obtain ⟨parsed, parse⟩ := parseContentRange_renderRange
      s!"{ADDRESS_TXS_PATH}&limit={stream.limit}&offset={stream.offset}" inside
      (index.counted _ _)
    refine .inl ⟨⟨response.rows, response.status, some parsed⟩, ?_, rows, ?_, partly⟩
    · change parsePage stream stream.limit response = _
      rw [parsePage, range]
      simp only [parse]
      rfl
    · obtain ⟨none, same⟩ | ⟨some, ordered, inside, same⟩ := parseContentRange_range parse
      · exact .inl ⟨none, congrArg _ same⟩
      · exact .inr ⟨some, ordered, inside, congrArg _ same⟩

/-- Filling a stream leaves in it what was left of it, and shows its head. -/
theorem fill_runs (tracks : stream.Tracks index) (honest : HonestAddresses index trace)
    {outcome : Except Failure AddressHistoryStream}
    (runs : (fillAddressHistoryStream stream).Runs trace outcome) :
    (∃ next, outcome = .ok next ∧ stream.Filled index next) ∨
    ∃ e, outcome = .error e ∧
      (AnswersAddresses trace → e = AddressHistoryStream.overflow ∧ stream.Overflows index) := by
  unfold fillAddressHistoryStream at runs
  split at runs
  case isTrue ready =>
    obtain ⟨-, rfl⟩ := runs
    exact .inl ⟨stream, rfl, tracks, ready.symm, rfl, rfl, rfl⟩
  case isFalse waiting =>
    rw [not_or, Bool.not_eq_true, not_lt] at waiting
    have spent : stream.index = stream.rows.length := le_antisymm tracks.inside waiting.2
    obtain ⟨first, _, page, rfl, asked, rfl, taken⟩ | ⟨e, asked, rfl⟩ := Async.runs_bind.mp runs
    · rw [List.append_nil] at honest ⊢
      obtain ⟨_, same, served⟩ | ⟨e, same, -⟩ := batchPageOnce_served tracks honest asked
      · cases same
        obtain ⟨next, ok, filled⟩ | ⟨refused, exceeds⟩ :=
          AddressHistoryStream.takePage_served served tracks waiting.1 spent
        · exact .inl ⟨next, taken.symm.trans ok, filled⟩
        · exact .inr ⟨_, taken.symm.trans refused, fun _ => ⟨rfl, exceeds⟩⟩
      · cases same
    · obtain ⟨_, same, -⟩ | ⟨_, -, failed⟩ := batchPageOnce_served tracks honest asked
      · cases same
      · exact .inr ⟨e, rfl, fun answers => absurd answers failed⟩

/-- Peeking shows the first row that is left. -/
theorem peek_runs (tracks : stream.Tracks index) (honest : HonestAddresses index trace)
    {outcome : Except Failure (AddressHistoryStream × Option HistoryRow)}
    (runs : (peekAddressHistoryStream stream).Runs trace outcome) :
    (∃ next, outcome = .ok (next, (stream.rest index).head?) ∧ stream.Filled index next) ∨
    ∃ e, outcome = .error e ∧
      (AnswersAddresses trace → e = AddressHistoryStream.overflow ∧ stream.Overflows index) := by
  obtain ⟨first, _, filled, rfl, fill, rfl, same⟩ | ⟨e, fill, rfl⟩ := Async.runs_bind.mp runs
  · rw [List.append_nil] at honest ⊢
    obtain ⟨next, ok, peeked⟩ | ⟨e, failed, -⟩ := fill_runs tracks honest fill
    · cases ok
      refine .inl ⟨filled, ?_, peeked⟩
      rw [← same, peeked.tracks.head peeked.ready, peeked.rest]
    · cases failed
  · obtain ⟨_, same, -⟩ | ⟨_, same, exceeds⟩ := fill_runs tracks honest fill
    · cases same
    · cases same
      exact .inr ⟨e, rfl, exceeds⟩

end Fill

end WalletBackend.Koios
