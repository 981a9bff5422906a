import WalletBackend.Domain.Types
import WalletBackend.Koios.Paging
import WalletBackend.Library.CursorPaging
import Mathlib.Data.String.Basic

/-! The keyset walk against an upstream whose rows change between pages. PostgREST
answers each page from the rows of one instant, counts the rows beyond the cursor
and says by status 206 that more remain. -/
namespace WalletBackend.Koios
open Interaction CursorPaging

variable {T Row Hash : Type} [LinearOrder Hash] {keyset : Row → Hash × Nat}

/-- The order of the result: by transaction hash, then by index. -/
def cursorOf (keyset : Row → Hash × Nat) (row : Row) : Hash ×ₗ Nat := toLex (keyset row)

/-- The rows of one query over time, as the upstream orders them. -/
structure RowHistory (T : Type) {Row Hash : Type} [LinearOrder Hash]
    (keyset : Row → Hash × Nat) where
  listing : T → List Row
  sorted : ∀ t, Ascending (cursorOf keyset) (listing t)

/-- The rows after the cursor of a request. -/
def left (keyset : Row → Hash × Nat) (after : Option (Hash × Nat)) (listing : List Row) : List Row :=
  remaining (cursorOf keyset) (after.map toLex) listing

/-- An answer to a keyset page request computed from `listing`, or a failure. -/
def ServesKeyset (keyset : Row → Hash × Nat) (listing : List Row) (after : Option (Hash × Nat)) :
    Except Failure (PageResponse Row) → Prop
  | .error _ => True
  | .ok response =>
      response.rows = (left keyset after listing).take KOIOS_PAGE_SIZE ∧
      response.contentRange =
        some (renderRange 0 response.rows.length (left keyset after listing).length) ∧
      (response.status = 206 ↔ response.rows.length < (left keyset after listing).length)

/-- Each keyset page request was answered from the rows of its instant. -/
def HonestKeyset (path body : String) (keyset : Row → Hash × Nat) (listing : T → List Row)
    (trace : List (PageExchange T Row Hash)) : Prop :=
  ∀ t after answer, ⟨t, ⟨path, body, .keyset after⟩, answer⟩ ∈ trace →
    ServesKeyset keyset (listing t) after answer

variable {path body : String} {rowKey : Option (Row → String)}

/-- One page of an honest upstream either finishes the walk with every row beyond
the cursor, or moves the cursor to the last row of a full page. -/
theorem takePage_keyset {walk : PageWalk Row Hash} {response : PageResponse Row}
    {listing : List Row} {step : PageStep Row Hash}
    (serves : ServesKeyset keyset listing walk.lastCursor (.ok response))
    (ok : takePage path rowKey (some keyset) walk response = .ok step) :
    (∃ result, step = .done result ∧
      result.rows = walk.rows ++ left keyset walk.lastCursor listing ∧
      (left keyset walk.lastCursor listing).length ≤ KOIOS_PAGE_SIZE) ∨
    ∃ next row, step = .more next ∧
      next.rows = walk.rows ++ (left keyset walk.lastCursor listing).take KOIOS_PAGE_SIZE ∧
      ((left keyset walk.lastCursor listing).take KOIOS_PAGE_SIZE).getLast? = some row ∧
      next.lastCursor = some (keyset row) := by
  obtain ⟨page, range, -⟩ := serves
  simp only [takePage, range] at ok
  obtain ⟨parsed, parse, taken⟩ := bind_ok.mp ok
  obtain ⟨none, rfl⟩ | ⟨some, ordered, within, rfl⟩ := parseContentRange_range parse
  · simp only [takeEmpty, bind_ok, refuse_ok] at taken
    obtain ⟨_, checked, same⟩ := taken
    cases same
    have total : (left keyset walk.lastCursor listing).length = 0 := by
      simp only [Option.isNone_some, Bool.false_eq_true, if_false] at checked
      omega
    refine .inl ⟨_, rfl, ?_, by omega⟩
    rw [List.length_eq_zero_iff.mp total, List.append_nil]
    rfl
  · obtain ⟨next, span, verdict⟩ := takeSpan_ok taken
    obtain ⟨-, fits, rfl⟩ | ⟨offset, -⟩ | ⟨-, -, -, rfl⟩ := verdict
    · have size := congrArg List.length page
      rw [List.length_take] at size
      have whole : response.rows = left keyset walk.lastCursor listing := by
        rw [page, List.take_of_length_le (by omega)]
      exact .inl ⟨_, rfl, by rw [← whole]; exact span.rows, by omega⟩
    · cases offset
    · cases ends : response.rows.getLast? with
      | none => rw [List.getLast?_eq_none_iff.mp ends] at some; exact absurd some (Nat.lt_irrefl 0)
      | some row =>
        have cursor := span.cursor
        simp only [advance, ends, bind_ok] at cursor
        obtain ⟨_, -, same⟩ := cursor
        refine .inr ⟨next, row, rfl, ?_, ?_, (Except.ok.inj same).symm⟩
        · rw [← page]
          exact span.rows
        · rw [← page]
          exact ends

/-- What a walk that returns adds to the rows is what a cursor walk over the
upstream's listing reads, page by page. -/
theorem walkPages_keyset {listing : T → List Row} {walk : PageWalk Row Hash}
    {trace : List (PageExchange T Row Hash)} {result : PagedBatchResult Row}
    (runs : (walkPages path body rowKey (some keyset) walk).Runs trace (.ok result))
    (honest : HonestKeyset path body keyset listing trace) :
    ∃ rows, result.rows = walk.rows ++ rows ∧
      Walk (cursorOf keyset) KOIOS_PAGE_SIZE listing (walk.lastCursor.map toLex)
        (trace.map Exchange.instant) rows := by
  revert honest
  refine walkPages_induct (motive := fun walk trace result =>
    HonestKeyset path body keyset listing trace → ∃ rows, result.rows = walk.rows ++ rows ∧
      Walk (cursorOf keyset) KOIOS_PAGE_SIZE listing (walk.lastCursor.map toLex)
        (trace.map Exchange.instant) rows) ?_ ?_ runs
  · intro walk t response result taken honest
    obtain ⟨_, same, rows, fits⟩ | ⟨_, _, same, -⟩ :=
      takePage_keyset (honest t _ _ List.mem_cons_self) taken
    · cases same
      exact ⟨_, rows, .last t _ fits⟩
    · cases same
  · intro walk t response next rest result taken ih honest
    obtain ⟨_, same, -⟩ | ⟨_, row, same, rows, ends, cursor⟩ :=
      takePage_keyset (honest t _ _ List.mem_cons_self) taken
    · cases same
    · cases same
      obtain ⟨added, read, reads⟩ := ih fun t' after answer member =>
        honest t' after answer (List.mem_cons_of_mem _ member)
      rw [cursor] at reads
      exact ⟨_, by rw [read, rows, List.append_assoc]; rfl, .next t _ row ends reads⟩

/-- With a keyset there is one walk, whatever check was asked for. -/
theorem batchAllPages_one_walk {attempts : ReadAttempts} {rowKey : Row → String}
    {verifyConsistency : Bool} {trace : List (PageExchange T Row Hash)} {rows : List Row}
    (runs : (batchAllPages path body attempts ⟨some rowKey, some keyset, verifyConsistency⟩).Runs
      trace (.ok rows)) :
    ∃ before walk result, trace = before ++ walk ∧ result.rows = rows ∧
      (walkBatchPages path body (some rowKey) (some keyset)).Runs walk (.ok result) := by
  simp only [batchAllPages, Option.isNone_some, Bool.false_eq_true, and_false, if_false] at runs
  obtain ⟨before, last, rfl, attempt⟩ := read_runs runs
  obtain ⟨walk, _, result, rfl, walked, tail⟩ := Async.runs_bind_ok.mp attempt
  simp only [Option.isSome_some, or_true, if_true] at tail
  obtain ⟨rfl, same⟩ := tail
  exact ⟨before, walk, result, by rw [List.append_nil], Except.ok.inj same, walked⟩

/-- What one keyset walk reads while the listing changes: rows that ascend strictly,
every row listed at all of its pages, exactly once, and only rows listed at some. -/
structure KeysetReads (keyset : Row → Hash × Nat) (listing : T → List Row)
    (walk : List (PageExchange T Row Hash)) (rows : List Row) : Prop where
  ascending : Ascending (cursorOf keyset) rows
  complete : ∀ row, (∀ x ∈ walk, row ∈ listing x.instant) → ∃! i : Nat, rows[i]? = some row
  listed : ∀ row ∈ rows, ∃ x ∈ walk, row ∈ listing x.instant

theorem walkBatchPages_reads (history : RowHistory T keyset) {walk : List (PageExchange T Row Hash)}
    {result : PagedBatchResult Row}
    (walked : (walkBatchPages path body rowKey (some keyset)).Runs walk (.ok result))
    (honest : HonestKeyset path body keyset history.listing walk) :
    KeysetReads keyset history.listing walk result.rows := by
  obtain ⟨_, rows, reads⟩ := walkPages_keyset walked honest
  obtain rfl : result.rows = _ := by simpa [PageWalk.start] using rows
  have ascending := reads.ascending history.sorted
  have listed : ∀ row ∈ result.rows, ∃ x ∈ walk, row ∈ history.listing x.instant := by
    intro row member
    obtain ⟨_, instant, listed⟩ := reads.listed row member
    obtain ⟨x, member, rfl⟩ := List.mem_map.mp instant
    exact ⟨x, member, listed⟩
  refine ⟨ascending, fun row present => ?_, listed⟩
  have found : cursorOf keyset row ∈ result.rows.map (cursorOf keyset) := by
    refine reads.complete history.sorted nofun fun t instant => ?_
    obtain ⟨x, member, rfl⟩ := List.mem_map.mp instant
    exact List.mem_map_of_mem (present x member)
  obtain ⟨row', member', same⟩ := List.mem_map.mp found
  obtain ⟨x, member, listed⟩ := listed row' member'
  obtain rfl := (history.sorted x.instant).row_eq listed (present x member) same
  obtain ⟨i, bound, at_i⟩ := List.getElem_of_mem member'
  refine ⟨i, by simp [bound, at_i], fun j at_j => ?_⟩
  obtain ⟨bound', at_j⟩ := List.getElem?_eq_some_iff.mp at_j
  exact (ascending.nodup.getElem_inj_iff).mp (at_j.trans at_i.symm)

/-- Churn under a keyset walk. The rows returned ascend strictly in transaction
hash and index, so none comes twice; a row listed at every page of the walk is
returned, exactly once; and every row returned was listed at one of the pages. -/
theorem batchAllPages_keyset {T Row Hash : Type} [LinearOrder Hash] {keyset : Row → Hash × Nat}
    (history : RowHistory T keyset) (attempts : ReadAttempts) (path body : String)
    (rowKey : Row → String) (verifyConsistency : Bool)
    {trace : List (PageExchange T Row Hash)} {rows : List Row}
    (runs : (batchAllPages path body attempts ⟨some rowKey, some keyset, verifyConsistency⟩).Runs
      trace (.ok rows))
    (honest : HonestKeyset path body keyset history.listing trace) :
    ∃ before walk, trace = before ++ walk ∧
      (∃ result, (walkBatchPages path body (some rowKey) (some keyset)).Runs walk (.ok result) ∧
        result.rows = rows) ∧
      Ascending (cursorOf keyset) rows ∧ rows.Nodup ∧
      (∀ row, (∀ x ∈ walk, row ∈ history.listing x.instant) → ∃! i : Nat, rows[i]? = some row) ∧
      ∀ row ∈ rows, ∃ x ∈ walk, row ∈ history.listing x.instant := by
  obtain ⟨before, walk, result, rfl, rfl, walked⟩ := batchAllPages_one_walk runs
  have reads := walkBatchPages_reads history walked fun t after answer member =>
    honest t after answer (List.mem_append_right _ member)
  exact ⟨before, walk, rfl, ⟨result, walked, rfl⟩, reads.ascending, reads.ascending.nodup,
    reads.complete, reads.listed⟩

section Returns

variable {T Row Hash : Type} [LinearOrder Hash] {path body : String} {rowKey : Row → String}
  {keyset : Row → Hash × Nat} {listing : List Row}

/-- The first page of nothing is the last. -/
theorem takePage_nothing (path : String) (rowKey : Row → String) (keyset : Row → Hash × Nat)
    {response : PageResponse Row} (empty : response.rows = [])
    (range : response.contentRange = some (renderRange 0 0 0)) :
    takePage path (some rowKey) (some keyset) .start response = .ok (.done ⟨[], [], 0, 1⟩) := by
  have none : renderRange 0 0 0 = renderEmpty 0 := rfl
  simp only [takePage, range, none, parseContentRange_empty, empty]
  rfl

/-- A walk that has read the front of the listing, and has the back of it to read. -/
structure PageWalk.Halfway (rowKey : Row → String) (keyset : Row → Hash × Nat) (listing : List Row)
    (walk : PageWalk Row Hash) (back : List Row) : Prop where
  split : walk.rows ++ back = listing
  more : back ≠ []
  keys : walk.keys = walk.rows.map rowKey
  distinct : walk.Distinct
  cursor : walk.lastCursor = walk.rows.getLast?.map keyset

theorem PageWalk.Halfway.left {walk : PageWalk Row Hash} {back : List Row}
    (halfway : walk.Halfway rowKey keyset listing back)
    (sorted : Ascending (cursorOf keyset) listing) : left keyset walk.lastCursor listing = back := by
  rw [halfway.cursor, ← halfway.split, Koios.left]
  cases ends : walk.rows.getLast? with
  | none =>
    rw [List.getLast?_eq_none_iff.mp ends]
    exact remaining_none back
  | some last => exact Ascending.remaining_append (halfway.split ▸ sorted) ends

/-- A page of the back of the listing ends after the cursor. -/
theorem PageWalk.Halfway.advances (path : String) {walk : PageWalk Row Hash} {back page : List Row}
    {last : Row} (halfway : walk.Halfway rowKey keyset listing back)
    (sorted : Ascending (cursorOf keyset) listing) (ends : page.getLast? = some last)
    (listed : last ∈ back) :
    advance path (some keyset) walk.lastCursor page = .ok (some (keyset last)) := by
  have ascends : Ascending (cursorOf keyset) (walk.rows ++ back) := halfway.split ▸ sorted
  simp only [advance, ends]
  refine bind_ok.mpr ⟨(), refuse_ok.mpr fun behind => ?_, rfl⟩
  rw [halfway.cursor] at behind
  cases read : walk.rows.getLast? with
  | none =>
    rw [read] at behind
    cases behind
  | some row =>
    rw [read] at behind
    have notAfter : notAfter (keyset last) (keyset row) := of_decide_eq_true behind
    have less := (List.pairwise_append.mp ascends).2.2 row (List.mem_of_getLast? read) last listed
    obtain earlier | ⟨same, earlier⟩ := Prod.Lex.toLex_lt_toLex.mp less
    · obtain later | ⟨same, -⟩ := notAfter
      · exact lt_asymm earlier later
      · exact earlier.ne same.symm
    · obtain later | ⟨-, upTo⟩ := notAfter
      · exact later.ne same.symm
      · exact Nat.not_lt.mpr upTo earlier

/-- The next page ends the walk, or takes it further. -/
theorem PageWalk.Halfway.takes (path : String) {walk : PageWalk Row Hash} {back : List Row}
    (halfway : walk.Halfway rowKey keyset listing back)
    (sorted : Ascending (cursorOf keyset) listing) (keys : (listing.map rowKey).Nodup)
    (few : listing.length ≤ KOIOS_MAX_PAGED_ROWS) {response : PageResponse Row}
    (serves : ServesKeyset keyset listing walk.lastCursor (.ok response)) :
    (∃ result, takePage path (some rowKey) (some keyset) walk response = .ok (.done result)) ∨
    ∃ next, takePage path (some rowKey) (some keyset) walk response = .ok (.more next) ∧
      next.Halfway rowKey keyset listing (back.drop KOIOS_PAGE_SIZE) := by
  obtain ⟨page, range, partly⟩ := serves
  rw [halfway.left sorted] at page range partly
  have positive : 0 < back.length := List.length_pos_iff.mpr halfway.more
  have size : response.rows.length = min KOIOS_PAGE_SIZE back.length := by rw [page, List.length_take]
  have some_ : 0 < response.rows.length := by
    rw [size]
    exact lt_min (by decide) positive
  have total : walk.rows.length + back.length = listing.length := by
    rw [← halfway.split, List.length_append]
  cases ends : response.rows.getLast? with
  | none =>
    rw [List.getLast?_eq_none_iff.mp ends] at some_
    exact absurd some_ (Nat.lt_irrefl 0)
  | some last =>
    have listed : last ∈ back := by
      have member := List.mem_of_getLast? ends
      rw [page] at member
      exact List.mem_of_mem_take member
    have advanced := halfway.advances path sorted ends listed
    have read : (walk.rows ++ response.rows).Sublist listing := by
      rw [page, ← halfway.split]
      exact (List.take_sublist _ _).append_left _
    have fresh : (walk.keys ++ PageWalk.keysOf (some rowKey) response.rows).Nodup := by
      rw [halfway.keys, PageWalk.keysOf, ← List.map_append]
      exact keys.sublist (read.map rowKey)
    obtain ⟨next, span, verdict⟩ := @takePage_taken Row Hash _ path (some rowKey) (some keyset) walk
      response (some (keyset last)) 0 back.length range some_ (by omega)
      (by have safe : KOIOS_MAX_PAGED_ROWS ≤ maxSafeInteger := by decide
          omega) (.inr ⟨rfl, rfl⟩) advanced (fun none => nomatch none)
      (by split_ifs <;> omega) halfway.distinct fresh
      (fun more _ => partly.mpr (Nat.lt_of_not_le fun whole => more ⟨rfl, whole⟩))
    obtain ended | ended | goesOn := verdict
    · exact .inl ⟨_, ended.2.2⟩
    · cases ended.1
    · refine .inr ⟨next, goesOn.2.2, ?_, fun none => ?_, ?_, ?_, ?_⟩
      · rw [span.rows, page, List.append_assoc, List.take_append_drop]
        exact halfway.split
      · refine goesOn.1 ⟨rfl, ?_⟩
        rw [size]
        have whole := List.drop_eq_nil_iff.mp none
        omega
      · rw [span.keys, span.rows, List.map_append, halfway.keys]
        rfl
      · exact span.distinct ⟨halfway.distinct.mem_seen, halfway.distinct.nodup⟩
      · rw [span.rows, List.getLast?_append, ends]
        exact Except.ok.inj (span.cursor.symm.trans advanced)

/-- A walk over a listing that stands still, whose requests are all answered, returns. -/
theorem walkPages_returns (sorted : Ascending (cursorOf keyset) listing)
    (keys : (listing.map rowKey).Nodup) (few : listing.length ≤ KOIOS_MAX_PAGED_ROWS)
    {walk : PageWalk Row Hash} {back : List Row} (halfway : walk.Halfway rowKey keyset listing back)
    {trace : List (PageExchange T Row Hash)} {outcome : Except Failure (PagedBatchResult Row)}
    (answers : ∀ t after answer, ⟨t, ⟨path, body, .keyset after⟩, answer⟩ ∈ trace →
      ∃ response, answer = .ok response ∧ ServesKeyset keyset listing after (.ok response))
    (runs : (walkPages path body (some rowKey) (some keyset) walk).Runs trace outcome) :
    ∃ result, outcome = .ok result := by
  induction size : back.length using Nat.strong_induction_on generalizing walk back trace with
  | _ n ih =>
    rw [walkPages] at runs
    obtain ⟨first, rest, response, rfl, asked, tail⟩ | ⟨e, asked, rfl⟩ := Async.runs_bind.mp runs
    · obtain ⟨t, rfl⟩ := requestPage_runs.mp asked
      obtain ⟨_, same, serves⟩ := answers t walk.lastCursor _ List.mem_cons_self
      cases same
      have verdict := halfway.takes path sorted keys few serves
      split at tail
      case h_1 e taken =>
        obtain ⟨_, ended⟩ | ⟨_, goesOn, -⟩ := verdict
        · cases taken.symm.trans ended
        · cases taken.symm.trans goesOn
      case h_2 result taken => exact ⟨result, tail.2.symm⟩
      case h_3 next taken =>
        obtain ⟨_, ended⟩ | ⟨_, goesOn, later⟩ := verdict
        · cases taken.symm.trans ended
        · cases taken.symm.trans goesOn
          refine ih _ ?_ later (fun t after answer member =>
            answers t after answer (List.mem_append_right _ member)) tail rfl
          have positive := List.length_pos_iff.mpr halfway.more
          rw [← size, List.length_drop, KOIOS_PAGE_SIZE]
          omega
    · obtain ⟨t, answer, rest, rfl, told, failed⟩ := asked
      obtain ⟨_, same, -⟩ := answers t walk.lastCursor _ List.mem_cons_self
      cases same
      cases failed

theorem walkBatchPages_returns (sorted : Ascending (cursorOf keyset) listing)
    (keys : (listing.map rowKey).Nodup) (few : listing.length ≤ KOIOS_MAX_PAGED_ROWS)
    {trace : List (PageExchange T Row Hash)} {outcome : Except Failure (PagedBatchResult Row)}
    (answers : ∀ t after answer, ⟨t, ⟨path, body, .keyset after⟩, answer⟩ ∈ trace →
      ∃ response, answer = .ok response ∧ ServesKeyset keyset listing after (.ok response))
    (runs : (walkBatchPages path body (some rowKey) (some keyset)).Runs trace outcome) :
    ∃ result, outcome = .ok result := by
  by_cases none : listing = []
  · rw [walkBatchPages, walkPages] at runs
    obtain ⟨first, rest, response, rfl, asked, tail⟩ | ⟨e, asked, rfl⟩ := Async.runs_bind.mp runs
    · obtain ⟨t, rfl⟩ := requestPage_runs.mp asked
      obtain ⟨_, same, page, range, -⟩ := answers t .none _ List.mem_cons_self
      cases same
      rw [none] at page range
      have empty : response.rows = [] := page
      rw [empty] at range
      have taken := takePage_nothing path rowKey keyset empty range
      split at tail
      case h_1 e failed => cases taken.symm.trans failed
      case h_2 result _ => exact ⟨result, tail.2.symm⟩
      case h_3 next more => cases taken.symm.trans more
    · obtain ⟨t, answer, rest, rfl, told, failed⟩ := asked
      obtain ⟨_, same, -⟩ := answers t .none _ List.mem_cons_self
      cases same
      cases failed
  · exact walkPages_returns sorted keys few
      ⟨rfl, none, rfl, ⟨fun _ => Iff.rfl, List.nodup_nil⟩, rfl⟩ answers runs

/-- So does a read, and with no request that failed it has nothing to repeat. -/
theorem batchAllPages_returns {attempts : ReadAttempts} {verifyConsistency : Bool}
    (sorted : Ascending (cursorOf keyset) listing) (keys : (listing.map rowKey).Nodup)
    (few : listing.length ≤ KOIOS_MAX_PAGED_ROWS) {trace : List (PageExchange T Row Hash)}
    {outcome : Except Failure (List Row)}
    (answers : ∀ t after answer, ⟨t, ⟨path, body, .keyset after⟩, answer⟩ ∈ trace →
      ∃ response, answer = .ok response ∧ ServesKeyset keyset listing after (.ok response))
    (runs : (batchAllPages path body attempts ⟨some rowKey, some keyset, verifyConsistency⟩).Runs
      trace outcome) : ∃ rows, outcome = .ok rows := by
  simp only [batchAllPages, Option.isNone_some, Bool.false_eq_true, and_false, if_false] at runs
  obtain ⟨before, last, rfl, attempt⟩ := read_runs runs
  obtain ⟨walk, _, result, rfl, -, tail⟩ | ⟨e, walked, -⟩ := Async.runs_bind.mp attempt
  · simp only [Option.isSome_some, or_true, if_true] at tail
    exact ⟨_, tail.2.symm⟩
  · obtain ⟨_, same⟩ := walkBatchPages_returns sorted keys few
      (fun t after answer member => answers t after answer (List.mem_append_right _ member)) walked
    cases same

end Returns

section TwoPages

variable {T Row Hash : Type} [LinearOrder Hash] {path body : String} {rowKey : Row → String}
  {keyset : Row → Hash × Nat}

/-- A walk whose second page is the rest. -/
theorem walkBatchPages_twoPages {s t : T} {front back : List Row} {total : Nat} {cursor final : Hash × Nat}
    (some_ : 0 < front.length) (more : front.length < total) (some' : 0 < back.length)
    (bounded : total ≤ KOIOS_MAX_PAGED_ROWS) (bounded' : front.length + back.length ≤ KOIOS_MAX_PAGED_ROWS)
    (advanced : advance path (some keyset) none front = .ok (some cursor))
    (advanced' : advance path (some keyset) (some cursor) back = .ok (some final))
    (distinct : ((front ++ back).map rowKey).Nodup) :
    ∃ result, result.rows = front ++ back ∧
      (walkBatchPages path body (some rowKey) (some keyset)).Runs
        [⟨s, ⟨path, body, .keyset none⟩, .ok ⟨front, 206, some (renderRange 0 front.length total)⟩⟩,
          ⟨t, ⟨path, body, .keyset (some cursor)⟩,
            .ok ⟨back, 200, some (renderRange 0 back.length back.length)⟩⟩] (.ok result) := by
  have safe : KOIOS_MAX_PAGED_ROWS ≤ maxSafeInteger := by decide
  have start : (PageWalk.start : PageWalk Row Hash).Distinct := ⟨fun _ => Iff.rfl, List.nodup_nil⟩
  rw [List.map_append] at distinct
  obtain ⟨next, span, verdict⟩ := @takePage_taken Row Hash _ path (some rowKey) (some keyset) .start
    ⟨front, 206, some (renderRange 0 front.length total)⟩ (some cursor) 0 total rfl some_
    ((Nat.zero_add _).trans_le more.le) (bounded.trans safe) (.inl rfl) advanced (fun none => nomatch none)
    bounded start (List.nodup_append.mp distinct).1 fun _ _ => rfl
  have rows : next.rows = front := span.rows
  have keys : next.keys = front.map rowKey := span.keys
  have reached : next.lastCursor = some cursor := Except.ok.inj (span.cursor.symm.trans advanced)
  have pages : next.pageCount = 1 := span.pageCount
  obtain ended | ended | goesOn := verdict
  · exact absurd ended.2.1 (Nat.not_le.mpr more)
  · cases ended.1
  obtain ⟨after, span', verdict⟩ := @takePage_taken Row Hash _ path (some rowKey) (some keyset) next
    ⟨back, 200, some (renderRange 0 back.length back.length)⟩ (some final) 0 back.length rfl some'
    (Nat.zero_add _).le ((Nat.le_add_left _ _).trans (bounded'.trans safe)) (.inr ⟨rfl, rfl⟩)
    (reached ▸ advanced') (fun none => nomatch none) (by rw [pages, rows]; exact bounded')
    (span.distinct ⟨start.mem_seen, start.nodup⟩) (keys ▸ distinct) fun open_ => absurd ⟨rfl, le_refl _⟩ open_
  have all : after.rows = front ++ back := by rw [span'.rows, rows]
  obtain ended | ended | open_ := verdict
  · refine ⟨after.result after.rows.length, all, ?_⟩
    refine walkPages_runs.mpr ⟨s, _, _, rfl, .inr ⟨next, goesOn.2.2, ?_⟩⟩
    refine walkPages_runs.mpr ⟨t, _, [], ?_, .inl ⟨ended.2.2, rfl⟩⟩
    have window : PageWalk.window (some keyset) next = .keyset (some cursor) :=
      congrArg Window.keyset reached
    rw [window]
  · cases ended.1
  · exact absurd ⟨rfl, le_refl _⟩ open_.1

/-- A keyset read is its one walk. -/
theorem batchAllPages_of_walk {attempts : ReadAttempts} {verifyConsistency : Bool}
    {result : PagedBatchResult Row} {walk : List (PageExchange T Row Hash)}
    (walked : (walkBatchPages path body (some rowKey) (some keyset)).Runs walk (.ok result)) :
    (batchAllPages path body attempts ⟨some rowKey, some keyset, verifyConsistency⟩).Runs walk
      (.ok result.rows) := by
  rw [batchAllPages, if_neg (by simp)]
  refine read_first (Async.runs_bind_ok.mpr ⟨walk, [], _, (List.append_nil _).symm, walked, ?_⟩)
  simp only [Option.isSome_some, or_true, if_true]
  exact ⟨rfl, rfl⟩

/-- A read whose first request fails in passing walks once more. -/
theorem batchAllPages_retried {attempts : ReadAttempts} {verifyConsistency : Bool}
    {result : PagedBatchResult Row} {walk : List (PageExchange T Row Hash)} {t : T} {e : Failure}
    (again : 2 ≤ attempts.count) (transient : isTransient e = true)
    (walked : (walkBatchPages path body (some rowKey) (some keyset)).Runs walk (.ok result)) :
    (batchAllPages path body attempts ⟨some rowKey, some keyset, verifyConsistency⟩).Runs
      (⟨t, ⟨path, body, .keyset none⟩, .error e⟩ :: walk) (.ok result.rows) := by
  rw [batchAllPages, if_neg (by simp)]
  have failed : (walkBatchPages path body (some rowKey) (some keyset)).Runs
      [(⟨t, ⟨path, body, .keyset none⟩, .error e⟩ : PageExchange T Row Hash)] (.error e) := by
    rw [walkBatchPages, walkPages]
    exact Async.runs_bind.mpr (.inr ⟨e, ⟨t, .error e, [], rfl, rfl, rfl⟩, rfl⟩)
  refine @read_second _ _ _ _ attempts _ [_] walk e _ again
    (Async.runs_bind.mpr (.inr ⟨e, failed, rfl⟩)) transient ?_
  refine Async.runs_bind_ok.mpr ⟨walk, [], _, (List.append_nil _).symm, walked, ?_⟩
  simp only [Option.isSome_some, or_true, if_true]
  exact ⟨rfl, rfl⟩

end TwoPages

section Sliding

/-- `count` outputs of one transaction from index `first` on. -/
def outputRange (first count : Nat) : List OutputRef :=
  (List.range' first count).map fun i => ("aa", i)

theorem outputRange_keys_nodup (first count : Nat) : ((outputRange first count).map OutputRef.key).Nodup := by
  rw [outputRange, List.map_map]
  refine List.Nodup.map ?_ List.nodup_range'
  exact OutputRef.key_injective.comp fun i j same => (Prod.mk.inj same).2

theorem mem_outputRange {ref : OutputRef} {first count : Nat} :
    ref ∈ outputRange first count ↔ ref.1 = "aa" ∧ first ≤ ref.2 ∧ ref.2 < first + count := by
  simp only [outputRange, List.mem_map, List.mem_range'_1]
  constructor
  · rintro ⟨i, bounds, rfl⟩
    exact ⟨rfl, bounds⟩
  · rintro ⟨hash, bounds⟩
    exact ⟨ref.2, bounds, by rw [← hash]⟩

theorem outputRange_append (first count more : Nat) :
    outputRange first count ++ outputRange (first + count) more = outputRange first (count + more) := by
  rw [outputRange, outputRange, ← List.map_append, List.range'_append_1]
  rfl

theorem outputRange_ascending (first count : Nat) : Ascending (cursorOf id) (outputRange first count) := by
  have ascending : (List.range' first count).Pairwise (· < ·) := List.pairwise_lt_range' 1
  refine List.pairwise_map.mpr (ascending.imp ?_)
  exact fun less => Prod.Lex.toLex_lt_toLex.mpr (.inr ⟨rfl, less⟩)

/-- A wallet that at each instant spends its oldest output and creates a new one. -/
def slidingRows : RowHistory Nat (id : OutputRef → OutputRef) where
  listing t := outputRange t 1001
  sorted t := outputRange_ascending t 1001

def firstPage : PageResponse OutputRef := ⟨outputRange 0 1000, 206, some (renderRange 0 1000 1001)⟩

/-- Between the two pages output 0 was spent and output 1001 created. -/
def secondPage : PageResponse OutputRef := ⟨outputRange 1000 2, 200, some (renderRange 0 2 2)⟩

def slidingTrace : List (PageExchange Nat OutputRef String) :=
  [⟨0, ⟨"/account_utxos", "", .keyset none⟩, .ok firstPage⟩,
   ⟨1, ⟨"/account_utxos", "", .keyset (some ("aa", 999))⟩, .ok secondPage⟩]

theorem left_first : left id none (outputRange 0 1001) = outputRange 0 1001 := remaining_none _

theorem left_second : left id (some ("aa", 999)) (outputRange 1 1001) = outputRange 1000 2 := by
  have ends : (outputRange 1 999).getLast? = some ("aa", 999) := by
    simp [outputRange, List.getLast?_range']
  rw [← outputRange_append 1 999 2]
  refine Ascending.remaining_append ?_ ends
  rw [outputRange_append]
  exact outputRange_ascending 1 1001

theorem outputRange_length (first count : Nat) : (outputRange first count).length = count := by
  simp [outputRange]

theorem slidingTrace_honest :
    HonestKeyset "/account_utxos" "" id slidingRows.listing slidingTrace := by
  rintro t after answer member
  obtain same | same := List.mem_pair.mp member
  · cases same
    simp only [ServesKeyset, slidingRows, left_first, firstPage, outputRange_length]
    refine ⟨?_, trivial, by decide⟩
    rw [← outputRange_append 0 1000 1]
    exact (List.take_left' (outputRange_length _ _)).symm
  · cases same
    simp only [ServesKeyset, slidingRows, left_second, secondPage, outputRange_length]
    exact ⟨rfl, trivial, by decide⟩

/-- The rows of both pages are returned, the output that is gone among them. -/
theorem batchAllPages_sliding (attempts : ReadAttempts) (verifyConsistency : Bool) :
    (batchAllPages "/account_utxos" "" attempts
      ⟨some OutputRef.key, some id, verifyConsistency⟩).Runs slidingTrace (.ok (outputRange 0 1002)) := by
  have ends : (outputRange 0 1000).getLast? = some ("aa", 999) := by
    simp [outputRange, List.getLast?_range']
  have whole : outputRange 0 1000 ++ outputRange 1000 2 = outputRange 0 1002 :=
    outputRange_append 0 1000 2
  have sizes : (outputRange 0 1000).length = 1000 ∧ (outputRange 1000 2).length = 2 :=
    ⟨outputRange_length _ _, outputRange_length _ _⟩
  have advanced : advance "/account_utxos" (some id) none (outputRange 0 1000) = .ok (some ("aa", 999)) := by
    simp only [advance, ends]
    rfl
  have advanced' : advance "/account_utxos" (some id) (some ("aa", 999)) (outputRange 1000 2) =
      .ok (some ("aa", 1001)) := rfl
  have distinct : ((outputRange 0 1000 ++ outputRange 1000 2).map OutputRef.key).Nodup := by
    rw [whole]
    exact outputRange_keys_nodup 0 1002
  obtain ⟨result, rows, walked⟩ := @walkBatchPages_twoPages Nat OutputRef String _ "/account_utxos" ""
    OutputRef.key id 0 1 (outputRange 0 1000) (outputRange 1000 2) 1001 ("aa", 999) ("aa", 1001)
    (by rw [sizes.1]; decide) (by rw [sizes.1]; decide) (by rw [sizes.2]; decide) (by decide)
    (by rw [sizes.1, sizes.2]; decide) advanced advanced' distinct
  rw [sizes.1, sizes.2] at walked
  rw [← whole, ← rows]
  exact batchAllPages_of_walk walked

/-- The walk over two pages between which output 0 was spent and output 1001 created. -/
theorem batchAllPages_keyset_sliding :
    ∃ before walk, slidingTrace = before ++ walk ∧
      (∃ result, (walkBatchPages "/account_utxos" "" (some OutputRef.key) (some id)).Runs walk
        (.ok result) ∧ result.rows = outputRange 0 1002) ∧
      Ascending (cursorOf id) (outputRange 0 1002) ∧ (outputRange 0 1002).Nodup ∧
      (∀ row, (∀ x ∈ walk, row ∈ slidingRows.listing x.instant) →
        ∃! i : Nat, (outputRange 0 1002)[i]? = some row) ∧
      ∀ row ∈ outputRange 0 1002, ∃ x ∈ walk, row ∈ slidingRows.listing x.instant :=
  batchAllPages_keyset slidingRows ⟨3, by decide, by decide⟩ "/account_utxos" "" OutputRef.key false
    (batchAllPages_sliding _ _) slidingTrace_honest

end Sliding

end WalletBackend.Koios
