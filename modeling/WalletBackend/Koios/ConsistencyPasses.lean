import WalletBackend.Koios.KeysetWalk
import WalletBackend.Library.Snapshot

/-! Requested consistency verification. By offset the client walks twice and
returns only what both walks found, which pins the instant at which the first
walk ended. By keyset it walks once, and what it returns need not have existed at
any one instant. -/
namespace WalletBackend.Koios
open Interaction Snapshots CursorPaging

/-- The rows of one query over time: each key once, none back after it has left. -/
structure KeyedHistory (T : Type) [LinearOrder T] {Row : Type} (rowKey : Row → String) where
  listing : T → List Row
  distinct : ∀ t, ((listing t).map rowKey).Nodup
  noReturn : ∀ key, {t | key ∈ (listing t).map rowKey}.OrdConnected

variable {T Row Hash : Type} [LinearOrder T] {rowKey : Row → String}

def KeyedHistory.keys (history : KeyedHistory T rowKey) : History T String where
  members t := (history.listing t).map rowKey
  distinct := history.distinct
  noReturn := history.noReturn

/-- An answer to an offset page request computed from `listing`, or a failure. -/
def ServesOffset (listing : List Row) (start : Nat) :
    Except Failure (PageResponse Row) → Prop :=
  ServesPage KOIOS_PAGE_SIZE listing start

/-- Each offset page request was answered from the rows of its instant. -/
def HonestOffset (path body : String) (listing : T → List Row)
    (trace : List (PageExchange T Row Hash)) : Prop :=
  ∀ t start answer, ⟨t, ⟨path, body, .offset start⟩, answer⟩ ∈ trace →
    ServesOffset (listing t) start answer

/-- `rows` are the set as it stood when one of the pages was answered, each row as
it was listed at one of them. -/
def PinnedPages (rowKey : Row → String) (listing : T → List Row)
    (trace : List (PageExchange T Row Hash)) (rows : List Row) : Prop :=
  ∃ t ∈ trace.map Exchange.instant, (rows.map rowKey).Perm ((listing t).map rowKey) ∧
    ∀ row ∈ rows, ∃ s ∈ trace.map Exchange.instant, row ∈ listing s

/-- What a completed offset walk knows of the listings it was answered from. It
ends with the page seen at `last`, where the set has as many rows as were read. -/
structure OffsetReads (rowKey : Row → String) (listing : T → List Row)
    (trace : List (PageExchange T Row Hash)) (walk : PageWalk Row Hash)
    (result : PagedBatchResult Row) (sightings : List (Sighting T String)) (last : T) : Prop where
  answered : last ∈ trace.map Exchange.instant
  ends : ∃ front page, sightings = front ++ [⟨last, page⟩]
  pages : result.pageCount = walk.pageCount + sightings.length
  keys : result.keys = walk.keys ++ sightings.flatMap Sighting.keys
  keys_rows : result.keys = result.rows.map rowKey
  nodup : result.keys.Nodup
  seen : ∀ x ∈ sightings, x.instant ∈ trace.map Exchange.instant ∧ x.instant ≤ last ∧
    ∀ key ∈ x.keys, key ∈ (listing x.instant).map rowKey
  listed : ∀ row ∈ result.rows, row ∈ walk.rows ∨
    ∃ s ∈ trace.map Exchange.instant, row ∈ listing s
  count : (listing last).length = result.rows.length

section Walk

variable [LinearOrder Hash] {path body : String} {listing : T → List Row}

/-- A walk by offset before its next page: as many rows as the offset says, under
distinct keys. -/
structure OffsetWalk (rowKey : Row → String) (walk : PageWalk Row Hash) : Prop where
  start : walk.expectedStart = walk.rows.length
  keys_rows : walk.keys = walk.rows.map rowKey
  distinct : walk.Distinct

/-- What a page of an honest upstream adds to an offset walk. -/
structure OffsetPage (rowKey : Row → String) (listing : List Row) (walk : PageWalk Row Hash)
    (page rows : List Row) (keys : List String) : Prop where
  listed : page ⊆ listing
  rows : rows = walk.rows ++ page
  keys : keys = walk.keys ++ page.map rowKey

omit [LinearOrder T] in
theorem takePage_offset {walk : PageWalk Row Hash} {response : PageResponse Row}
    {rows : List Row} {step : PageStep Row Hash} (inv : OffsetWalk rowKey walk)
    (serves : ServesOffset rows walk.expectedStart (.ok response))
    (ok : takePage path (some rowKey) none walk response = .ok step) :
    (∃ result, step = .done result ∧
      OffsetPage rowKey rows walk response.rows result.rows result.keys ∧
      result.keys.Nodup ∧ result.pageCount = walk.pageCount + 1 ∧
      rows.length = result.rows.length) ∨
    ∃ next, step = .more next ∧ OffsetWalk rowKey next ∧
      OffsetPage rowKey rows walk response.rows next.rows next.keys ∧
      next.pageCount = walk.pageCount + 1 := by
  obtain ⟨page, range, -⟩ := serves
  have listed : response.rows ⊆ rows := by
    rw [page]
    exact fun row member => List.mem_of_mem_drop (List.mem_of_mem_take member)
  simp only [takePage, range] at ok
  obtain ⟨parsed, parse, taken⟩ := bind_ok.mp ok
  obtain ⟨none, rfl⟩ | ⟨some, ordered, within, rfl⟩ := parseContentRange_range parse
  · simp only [takeEmpty, bind_ok, refuse_ok] at taken
    obtain ⟨_, checked, same⟩ := taken
    cases same
    simp only [Option.isNone_none, if_true] at checked
    have empty : response.rows = [] := List.length_eq_zero_iff.mp none
    have total : rows.length = walk.expectedStart := by omega
    refine .inl ⟨_, rfl, ⟨listed, ?_, ?_⟩, inv.distinct.nodup, rfl, ?_⟩
    · simp [PageWalk.result, empty]
    · simp [PageWalk.result, empty]
    · simp [PageWalk.result, total, inv.start]
  · obtain ⟨next, span, verdict⟩ := takeSpan_ok taken
    have grown : next.rows.length = walk.rows.length + response.rows.length := by
      rw [span.rows, List.length_append]
    have adds : OffsetPage rowKey rows walk response.rows next.rows next.keys :=
      ⟨listed, span.rows, span.keys⟩
    have distinct : next.Distinct := span.distinct ⟨inv.distinct.mem_seen, inv.distinct.nodup⟩
    obtain ⟨keyset, -⟩ | ⟨-, complete, rfl⟩ | ⟨-, -, -, rfl⟩ := verdict
    · cases keyset
    · refine .inl ⟨_, rfl, adds, distinct.nodup, span.pageCount, ?_⟩
      change rows.length = next.rows.length
      rw [grown, ← inv.start]
      omega
    · refine .inr ⟨next, rfl, ⟨?_, ?_, distinct⟩, adds, span.pageCount⟩
      · rw [span.start, grown, ← inv.start]
        omega
      · rw [adds.keys, adds.rows, inv.keys_rows, List.map_append]

omit [LinearOrder Hash] in
/-- The walk that ends with the page at `head.instant`. -/
theorem OffsetPage.stop {walk : PageWalk Row Hash} {page : List Row}
    {result : PagedBatchResult Row} {head : PageExchange T Row Hash} (inv : OffsetWalk rowKey walk)
    (adds : OffsetPage rowKey (listing head.instant) walk page result.rows result.keys)
    (nodup : result.keys.Nodup) (pages : result.pageCount = walk.pageCount + 1)
    (count : (listing head.instant).length = result.rows.length) :
    OffsetReads rowKey listing [head] walk result [⟨head.instant, page.map rowKey⟩]
      head.instant where
  answered := List.mem_singleton_self _
  ends := ⟨[], _, rfl⟩
  pages := pages
  keys := by rw [adds.keys]; simp
  keys_rows := by rw [adds.keys, adds.rows, inv.keys_rows, List.map_append]
  nodup := nodup
  seen := by
    intro x member
    obtain rfl := List.mem_singleton.mp member
    refine ⟨List.mem_singleton_self _, le_refl _, fun key found => ?_⟩
    obtain ⟨row, member, rfl⟩ := List.mem_map.mp found
    exact List.mem_map_of_mem (adds.listed member)
  listed := by
    intro row member
    rw [adds.rows] at member
    obtain old | new := List.mem_append.mp member
    · exact .inl old
    · exact .inr ⟨_, List.mem_singleton_self _, adds.listed new⟩
  count := count

omit [LinearOrder Hash] in
/-- The walk that goes on after the page at `head.instant`. -/
theorem OffsetPage.next {walk next : PageWalk Row Hash} {page : List Row}
    {result : PagedBatchResult Row} {rest : List (PageExchange T Row Hash)}
    {head : PageExchange T Row Hash} {sightings : List (Sighting T String)} {last : T}
    (adds : OffsetPage rowKey (listing head.instant) walk page next.rows next.keys)
    (pages : next.pageCount = walk.pageCount + 1)
    (reads : OffsetReads rowKey listing rest next result sightings last)
    (ordered : Chronological (head :: rest)) :
    OffsetReads rowKey listing (head :: rest) walk result
      (⟨head.instant, page.map rowKey⟩ :: sightings) last where
  answered := List.mem_cons_of_mem _ reads.answered
  ends := by
    obtain ⟨front, keys, rfl⟩ := reads.ends
    exact ⟨_ :: front, keys, rfl⟩
  pages := by rw [reads.pages, pages, List.length_cons]; omega
  keys := by rw [reads.keys, adds.keys]; simp
  keys_rows := reads.keys_rows
  nodup := reads.nodup
  seen := by
    intro x member
    obtain rfl | member := List.mem_cons.mp member
    · refine ⟨List.mem_cons_self, ?_, fun key found => ?_⟩
      · obtain ⟨y, later, same⟩ := List.mem_map.mp reads.answered
        rw [← same]
        exact (List.pairwise_cons.mp ordered).1 y later
      · obtain ⟨row, member, rfl⟩ := List.mem_map.mp found
        exact List.mem_map_of_mem (adds.listed member)
    · obtain ⟨seen, before, keys⟩ := reads.seen x member
      exact ⟨List.mem_cons_of_mem _ seen, before, keys⟩
  listed := by
    intro row member
    obtain old | ⟨s, seen, listed⟩ := reads.listed row member
    · rw [adds.rows] at old
      obtain old | new := List.mem_append.mp old
      · exact .inl old
      · exact .inr ⟨_, List.mem_cons_self, adds.listed new⟩
    · exact .inr ⟨s, List.mem_cons_of_mem _ seen, listed⟩
  count := reads.count

theorem walkPages_offset {walk : PageWalk Row Hash} {trace : List (PageExchange T Row Hash)}
    {result : PagedBatchResult Row}
    (runs : (walkPages path body (some rowKey) none walk).Runs trace (.ok result))
    (inv : OffsetWalk rowKey walk) (honest : HonestOffset path body listing trace)
    (ordered : Chronological trace) :
    ∃ sightings last, OffsetReads rowKey listing trace walk result sightings last := by
  revert inv honest ordered
  refine walkPages_induct (motive := fun walk trace result => OffsetWalk rowKey walk →
    HonestOffset path body listing trace → Chronological trace →
    ∃ sightings last, OffsetReads rowKey listing trace walk result sightings last) ?_ ?_ runs
  · intro walk t response result taken inv honest ordered
    obtain ⟨_, same, adds, nodup, pages, count⟩ | ⟨_, same, -⟩ :=
      takePage_offset inv (honest t _ _ List.mem_cons_self) taken
    · cases same
      exact ⟨_, _, adds.stop inv nodup pages count⟩
    · cases same
  · intro walk t response next rest result taken ih inv honest ordered
    obtain ⟨_, same, -⟩ | ⟨_, same, inv', adds, pages⟩ :=
      takePage_offset inv (honest t _ _ List.mem_cons_self) taken
    · cases same
    · cases same
      obtain ⟨sightings, last, reads⟩ := ih inv'
        (fun t' start answer member => honest t' start answer (List.mem_cons_of_mem _ member))
        (List.pairwise_cons.mp ordered).2
      exact ⟨_, _, adds.next pages reads ordered⟩

omit [LinearOrder Hash] in
theorem OffsetWalk.start_walk : OffsetWalk rowKey (PageWalk.start : PageWalk Row Hash) :=
  ⟨rfl, rfl, ⟨fun _ => Iff.rfl, List.nodup_nil⟩⟩

end Walk

section Passes

variable [LinearOrder Hash] {path body : String} {history : KeyedHistory T rowKey}
  {first second : List (PageExchange T Row Hash)} {result result' : PagedBatchResult Row}
  {sightings sightings' : List (Sighting T String)} {last last' : T}

theorem sameMembership_iff :
    sameMembership result result' = true ↔ result.total = result'.total ∧ result.keys = result'.keys := by
  simp [sameMembership]

omit [LinearOrder Hash] in
/-- One page is the whole set of its instant. -/
theorem OffsetReads.pinned_single
    (reads : OffsetReads rowKey history.listing first PageWalk.start result sightings last)
    (single : result.pageCount = 1) : PinnedPages rowKey history.listing first result.rows := by
  obtain ⟨front, page, same⟩ := reads.ends
  have alone : sightings = [⟨last, page⟩] := by
    have size := reads.pages
    rw [single, same, List.length_append, List.length_singleton] at size
    change 1 = 0 + (front.length + 1) at size
    have none : front = [] := List.length_eq_zero_iff.mp (by omega)
    rw [same, none, List.nil_append]
  have honest := fun x member => (reads.seen x member).2.2
  have keys : sightings.flatMap Sighting.keys = result.keys := reads.keys.symm
  have pins : result.keys.Perm (history.keys.members last) := by
    refine agreement_pins reads.nodup keys keys honest honest
      (fun x member => (reads.seen x member).2.1) (fun x member => ?_) ?_
    · rw [alone, List.mem_singleton] at member
      rw [member]
    · rw [reads.keys_rows]
      simpa [KeyedHistory.keys] using reads.count.le
  refine ⟨last, reads.answered, reads.keys_rows ▸ pins, fun row member => ?_⟩
  exact (reads.listed row member).resolve_left List.not_mem_nil

omit [LinearOrder Hash] in
/-- Two passes with one membership pin the instant at which the first ended. -/
theorem OffsetReads.pinned_agree
    (reads : OffsetReads rowKey history.listing first PageWalk.start result sightings last)
    (reads' : OffsetReads rowKey history.listing second PageWalk.start result' sightings' last')
    (ordered : Chronological (first ++ second)) (same : result.keys = result'.keys) :
    PinnedPages rowKey history.listing (first ++ second) result'.rows := by
  have pins : result'.keys.Perm (history.keys.members last) := by
    refine agreement_pins reads'.nodup (by rw [← same]; exact reads.keys.symm) reads'.keys.symm
      (fun x member => (reads.seen x member).2.2) (fun x member => (reads'.seen x member).2.2)
      (fun x member => (reads.seen x member).2.1) (fun x member => ?_) ?_
    · obtain ⟨y, early, at_y⟩ := List.mem_map.mp reads.answered
      obtain ⟨z, late, at_z⟩ := List.mem_map.mp (reads'.seen x member).1
      rw [← at_y, ← at_z]
      exact (List.pairwise_append.mp ordered).2.2 y early z late
    · rw [← same, reads.keys_rows]
      simpa [KeyedHistory.keys] using reads.count.le
  refine ⟨last, ?_, reads'.keys_rows ▸ pins, fun row member => ?_⟩
  · rw [List.map_append]
    exact List.mem_append_left _ reads.answered
  · obtain ⟨s, seen, listed⟩ := (reads'.listed row member).resolve_left List.not_mem_nil
    rw [List.map_append]
    exact ⟨s, List.mem_append_right _ seen, listed⟩

omit [LinearOrder T] [LinearOrder Hash] in
theorem PinnedPages.mono {listing : T → List Row} {part trace : List (PageExchange T Row Hash)}
    {rows : List Row} (pinned : PinnedPages rowKey listing part rows) (sub : part.Sublist trace) :
    PinnedPages rowKey listing trace rows := by
  have instants := (sub.map Exchange.instant).subset
  obtain ⟨t, answered, same, listed⟩ := pinned
  refine ⟨t, instants answered, same, fun row member => ?_⟩
  obtain ⟨s, seen, listed⟩ := listed row member
  exact ⟨s, instants seen, listed⟩

/-- By offset, whatever a verified read returns is the set at one of its pages. -/
theorem batchAllPages_offset_pinned {attempts : ReadAttempts}
    {trace : List (PageExchange T Row Hash)} {rows : List Row}
    (runs : (batchAllPages path body attempts ⟨some rowKey, none, true⟩).Runs trace (.ok rows))
    (honest : HonestOffset path body history.listing trace) (ordered : Chronological trace) :
    PinnedPages rowKey history.listing trace rows := by
  simp only [batchAllPages, Option.isNone_some, Bool.false_eq_true, and_false, if_false] at runs
  obtain ⟨before, last, rfl, attempt⟩ := read_runs runs
  obtain ⟨first, rest, result, rfl, walked, tail⟩ := Async.runs_bind_ok.mp attempt
  have sub := (List.sublist_append_left first rest).trans (List.sublist_append_right before _)
  obtain ⟨sightings, ends, reads⟩ := walkPages_offset walked .start_walk
    (fun t start answer member => honest t start answer (sub.subset member)) (ordered.sublist sub)
  by_cases single : result.pageCount = 1
  · simp only [single, true_or, if_true] at tail
    obtain ⟨rfl, same⟩ := tail
    cases same
    exact (reads.pinned_single single).mono sub
  · simp only [single, Option.isSome_none, Bool.false_eq_true, not_true_eq_false, or_self,
      if_false] at tail
    obtain ⟨second, none, result', rfl, walked', compared⟩ := Async.runs_bind_ok.mp tail
    have inside := List.sublist_append_right before (first ++ (second ++ none))
    have late := (List.sublist_append_left second none).trans (List.sublist_append_right first _)
    obtain ⟨sightings', ends', reads'⟩ := walkPages_offset walked' .start_walk
      (fun t start answer member =>
        honest t start answer (inside.subset (late.subset member)))
      (ordered.sublist (late.trans inside))
    split at compared
    case isTrue same =>
      obtain ⟨rfl, same_rows⟩ := compared
      cases same_rows
      rw [List.append_nil] at inside
      rw [List.append_nil] at ordered ⊢
      exact (reads.pinned_agree reads' (ordered.sublist inside)
        (sameMembership_iff.mp same).2).mono inside
    case isFalse => cases compared.2

/-- Requested verification. By offset, whatever is returned is the set as it stood
at the instant of one of the read's pages. By keyset there is no second pass: the
rows are those of one walk, ascending and each listed at one of its pages. -/
theorem batchAllPages_verified {T Row Hash : Type} [LinearOrder T] [LinearOrder Hash]
    (attempts : ReadAttempts) (path body : String) (rowKey : Row → String)
    (trace : List (PageExchange T Row Hash)) (rows : List Row) :
    (∀ history : KeyedHistory T rowKey, HonestOffset path body history.listing trace →
      Chronological trace →
      (batchAllPages path body attempts ⟨some rowKey, none, true⟩).Runs trace (.ok rows) →
      PinnedPages rowKey history.listing trace rows) ∧
    ∀ (keyset : Row → Hash × Nat) (history : RowHistory T keyset),
      HonestKeyset path body keyset history.listing trace →
      (batchAllPages path body attempts ⟨some rowKey, some keyset, true⟩).Runs trace (.ok rows) →
      ∃ before walk, trace = before ++ walk ∧
        (∃ result, (walkBatchPages path body (some rowKey) (some keyset)).Runs walk (.ok result) ∧
          result.rows = rows) ∧
        KeysetReads keyset history.listing walk rows := by
  constructor
  · exact fun history honest ordered runs => batchAllPages_offset_pinned runs honest ordered
  · intro keyset history honest runs
    obtain ⟨before, walk, result, rfl, rfl, walked⟩ := batchAllPages_one_walk runs
    exact ⟨before, walk, rfl, ⟨result, walked, rfl⟩, walkBatchPages_reads history walked
      fun t after answer member => honest t after answer (List.mem_append_right _ member)⟩

end Passes

/-- The same wallet, by the keys of its outputRange. -/
def slidingKeys : KeyedHistory Nat OutputRef.key where
  listing t := outputRange t 1001
  distinct t := outputRange_keys_nodup t 1001
  noReturn key := by
    refine ⟨fun s first u last t between => ?_⟩
    obtain ⟨ref, present, rfl⟩ := List.mem_map.mp first
    obtain ⟨ref', present', same⟩ := List.mem_map.mp last
    obtain rfl := OutputRef.key_injective same
    rw [mem_outputRange] at present present'
    exact List.mem_map_of_mem (mem_outputRange.mpr
      ⟨present.1, between.2.trans present'.2.1, by have := between.1; omega⟩)

/-- The read returns outputs 0 to 1001, although output 0 was spent before output
1001 came into being. -/
theorem keyset_read_not_pinned :
    HonestKeyset "/account_utxos" "" id slidingKeys.listing slidingTrace ∧
      Chronological slidingTrace ∧ KOIOS_PAGE_SIZE < (outputRange 0 1002).length ∧
      (batchAllPages "/account_utxos" "" ⟨3, by decide, by decide⟩
        ⟨some OutputRef.key, some id, true⟩).Runs slidingTrace (.ok (outputRange 0 1002)) ∧
      ¬ PinnedPages OutputRef.key slidingKeys.listing slidingTrace (outputRange 0 1002) := by
  refine ⟨slidingTrace_honest, ?_, by rw [outputRange_length]; decide, batchAllPages_sliding _ _, ?_⟩
  · simp [Chronological, slidingTrace]
  · rintro ⟨t, -, same, -⟩
    have size := same.length_eq
    simp only [slidingKeys, List.length_map, outputRange_length] at size
    omega

section Swapped

/-! Behind a first page of a thousand outputs the last one is spent and another created, between the
two pages of the first pass. The second pass agrees with the first. -/

def swappedKeys : KeyedHistory Nat OutputRef.key where
  listing t := outputRange 0 1000 ++ outputRange (1000 + min t 1) 1
  distinct t := by
    rw [List.map_append, List.nodup_append']
    refine ⟨outputRange_keys_nodup .., outputRange_keys_nodup .., fun key early late => ?_⟩
    obtain ⟨ref, first, rfl⟩ := List.mem_map.mp early
    obtain ⟨ref', last, same⟩ := List.mem_map.mp late
    obtain rfl := OutputRef.key_injective same
    have bound := (mem_outputRange.mp first).2.2
    have least := (mem_outputRange.mp last).2.1
    omega
  noReturn key := by
    refine ⟨fun s first u last t between => ?_⟩
    obtain ⟨ref, present, rfl⟩ := List.mem_map.mp first
    obtain ⟨ref', present', same⟩ := List.mem_map.mp last
    obtain rfl := OutputRef.key_injective same
    refine List.mem_map_of_mem ?_
    simp only [List.mem_append, mem_outputRange] at present present' ⊢
    have hash : ref'.1 = "aa" := present.elim And.left And.left
    simp only [hash, true_and] at present present' ⊢
    have after := between.1
    have before := between.2
    omega

def swappedRows : List OutputRef := outputRange 0 1000 ++ outputRange 1001 1

def lastPage : PageResponse OutputRef := ⟨outputRange 1001 1, 200, some (renderRange 1000 1 1001)⟩

/-- One pass over the pages. -/
def pass (s t : Nat) : List (PageExchange Nat OutputRef String) :=
  [⟨s, ⟨"/account_utxos", "", .offset 0⟩, .ok firstPage⟩,
    ⟨t, ⟨"/account_utxos", "", .offset 1000⟩, .ok lastPage⟩]

def swappedTrace : List (PageExchange Nat OutputRef String) := pass 0 1 ++ pass 2 3

theorem swappedTrace_honest :
    HonestOffset "/account_utxos" "" swappedKeys.listing swappedTrace := by
  have first (t : Nat) : ServesOffset (swappedKeys.listing t) 0 (.ok firstPage) := by
    refine ⟨?_, ?_, fun _ => rfl⟩
    · exact (List.take_left' (outputRange_length _ _)).symm
    · rw [swappedKeys, List.length_append, outputRange_length, firstPage, outputRange_length,
        outputRange_length]
  have last (t : Nat) (later : min t 1 = 1) : ServesOffset (swappedKeys.listing t) 1000 (.ok lastPage) := by
    have rest : (swappedKeys.listing t).drop 1000 = outputRange 1001 1 := by
      change (outputRange 0 1000 ++ outputRange (1000 + min t 1) 1).drop 1000 = _
      rw [later]
      exact List.drop_left' (outputRange_length _ _)
    refine ⟨?_, ?_, ?_⟩
    · rw [rest]
      rfl
    · rw [swappedKeys, List.length_append, outputRange_length, lastPage, outputRange_length,
        outputRange_length]
    · rw [swappedKeys, List.length_append, outputRange_length, lastPage, outputRange_length,
        outputRange_length]
      exact fun more => absurd more (lt_irrefl _)
  rintro t start answer member
  simp only [swappedTrace, pass, List.mem_append, List.mem_cons, List.not_mem_nil, or_false] at member
  rcases member with (member | member) | member | member <;> cases member
  · exact first 0
  · exact last 1 rfl
  · exact first 2
  · exact last 3 rfl

theorem walkBatchPages_swapped (s t : Nat) :
    (walkBatchPages "/account_utxos" "" (some OutputRef.key) none).Runs (pass s t)
      (.ok ⟨swappedRows, swappedRows.map OutputRef.key, 1001, 2⟩) := by
  have size : firstPage.rows.length = 1000 := outputRange_length 0 1000
  have size' : lastPage.rows.length = 1 := outputRange_length 1001 1
  have distinct : (PageWalk.start : PageWalk OutputRef String).Distinct :=
    ⟨fun _ => Iff.rfl, List.nodup_nil⟩
  obtain ⟨next, span, verdict⟩ :=
    @takePage_taken OutputRef String _ "/account_utxos" (some OutputRef.key) none .start firstPage _ 0 1001
      (by rw [size]; rfl)
      (by rw [size]; decide) (by rw [size]; decide) (by decide) (.inl rfl) rfl nofun (by decide) distinct
      (outputRange_keys_nodup 0 1000) fun _ _ => rfl
  have fresh : (next.keys ++ (outputRange 1001 1).map OutputRef.key).Nodup := by
    have all := swappedKeys.distinct 1
    rw [swappedKeys, List.map_append] at all
    rw [span.keys]
    exact all
  have start : next.expectedStart = 1000 := by rw [span.start, size]
  obtain ⟨after, span', verdict'⟩ :=
    @takePage_taken OutputRef String _ "/account_utxos" (some OutputRef.key) none next lastPage _ 1000 1001
      (by rw [size']; rfl)
      (by rw [size']; decide) (by rw [size']) (by decide) (.inl start.symm) rfl
      (fun _ announced known => Option.some.inj (span.total.symm.trans known))
      (by simp [KOIOS_MAX_PAGED_ROWS])
      (span.distinct ⟨distinct.mem_seen, distinct.nodup⟩) fresh fun _ left => absurd ⟨rfl, by rw [size']⟩ left
  obtain ended | ended | goesOn := verdict
  · cases ended.1
  · have whole := ended.2.1
    rw [size] at whole
    cases whole
  · obtain ended | ended | goesOn' := verdict'
    · cases ended.1
    · refine walkPages_runs.mpr ⟨s, firstPage, _, rfl, .inr ⟨next, goesOn.2.2, ?_⟩⟩
      have window : PageWalk.window (none : Option (OutputRef → String × Nat)) next = .offset 1000 :=
        congrArg Window.offset start
      refine walkPages_runs.mpr ⟨t, lastPage, [], by rw [window], .inl ⟨ended.2.2.trans ?_, rfl⟩⟩
      have rows : after.rows = swappedRows := span'.rows.trans (by rw [span.rows]; rfl)
      have keys : after.keys = swappedRows.map OutputRef.key := by
        rw [span'.keys, span.keys, swappedRows, List.map_append]
        rfl
      have pages : after.pageCount = 2 := by rw [span'.pageCount, span.pageCount]; rfl
      rw [PageWalk.result, rows, keys, pages]
    · exact absurd ⟨rfl, by rw [size']⟩ goesOn'.2.1

theorem batchAllPages_swapped (attempts : ReadAttempts) :
    (batchAllPages "/account_utxos" "" attempts ⟨some OutputRef.key, none, true⟩).Runs
      swappedTrace (.ok swappedRows) := by
  rw [batchAllPages, if_neg (by simp)]
  refine read_first (Async.runs_bind_ok.mpr ⟨pass 0 1, pass 2 3, _, rfl,
    walkBatchPages_swapped 0 1, ?_⟩)
  rw [if_neg (by simp)]
  refine Async.runs_bind_ok.mpr ⟨pass 2 3, [], _, rfl, walkBatchPages_swapped 2 3, ?_⟩
  rw [if_pos (sameMembership_iff.mpr ⟨rfl, rfl⟩)]
  exact ⟨rfl, rfl⟩

/-- A read by offset, of two passes over two pages, and one by keyset, of one walk over two. -/
theorem batchAllPages_verified_reads :
    PinnedPages OutputRef.key swappedKeys.listing swappedTrace swappedRows ∧
    ∃ before walk, slidingTrace = before ++ walk ∧
      (∃ result, (walkBatchPages "/account_utxos" "" (some OutputRef.key) (some id)).Runs walk
        (.ok result) ∧ result.rows = outputRange 0 1002) ∧
      KeysetReads id slidingRows.listing walk (outputRange 0 1002) := by
  constructor
  · refine (batchAllPages_verified ⟨3, by decide, by decide⟩ "/account_utxos" "" OutputRef.key
      swappedTrace _).1 swappedKeys swappedTrace_honest ?_ (batchAllPages_swapped _)
    simp [Chronological, swappedTrace, pass]
  · exact (batchAllPages_verified ⟨3, by decide, by decide⟩ "/account_utxos" "" OutputRef.key
      slidingTrace _).2 id slidingRows slidingTrace_honest (batchAllPages_sliding _ _)

end Swapped

end WalletBackend.Koios
