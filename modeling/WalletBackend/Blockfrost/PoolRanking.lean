import WalletBackend.Blockfrost.Pools
import Mathlib.Data.List.Nodup
import Mathlib.Data.List.Perm.Basic

/-! A ranking is put together from pages of the extended list that were read at
different instants. A pool that is on two of them is ranked twice, and served on two
pages of the pool list. -/
namespace WalletBackend.Blockfrost.Pools
open Interaction

variable {T : Type}

/-- The registered pools over time, as upstream lists them, each once. -/
structure ExtendedHistory (T : Type) where
  listing : T → List PoolExtendedRow
  distinct : ∀ t, ((listing t).map PoolExtendedRow.pool_id).Nodup

/-- One page of a listing. -/
def pageOf (listing : List PoolExtendedRow) (page : Nat) : List PoolExtendedRow :=
  (listing.drop (DEFAULT_PAGE_SIZE * (page - 1))).take DEFAULT_PAGE_SIZE

namespace ExtendedHistory

variable (history : ExtendedHistory T)

/-- Each page was answered from the listing of its instant, or by a failure. -/
def Answers (trace : List (Exchange T Endpoint.Answer)) : Prop :=
  ∀ t page rows, ⟨t, .poolsExtended page, .ok (some rows)⟩ ∈ trace →
    rows = pageOf (history.listing t) page

/-- The pool stands on the page when that is asked for. -/
def OnPage (trace : List (Exchange T Endpoint.Answer)) (pool : String) (page : Nat) : Prop :=
  ∃ t answer, ⟨t, .poolsExtended page, answer⟩ ∈ trace ∧
    pool ∈ (pageOf (history.listing t) page).map PoolExtendedRow.pool_id

/-- No pool is moved from a page that has been read to one that is read later. -/
def Unmoved (trace : List (Exchange T Endpoint.Answer)) : Prop :=
  ∀ pool page page', history.OnPage trace pool page → history.OnPage trace pool page' → page = page'

end ExtendedHistory

/-- Two windows of one list, of which one ends before the other begins. -/
def Apart (a b : PoolListParams) : Prop :=
  a.ticker = b.ticker ∧ (a.offset + a.limit ≤ b.offset ∨ b.offset + b.limit ≤ a.offset)

/-- Each pool is ranked once, and on one page however the ranking is cut into pages. -/
structure Unrepeated (ranking : List PoolExtendedRow) : Prop where
  once : (ranking.map PoolExtendedRow.pool_id).Nodup
  windows : ∀ toLowerCase a b, Apart a b →
    ((window toLowerCase ranking a).map PoolExtendedRow.pool_id).Disjoint
      ((window toLowerCase ranking b).map PoolExtendedRow.pool_id)

theorem filtered_sublist (toLowerCase : String → String) (ranking : List PoolExtendedRow)
    (ticker : Option String) : (filtered toLowerCase ranking ticker).Sublist ranking := by
  unfold filtered
  split
  · exact .refl ranking
  · exact List.filter_sublist

/-- A list without repetition has nothing in common with itself further on. -/
theorem disjoint_windows {α : Type} {xs : List α} (nodup : xs.Nodup) {i m j : Nat} (n : Nat)
    (before : i + m ≤ j) : ((xs.drop i).take m).Disjoint ((xs.drop j).take n) := by
  intro x first second
  have front : x ∈ xs.take j := by
    have inside : (xs.drop i).take m ⊆ xs.take j := by
      rw [List.take_drop]
      exact fun y member => List.take_subset_take_left xs before (List.mem_of_mem_drop member)
    exact inside first
  have back : x ∈ xs.drop j := List.mem_of_mem_take second
  exact List.disjoint_take_drop nodup (Nat.le_refl j) front back

theorem windows_disjoint {ranking : List PoolExtendedRow}
    (once : (ranking.map PoolExtendedRow.pool_id).Nodup) (toLowerCase : String → String)
    {a b : PoolListParams} (apart : Apart a b) :
    ((window toLowerCase ranking a).map PoolExtendedRow.pool_id).Disjoint
      ((window toLowerCase ranking b).map PoolExtendedRow.pool_id) := by
  obtain ⟨same, order⟩ := apart
  have nodup := ((filtered_sublist toLowerCase ranking b.ticker).map PoolExtendedRow.pool_id).nodup once
  rw [window, window, same, List.map_take, List.map_drop, List.map_take, List.map_drop]
  rcases order with before | after
  · exact disjoint_windows nodup b.limit before
  · exact (disjoint_windows nodup a.limit after).symm

theorem unrepeated_iff {ranking : List PoolExtendedRow} :
    Unrepeated ranking ↔ (ranking.map PoolExtendedRow.pool_id).Nodup :=
  ⟨Unrepeated.once, fun once => ⟨once, fun toLowerCase _ _ => windows_disjoint once toLowerCase⟩⟩

section Scan

variable {history : ExtendedHistory T} {trace : List (Exchange T Endpoint.Answer)}
  {reads : List (PagedList.PageRead T PoolExtendedRow)}

/-- The rows that were read for a page. -/
def ids (read : PagedList.PageRead T PoolExtendedRow) : List String :=
  read.rows.map PoolExtendedRow.pool_id

theorem read_of_reads (walked : extendedList.Reads 1 reads) {i : Nat}
    {read : PagedList.PageRead T PoolExtendedRow} (found : reads[i]? = some read) :
    ∃ t, read.trace = [⟨t, .poolsExtended (1 + i), .ok (some read.rows)⟩] := by
  obtain ⟨path, fetched⟩ := walked i read found
  exact runs_get_ok.mp fetched

theorem rows_of_reads (answers : history.Answers (reads.flatMap PagedList.PageRead.trace))
    (walked : extendedList.Reads 1 reads) {i : Nat} {read : PagedList.PageRead T PoolExtendedRow}
    (found : reads[i]? = some read) :
    ∃ t, read.trace = [⟨t, .poolsExtended (1 + i), .ok (some read.rows)⟩] ∧
      read.rows = pageOf (history.listing t) (1 + i) := by
  obtain ⟨t, asked⟩ := read_of_reads walked found
  refine ⟨t, asked, answers t (1 + i) read.rows ?_⟩
  refine List.mem_flatMap.mpr ⟨read, List.mem_of_getElem? found, ?_⟩
  rw [asked]
  exact List.mem_singleton.mpr rfl

/-- The pages on which a pool was when they were asked for are those it was read from. -/
theorem onPage_iff (answers : history.Answers (reads.flatMap PagedList.PageRead.trace))
    (walked : extendedList.Reads 1 reads) {pool : String} {page : Nat} :
    history.OnPage (reads.flatMap PagedList.PageRead.trace) pool page ↔
      ∃ i read, reads[i]? = some read ∧ page = 1 + i ∧ pool ∈ ids read := by
  constructor
  · rintro ⟨t, answer, asked, there⟩
    obtain ⟨read, member, asked⟩ := List.mem_flatMap.mp asked
    obtain ⟨i, found⟩ := List.getElem?_of_mem member
    obtain ⟨t', asked', rows⟩ := rows_of_reads answers walked found
    rw [asked', List.mem_singleton] at asked
    cases asked
    refine ⟨i, read, found, rfl, ?_⟩
    rw [ids, rows]
    exact there
  · rintro ⟨i, read, found, rfl, there⟩
    obtain ⟨t, asked, rows⟩ := rows_of_reads answers walked found
    refine ⟨t, .ok (some read.rows), ?_, ?_⟩
    · refine List.mem_flatMap.mpr ⟨read, List.mem_of_getElem? found, ?_⟩
      rw [asked]
      exact List.mem_singleton.mpr rfl
    · rw [← rows]
      exact there

theorem ids_nodup (answers : history.Answers (reads.flatMap PagedList.PageRead.trace))
    (walked : extendedList.Reads 1 reads) {read : PagedList.PageRead T PoolExtendedRow}
    (member : read ∈ reads) : (ids read).Nodup := by
  obtain ⟨i, found⟩ := List.getElem?_of_mem member
  obtain ⟨t, -, rows⟩ := rows_of_reads answers walked found
  have part : read.rows.Sublist (history.listing t) := by
    rw [rows]
    exact (List.take_sublist _ _).trans (List.drop_sublist _ _)
  exact (part.map PoolExtendedRow.pool_id).nodup (history.distinct t)

theorem nodup_iff_unmoved (answers : history.Answers (reads.flatMap PagedList.PageRead.trace))
    (walked : extendedList.Reads 1 reads) :
    (reads.flatMap ids).Nodup ↔ history.Unmoved (reads.flatMap PagedList.PageRead.trace) := by
  rw [List.nodup_flatMap, and_iff_right fun read member => ids_nodup answers walked member,
    List.pairwise_iff_getElem]
  constructor
  · intro apart pool page page' first second
    obtain ⟨i, read, found, rfl, there⟩ := (onPage_iff answers walked).mp first
    obtain ⟨j, read', found', rfl, there'⟩ := (onPage_iff answers walked).mp second
    obtain ⟨bound, rfl⟩ := List.getElem?_eq_some_iff.mp found
    obtain ⟨bound', rfl⟩ := List.getElem?_eq_some_iff.mp found'
    rcases Nat.lt_trichotomy i j with before | rfl | after
    · exact absurd there' (apart i j bound bound' before there)
    · rfl
    · exact absurd there (apart j i bound' bound after there')
  · intro unmoved i j bound bound' before pool there there'
    have first := (onPage_iff answers walked).mpr
      ⟨i, _, List.getElem?_eq_getElem bound, rfl, there⟩
    have second := (onPage_iff answers walked).mpr
      ⟨j, _, List.getElem?_eq_getElem bound', rfl, there'⟩
    have same := unmoved pool _ _ first second
    omega

/-- A ranking repeats no pool, and neither do the pages cut from it, if and only if no
pool was moved from one page of the extended list to another while that was read. -/
theorem ranking_unrepeated_iff (answers : history.Answers trace) {ranking : List PoolExtendedRow}
    (runs : scan.Runs trace (.ok ranking)) : Unrepeated ranking ↔ history.Unmoved trace := by
  rw [scan, Async.runs_bind_ok] at runs
  obtain ⟨first, rest, rows, rfl, walk, returned⟩ := runs
  obtain ⟨rfl, same⟩ := returned
  cases same
  rw [List.append_nil] at answers ⊢
  obtain ⟨reads, walked, rfl, rfl⟩ := PagedList.collectPages_reads walk
  have sorted : ((ranked (reads.flatMap PagedList.PageRead.rows)).map PoolExtendedRow.pool_id).Perm
      (reads.flatMap ids) := by
    have perm := (List.mergeSort_perm (reads.flatMap PagedList.PageRead.rows) fun a b =>
      byActiveStakeDesc a b != .gt).map PoolExtendedRow.pool_id
    rwa [List.map_flatMap] at perm
  rw [unrepeated_iff, sorted.nodup_iff]
  exact nodup_iff_unmoved answers walked

end Scan

section Example

theorem poolId_toList (n : Nat) : s!"pool1{n}".toList = "pool1".toList ++ Nat.toDigits 10 n := by
  have spelled : s!"pool1{n}" = "pool1" ++ toString n := rfl
  rw [spelled, String.toList_append, Numerals.toList_toString]

theorem poolId_valid (n : Nat) : isPoolIdBech32 s!"pool1{n}" = true := by
  have some_ : 0 < (Nat.toDigits 10 n).length := Nat.length_toDigits_pos
  have size : 5 < s!"pool1{n}".length := by
    rw [← String.length_toList, poolId_toList, List.length_append]
    exact Nat.lt_add_of_pos_right some_
  rw [isPoolIdBech32, poolId_toList, Bool.and_eq_true, Bool.and_eq_true, decide_eq_true_eq]
  refine ⟨⟨List.isPrefixOf_iff_prefix.mpr (List.prefix_append ..), size⟩, ?_⟩
  apply List.all_eq_true.mpr
  intro c member
  rw [Numerals.isDigit_of_mem member]
  rfl

/-- A pool without stake. -/
def registered (n : Nat) : PoolExtendedRow := ⟨s!"pool1{n}", none, none, poolId_valid n⟩

theorem registered_id_injective : Function.Injective fun n => (registered n).pool_id := by
  intro n m same
  have chars := congrArg String.toList same
  simp only [registered, poolId_toList] at chars
  exact Numerals.toDigits_injective (List.append_cancel_left chars)

theorem registered_nodup {numbers : List Nat} (nodup : numbers.Nodup) :
    ((numbers.map registered).map PoolExtendedRow.pool_id).Nodup := by
  rw [List.map_map]
  exact nodup.map registered_id_injective

/-- A full page and a short one are ranked together. -/
theorem runs_scan_twice {page₁ page₂ : List PoolExtendedRow} (full : page₁.length = DEFAULT_PAGE_SIZE)
    (short : page₂.length < DEFAULT_PAGE_SIZE) :
    scan.Runs [⟨0, .poolsExtended 1, .ok (some page₁)⟩, ⟨1, .poolsExtended 2, .ok (some page₂)⟩]
      (.ok (ranked (page₁ ++ page₂))) := by
  have walk : (collectPages extendedList none).Runs
      [⟨0, .poolsExtended 1, .ok (some page₁)⟩, ⟨1, .poolsExtended 2, .ok (some page₂)⟩]
      (.ok (page₁ ++ page₂)) := by
    refine runs_collectPages_full (runs_extended 0 1 _ page₁) full.not_lt ?_
    exact runs_collectFrom_short (runs_extended 1 2 _ page₂) short
  exact Async.runs_bind_ok.mpr ⟨_, [], _, (List.append_nil _).symm, walk, rfl, rfl⟩

theorem answers_twice {history : ExtendedHistory Nat} {page₁ page₂ : List PoolExtendedRow}
    (listed₁ : pageOf (history.listing 0) 1 = page₁) (listed₂ : pageOf (history.listing 1) 2 = page₂) :
    history.Answers
      [⟨0, .poolsExtended 1, .ok (some page₁)⟩, ⟨1, .poolsExtended 2, .ok (some page₂)⟩] := by
  intro t page rows asked
  obtain first | second := List.mem_pair.mp asked
  · cases first
    exact listed₁.symm
  · cases second
    exact listed₂.symm

/-- A hundred and one pools, behind which another is registered between the reads of the two
pages. -/
def growing : ExtendedHistory Nat where
  listing t := (if t = 0 then List.range 101 else List.range 102).map registered
  distinct t := by
    apply registered_nodup
    split <;> exact List.nodup_range

theorem growing_unrepeated : ∃ trace ranking, growing.Answers trace ∧ scan.Runs trace (.ok ranking) ∧
    ranking.length = 102 ∧ Unrepeated ranking := by
  let page₁ := (List.range 100).map registered
  let page₂ := [100, 101].map registered
  have listed₁ : pageOf (growing.listing 0) 1 = page₁ := by
    simp only [pageOf, growing, if_true, ← List.map_drop, ← List.map_take]
    rfl
  have listed₂ : pageOf (growing.listing 1) 2 = page₂ := by
    simp only [pageOf, growing, one_ne_zero, if_false, ← List.map_drop, ← List.map_take]
    rfl
  have answers := answers_twice listed₁ listed₂
  have runs : scan.Runs [⟨0, .poolsExtended 1, .ok (some page₁)⟩,
      ⟨1, .poolsExtended 2, .ok (some page₂)⟩] (.ok (ranked (page₁ ++ page₂))) :=
    runs_scan_twice (by simp [page₁, DEFAULT_PAGE_SIZE]) (by decide)
  have sorted : (ranked (page₁ ++ page₂)).Perm (page₁ ++ page₂) := List.mergeSort_perm _ _
  have apart : (page₁.map PoolExtendedRow.pool_id).Disjoint (page₂.map PoolExtendedRow.pool_id) := by
    have whole : page₁ ++ page₂ = (List.range 102).map registered := by
      rw [@List.range_succ 101, @List.range_succ 100, List.map_append, List.map_append, List.append_assoc]
      rfl
    have nodup := registered_nodup (@List.nodup_range 102)
    rw [← whole, List.map_append] at nodup
    exact List.disjoint_of_nodup_append nodup
  have unmoved : growing.Unmoved [⟨0, .poolsExtended 1, .ok (some page₁)⟩,
      ⟨1, .poolsExtended 2, .ok (some page₂)⟩] := by
    rintro pool page page' ⟨_, _, asked, there⟩ ⟨_, _, asked', there'⟩
    obtain first | second := List.mem_pair.mp asked <;>
      obtain first' | second' := List.mem_pair.mp asked'
    · cases first
      cases first'
      rfl
    · cases first
      cases second'
      exact absurd (listed₂ ▸ there') (apart (listed₁ ▸ there))
    · cases second
      cases first'
      exact absurd (listed₂ ▸ there) (apart (listed₁ ▸ there'))
    · cases second
      cases second'
      rfl
  refine ⟨_, _, answers, runs, ?_, (ranking_unrepeated_iff answers runs).mpr unmoved⟩
  rw [sorted.length_eq]
  simp [page₁, page₂]

/-- A pool appears in front of a hundred and one others. -/
def appearing : ExtendedHistory Nat where
  listing t := (if t = 0 then List.range 101 else 101 :: List.range 101).map registered
  distinct t := by
    apply registered_nodup
    split
    · exact List.nodup_range
    · exact List.nodup_cons.mpr ⟨by simp, List.nodup_range⟩

/-- It does so between the reads of the two pages, and the last pool of the first page is
read again on the second. -/
theorem appearing_repeated : ∃ trace ranking, appearing.Answers trace ∧
    scan.Runs trace (.ok ranking) ∧ ¬ Unrepeated ranking := by
  let page₁ := (List.range 100).map registered
  let page₂ := [99, 100].map registered
  have listed₁ : pageOf (appearing.listing 0) 1 = page₁ := by
    simp only [pageOf, appearing, if_true, ← List.map_drop, ← List.map_take]
    rfl
  have listed₂ : pageOf (appearing.listing 1) 2 = page₂ := by
    simp only [pageOf, appearing, one_ne_zero, if_false, ← List.map_drop, ← List.map_take]
    rfl
  refine ⟨_, ranked (page₁ ++ page₂), answers_twice listed₁ listed₂,
    runs_scan_twice (by simp [page₁, DEFAULT_PAGE_SIZE]) (by decide), fun unrepeated => ?_⟩
  have sorted : (ranked (page₁ ++ page₂)).Perm (page₁ ++ page₂) := List.mergeSort_perm _ _
  have once := (sorted.map PoolExtendedRow.pool_id).nodup_iff.mp unrepeated.once
  rw [List.map_append] at once
  have first : (registered 99).pool_id ∈ page₁.map PoolExtendedRow.pool_id :=
    List.mem_map_of_mem (List.mem_map_of_mem (List.mem_range.mpr (by decide)))
  exact List.disjoint_of_nodup_append once first List.mem_cons_self

end Example

end WalletBackend.Blockfrost.Pools
