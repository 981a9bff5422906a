import WalletBackend.Domain.Numbers
import WalletBackend.Koios.Client
import WalletBackend.Library.CursorPaging

/-! The two keyset scans of the Koios driver, over the registered pools and over the DReps.
Ids come and go and change their status between any two pages; the cursor is the id of the
last row seen, so nothing that happens behind it moves what is still to be read. -/
namespace WalletBackend.Koios
open Interaction CursorPaging

/-- What one request asks a list for: at most `limit` rows whose id is `gt.after`. -/
structure ListRequest (Id : Type) where
  path : String
  limit : Nat
  after : Option Id
  deriving DecidableEq

abbrev ListAnswer (Row Id : Type) : ListRequest Id → Type := fun _ => Except Failure (List Row)

/-- A program reading one list. -/
abbrev ListRead (Row Id α : Type) := Async (ListAnswer Row Id) Failure α

/-- One list as a scan reads it: how a row is identified and what of it is kept. -/
structure ScannedList (Row Id Out : Type) where
  path : String
  pageSize : Nat
  maxPages : Nat
  id : Row → Id
  kept : Row → Option Out
  exceeded : Failure

variable {Row Id Out : Type}

/-- `koios.get`: fetch, validate and retry. -/
def getRows (attempts : ReadAttempts) (request : ListRequest Id) : ListRead Row Id (List Row) :=
  read attempts do Async.ofExcept (← Async.ask request)

namespace ScannedList

variable (list : ScannedList Row Id Out)

/-- The pages after the cursor, of which `remaining` are permitted. Once the last of them was
full, one row more is asked for, to tell an exact fit from a truncation. -/
def scan (attempts : ReadAttempts) (needed : Option Nat) :
    (remaining : Nat) → (after : Option Id) → List Out → ListRead Row Id (List Out)
  | 0, after, found => do
      let probe ← getRows attempts ⟨list.path, 1, after⟩
      if probe.length = 0 then pure found else throw list.exceeded
  | remaining + 1, after, found => do
      let rows ← getRows attempts ⟨list.path, list.pageSize, after⟩
      let found := found ++ rows.filterMap list.kept
      -- A short page is the end of the list upstream.
      if rows.length < list.pageSize then pure found
      else
        match rows.getLast? with
        | none => pure found
        | some last =>
            if needed.any (· ≤ found.length) then pure found
            else scan attempts needed remaining (some (list.id last)) found

end ScannedList

def POOL_LIST_PAGE_SIZE : Nat := 1000
def POOL_LIST_MAX_PAGES : Nat := 20
def DREP_LIST_PAGE_SIZE : Nat := 1000
def DREP_LIST_MAX_PAGES : Nat := 20

structure PoolStakeRow (Id : Type) where
  pool_id_bech32 : Id
  active_stake : Option Numeric
  deriving DecidableEq

structure DrepListRow (Id : Type) where
  drep_id : Id
  registered : Bool
  deriving DecidableEq

/-- The registered pools, those whose ticker matches if one is given. -/
def poolList (ticker : Option String) : ScannedList (PoolStakeRow Id) Id (PoolStakeRow Id) where
  path := "/pool_list?pool_status=eq.registered&order=pool_id_bech32.asc" ++
    "&select=pool_id_bech32,active_stake" ++
    (ticker.map fun ticker => s!"&ticker=ilike.*{ticker}*").getD ""
  pageSize := POOL_LIST_PAGE_SIZE
  maxPages := POOL_LIST_MAX_PAGES
  id := PoolStakeRow.pool_id_bech32
  kept := some
  exceeded := .plain
    (s!"koios /pool_list has more than {POOL_LIST_MAX_PAGES * POOL_LIST_PAGE_SIZE} registered " ++
      "pools, beyond this provider's scan bound")

/-- Every DRep, registered or not: the status is looked at here, not upstream. -/
def drepList : ScannedList (DrepListRow Id) Id Id where
  path := "/drep_list?order=drep_id.asc&select=drep_id,registered"
  pageSize := DREP_LIST_PAGE_SIZE
  maxPages := DREP_LIST_MAX_PAGES
  id := DrepListRow.drep_id
  kept row := if row.registered then some row.drep_id else none
  exceeded := .plain
    (s!"koios /drep_list has more than {DREP_LIST_MAX_PAGES * DREP_LIST_PAGE_SIZE} rows, " ++
      "beyond this provider's scan bound")

def registeredPoolStakes (attempts : ReadAttempts) (ticker : Option String) :
    ListRead (PoolStakeRow Id) Id (List (PoolStakeRow Id)) :=
  (poolList ticker).scan attempts none POOL_LIST_MAX_PAGES none []

/-- `registeredDreps(needed)`; without a row bound `needed` is infinite. -/
def registeredDreps (attempts : ReadAttempts) (needed : Option Nat) :
    ListRead (DrepListRow Id) Id (List Id) :=
  drepList.scan attempts needed DREP_LIST_MAX_PAGES none []

/-- A page that was answered: when, for which request, and its rows. -/
structure ListPage (T Row Id : Type) where
  instant : T
  request : ListRequest Id
  rows : List Row

abbrev ListTrace (T Row Id : Type) := List (Exchange T (ListAnswer Row Id))

variable {T : Type}

/-- The pages that were answered, failed attempts left out. -/
def pages : ListTrace T Row Id → List (ListPage T Row Id)
  | [] => []
  | ⟨t, request, .ok rows⟩ :: trace => ⟨t, request, rows⟩ :: pages trace
  | ⟨_, _, .error _⟩ :: trace => pages trace

theorem pages_append (first rest : ListTrace T Row Id) :
    pages (first ++ rest) = pages first ++ pages rest := by
  induction first with
  | nil => rfl
  | cons y first ih =>
    obtain ⟨t, request, answer⟩ := y
    cases answer with
    | error e => exact ih
    | ok rows => exact congrArg _ ih

theorem mem_of_mem_pages {page : ListPage T Row Id} {trace : ListTrace T Row Id}
    (member : page ∈ pages trace) : ⟨page.instant, page.request, .ok page.rows⟩ ∈ trace := by
  induction trace with
  | nil => exact nomatch member
  | cons y trace ih =>
    obtain ⟨t, request, answer⟩ := y
    cases answer with
    | error e => exact List.mem_cons_of_mem _ (ih member)
    | ok rows =>
      obtain rfl | later := List.mem_cons.mp member
      · exact List.mem_cons_self
      · exact List.mem_cons_of_mem _ (ih later)

/-- A read answers at most once, in at most as many attempts as are configured. -/
theorem readAgain_pages {request : ListRequest Id} {further : Nat} {trace : ListTrace T Row Id}
    {outcome : Except Failure (List Row)}
    (runs : (readAgain (Async.ask request >>= Async.ofExcept) further).Runs trace outcome) :
    trace.length ≤ further + 1 ∧
      (∀ rows, outcome = .ok rows → ∃ t, pages trace = [⟨t, request, rows⟩]) ∧
      (∀ e, outcome = .error e → pages trace = []) := by
  induction further generalizing trace with
  | zero =>
    obtain ⟨t, answer, rest, rfl, rfl, rfl⟩ := runs
    cases answer <;> simp [pages]
  | succ further ih =>
    obtain ⟨_, ⟨t, answer, rest, rfl, rfl, same⟩, rfl⟩ | ⟨first, rest, e, rfl, failed, again⟩ :=
      Async.runs_tryCatch.mp runs
    · cases same
      simp [pages]
    · obtain ⟨t, answer, none, rfl, rfl, rfl⟩ := failed
      split at again
      · obtain ⟨few, ok, error⟩ := ih again
        exact ⟨by simpa using few, ok, error⟩
      · obtain ⟨rfl, rfl⟩ := again
        simp [pages]

theorem getRows_pages {attempts : ReadAttempts} {request : ListRequest Id}
    {trace : ListTrace T Row Id} {outcome : Except Failure (List Row)}
    (runs : (getRows attempts request).Runs trace outcome) :
    trace.length ≤ attempts.count ∧
      (∀ rows, outcome = .ok rows → ∃ t, pages trace = [⟨t, request, rows⟩]) ∧
      (∀ e, outcome = .error e → pages trace = []) := by
  obtain ⟨few, rest⟩ := readAgain_pages runs
  have positive := attempts.positive
  exact ⟨by omega, rest⟩

section Scan

variable [LinearOrder Id] {list : ScannedList Row Id Out} {listing : T → List Row}

/-- Each page holds the first rows after its cursor, as the list was at one instant. -/
def HonestPages (list : ScannedList Row Id Out) (listing : T → List Row)
    (pages : List (ListPage T Row Id)) : Prop :=
  ∀ page ∈ pages, page.rows =
    (remaining list.id page.request.after (listing page.instant)).take page.request.limit

/-- The cursor after the pages: the id of the last row seen. -/
def cursorAfter (list : ScannedList Row Id Out) :
    Option Id → List (ListPage T Row Id) → Option Id :=
  List.foldl fun _ page => page.rows.getLast?.map list.id

omit [LinearOrder Id] in
theorem full_page {rows : List Row} (positive : 0 < list.pageSize)
    (full : ¬ rows.length < list.pageSize) : ∃ last, rows.getLast? = some last := by
  cases ends : rows.getLast? with
  | none =>
    rw [List.getLast?_eq_none_iff.mp ends] at full
    exact absurd positive full
  | some last => exact ⟨last, rfl⟩

theorem probe_empty {after : Option Id} {t : T} {probe : List Row}
    (served : probe = (remaining list.id after (listing t)).take 1) (none : probe.length = 0) :
    remaining list.id after (listing t) = [] := by
  have size := congrArg List.length served
  rw [none, List.length_take] at size
  rw [← List.length_eq_zero_iff]
  omega

theorem short_page {after : Option Id} {t : T} {rows : List Row}
    (served : rows = (remaining list.id after (listing t)).take list.pageSize)
    (short : rows.length < list.pageSize) : rows = remaining list.id after (listing t) := by
  have size := congrArg List.length served
  rw [List.length_take] at size
  rw [served, List.take_of_length_le (by omega)]

/-- What a scan without a row bound returns is what a walk over the list has read. -/
theorem scan_walk {attempts : ReadAttempts} {more : Nat} {after : Option Id} {found : List Out}
    {trace : ListTrace T Row Id} {result : List Out} (positive : 0 < list.pageSize)
    (runs : (list.scan attempts none more after found).Runs trace (.ok result))
    (honest : HonestPages list listing (pages trace)) :
    ∃ rows, result = found ++ rows.filterMap list.kept ∧
      Walk list.id list.pageSize listing after ((pages trace).map ListPage.instant) rows := by
  induction more generalizing after found trace with
  | zero =>
    obtain ⟨first, rest, probe, rfl, asked, tail⟩ := Async.runs_bind_ok.mp runs
    obtain ⟨t, page⟩ := (getRows_pages asked).2.1 probe rfl
    rw [pages_append, page] at honest ⊢
    have served : probe = (remaining list.id after (listing t)).take 1 :=
      honest _ List.mem_cons_self
    by_cases none : probe.length = 0
    · simp only [none, if_true] at tail
      obtain ⟨rfl, same⟩ := tail
      cases same
      have empty := probe_empty served none
      have walk := Walk.last t after (show (remaining list.id after (listing t)).length ≤ list.pageSize by
        rw [empty]; exact Nat.zero_le _)
      rw [empty] at walk
      exact ⟨[], by simp, walk⟩
    · simp only [none, if_false] at tail
      exact nomatch tail.2
  | succ more ih =>
    obtain ⟨first, rest, rows, rfl, asked, tail⟩ := Async.runs_bind_ok.mp runs
    obtain ⟨t, page⟩ := (getRows_pages asked).2.1 rows rfl
    rw [pages_append, page] at honest ⊢
    have served : rows = (remaining list.id after (listing t)).take list.pageSize :=
      honest _ List.mem_cons_self
    have later : HonestPages list listing (pages rest) := fun page member =>
      honest page (List.mem_cons_of_mem _ member)
    by_cases short : rows.length < list.pageSize
    · simp only [short, if_true] at tail
      obtain ⟨rfl, same⟩ := tail
      cases same
      have whole := short_page served short
      have walk := Walk.last t after (show (remaining list.id after (listing t)).length ≤ list.pageSize by
        rw [← whole]; exact short.le)
      rw [← whole] at walk
      exact ⟨rows, rfl, walk⟩
    · simp only [short, if_false] at tail
      obtain ⟨last, ends⟩ := full_page positive short
      simp only [ends, Option.any_none, Bool.false_eq_true, if_false] at tail
      obtain ⟨more, same, walk⟩ := ih tail later
      rw [served] at ends
      refine ⟨_, ?_, Walk.next t after last ends walk⟩
      rw [← served, List.filterMap_append, ← List.append_assoc]
      exact same

omit [LinearOrder Id] in
/-- Whether it returns or fails, a scan asks for its permitted pages and one row more. -/
theorem scan_requests {attempts : ReadAttempts} {needed : Option Nat} {more : Nat}
    {after : Option Id} {found : List Out} {trace : ListTrace T Row Id}
    {outcome : Except Failure (List Out)}
    (runs : (list.scan attempts needed more after found).Runs trace outcome) :
    (pages trace).length ≤ more + 1 ∧ trace.length ≤ (more + 1) * attempts.count := by
  induction more generalizing after found trace with
  | zero =>
    obtain ⟨first, rest, probe, rfl, asked, tail⟩ | ⟨e, asked, rfl⟩ := Async.runs_bind.mp runs
    · obtain ⟨few, ok, -⟩ := getRows_pages asked
      obtain ⟨t, page⟩ := ok probe rfl
      have done : rest = [] := by
        split at tail <;> exact tail.1
      subst done
      rw [List.append_nil, page]
      exact ⟨le_refl 1, by omega⟩
    · obtain ⟨few, -, error⟩ := getRows_pages asked
      rw [error e rfl]
      exact ⟨Nat.zero_le _, by omega⟩
  | succ more ih =>
    obtain ⟨first, rest, rows, rfl, asked, tail⟩ | ⟨e, asked, rfl⟩ := Async.runs_bind.mp runs
    · obtain ⟨few, ok, -⟩ := getRows_pages asked
      obtain ⟨t, page⟩ := ok rows rfl
      have later : (pages rest).length ≤ more + 1 ∧ rest.length ≤ (more + 1) * attempts.count := by
        have done (none : rest = []) :
            (pages rest).length ≤ more + 1 ∧ rest.length ≤ (more + 1) * attempts.count := by
          rw [none]
          exact ⟨Nat.zero_le _, Nat.zero_le _⟩
        dsimp only at tail
        split at tail
        · exact done tail.1
        · split at tail
          · exact done tail.1
          · split at tail
            · exact done tail.1
            · exact ih tail
      rw [pages_append, page, List.length_append, List.length_append, Nat.succ_mul (more + 1)]
      exact ⟨by rw [List.length_singleton]; omega, by omega⟩
    · obtain ⟨few, -, error⟩ := getRows_pages asked
      rw [error e rfl, Nat.succ_mul (more + 1)]
      exact ⟨Nat.zero_le _, by omega⟩

/-- After its last permitted page, a scan whose pages were all full returns if and only if
the probe was answered and nothing lay beyond the cursor. -/
theorem scan_ceiling {attempts : ReadAttempts} {more : Nat} {after : Option Id} {found : List Out}
    {trace : ListTrace T Row Id} {outcome : Except Failure (List Out)} (positive : 0 < list.pageSize)
    (runs : (list.scan attempts none more after found).Runs trace outcome)
    (honest : HonestPages list listing (pages trace)) {read rest : List (ListPage T Row Id)}
    (split : pages trace = read ++ rest) (all : read.length = more)
    (full : ∀ page ∈ read, page.rows.length = list.pageSize) :
    (∃ result, outcome = .ok result) ↔ ∃ probe, rest = [probe] ∧
      remaining list.id (cursorAfter list after read) (listing probe.instant) = [] := by
  induction more generalizing after found trace read with
  | zero =>
    obtain rfl := List.length_eq_zero_iff.mp all
    obtain ⟨first, tail, probe, rfl, asked, done⟩ | ⟨e, asked, rfl⟩ := Async.runs_bind.mp runs
    · obtain ⟨t, page⟩ := (getRows_pages asked).2.1 probe rfl
      rw [pages_append, page] at honest split
      have served : probe = (remaining list.id after (listing t)).take 1 :=
        honest _ List.mem_cons_self
      have none : tail = [] := by
        split at done <;> exact done.1
      subst none
      obtain rfl : [⟨t, ⟨list.path, 1, after⟩, probe⟩] = rest := split
      by_cases empty : probe.length = 0
      · simp only [empty, if_true] at done
        exact iff_of_true ⟨found, done.2.symm⟩ ⟨_, rfl, probe_empty served empty⟩
      · simp only [empty, if_false] at done
        refine iff_of_false ?_ ?_
        · rintro ⟨result, ok⟩
          rw [ok] at done
          exact nomatch done.2
        · rintro ⟨page, same, beyond⟩
          obtain rfl := List.singleton_inj.mp same
          rw [served, show remaining list.id after (listing t) = [] from beyond] at empty
          exact empty rfl
    · rw [(getRows_pages asked).2.2 e rfl] at split
      obtain rfl : [] = rest := split
      simp
  | succ more ih =>
    obtain ⟨page, read, rfl⟩ := List.exists_cons_of_length_eq_add_one all
    obtain ⟨first, tail, rows, rfl, asked, done⟩ | ⟨e, asked, rfl⟩ := Async.runs_bind.mp runs
    · obtain ⟨t, answered⟩ := (getRows_pages asked).2.1 rows rfl
      rw [pages_append, answered] at honest split
      obtain ⟨rfl, next⟩ := List.cons_eq_cons.mp split
      have notShort : ¬ rows.length < list.pageSize :=
        (full _ List.mem_cons_self).not_lt
      obtain ⟨last, ends⟩ := full_page positive notShort
      simp only [notShort, ends, Option.any_none, Bool.false_eq_true, if_false] at done
      have cursor : cursorAfter list after (⟨t, ⟨list.path, list.pageSize, after⟩, rows⟩ :: read) =
          cursorAfter list (some (list.id last)) read := by simp [cursorAfter, ends]
      rw [cursor]
      exact ih done (fun page member => honest page (List.mem_cons_of_mem _ member)) next
        (Nat.succ.inj all) fun page member => full page (List.mem_cons_of_mem _ member)
    · rw [(getRows_pages asked).2.2 e rfl] at split
      cases split

/-- `ids` is what qualified over the pages: each id once, every id that qualified at all of
them, and none that qualified at none. -/
structure CompleteScan (pages : List (ListPage T Row Id)) (qualifies : T → Id → Prop)
    (ids : List Id) : Prop where
  distinct : ids.Nodup
  complete : ∀ id, (∀ page ∈ pages, qualifies page.instant id) → id ∈ ids
  sound : ∀ id ∈ ids, ∃ page ∈ pages, qualifies page.instant id

/-- How a run of the scan is bounded: at most one page more than the permitted ones is
answered, in at most `attempts` requests each, and once all the permitted pages were full the
run returns if and only if the probe was answered with nothing beyond the cursor. -/
structure BoundedScan (list : ScannedList Row Id Out) (listing : T → List Row)
    (attempts : ReadAttempts) (trace : ListTrace T Row Id) (outcome : Except Failure (List Out)) :
    Prop where
  answered : (pages trace).length ≤ 21
  requests : trace.length ≤ 21 * attempts.count
  ceiling : ∀ read rest, pages trace = read ++ rest → read.length = 20 →
    (∀ page ∈ read, page.rows.length = 1000) →
    ((∃ result, outcome = .ok result) ↔ ∃ probe, rest = [probe] ∧
      remaining list.id (cursorAfter list none read) (listing probe.instant) = [])

/-- The ids of the rows that a walk has read and that are kept. -/
theorem walk_complete {pages : List (ListPage T Row Id)} {rows : List Row} {id : Row → Id}
    {size : Nat} (keeps : Row → Bool) (sorted : ∀ t, Ascending id (listing t))
    (walk : Walk id size listing none (pages.map ListPage.instant) rows) :
    CompleteScan pages (fun t k => ∃ row ∈ listing t, id row = k ∧ keeps row = true)
      ((rows.filter keeps).map id) := by
  have ascending : Ascending id (rows.filter keeps) :=
    (walk.ascending sorted).sublist List.filter_sublist
  have answered : ∀ row ∈ rows, ∃ page ∈ pages, row ∈ listing page.instant := by
    intro row read
    obtain ⟨t, instant, listed⟩ := walk.listed row read
    obtain ⟨page, member, rfl⟩ := List.mem_map.mp instant
    exact ⟨page, member, listed⟩
  constructor
  · exact ascending.keys_nodup
  · intro k throughout
    have present : ∀ t ∈ pages.map ListPage.instant, k ∈ (listing t).map id := by
      intro t instant
      obtain ⟨page, member, rfl⟩ := List.mem_map.mp instant
      obtain ⟨row, listed, same, -⟩ := throughout page member
      exact List.mem_map.mpr ⟨row, listed, same⟩
    obtain ⟨row, read, rfl⟩ := List.mem_map.mp (walk.complete sorted (by simp [Beyond]) present)
    obtain ⟨page, member, listed⟩ := answered row read
    -- At the instant of its page the row read is the one that qualifies.
    obtain ⟨other, also, same, keep⟩ := throughout page member
    obtain rfl := (sorted page.instant).row_eq also listed same
    exact List.mem_map.mpr ⟨other, List.mem_filter.mpr ⟨read, keep⟩, rfl⟩
  · intro k member
    obtain ⟨row, kept, rfl⟩ := List.mem_map.mp member
    obtain ⟨read, keep⟩ := List.mem_filter.mp kept
    obtain ⟨page, member, listed⟩ := answered row read
    exact ⟨page, member, row, listed, rfl, keep⟩

/-- A pool is registered, and its ticker matches. -/
def ListedPool (listing : T → List (PoolStakeRow Id)) (t : T) (id : Id) : Prop :=
  ∃ row ∈ listing t, row.pool_id_bech32 = id

def RegisteredDrep (listing : T → List (DrepListRow Id)) (t : T) (id : Id) : Prop :=
  ∃ row ∈ listing t, row.drep_id = id ∧ row.registered = true

theorem registeredPoolStakes_complete {attempts : ReadAttempts} {ticker : Option String}
    {listing : T → List (PoolStakeRow Id)} {trace : ListTrace T (PoolStakeRow Id) Id}
    {rows : List (PoolStakeRow Id)}
    (runs : (registeredPoolStakes attempts ticker).Runs trace (.ok rows))
    (honest : HonestPages (poolList ticker) listing (pages trace))
    (sorted : ∀ t, Ascending PoolStakeRow.pool_id_bech32 (listing t)) :
    CompleteScan (pages trace) (ListedPool listing) (rows.map PoolStakeRow.pool_id_bech32) := by
  obtain ⟨read, same, walk⟩ := scan_walk (show 0 < POOL_LIST_PAGE_SIZE by decide) runs honest
  have complete := walk_complete (fun _ => true) sorted walk
  have all : rows = read := same.trans List.filterMap_some
  rw [List.filter_true, ← all] at complete
  simp only [and_true] at complete
  exact complete

omit [LinearOrder Id] in
theorem drepList_kept (rows : List (DrepListRow Id)) :
    rows.filterMap drepList.kept = (rows.filter DrepListRow.registered).map DrepListRow.drep_id := by
  induction rows with
  | nil => rfl
  | cons row rows ih =>
    simp only [List.filterMap_cons, List.filter_cons, ih]
    cases registered : row.registered <;> simp [drepList, registered]

theorem registeredDreps_complete {attempts : ReadAttempts} {listing : T → List (DrepListRow Id)}
    {trace : ListTrace T (DrepListRow Id) Id} {ids : List Id}
    (runs : (registeredDreps attempts none).Runs trace (.ok ids))
    (honest : HonestPages drepList listing (pages trace))
    (sorted : ∀ t, Ascending DrepListRow.drep_id (listing t)) :
    CompleteScan (pages trace) (RegisteredDrep listing) ids := by
  obtain ⟨read, same, walk⟩ := scan_walk (show 0 < DREP_LIST_PAGE_SIZE by decide) runs honest
  rw [show ids = _ from same, List.nil_append, drepList_kept]
  exact walk_complete DrepListRow.registered sorted walk

/-- A scan of at most twenty pages of a thousand rows is bounded. -/
theorem scan_bounded {attempts : ReadAttempts} {trace : ListTrace T Row Id}
    {outcome : Except Failure (List Out)} (size : list.pageSize = 1000)
    (runs : (list.scan attempts none 20 none []).Runs trace outcome)
    (honest : HonestPages list listing (pages trace)) :
    BoundedScan list listing attempts trace outcome := by
  obtain ⟨answered, requests⟩ := scan_requests runs
  refine ⟨answered, requests, fun read rest split all full => ?_⟩
  exact scan_ceiling (by omega) runs honest split all fun page member => (full page member).trans size.symm

end Scan

/-- The scans of the registered pools and of the DReps are complete under churn: whatever
happens to a list between two of its pages, a scan that returns has every id that qualified
at all of them once, and none that qualified at none; it asks for at most twenty pages and one
row more, and does not return a list that it has cut. -/
theorem registered_scans_complete {T Id : Type} [LinearOrder Id] (attempts : ReadAttempts) :
    (∀ (ticker : Option String) (listing : T → List (PoolStakeRow Id))
      (trace : ListTrace T (PoolStakeRow Id) Id) (outcome : Except Failure (List (PoolStakeRow Id))),
      (∀ t, Ascending PoolStakeRow.pool_id_bech32 (listing t)) →
      HonestPages (poolList ticker) listing (pages trace) →
      (registeredPoolStakes attempts ticker).Runs trace outcome →
      (∀ rows, outcome = .ok rows → CompleteScan (pages trace) (ListedPool listing)
        (rows.map PoolStakeRow.pool_id_bech32)) ∧
      BoundedScan (poolList ticker) listing attempts trace outcome) ∧
    ∀ (listing : T → List (DrepListRow Id)) (trace : ListTrace T (DrepListRow Id) Id)
      (outcome : Except Failure (List Id)),
      (∀ t, Ascending DrepListRow.drep_id (listing t)) →
      HonestPages drepList listing (pages trace) →
      (registeredDreps attempts none).Runs trace outcome →
      (∀ ids, outcome = .ok ids → CompleteScan (pages trace) (RegisteredDrep listing) ids) ∧
      BoundedScan drepList listing attempts trace outcome := by
  constructor
  · intro ticker listing trace outcome sorted honest runs
    constructor
    · rintro rows rfl
      exact registeredPoolStakes_complete runs honest sorted
    · exact scan_bounded rfl runs honest
  · intro listing trace outcome sorted honest runs
    constructor
    · rintro ids rfl
      exact registeredDreps_complete runs honest sorted
    · exact scan_bounded rfl runs honest

section Churned

variable {Row Out : Type} {list : ScannedList Row Nat Out} {key : Row → Nat}

/-- A full page and a short one are all that the scan asks for. -/
theorem scan_twoPages {attempts : ReadAttempts} {more : Nat} {s t : T} {first rest : List Row} {last : Row}
    (full : first.length = list.pageSize) (ends : first.getLast? = some last)
    (short : rest.length < list.pageSize) :
    (list.scan attempts none (more + 2) none []).Runs
      [⟨s, ⟨list.path, list.pageSize, none⟩, .ok first⟩,
        ⟨t, ⟨list.path, list.pageSize, some (list.id last)⟩, .ok rest⟩]
      (.ok (first.filterMap list.kept ++ rest.filterMap list.kept)) := by
  have asks : ∀ (t : T) (request : ListRequest Nat) (rows : List Row),
      (getRows attempts request).Runs [⟨t, request, .ok rows⟩] (.ok rows) :=
    fun t request rows => read_first ⟨t, .ok rows, [], rfl, rfl, rfl⟩
  refine Async.runs_bind_ok.mpr ⟨[_], [_], first, rfl, asks s _ first, ?_⟩
  simp only [full, ends, lt_irrefl, if_false, Option.any_none, Bool.false_eq_true]
  refine Async.runs_bind_ok.mpr ⟨[_], [], rest, rfl, asks t _ rest, ?_⟩
  simp only [short, if_true]
  exact ⟨rfl, rfl⟩

theorem ascending_numbered {row : Nat → Row} (ids : ∀ n, key (row n) = n)
    (first count : Nat) :
    Ascending key ((List.range' first count).map row) := by
  refine List.pairwise_map.mpr ((List.pairwise_lt_range' 1).imp fun less => ?_)
  rw [ids, ids]
  exact less

theorem remaining_numbered {row : Nat → Row} (ids : ∀ n, key (row n) = n)
    (first count more : Nat) :
    remaining key (some (first + count)) ((List.range' first (count + 1 + more)).map row) =
      (List.range' (first + count + 1) more).map row := by
  have ends : ((List.range' first (count + 1)).map row).getLast? = some (row (first + count)) := by
    rw [List.getLast?_map, List.getLast?_range']
    rfl
  have sorted := ascending_numbered ids first (count + 1 + more)
  rw [← List.range'_append_1, List.map_append] at sorted ⊢
  have rest := sorted.remaining_append ends
  rwa [ids] at rest

/-- Two pages of a list with ids 0 to 1000 at the first and 1 to 1001 at the second; a row may
depend on the instant too. -/
def churnedPages (list : ScannedList Row Nat Out) (row : Nat → Nat → Row) : ListTrace Nat Row Nat :=
  [⟨0, ⟨list.path, list.pageSize, none⟩, .ok ((List.range' 0 1000).map (row 0))⟩,
    ⟨1, ⟨list.path, list.pageSize, some (list.id (row 0 999))⟩, .ok ((List.range' 1000 2).map (row 1))⟩]

theorem churnedPages_runs {attempts : ReadAttempts} {more : Nat} (row : Nat → Nat → Row)
    (size : list.pageSize = 1000) :
    (list.scan attempts none (more + 2) none []).Runs (churnedPages list row)
      (.ok (((List.range' 0 1000).map (row 0)).filterMap list.kept ++
        ((List.range' 1000 2).map (row 1)).filterMap list.kept)) := by
  refine scan_twoPages ?_ ?_ ?_
  · rw [List.length_map, List.length_range', size]
  · rw [List.getLast?_map, List.getLast?_range']
    rfl
  · rw [List.length_map, List.length_range', size]
    decide

theorem churnedPages_honest {row : Nat → Nat → Row} (ids : ∀ t n, list.id (row t n) = n)
    (size : list.pageSize = 1000) :
    HonestPages list (fun t => (List.range' t 1001).map (row t)) (pages (churnedPages list row)) := by
  intro page member
  obtain rfl | rfl := List.mem_pair.mp member
  · simp only [remaining_none, size]
    rw [show 1001 = 1000 + 1 from rfl, ← List.range'_append_1, List.map_append]
    exact (List.take_left' (by rw [List.length_map, List.length_range'])).symm
  · have ahead := remaining_numbered (ids 1) 1 998 2
    simp only [ids, size]
    rw [ahead]
    rfl

def numberedPool (_ n : Nat) : PoolStakeRow Nat := ⟨n, none⟩

/-- Every third DRep is not registered, and which of them are changes with every instant. -/
def numberedDrep (t n : Nat) : DrepListRow Nat := ⟨n, (n + t) % 3 ≠ 0⟩

theorem numberedPools_ids (t first count : Nat) :
    (((List.range' first count).map (numberedPool t)).filterMap (poolList none).kept).map
      PoolStakeRow.pool_id_bech32 = List.range' first count := by
  have kept : ∀ rows : List (PoolStakeRow Nat), rows.filterMap (poolList none).kept = rows :=
    fun rows => List.filterMap_some
  rw [kept, List.map_map]
  exact List.map_id _

theorem numberedDreps_kept (t first count : Nat) :
    ((List.range' first count).map (numberedDrep t)).filterMap drepList.kept =
      (List.range' first count).filter fun n => (n + t) % 3 ≠ 0 := by
  rw [drepList_kept, List.filter_map, List.map_map]
  exact List.map_id _

/-- Two scans of two pages between which the first id was deleted, a new last one was added, and
two of three DReps registered or retired. -/
theorem churned_scans_complete :
    CompleteScan (pages (churnedPages (poolList none) numberedPool))
      (ListedPool fun t => (List.range' t 1001).map (numberedPool t)) (List.range' 0 1002) ∧
    CompleteScan (pages (churnedPages drepList numberedDrep))
      (RegisteredDrep fun t => (List.range' t 1001).map (numberedDrep t))
      ((List.range' 0 1000).filter (· % 3 ≠ 0) ++ [1000]) := by
  obtain ⟨pools, dreps⟩ := @registered_scans_complete Nat Nat _ ReadAttempts.single
  have poolIds := (pools none _ _ _ (fun t => ascending_numbered (fun _ => rfl) t 1001)
    (churnedPages_honest (fun _ _ => rfl) rfl) (churnedPages_runs numberedPool rfl)).1 _ rfl
  have drepIds := (dreps _ _ _ (fun t => ascending_numbered (fun _ => rfl) t 1001)
    (churnedPages_honest (fun _ _ => rfl) rfl) (churnedPages_runs numberedDrep rfl)).1 _ rfl
  rw [List.map_append, numberedPools_ids, numberedPools_ids, List.range'_append_1] at poolIds
  rw [numberedDreps_kept, numberedDreps_kept] at drepIds
  exact ⟨poolIds, drepIds⟩

end Churned

end WalletBackend.Koios
