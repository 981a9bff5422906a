import WalletBackend.Blockfrost.Client

/-! The walk of an offset-paged list, `collectPages` of `pagination.ts`. -/
namespace WalletBackend.Blockfrost
open Interaction

def DEFAULT_PAGE_SIZE : Nat := 100
def DEFAULT_MAX_PAGES : Nat := 500

/-- What a walk is over: the request of one page at its path, and the text that names
the list in the error. -/
structure PagedList (Row : Type) where
  basePath : String
  fetch : (page : Nat) → (path : String) → Read (List Row)
  label : String

namespace PagedList

variable {Row : Type} (list : PagedList Row)

def pageAt (pageSize page : Nat) : String :=
  let sep := if '?' ∈ list.basePath.toList then "&" else "?"
  s!"{list.basePath}{sep}count={pageSize}&page={page}"

def exceeded (pageSize maxPages : Nat) : Failure :=
  .plain (s!"blockfrost {list.label} exceeds this provider's " ++
    s!"{maxPages * pageSize}-row scan bound")

/-- The pages from `page` on, of which `remaining` are permitted. -/
def collectFrom (needed : Option Nat) (pageSize maxPages : Nat) :
    (remaining page : Nat) → List Row → Read (List Row)
  | 0, _, rows => do
      let probe ← list.fetch (maxPages + 1) (list.pageAt pageSize (maxPages + 1))
      if probe.length = 0 then pure rows else throw (list.exceeded pageSize maxPages)
  | remaining + 1, page, rows => do
      let batch ← list.fetch page (list.pageAt pageSize page)
      let rows := rows ++ batch
      -- A short page is the end of the list upstream.
      if batch.length < pageSize then pure rows
      else if needed.any (· ≤ rows.length) then pure rows
      else collectFrom needed pageSize maxPages remaining (page + 1) rows

end PagedList

/-- `collectPages` with the default page size and bound; `needed` is `none` for a read to
the end. -/
def collectPages {Row : Type} (list : PagedList Row) (needed : Option Nat) : Read (List Row) :=
  list.collectFrom needed DEFAULT_PAGE_SIZE DEFAULT_MAX_PAGES DEFAULT_MAX_PAGES 1 []

namespace PagedList

variable {Row T : Type} {list : PagedList Row}

/-- What was asked for one page, and the rows that it has. -/
structure PageRead (T Row : Type) where
  trace : List (Exchange T Endpoint.Answer)
  rows : List Row

/-- The reads are of consecutive pages from `page` on. -/
def Reads (list : PagedList Row) (page : Nat) (reads : List (PageRead T Row)) : Prop :=
  ∀ i read, reads[i]? = some read → ∃ path, (list.fetch (page + i) path).Runs read.trace (.ok read.rows)

theorem reads_cons {page : Nat} {read : PageRead T Row} {reads : List (PageRead T Row)} {path : String}
    (fetched : (list.fetch page path).Runs read.trace (.ok read.rows))
    (rest : list.Reads (page + 1) reads) : list.Reads page (read :: reads) := by
  intro i read' found
  cases i with
  | zero =>
    cases found
    exact ⟨path, fetched⟩
  | succ i =>
    obtain ⟨path', fetched'⟩ := rest i read' found
    rw [Nat.add_right_comm] at fetched'
    exact ⟨path', fetched'⟩

/-- A walk that returns has read pages one after the other and returns all their rows. -/
theorem collectFrom_reads {needed : Option Nat} {pageSize maxPages remaining page : Nat}
    (counted : page + remaining = maxPages + 1) {rows result : List Row}
    {trace : List (Exchange T Endpoint.Answer)}
    (runs : (list.collectFrom needed pageSize maxPages remaining page rows).Runs trace (.ok result)) :
    ∃ reads : List (PageRead T Row), list.Reads page reads ∧
      trace = reads.flatMap PageRead.trace ∧ result = rows ++ reads.flatMap PageRead.rows := by
  induction remaining generalizing page rows trace with
  | zero =>
    rw [collectFrom, Async.runs_bind_ok] at runs
    obtain ⟨first, rest, probe, rfl, fetched, returned⟩ := runs
    obtain rfl : page = maxPages + 1 := counted
    split at returned
    case isTrue nothing =>
      obtain ⟨rfl, same⟩ := returned
      cases same
      refine ⟨[⟨first, probe⟩], reads_cons fetched nofun, ?_, ?_⟩
      · rw [List.flatMap_singleton]
        exact List.append_nil first
      · rw [List.flatMap_singleton, List.length_eq_zero_iff.mp nothing, List.append_nil]
    case isFalse => cases returned.2
  | succ remaining ih =>
    rw [collectFrom, Async.runs_bind_ok] at runs
    obtain ⟨first, rest, batch, rfl, fetched, continued⟩ := runs
    dsimp only at continued
    have done : ∀ {trace : List (Exchange T Endpoint.Answer)},
        (pure (rows ++ batch) : Read (List Row)).Runs trace (.ok result) →
        ∃ reads : List (PageRead T Row), list.Reads page reads ∧
          first ++ trace = reads.flatMap PageRead.trace ∧
            result = rows ++ reads.flatMap PageRead.rows := by
      rintro trace ⟨rfl, same⟩
      cases same
      refine ⟨[⟨first, batch⟩], reads_cons fetched nofun, ?_, ?_⟩
      · rw [List.flatMap_singleton]
        exact List.append_nil first
      · rw [List.flatMap_singleton]
    split at continued
    · exact done continued
    · split at continued
      · exact done continued
      · obtain ⟨reads, pages, rfl, rfl⟩ := ih (by omega) continued
        refine ⟨⟨first, batch⟩ :: reads, reads_cons fetched pages, ?_, ?_⟩
        · rw [List.flatMap_cons]
        · rw [List.flatMap_cons, List.append_assoc]

theorem collectPages_reads {needed : Option Nat} {trace : List (Exchange T Endpoint.Answer)}
    {result : List Row} (runs : (collectPages list needed).Runs trace (.ok result)) :
    ∃ reads : List (PageRead T Row), list.Reads 1 reads ∧
      trace = reads.flatMap PageRead.trace ∧ result = reads.flatMap PageRead.rows := by
  have counted : 1 + DEFAULT_MAX_PAGES = DEFAULT_MAX_PAGES + 1 := Nat.add_comm ..
  obtain ⟨reads, walked, asked, rfl⟩ := collectFrom_reads counted runs
  exact ⟨reads, walked, asked, List.nil_append _⟩

end PagedList

section Runs

variable {Row T : Type} {list : PagedList Row} {needed : Option Nat}
  {trace rest : List (Exchange T Endpoint.Answer)} {batch result : List Row}

/-- The walk ends with a page that is short. -/
theorem runs_collectFrom_short {pageSize maxPages remaining page : Nat} {rows : List Row}
    (fetched : (list.fetch page (list.pageAt pageSize page)).Runs trace (.ok batch))
    (short : batch.length < pageSize) :
    (list.collectFrom needed pageSize maxPages (remaining + 1) page rows).Runs trace
      (.ok (rows ++ batch)) := by
  rw [PagedList.collectFrom, Async.runs_bind_ok]
  refine ⟨trace, [], batch, (List.append_nil trace).symm, fetched, ?_⟩
  simp only [if_pos short]
  exact ⟨rfl, rfl⟩

/-- A first page that is short is the list. -/
theorem runs_collectPages
    (fetched : (list.fetch 1 (list.pageAt DEFAULT_PAGE_SIZE 1)).Runs trace (.ok batch))
    (short : batch.length < DEFAULT_PAGE_SIZE) :
    (collectPages list needed).Runs trace (.ok batch) := by
  change (list.collectFrom needed DEFAULT_PAGE_SIZE DEFAULT_MAX_PAGES (499 + 1) 1 []).Runs _ _
  exact runs_collectFrom_short fetched short

/-- A walk to the end goes on after a first page that is full. -/
theorem runs_collectPages_full
    (fetched : (list.fetch 1 (list.pageAt DEFAULT_PAGE_SIZE 1)).Runs trace (.ok batch))
    (full : ¬ batch.length < DEFAULT_PAGE_SIZE)
    (continued : (list.collectFrom none DEFAULT_PAGE_SIZE DEFAULT_MAX_PAGES 499 2 batch).Runs rest
      (.ok result)) : (collectPages list none).Runs (trace ++ rest) (.ok result) := by
  change (list.collectFrom none DEFAULT_PAGE_SIZE DEFAULT_MAX_PAGES (499 + 1) 1 []).Runs _ _
  rw [PagedList.collectFrom, Async.runs_bind_ok]
  refine ⟨trace, rest, batch, rfl, fetched, ?_⟩
  simp only [if_neg full, List.nil_append, Option.any_none, Bool.false_eq_true, if_false]
  exact continued

end Runs

end WalletBackend.Blockfrost
