import WalletBackend.Blockfrost.Pagination
import WalletBackend.Library.OffsetWalk

/-! What the walk of a list comes to where the list stays as it is. -/
namespace WalletBackend.Blockfrost
open Interaction OffsetPaging

variable {T Row : Type} {list : PagedList Row} {listing : List Row}
  {trace : List (Exchange T Endpoint.Answer)}

/-- A list of Blockfrost's that is read a hundred rows at a time. -/
def pagesOf (list : PagedList Row) : Source Endpoint.Answer Failure Row where
  fetch page := list.fetch page (list.pageAt DEFAULT_PAGE_SIZE page)
  pageSize := DEFAULT_PAGE_SIZE
  maxPages := DEFAULT_MAX_PAGES
  exceeded := list.exceeded DEFAULT_PAGE_SIZE DEFAULT_MAX_PAGES

/-- The rows that can be read of a list. -/
def inReach : Nat := DEFAULT_MAX_PAGES * DEFAULT_PAGE_SIZE

theorem collectFrom_eq {needed : Option Nat} {remaining page : Nat} {rows : List Row} :
    list.collectFrom needed DEFAULT_PAGE_SIZE DEFAULT_MAX_PAGES remaining page
      rows = (pagesOf list).walk (fun _ => true) needed remaining page rows := by
  induction remaining generalizing page rows with
  | zero => rfl
  | succ remaining ih =>
    simp only [PagedList.collectFrom, Source.walk, List.filter_true, ih, met]
    rfl

/-- A list that is in reach is read whole, unless a page of it cannot be had. -/
theorem collectPages_runs (tells : (pagesOf list).Tells listing trace)
    (few : listing.length ≤ inReach) {outcome : Except Failure (List Row)}
    (runs : (collectPages list none).Runs trace outcome) :
    (pagesOf list).Fails trace outcome ∨ outcome = .ok listing := by
  obtain ⟨kept, comes, -, whole⟩ := @Source.runs_collect _ _ _ _ (pagesOf list) (fun _ => true) none
    listing T (by decide : 0 < DEFAULT_PAGE_SIZE) (by decide : 0 < DEFAULT_MAX_PAGES) (.inl few)
  rw [← List.filter_true listing, ← whole.resolve_right (by simp)]
  rw [collectPages, collectFrom_eq] at runs
  exact comes trace outcome tells runs

/-- What a read returns is the whole list. -/
theorem collectPages_whole (tells : (pagesOf list).Tells listing trace) {rows : List Row}
    (runs : (collectPages list none).Runs trace (.ok rows)) : rows = listing := by
  have failed : ¬ (pagesOf list).Fails trace (.ok rows) := by
    rintro ⟨_, _, _, -, -, same⟩
    cases same
  by_cases few : listing.length ≤ inReach
  · exact Except.ok.inj ((collectPages_runs tells few runs).resolve_left failed)
  · rw [collectPages, collectFrom_eq] at runs
    have exceeds : ¬ (pagesOf list).Suffices (fun _ => true) none listing := by
      rintro (fits | ⟨n, none, -⟩)
      · exact few fits
      · cases none
    cases (Source.runs_collect_exceeded tells (by decide : 0 < DEFAULT_PAGE_SIZE) exceeds
      runs).resolve_left failed

end WalletBackend.Blockfrost
