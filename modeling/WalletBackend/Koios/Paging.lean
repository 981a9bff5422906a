import WalletBackend.Koios.Client
import Mathlib.Data.List.Nodup
import Mathlib.Data.Prod.Lex

/-! The paged batch read of the Koios client: a walk over explicit pages, by offset
or by keyset, and the second walk that verifies a keyed result. -/
namespace WalletBackend.Koios
open Interaction

def KOIOS_PAGE_SIZE : Nat := 1000
def KOIOS_MAX_PAGED_ROWS : Nat := 100000

/-- Which rows of the ordered result a page request asks for: `offset`, or the rows
after a cursor of transaction hash and index. -/
inductive Window (Hash : Type) where
  | offset (start : Nat)
  | keyset (after : Option (Hash × Nat))
  deriving DecidableEq

/-- A page request: the path with its order, the serialized body, the window. -/
structure PageRequest (Hash : Type) where
  path : String
  body : String
  window : Window Hash
  deriving DecidableEq

/-- A page whose rows passed the row schema. -/
structure PageResponse (Row : Type) where
  rows : List Row
  status : Nat
  contentRange : Option String

/-- PostgREST's answer to a request for `limit` rows from `start` on, computed from
`listing` with an exact count, or a failure. -/
def ServesPage (limit : Nat) {Row : Type} (listing : List Row) (start : Nat) :
    Except Failure (PageResponse Row) → Prop
  | .error _ => True
  | .ok response =>
      response.rows = (listing.drop start).take limit ∧
      response.contentRange = some (renderRange start response.rows.length listing.length) ∧
      (start + response.rows.length < listing.length → response.status = 206)

/-- A program reading pages. -/
abbrev PagedRead (Row Hash α : Type) :=
  Async (fun _ : PageRequest Hash => Except Failure (PageResponse Row)) Failure α

abbrev PageExchange (T Row Hash : Type) :=
  Exchange T fun _ : PageRequest Hash => Except Failure (PageResponse Row)

variable {Row Hash T : Type}

def requestPage (request : PageRequest Hash) : PagedRead Row Hash (PageResponse Row) := do
  Async.ofExcept (← Async.ask request)

theorem requestPage_runs {request : PageRequest Hash} {trace : List (PageExchange T Row Hash)}
    {response : PageResponse Row} :
    (requestPage request).Runs trace (.ok response) ↔ ∃ t, trace = [⟨t, request, .ok response⟩] := by
  simp only [requestPage, Async.runs_bind_ok, Async.runs_ask, Async.runs_ofExcept]
  constructor
  · rintro ⟨_, _, _, rfl, ⟨t, r, rfl, same⟩, rfl, rfl⟩
    cases same
    exact ⟨t, rfl⟩
  · rintro ⟨t, rfl⟩
    exact ⟨_, [], _, rfl, ⟨t, _, rfl, rfl⟩, rfl, rfl⟩

structure PagedBatchResult (Row : Type) where
  rows : List Row
  keys : List String
  total : Nat
  pageCount : Nat

structure PagedBatchOptions (Row Hash : Type) where
  rowKey : Option (Row → String)
  keyset : Option (Row → Hash × Nat)
  verifyConsistency : Bool

/-- The local variables of `walkBatchPages`. -/
structure PageWalk (Row Hash : Type) where
  rows : List Row
  keys : List String
  seenKeys : List String
  expectedStart : Nat
  expectedTotal : Option Nat
  pageCount : Nat
  lastCursor : Option (Hash × Nat)

def PageWalk.start : PageWalk Row Hash where
  rows := []
  keys := []
  seenKeys := []
  expectedStart := 0
  expectedTotal := none
  pageCount := 0
  lastCursor := none

/-- What a page makes of the walk. -/
inductive PageStep (Row Hash : Type) where
  | done (result : PagedBatchResult Row)
  | more (walk : PageWalk Row Hash)

/-- `if (condition) throw new MalformedUpstreamError(message)`. -/
def refuse (condition : Prop) [Decidable condition] (message : String) : Except Failure Unit :=
  if condition then .error (.malformed message) else .ok ()

@[simp] theorem refuse_ok {condition : Prop} [Decidable condition] {message : String} {u : Unit} :
    refuse condition message = .ok u ↔ ¬ condition := by
  unfold refuse
  split <;> simp [*]

theorem bind_ok {α β : Type} {x : Except Failure α} {next : α → Except Failure β} {b : β} :
    (x >>= next) = .ok b ↔ ∃ a, x = .ok a ∧ next a = .ok b := by
  cases x with
  | error e => simp [bind, Except.bind]
  | ok a => simp [bind, Except.bind]

namespace PageWalk

def noteKey (path : String) (walk : PageWalk Row Hash) (key : String) :
    Except Failure (PageWalk Row Hash) := do
  refuse (key ∈ walk.seenKeys) s!"koios returned a duplicate row across pages for {path}"
  pure { walk with seenKeys := key :: walk.seenKeys, keys := walk.keys ++ [key] }

def noteKeys (path : String) : PageWalk Row Hash → List String → Except Failure (PageWalk Row Hash)
  | walk, [] => .ok walk
  | walk, key :: keys => do noteKeys path (← noteKey path walk key) keys

/-- The keys a page adds; without a row key, none. -/
def keysOf (rowKey : Option (Row → String)) (page : List Row) : List String :=
  match rowKey with
  | none => []
  | some rowKey => page.map rowKey

/-- `appendPage(page)`. -/
def appendPage (path : String) (rowKey : Option (Row → String)) (walk : PageWalk Row Hash)
    (page : List Row) : Except Failure (PageWalk Row Hash) := do
  let walk ← walk.noteKeys path (keysOf rowKey page)
  pure { walk with rows := walk.rows ++ page }

variable {path : String}

theorem noteKey_ok {walk next : PageWalk Row Hash} {key : String} :
    noteKey path walk key = .ok next ↔ key ∉ walk.seenKeys ∧
      next = { walk with seenKeys := key :: walk.seenKeys, keys := walk.keys ++ [key] } := by
  simp only [noteKey, bind_ok, refuse_ok, pure, Except.pure, Except.ok.injEq]
  exact ⟨fun ⟨_, fresh, same⟩ => ⟨fresh, same.symm⟩, fun ⟨fresh, same⟩ => ⟨(), fresh, same.symm⟩⟩

/-- The keys recorded are those seen, none of them twice. -/
structure Distinct (walk : PageWalk Row Hash) : Prop where
  mem_seen : ∀ key, key ∈ walk.seenKeys ↔ key ∈ walk.keys
  nodup : walk.keys.Nodup

theorem noteKeys_ok {walk next : PageWalk Row Hash} {keys : List String}
    (ok : noteKeys path walk keys = .ok next) :
    next = { walk with keys := walk.keys ++ keys, seenKeys := next.seenKeys } ∧
      (walk.Distinct → next.Distinct) := by
  induction keys generalizing walk with
  | nil =>
    cases ok
    exact ⟨by simp, id⟩
  | cons key keys ih =>
    obtain ⟨noted, first, rest⟩ := bind_ok.mp ok
    obtain ⟨fresh, rfl⟩ := noteKey_ok.mp first
    obtain ⟨same, keep⟩ := ih rest
    refine ⟨by simpa using same, fun distinct => keep ⟨by simp [distinct.mem_seen, or_comm], ?_⟩⟩
    refine List.nodup_append.mpr ⟨distinct.nodup, by simp, ?_⟩
    rintro a member b single rfl
    rw [List.mem_singleton.mp single, ← distinct.mem_seen] at member
    exact fresh member

/-- Fresh keys are recorded. -/
theorem noteKeys_of_nodup {walk : PageWalk Row Hash} {keys : List String}
    (distinct : walk.Distinct) (fresh : (walk.keys ++ keys).Nodup) :
    ∃ next, noteKeys path walk keys = .ok next := by
  induction keys generalizing walk with
  | nil => exact ⟨walk, rfl⟩
  | cons key keys ih =>
    have unseen : key ∉ walk.seenKeys := fun seen =>
      (List.nodup_append.mp fresh).2.2 _ ((distinct.mem_seen key).mp seen) _ List.mem_cons_self rfl
    let noted : PageWalk Row Hash :=
      { walk with seenKeys := key :: walk.seenKeys, keys := walk.keys ++ [key] }
    have step : noteKey path walk key = .ok noted := noteKey_ok.mpr ⟨unseen, rfl⟩
    have alone : noteKeys path walk [key] = .ok noted := bind_ok.mpr ⟨noted, step, rfl⟩
    obtain ⟨next, rest⟩ := ih ((noteKeys_ok alone).2 distinct) (by simpa [noted] using fresh)
    exact ⟨next, bind_ok.mpr ⟨noted, step, rest⟩⟩

theorem appendPage_ok {rowKey : Option (Row → String)} {walk next : PageWalk Row Hash}
    {page : List Row} (ok : walk.appendPage path rowKey page = .ok next) :
    next = { walk with rows := walk.rows ++ page, keys := walk.keys ++ keysOf rowKey page
                       seenKeys := next.seenKeys } ∧ (walk.Distinct → next.Distinct) := by
  obtain ⟨noted, keys, same⟩ := bind_ok.mp ok
  cases same
  obtain ⟨same, keep⟩ := noteKeys_ok keys
  exact ⟨by rw [same], fun distinct => ⟨(keep distinct).mem_seen, (keep distinct).nodup⟩⟩

theorem appendPage_of_nodup {rowKey : Option (Row → String)} {walk : PageWalk Row Hash}
    {page : List Row} (distinct : walk.Distinct)
    (fresh : (walk.keys ++ keysOf rowKey page).Nodup) :
    ∃ next, walk.appendPage path rowKey page = .ok next := by
  obtain ⟨noted, keys⟩ : ∃ noted, noteKeys path walk (keysOf rowKey page) = .ok noted :=
    noteKeys_of_nodup distinct fresh
  exact ⟨_, bind_ok.mpr ⟨noted, keys, rfl⟩⟩

def result (walk : PageWalk Row Hash) (total : Nat) : PagedBatchResult Row where
  rows := walk.rows
  keys := walk.keys
  total := total
  pageCount := walk.pageCount

/-- The window of the next request. -/
def window (keyset : Option (Row → Hash × Nat)) (walk : PageWalk Row Hash) : Window Hash :=
  match keyset with
  | none => .offset walk.expectedStart
  | some _ => .keyset walk.lastCursor

end PageWalk

section Pages

variable [LinearOrder Hash] (path : String) (rowKey : Option (Row → String))
  (keyset : Option (Row → Hash × Nat))

/-- The page after `last` must end after it. -/
def notAfter (cursor last : Hash × Nat) : Prop :=
  cursor.1 < last.1 ∨ (cursor.1 = last.1 ∧ cursor.2 ≤ last.2)

instance (cursor last : Hash × Nat) : Decidable (notAfter cursor last) :=
  inferInstanceAs (Decidable (_ ∨ _))

/-- The cursor after `page`. -/
def advance (last : Option (Hash × Nat)) (page : List Row) : Except Failure (Option (Hash × Nat)) :=
  match keyset, page.getLast? with
  | some keyset, some row => do
      let cursor := keyset row
      refuse (last.any fun last => notAfter cursor last)
        s!"koios returned a non-advancing keyset page for {path}"
      pure (some cursor)
  | _, _ => pure last

/-- A page without `Content-Range`: acceptable only as a short, complete answer. -/
def takeBare (walk : PageWalk Row Hash) (response : PageResponse Row) :
    Except Failure (PageStep Row Hash) := do
  let page := response.rows
  refuse (keyset.isSome ∧ (KOIOS_PAGE_SIZE ≤ page.length ∨ walk.lastCursor.isSome))
    s!"koios omitted Content-Range from a keyset response for {path}"
  refuse (response.status = 206 ∨ walk.expectedStart ≠ 0)
    s!"koios omitted Content-Range from a partial response for {path}"
  refuse (KOIOS_PAGE_SIZE ≤ page.length)
    s!"koios returned a full page without Content-Range for {path}"
  let walk ← walk.appendPage path rowKey page
  pure (.done (walk.result walk.rows.length))

/-- A page whose range says that nothing matches. -/
def takeEmpty (walk : PageWalk Row Hash) (page : List Row) (total : Nat) :
    Except Failure (PageStep Row Hash) := do
  let expectedEmptyTotal := if keyset.isNone then walk.expectedStart else 0
  refuse ((keyset.isSome ∧ walk.lastCursor.isSome) ∨ page.length ≠ 0 ∨ total ≠ expectedEmptyTotal)
    s!"koios returned a contradictory empty Content-Range on {path}"
  pure (.done (walk.result (if keyset.isNone then total else walk.rows.length)))

/-- A page that spans rows `start` to `last` of `total`. A keyset page starts at
zero and counts only the rows left after the cursor. -/
def takeSpan (walk : PageWalk Row Hash) (response : PageResponse Row) (start last total : Nat) :
    Except Failure (PageStep Row Hash) := do
  let page := response.rows
  refuse ((start ≠ walk.expectedStart ∨ page.length ≠ last - start + 1) ∧
      ¬ (keyset.isSome ∧ start = 0 ∧ page.length = last + 1))
    s!"koios returned a non-contiguous page for {path}"
  let lastCursor ← advance path keyset walk.lastCursor page
  refuse (keyset.isNone ∧ walk.expectedTotal.any (total ≠ ·))
    s!"koios returned a non-contiguous page for {path}"
  let pagedRows :=
    if keyset.isSome ∧ walk.pageCount = 1 then total
    else if keyset.isNone then total
    else walk.rows.length + page.length
  refuse (KOIOS_MAX_PAGED_ROWS < pagedRows)
    s!"koios paged result exceeds {KOIOS_MAX_PAGED_ROWS} rows for {path}"
  let walk ← { walk with lastCursor, expectedTotal := some total }.appendPage path rowKey page
  let walk := { walk with expectedStart := last + 1 }
  if keyset.isSome ∧ total ≤ page.length then pure (.done (walk.result walk.rows.length))
  else if keyset.isNone ∧ walk.expectedStart = total then pure (.done (walk.result total))
  else do
    refuse (response.status ≠ 206) s!"koios returned an incomplete successful response for {path}"
    pure (.more walk)

/-- One turn of the loop, from the response on. -/
def takePage (walk : PageWalk Row Hash) (response : PageResponse Row) :
    Except Failure (PageStep Row Hash) := do
  let walk := { walk with pageCount := walk.pageCount + 1 }
  match response.contentRange with
  | none => takeBare path rowKey keyset walk response
  | some value =>
    match ← parseContentRange value path with
    | .empty total => takeEmpty path keyset walk response.rows total
    | .span start last total _ _ => takeSpan path rowKey keyset walk response start last total

variable {path rowKey keyset}

/-- Everything a spanned page is checked for and does to the walk. -/
structure SpanTaken (path : String) (rowKey : Option (Row → String))
    (keyset : Option (Row → Hash × Nat)) (walk : PageWalk Row Hash) (response : PageResponse Row)
    (start last total : Nat) (next : PageWalk Row Hash) : Prop where
  contiguous : (start = walk.expectedStart ∧ response.rows.length = last - start + 1) ∨
    (keyset.isSome ∧ start = 0 ∧ response.rows.length = last + 1)
  cursor : advance path keyset walk.lastCursor response.rows = .ok next.lastCursor
  stable : keyset.isNone → ∀ announced ∈ walk.expectedTotal, total = announced
  bounded : (if keyset.isSome ∧ walk.pageCount = 1 then total else if keyset.isNone then total
    else walk.rows.length + response.rows.length) ≤ KOIOS_MAX_PAGED_ROWS
  rows : next.rows = walk.rows ++ response.rows
  keys : next.keys = walk.keys ++ PageWalk.keysOf rowKey response.rows
  distinct : walk.Distinct → next.Distinct
  start : next.expectedStart = last + 1
  total : next.expectedTotal = some total
  pageCount : next.pageCount = walk.pageCount

theorem takeSpan_ok {walk : PageWalk Row Hash} {response : PageResponse Row}
    {start last total : Nat} {step : PageStep Row Hash}
    (ok : takeSpan path rowKey keyset walk response start last total = .ok step) :
    ∃ next, SpanTaken path rowKey keyset walk response start last total next ∧
      ((keyset.isSome ∧ total ≤ response.rows.length ∧ step = .done (next.result next.rows.length)) ∨
       (keyset.isNone ∧ last + 1 = total ∧ step = .done (next.result total)) ∨
       (¬ (keyset.isSome ∧ total ≤ response.rows.length) ∧ ¬ (keyset.isNone ∧ last + 1 = total) ∧
        response.status = 206 ∧ step = .more next)) := by
  simp only [takeSpan, bind_ok, refuse_ok] at ok
  obtain ⟨_, contiguous, cursor, advanced, _, stable, _, bounded, appended, append, rest⟩ := ok
  obtain ⟨same, keep⟩ := PageWalk.appendPage_ok append
  refine ⟨{ appended with expectedStart := last + 1 }, ?_, ?_⟩
  · rw [same] at keep ⊢
    exact
      { contiguous := by
          rw [Classical.not_and_iff_not_or_not, not_or, Classical.not_not, Classical.not_not,
            Classical.not_not] at contiguous
          exact contiguous
        cursor := advanced
        stable := by
          intro offset announced member
          rw [member] at stable
          simpa [offset] using stable
        bounded := Nat.le_of_not_lt bounded
        rows := rfl
        keys := rfl
        distinct := fun distinct =>
          have kept := keep ⟨distinct.mem_seen, distinct.nodup⟩
          ⟨kept.mem_seen, kept.nodup⟩
        start := rfl
        total := rfl
        pageCount := rfl }
  · split at rest
    case isTrue complete =>
      cases rest
      exact .inl ⟨complete.1, complete.2, rfl⟩
    case isFalse left =>
      split at rest
      case isTrue complete =>
        cases rest
        exact .inr (.inl ⟨complete.1, complete.2, rfl⟩)
      case isFalse left' =>
        obtain ⟨_, partly, done⟩ := bind_ok.mp rest
        cases done
        exact .inr (.inr ⟨left, left', by simpa using partly, rfl⟩)

/-- A span in place, within the bounds and with fresh keys is not refused. -/
theorem takeSpan_isOk {walk : PageWalk Row Hash} {response : PageResponse Row}
    {cursor : Option (Hash × Nat)} {start total : Nat} (some_ : 0 < response.rows.length)
    (contiguous : start = walk.expectedStart ∨ keyset.isSome ∧ start = 0)
    (advanced : advance path keyset walk.lastCursor response.rows = .ok cursor)
    (stable : keyset.isNone → ∀ announced ∈ walk.expectedTotal, total = announced)
    (bounded : (if keyset.isSome ∧ walk.pageCount = 1 then total else if keyset.isNone then total
      else walk.rows.length + response.rows.length) ≤ KOIOS_MAX_PAGED_ROWS)
    (distinct : walk.Distinct)
    (fresh : (walk.keys ++ PageWalk.keysOf rowKey response.rows).Nodup)
    (partly : ¬ (keyset.isSome ∧ total ≤ response.rows.length) →
      ¬ (keyset.isNone ∧ start + response.rows.length = total) → response.status = 206) :
    ∃ step, takeSpan path rowKey keyset walk response start (start + response.rows.length - 1) total =
      .ok step := by
  have inPlace : ¬ ((start ≠ walk.expectedStart ∨
      response.rows.length ≠ start + response.rows.length - 1 - start + 1) ∧
        ¬ (keyset.isSome ∧ start = 0 ∧
          response.rows.length = start + response.rows.length - 1 + 1)) := by
    rintro ⟨misplaced, unkeyed⟩
    obtain same | ⟨keyed, first⟩ := contiguous
    · obtain other | short := misplaced
      · exact other same
      · omega
    · exact unkeyed ⟨keyed, first, by omega⟩
  have unchanged : ¬ (keyset.isNone ∧ walk.expectedTotal.any (total ≠ ·)) := by
    rintro ⟨offset, changed⟩
    cases known : walk.expectedTotal with
    | none => simp [known] at changed
    | some announced => simp [known, stable offset announced known] at changed
  let moved : PageWalk Row Hash := { walk with lastCursor := cursor, expectedTotal := some total }
  obtain ⟨appended, append⟩ : ∃ appended, moved.appendPage path rowKey response.rows = .ok appended :=
    PageWalk.appendPage_of_nodup ⟨distinct.mem_seen, distinct.nodup⟩ fresh
  let after : PageWalk Row Hash :=
    { appended with expectedStart := start + response.rows.length - 1 + 1 }
  obtain ⟨step, ends⟩ : ∃ step, (if keyset.isSome ∧ total ≤ response.rows.length then
        pure (.done (after.result after.rows.length))
      else if keyset.isNone ∧ after.expectedStart = total then pure (.done (after.result total))
      else do
        refuse (response.status ≠ 206) s!"koios returned an incomplete successful response for {path}"
        pure (.more after) : Except Failure (PageStep Row Hash)) = .ok step := by
    split
    case isTrue => exact ⟨_, rfl⟩
    case isFalse keyed =>
      split
      case isTrue => exact ⟨_, rfl⟩
      case isFalse offset =>
        have more : response.status = 206 := partly keyed fun whole =>
          offset ⟨whole.1, (Nat.sub_add_cancel (by omega)).trans whole.2⟩
        exact ⟨.more after, bind_ok.mpr ⟨(), refuse_ok.mpr (not_not.mpr more), rfl⟩⟩
  exact ⟨step, bind_ok.mpr ⟨(), refuse_ok.mpr inPlace, bind_ok.mpr ⟨cursor, advanced,
    bind_ok.mpr ⟨(), refuse_ok.mpr unchanged, bind_ok.mpr ⟨(),
      refuse_ok.mpr (Nat.not_lt.mpr bounded), bind_ok.mpr ⟨appended, append, ends⟩⟩⟩⟩⟩⟩

/-- A page in place, within the bounds and with fresh keys is taken. -/
theorem takePage_taken {walk : PageWalk Row Hash} {response : PageResponse Row}
    {cursor : Option (Hash × Nat)} {start total : Nat}
    (range : response.contentRange = some (renderRange start response.rows.length total))
    (some_ : 0 < response.rows.length) (within : start + response.rows.length ≤ total)
    (safe : total ≤ maxSafeInteger)
    (contiguous : start = walk.expectedStart ∨ keyset.isSome ∧ start = 0)
    (advanced : advance path keyset walk.lastCursor response.rows = .ok cursor)
    (stable : keyset.isNone → ∀ announced ∈ walk.expectedTotal, total = announced)
    (bounded : (if keyset.isSome ∧ walk.pageCount + 1 = 1 then total else if keyset.isNone then total
      else walk.rows.length + response.rows.length) ≤ KOIOS_MAX_PAGED_ROWS)
    (distinct : walk.Distinct)
    (fresh : (walk.keys ++ PageWalk.keysOf rowKey response.rows).Nodup)
    (partly : ¬ (keyset.isSome ∧ total ≤ response.rows.length) →
      ¬ (keyset.isNone ∧ start + response.rows.length = total) → response.status = 206) :
    ∃ next, SpanTaken path rowKey keyset { walk with pageCount := walk.pageCount + 1 } response
        start (start + response.rows.length - 1) total next ∧
      ((keyset.isSome ∧ total ≤ response.rows.length ∧
          takePage path rowKey keyset walk response = .ok (.done (next.result next.rows.length))) ∨
        (keyset.isNone ∧ start + response.rows.length = total ∧
          takePage path rowKey keyset walk response = .ok (.done (next.result total))) ∨
        (¬ (keyset.isSome ∧ total ≤ response.rows.length) ∧
          ¬ (keyset.isNone ∧ start + response.rows.length = total) ∧
          takePage path rowKey keyset walk response = .ok (.more next))) := by
  have parsed := parseContentRange_span start (start + response.rows.length - 1) total path
  rw [dif_pos ⟨safe, by omega, by omega⟩] at parsed
  have rendered : renderRange start response.rows.length total =
      renderSpan start (start + response.rows.length - 1) total := if_neg (by omega)
  have spanned : takePage path rowKey keyset walk response =
      takeSpan path rowKey keyset { walk with pageCount := walk.pageCount + 1 } response start
        (start + response.rows.length - 1) total := by
    simp only [takePage, range, rendered, parsed, bind, Except.bind]
  have taken : ∃ step, takeSpan path rowKey keyset { walk with pageCount := walk.pageCount + 1 }
      response start (start + response.rows.length - 1) total = .ok step :=
    takeSpan_isOk some_ contiguous advanced stable bounded ⟨distinct.mem_seen, distinct.nodup⟩ fresh
      partly
  obtain ⟨step, ok⟩ := taken
  obtain ⟨next, span, verdict⟩ := takeSpan_ok ok
  have ends : start + response.rows.length - 1 + 1 = start + response.rows.length := by omega
  rw [ends] at verdict
  refine ⟨next, span, ?_⟩
  rw [spanned, ok]
  obtain ⟨keyed, whole, rfl⟩ | ⟨offset, whole, rfl⟩ | ⟨left, left', -, rfl⟩ := verdict
  · exact .inl ⟨keyed, whole, rfl⟩
  · exact .inr (.inl ⟨offset, whole, rfl⟩)
  · exact .inr (.inr ⟨left, left', rfl⟩)

/-- Only a spanned partial page keeps the walk going. -/
theorem takePage_more {walk next : PageWalk Row Hash} {response : PageResponse Row}
    (ok : takePage path rowKey keyset walk response = .ok (.more next)) :
    ∃ start last total, start ≤ last ∧ last < total ∧
      SpanTaken path rowKey keyset { walk with pageCount := walk.pageCount + 1 } response
        start last total next ∧
      ¬ (keyset.isSome ∧ total ≤ response.rows.length) ∧ ¬ (keyset.isNone ∧ last + 1 = total) ∧
      response.status = 206 := by
  unfold takePage at ok
  cases range : response.contentRange with
  | none =>
    simp only [range, takeBare, bind_ok, refuse_ok] at ok
    obtain ⟨_, -, _, -, _, -, _, -, same⟩ := ok
    cases same
  | some value =>
    simp only [range, bind_ok] at ok
    obtain ⟨parsed, -, taken⟩ := ok
    cases parsed with
    | empty total =>
      simp only [takeEmpty, bind_ok, refuse_ok] at taken
      obtain ⟨_, -, same⟩ := taken
      cases same
    | span start last total ordered within =>
      obtain ⟨after, span, verdict⟩ := takeSpan_ok taken
      obtain ⟨-, -, same⟩ | ⟨-, -, same⟩ | ⟨left, left', partly, same⟩ := verdict
      · cases same
      · cases same
      · cases same
        exact ⟨start, last, total, ordered, within, span, left, left', partly⟩

/-- Pages the walk can still take: each brings at least one row, and no walk is
allowed past the row bound. -/
def PageWalk.budget (keyset : Option (Row → Hash × Nat)) (walk : PageWalk Row Hash) : Nat :=
  if walk.pageCount = 0 then KOIOS_MAX_PAGED_ROWS + 1
  else KOIOS_MAX_PAGED_ROWS - (if keyset.isSome then walk.rows.length else walk.expectedStart)

theorem takePage_budget {walk next : PageWalk Row Hash} {response : PageResponse Row}
    (ok : takePage path rowKey keyset walk response = .ok (.more next)) :
    next.budget keyset < walk.budget keyset := by
  obtain ⟨start, last, total, ordered, within, span, left, -, -⟩ := takePage_more ok
  have grown : next.rows.length = walk.rows.length + response.rows.length := by
    rw [span.rows, List.length_append]
  have begun : next.pageCount ≠ 0 := by rw [span.pageCount]; exact Nat.succ_ne_zero _
  have moved := span.start
  have bounded := span.bounded
  have contiguous := span.contiguous
  simp only [PageWalk.budget, if_neg begun]
  cases keyset with
  | none =>
    simp only [Option.isSome_none, Bool.false_eq_true, false_and, or_false, if_false,
      Option.isNone_none, if_true] at bounded contiguous ⊢
    split <;> omega
  | some keyset =>
    simp only [Option.isSome_some, true_and, Option.isNone_some, Bool.false_eq_true, if_false,
      if_true] at bounded contiguous ⊢
    split <;> split at bounded <;> omega

section Walk

variable (path body : String) (rowKey : Option (Row → String)) (keyset : Option (Row → Hash × Nat))

/-- The loop of `walkBatchPages`. -/
def walkPages (walk : PageWalk Row Hash) : PagedRead Row Hash (PagedBatchResult Row) :=
  requestPage ⟨path, body, walk.window keyset⟩ >>= fun response =>
    match _taken : takePage path rowKey keyset walk response with
    | .error e => throw e
    | .ok (.done result) => pure result
    | .ok (.more next) => walkPages next
termination_by walk.budget keyset
decreasing_by exact takePage_budget _taken

def walkBatchPages : PagedRead Row Hash (PagedBatchResult Row) :=
  walkPages path body rowKey keyset .start

def sameMembership (first second : PagedBatchResult Row) : Bool :=
  first.total = second.total && first.keys = second.keys

def batchAllPages (attempts : ReadAttempts) (options : PagedBatchOptions Row Hash) :
    PagedRead Row Hash (List Row) :=
  if options.verifyConsistency ∧ options.rowKey.isNone then
    throw (.typeError s!"koios consistency verification requires a row-key function for {path}")
  else
    read attempts do
      let first ← walkBatchPages path body options.rowKey options.keyset
      if first.pageCount = 1 ∨ options.rowKey.isNone ∨ ¬ options.verifyConsistency ∨
          options.keyset.isSome then pure first.rows
      else
        let second ← walkBatchPages path body options.rowKey none
        if sameMembership first second then pure second.rows
        else throw (.malformed
          s!"koios changed the paged result between consistency passes for {path}")

end Walk

section Runs

variable {path body : String} {rowKey : Option (Row → String)}
  {keyset : Option (Row → Hash × Nat)}

/-- A walk that returns has taken one page, and either it was the last one or the
walk went on from what it made of it. -/
theorem walkPages_runs {walk : PageWalk Row Hash} {trace : List (PageExchange T Row Hash)}
    {result : PagedBatchResult Row} :
    (walkPages path body rowKey keyset walk).Runs trace (.ok result) ↔
      ∃ t response rest, trace = ⟨t, ⟨path, body, walk.window keyset⟩, .ok response⟩ :: rest ∧
        ((takePage path rowKey keyset walk response = .ok (.done result) ∧ rest = []) ∨
         ∃ next, takePage path rowKey keyset walk response = .ok (.more next) ∧
          (walkPages path body rowKey keyset next).Runs rest (.ok result)) := by
  rw [walkPages, Async.runs_bind_ok]
  constructor
  · rintro ⟨_, rest, response, rfl, asked, tail⟩
    obtain ⟨t, rfl⟩ := requestPage_runs.mp asked
    refine ⟨t, response, rest, rfl, ?_⟩
    split at tail
    · exact nomatch tail.2
    case h_2 taken =>
      obtain ⟨rfl, same⟩ := tail
      cases same
      exact .inl ⟨taken, rfl⟩
    case h_3 next taken => exact .inr ⟨next, taken, tail⟩
  · rintro ⟨t, response, rest, rfl, verdict⟩
    refine ⟨[_], rest, response, rfl, requestPage_runs.mpr ⟨t, rfl⟩, ?_⟩
    obtain ⟨taken, rfl⟩ | ⟨next, taken, tail⟩ := verdict
    · split
      case h_2 taken' =>
        rw [taken] at taken'
        cases taken'
        exact ⟨rfl, rfl⟩
      all_goals simp_all
    · split
      case h_3 taken' =>
        rw [taken] at taken'
        cases taken'
        exact tail
      all_goals simp_all

/-- Induction over the pages of a walk that returns. -/
theorem walkPages_induct
    {motive : PageWalk Row Hash → List (PageExchange T Row Hash) → PagedBatchResult Row → Prop}
    (done : ∀ walk t response result,
      takePage path rowKey keyset walk response = .ok (.done result) →
      motive walk [⟨t, ⟨path, body, walk.window keyset⟩, .ok response⟩] result)
    (more : ∀ walk t response next rest result,
      takePage path rowKey keyset walk response = .ok (.more next) → motive next rest result →
      motive walk (⟨t, ⟨path, body, walk.window keyset⟩, .ok response⟩ :: rest) result)
    {walk : PageWalk Row Hash} {trace : List (PageExchange T Row Hash)}
    {result : PagedBatchResult Row}
    (runs : (walkPages path body rowKey keyset walk).Runs trace (.ok result)) :
    motive walk trace result := by
  induction trace generalizing walk with
  | nil =>
    obtain ⟨_, _, _, absurd, -⟩ := walkPages_runs.mp runs
    cases absurd
  | cons x trace ih =>
    obtain ⟨t, response, rest, same, verdict⟩ := walkPages_runs.mp runs
    cases same
    obtain ⟨taken, rfl⟩ | ⟨next, taken, tail⟩ := verdict
    · exact done walk t response result taken
    · exact more walk t response next trace result taken (ih tail)

end Runs
end Pages
end WalletBackend.Koios
