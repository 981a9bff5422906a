import WalletBackend.Koios.Paging
import WalletBackend.Library.Requests

/-! The page walk against any upstream: how long it goes on, and what it returns. -/
namespace WalletBackend.Koios
open Interaction

variable {Row Hash T : Type} [LinearOrder Hash] {path body : String}
  {rowKey : Option (Row → String)} {keyset : Option (Row → Hash × Nat)}

/-- The total that a `Content-Range` announces. -/
def ContentRange.total : ContentRange → Nat
  | .empty total => total
  | .span _ _ total _ _ => total

/-- What the walk holds after these pages. -/
structure Walked (rowKey : Option (Row → String)) (keyset : Option (Row → Hash × Nat))
    (walk : PageWalk Row Hash) (pages : List (PageResponse Row)) : Prop where
  rows : walk.rows = pages.flatMap PageResponse.rows
  keys : walk.keys = PageWalk.keysOf rowKey walk.rows
  distinct : walk.Distinct
  bounded : walk.rows.length ≤ KOIOS_MAX_PAGED_ROWS
  offset : keyset.isNone → walk.rows.length = walk.expectedStart
  fresh : walk.pageCount = 0 ∨ walk.expectedStart = 0 ∨ keyset.isSome ∧ walk.lastCursor = none →
    walk.rows = []

/-- What a walk that returned after these pages has made of them. -/
structure Accounted (path : String) (rowKey : Option (Row → String))
    (keyset : Option (Row → Hash × Nat)) (pages : List (PageResponse Row))
    (result : PagedBatchResult Row) : Prop where
  rows : result.rows = pages.flatMap PageResponse.rows
  bounded : result.rows.length ≤ KOIOS_MAX_PAGED_ROWS
  distinct : ∀ key, rowKey = some key → (result.rows.map key).Nodup
  announced : ∀ last ∈ pages.getLast?, ∀ value, last.contentRange = some value →
    ∃ range, parseContentRange value path = .ok range ∧
      (keyset.isNone → result.rows.length = range.total) ∧
      (keyset.isSome → range.total ≤ last.rows.length)

omit [LinearOrder Hash] in
theorem start_walked : Walked rowKey keyset (PageWalk.start : PageWalk Row Hash) [] where
  rows := rfl
  keys := by cases rowKey <;> rfl
  distinct := ⟨fun _ => Iff.rfl, List.nodup_nil⟩
  bounded := Nat.zero_le _
  offset _ := rfl
  fresh _ := rfl

section Pages

variable {walk next : PageWalk Row Hash} {pages : List (PageResponse Row)}
  {response : PageResponse Row} {result : PagedBatchResult Row}

theorem keysOf_append (first rest : List Row) :
    PageWalk.keysOf rowKey (first ++ rest) =
      PageWalk.keysOf rowKey first ++ PageWalk.keysOf rowKey rest := by
  cases rowKey <;> simp [PageWalk.keysOf]

omit [LinearOrder Hash] in
/-- Distinct keys are what the result is checked for. -/
theorem Walked.distinct_rows (walked : Walked rowKey keyset walk pages) (key : Row → String)
    (same : rowKey = some key) : (walk.rows.map key).Nodup := by
  have nodup := walked.distinct.nodup
  rw [walked.keys, same] at nodup
  exact nodup

/-- A span has rows, and as many as it says. -/
theorem SpanTaken.length {start last total : Nat}
    (span : SpanTaken path rowKey keyset walk response start last total next)
    (ordered : start ≤ last) : 0 < response.rows.length ∧ response.rows.length ≤ last + 1 := by
  obtain ⟨-, length⟩ | ⟨-, -, length⟩ := span.contiguous <;> omega

/-- The walk goes on holding its pages. -/
theorem Walked.span {start last total : Nat} (walked : Walked rowKey keyset walk pages)
    (span : SpanTaken path rowKey keyset { walk with pageCount := walk.pageCount + 1 } response
      start last total next) (ordered : start ≤ last) (within : last < total) :
    Walked rowKey keyset next (pages ++ [response]) := by
  have length := span.length ordered
  have grown : next.rows.length = walk.rows.length + response.rows.length := by
    rw [span.rows, List.length_append]
  refine ⟨?_, ?_, ?_, ?_, ?_, ?_⟩
  · rw [span.rows, walked.rows, List.flatMap_append, List.flatMap_singleton]
  · rw [span.keys, span.rows, keysOf_append, walked.keys]
  · exact span.distinct ⟨walked.distinct.mem_seen, walked.distinct.nodup⟩
  · have bounded := span.bounded
    rw [grown]
    cases keyset with
    | none =>
      have counted := walked.offset rfl
      simp only [Option.isSome_none, Bool.false_eq_true, false_and, if_false, Option.isNone_none,
        if_true] at bounded
      obtain ⟨starts, size⟩ | ⟨isKeyset, -⟩ := span.contiguous
      · change start = walk.expectedStart at starts
        omega
      · cases isKeyset
    | some keyset =>
      simp only [Option.isSome_some, true_and, Option.isNone_some, Bool.false_eq_true,
        if_false] at bounded
      split at bounded
      case isTrue first =>
        have none := walked.fresh (.inl (Nat.succ.inj first))
        rw [none, List.length_nil]
        omega
      case isFalse => exact bounded
  · intro isOffset
    have counted := walked.offset isOffset
    obtain ⟨starts, size⟩ | ⟨isKeyset, -⟩ := span.contiguous
    · change start = walk.expectedStart at starts
      rw [grown, span.start]
      omega
    · cases keyset <;> simp at isOffset isKeyset
  · have moved := span.cursor
    rintro (unbegun | unmoved | ⟨isKeyset, uncursored⟩)
    · rw [span.pageCount] at unbegun
      cases unbegun
    · rw [span.start] at unmoved
      cases unmoved
    · obtain ⟨keyset, rfl⟩ := Option.isSome_iff_exists.mp isKeyset
      cases ends : response.rows.getLast? with
      | none =>
        rw [List.getLast?_eq_none_iff.mp ends] at length
        exact absurd length.1 (Nat.lt_irrefl 0)
      | some row =>
        simp only [advance, ends, bind_ok] at moved
        obtain ⟨_, -, same⟩ := moved
        rw [← Except.ok.inj same] at uncursored
        cases uncursored

theorem Walked.more (walked : Walked rowKey keyset walk pages)
    (taken : takePage path rowKey keyset walk response = .ok (.more next)) :
    Walked rowKey keyset next (pages ++ [response]) := by
  obtain ⟨start, last, total, ordered, within, span, -⟩ := takePage_more taken
  exact walked.span span ordered within

omit [LinearOrder Hash] in
/-- A walk that holds its pages returns their rows. -/
theorem Walked.accounted (walked : Walked rowKey keyset walk (pages ++ [response]))
    (total : Nat) (announced : ∀ value, response.contentRange = some value →
      ∃ range, parseContentRange value path = .ok range ∧
        (keyset.isNone → walk.rows.length = range.total) ∧
        (keyset.isSome → range.total ≤ response.rows.length)) :
    Accounted path rowKey keyset (pages ++ [response]) (walk.result total) where
  rows := walked.rows
  bounded := walked.bounded
  distinct := walked.distinct_rows
  announced := by
    intro last isLast
    rw [List.getLast?_concat] at isLast
    cases isLast
    exact announced

omit [LinearOrder Hash] in
/-- A bare page is the only one, and short. -/
theorem Walked.bare (walked : Walked rowKey keyset walk pages) (bare : response.contentRange = none)
    (taken : takeBare path rowKey keyset { walk with pageCount := walk.pageCount + 1 } response =
      .ok (.done result)) : Accounted path rowKey keyset (pages ++ [response]) result := by
  simp only [takeBare, bind_ok, refuse_ok] at taken
  obtain ⟨_, -, _, whole, _, short, appended, append, same⟩ := taken
  cases same
  obtain ⟨made, keep⟩ := PageWalk.appendPage_ok append
  have first : walk.expectedStart = 0 := Classical.not_not.mp fun other => whole (.inr other)
  have none := walked.fresh (.inr (.inl first))
  have keysNone : walk.keys = [] := by
    rw [walked.keys, none]
    cases rowKey <;> rfl
  have rows : appended.rows = response.rows := by
    rw [made, none, List.nil_append]
  have keys : appended.keys = PageWalk.keysOf rowKey response.rows := by
    rw [made, keysNone, List.nil_append]
  have flat := walked.rows
  rw [none] at flat
  refine ⟨?_, ?_, ?_, ?_⟩
  · rw [List.flatMap_append, List.flatMap_singleton, ← flat, List.nil_append]
    exact rows
  · change appended.rows.length ≤ _
    rw [rows]
    have small : KOIOS_PAGE_SIZE ≤ KOIOS_MAX_PAGED_ROWS := by decide
    omega
  · rintro key rfl
    have nodup := (keep ⟨walked.distinct.mem_seen, walked.distinct.nodup⟩).nodup
    rw [keys] at nodup
    change (appended.rows.map key).Nodup
    rw [rows]
    exact nodup
  · intro last isLast value there
    rw [List.getLast?_concat] at isLast
    cases isLast
    cases bare.symm.trans there

omit [LinearOrder Hash] in
/-- An empty page ends a walk that has all the rows announced. -/
theorem Walked.empty {value : String} {total : Nat} (walked : Walked rowKey keyset walk pages)
    (ranged : response.contentRange = some value)
    (parse : parseContentRange value path = .ok (.empty total))
    (taken : takeEmpty path keyset { walk with pageCount := walk.pageCount + 1 } response.rows total =
      .ok (.done result)) : Accounted path rowKey keyset (pages ++ [response]) result := by
  simp only [takeEmpty, bind_ok, refuse_ok] at taken
  obtain ⟨_, checked, same⟩ := taken
  cases same
  simp only [not_or, Classical.not_not] at checked
  obtain ⟨-, none, expected⟩ := checked
  refine ⟨?_, walked.bounded, walked.distinct_rows, ?_⟩
  · rw [List.flatMap_append, List.flatMap_singleton, List.length_eq_zero_iff.mp none,
      List.append_nil]
    exact walked.rows
  · intro last isLast value' there
    rw [List.getLast?_concat] at isLast
    cases isLast
    cases ranged.symm.trans there
    refine ⟨.empty total, parse, fun isOffset => ?_, fun isKeyset => ?_⟩
    · rw [if_pos isOffset] at expected
      exact (walked.offset isOffset).trans expected.symm
    · rw [if_neg (by cases keyset <;> simp at isKeyset ⊢)] at expected
      change total ≤ _
      omega

/-- The last page completes the account. -/
theorem Walked.done (walked : Walked rowKey keyset walk pages)
    (taken : takePage path rowKey keyset walk response = .ok (.done result)) :
    Accounted path rowKey keyset (pages ++ [response]) result := by
  unfold takePage at taken
  cases ranged : response.contentRange with
  | none =>
    simp only [ranged] at taken
    exact walked.bare ranged taken
  | some value =>
    simp only [ranged, bind_ok] at taken
    obtain ⟨parsed, parse, taken⟩ := taken
    cases parsed with
    | empty total => exact walked.empty ranged parse taken
    | span start last total ordered within =>
      obtain ⟨after, span, verdict⟩ := takeSpan_ok taken
      have walked' := walked.span span ordered within
      obtain ⟨isKeyset, complete, same⟩ | ⟨isOffset, complete, same⟩ | ⟨-, -, -, same⟩ := verdict
      · cases same
        refine walked'.accounted _ fun value' there => ?_
        cases ranged.symm.trans there
        refine ⟨_, parse, fun isOffset => ?_, fun _ => complete⟩
        cases keyset <;> simp at isOffset isKeyset
      · cases same
        refine walked'.accounted _ fun value' there => ?_
        cases ranged.symm.trans there
        refine ⟨_, parse, fun _ => ?_, fun isKeyset => ?_⟩
        · rw [walked'.offset isOffset, span.start]
          exact complete
        · cases keyset <;> simp at isOffset isKeyset
      · cases same

/-- A page that does not end the walk leaves room for fewer pages than there can be rows. -/
theorem budget_lt_of_more (taken : takePage path rowKey keyset walk response = .ok (.more next)) :
    next.budget keyset < KOIOS_MAX_PAGED_ROWS := by
  obtain ⟨start, last, total, ordered, within, span, -⟩ := takePage_more taken
  have length := span.length ordered
  have grown : next.rows.length = walk.rows.length + response.rows.length := by
    rw [span.rows, List.length_append]
  have begun : next.pageCount ≠ 0 := by
    rw [span.pageCount]
    exact Nat.succ_ne_zero _
  have moved := span.start
  have large : 0 < KOIOS_MAX_PAGED_ROWS := by decide
  rw [PageWalk.budget, if_neg begun]
  split <;> omega

end Pages

section Runs

variable {walk : PageWalk Row Hash} {trace : List (PageExchange T Row Hash)}

/-- A walk asks for one page, and for more only when that page does not end it. -/
theorem walkPages_steps {outcome : Except Failure (PagedBatchResult Row)}
    (runs : (walkPages path body rowKey keyset walk).Runs trace outcome) :
    ∃ x rest, trace = x :: rest ∧ (rest = [] ∨ ∃ response next,
      takePage path rowKey keyset walk response = .ok (.more next) ∧
        (walkPages path body rowKey keyset next).Runs rest outcome) := by
  rw [walkPages] at runs
  obtain ⟨first, rest, response, rfl, asked, tail⟩ | ⟨error, asked, -⟩ := Async.runs_bind.mp runs
  · obtain ⟨t, rfl⟩ := requestPage_runs.mp asked
    refine ⟨_, rest, rfl, ?_⟩
    split at tail
    · exact .inl tail.1
    · exact .inl tail.1
    case h_3 next taken => exact .inr ⟨response, next, taken, tail⟩
  · obtain ⟨t, response, rest, rfl, ended, -⟩ := asked
    exact ⟨_, rest, rfl, .inl ended⟩

theorem length_le_budget {outcome : Except Failure (PagedBatchResult Row)}
    (runs : (walkPages path body rowKey keyset walk).Runs trace outcome) :
    trace.length ≤ walk.budget keyset + 1 := by
  induction trace generalizing walk with
  | nil => exact Nat.zero_le _
  | cons x trace ih =>
    obtain ⟨_, rest, same, stop | ⟨response, next, taken, tail⟩⟩ := walkPages_steps runs
    · cases same
      rw [stop]
      exact Nat.succ_le_succ (Nat.zero_le _)
    · cases same
      have shorter := ih tail
      have less := takePage_budget taken
      rw [List.length_cons]
      omega

/-- The first page takes a request of its own, and each other one a row. -/
theorem walkBatchPages_length {outcome : Except Failure (PagedBatchResult Row)}
    (runs : (walkBatchPages path body rowKey keyset).Runs trace outcome) :
    trace.length ≤ KOIOS_MAX_PAGED_ROWS + 1 := by
  obtain ⟨_, rest, rfl, stop | ⟨response, next, taken, tail⟩⟩ := walkPages_steps runs
  · rw [stop]
    exact Nat.succ_le_succ (Nat.zero_le _)
  · have shorter := length_le_budget tail
    have less := budget_lt_of_more taken
    rw [List.length_cons]
    omega

theorem walkPages_accounted {result : PagedBatchResult Row}
    (runs : (walkPages path body rowKey keyset walk).Runs trace (.ok result)) :
    ∀ pages, Walked rowKey keyset walk pages → ∃ more : List (PageResponse Row),
      trace.map (fun x => x.response) = more.map .ok ∧
        Accounted path rowKey keyset (pages ++ more) result := by
  refine walkPages_induct (motive := fun walk trace result =>
    ∀ pages, Walked rowKey keyset walk pages → ∃ more : List (PageResponse Row),
      trace.map (fun x => x.response) = more.map .ok ∧
        Accounted path rowKey keyset (pages ++ more) result) ?_ ?_ runs
  · intro walk t response result taken pages walked
    exact ⟨[response], rfl, walked.done taken⟩
  · intro walk t response next rest result taken ih pages walked
    obtain ⟨more, answered, accounted⟩ := ih _ (walked.more taken)
    refine ⟨response :: more, ?_, ?_⟩
    · rw [List.map_cons, answered, List.map_cons]
    · rw [List.append_assoc, List.singleton_append] at accounted
      exact accounted

end Runs

/-- On any sequence of answers the walk comes to an end, after at most one request more than the rows
it may have, and a walk that returns accounts for the pages it received. -/
theorem walkBatchPages_bounded (path body : String) (rowKey : Option (Row → String))
    (keyset : Option (Row → Hash × Nat)) :
    (∀ answers : Nat → Except Failure (PageResponse Row),
      ∃ (trace : List (PageExchange Unit Row Hash)) (outcome : Except Failure (PagedBatchResult Row)),
        (walkBatchPages path body rowKey keyset).Runs trace outcome ∧
          trace.map (fun x => x.response) = (List.range trace.length).map answers) ∧
    ∀ (trace : List (PageExchange T Row Hash)) (outcome : Except Failure (PagedBatchResult Row)),
      (walkBatchPages path body rowKey keyset).Runs trace outcome →
        trace.length ≤ 100001 ∧ ∀ result, outcome = .ok result →
          ∃ pages : List (PageResponse Row), trace.map (fun x => x.response) = pages.map .ok ∧
            Accounted path rowKey keyset pages result := by
  refine ⟨fun answers => Async.exists_run_of_answers answers _, ?_⟩
  intro trace outcome runs
  refine ⟨walkBatchPages_length runs, ?_⟩
  rintro result rfl
  exact walkPages_accounted runs [] start_walked

end WalletBackend.Koios
