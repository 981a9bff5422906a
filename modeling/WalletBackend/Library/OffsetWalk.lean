import WalletBackend.Library.StaticRuns

/-! Walks over a list that is served in pages by number, which keep some of its rows until enough
are in hand. A page that is not full is the last one; where the pages permitted run out on a full
page, one more tells a list that ends there from a longer one. -/
namespace OffsetPaging
open Interaction Async

variable {Req : Type} {Resp : Req → Type} {ε Row : Type}

/-- A list in pages, numbered from one, and what is thrown where it is too long. -/
structure Source (Resp : Req → Type) (ε Row : Type) where
  fetch : (page : Nat) → Async Resp ε (List Row)
  pageSize : Nat
  maxPages : Nat
  exceeded : ε

/-- As many rows are kept as are needed. -/
def met (needed : Option Nat) (kept : List Row) : Bool := needed.any (· ≤ kept.length)

namespace Source

variable (source : Source Resp ε Row) (keep : Row → Bool) (needed : Option Nat)

/-- The pages from `page` on, of which `remaining` are permitted. -/
def walk : (remaining page : Nat) → List Row → Async Resp ε (List Row)
  | 0, _, kept => do
      let probe ← source.fetch (source.maxPages + 1)
      if probe.length = 0 then pure kept else throw source.exceeded
  | remaining + 1, page, kept => do
      let rows ← source.fetch page
      let kept := kept ++ rows.filter keep
      if rows.length < source.pageSize then pure kept
      else if met needed kept then pure kept
      else walk remaining (page + 1) kept

def collect : Async Resp ε (List Row) := source.walk keep needed source.maxPages 1 []

/-- The rows of a page. -/
def page (rows : List Row) (number : Nat) : List Row :=
  (rows.drop ((number - 1) * source.pageSize)).take source.pageSize

/-- The first rows of the list, those of `pages` pages. -/
def upTo (rows : List Row) (pages : Nat) : List Row := rows.take (pages * source.pageSize)

/-- The walk comes to an end: with the list, or as enough is kept of the pages permitted. -/
def Suffices (rows : List Row) : Prop :=
  rows.length ≤ source.maxPages * source.pageSize ∨
    ∃ n ∈ needed, n ≤ ((source.upTo rows source.maxPages).filter keep).length

instance (rows : List Row) : Decidable (source.Suffices keep needed rows) := by
  unfold Suffices
  cases needed with
  | none => exact decidable_of_iff (rows.length ≤ _) ⟨.inl, fun holds => holds.resolve_right nofun⟩
  | some n =>
    exact decidable_of_iff (rows.length ≤ _ ∨ n ≤ _) (or_congr_right ⟨fun enough => ⟨n, rfl, enough⟩,
      fun ⟨_, same, enough⟩ => Option.some.inj same ▸ enough⟩)

variable {source keep needed} {up : (q : Req) → Resp q} {rows : List Row}

theorem upTo_succ (pages : Nat) : source.upTo rows (pages + 1) =
    source.upTo rows pages ++ source.page rows (pages + 1) := by
  rw [upTo, upTo, page, Nat.add_sub_cancel, Nat.succ_mul, List.take_add]

theorem filter_upTo_succ (pages : Nat) : (source.upTo rows (pages + 1)).filter keep =
    (source.upTo rows pages).filter keep ++ (source.page rows (pages + 1)).filter keep := by
  rw [upTo_succ, List.filter_append]

theorem upTo_isPrefix {pages pages' : Nat} (le : pages ≤ pages') :
    (source.upTo rows pages).filter keep <+: (source.upTo rows pages').filter keep :=
  (List.take_prefix_take_left (Nat.mul_le_mul_right _ le)).filter keep

theorem upTo_all {pages : Nat} (fits : rows.length ≤ pages * source.pageSize) :
    source.upTo rows pages = rows :=
  List.take_of_length_le fits

theorem page_length (pages : Nat) : (source.page rows (pages + 1)).length =
    min source.pageSize (rows.length - pages * source.pageSize) := by
  rw [page, Nat.add_sub_cancel, List.length_take, List.length_drop]

theorem met_iff {kept : List Row} :
    met needed kept = true ↔ ∃ n ∈ needed, n ≤ kept.length := by
  simp only [met, Option.any_eq_true, decide_eq_true_eq, Option.mem_def]

section Walk

variable {T : Type} {trace : List (Exchange T Resp)} {remaining pages : Nat}
  {outcome : Except ε (List Row)}

/-- Each page that was answered is that of the list. -/
def Tells (source : Source Resp ε Row) (rows : List Row) (trace : List (Exchange T Resp)) : Prop :=
  ∀ number part result, part.Sublist trace → (source.fetch number).Runs part (.ok result) →
    result = source.page rows number

/-- The outcome is that of a page that could not be had. -/
def Fails (source : Source Resp ε Row) (trace : List (Exchange T Resp)) (outcome : Except ε (List Row)) :
    Prop :=
  ∃ number part e, part.Sublist trace ∧ (source.fetch number).Runs part (.error e) ∧ outcome = .error e

theorem Tells.sub {part : List (Exchange T Resp)} (tells : source.Tells rows trace)
    (sub : part.Sublist trace) : source.Tells rows part :=
  fun number part' result inside => tells number part' result (inside.trans sub)

theorem Fails.weaken {part : List (Exchange T Resp)} (fails : source.Fails part outcome)
    (sub : part.Sublist trace) : source.Fails trace outcome := by
  obtain ⟨number, part', e, inside, failed, same⟩ := fails
  exact ⟨number, part', e, inside.trans sub, failed, same⟩

theorem runs_probe (tells : source.Tells rows trace) (positive : 0 < source.pageSize)
    {kept : List Row} (runs : (source.walk keep needed 0 pages kept).Runs trace outcome) :
    source.Fails trace outcome ∨
      outcome = if rows.length ≤ source.maxPages * source.pageSize then .ok kept
        else .error source.exceeded := by
  obtain ⟨first, rest, probe, rfl, fetched, done⟩ | ⟨e, failed, same⟩ := runs_bind.mp runs
  · obtain rfl := tells _ _ _ (List.sublist_append_left first rest) fetched
    right
    rw [page_length] at done
    by_cases fits : rows.length ≤ source.maxPages * source.pageSize
    · rw [if_pos (by omega)] at done
      rw [if_pos fits]
      exact done.2.symm
    · rw [if_neg (by omega)] at done
      rw [if_neg fits]
      exact done.2.symm
  · exact .inl ⟨_, _, e, .refl _, failed, same.symm⟩

/-- A page is the last, or enough is kept, or the walk goes on. -/
theorem runs_turn (tells : source.Tells rows trace) (positive : 0 < source.pageSize)
    (runs : (source.walk keep needed (remaining + 1) (pages + 1)
      ((source.upTo rows pages).filter keep)).Runs trace outcome) :
    source.Fails trace outcome ∨
    if rows.length < (pages + 1) * source.pageSize ∨
        met needed ((source.upTo rows (pages + 1)).filter keep) = true then
      outcome = .ok ((source.upTo rows (pages + 1)).filter keep)
    else ∃ rest, rest.Sublist trace ∧ (source.walk keep needed remaining (pages + 2)
      ((source.upTo rows (pages + 1)).filter keep)).Runs rest outcome := by
  obtain ⟨first, rest, read, rfl, fetched, done⟩ | ⟨e, failed, same⟩ := runs_bind.mp runs
  · obtain rfl := tells _ _ _ (List.sublist_append_left first rest) fetched
    right
    dsimp only at done
    rw [← filter_upTo_succ, page_length] at done
    have bound : (pages + 1) * source.pageSize = pages * source.pageSize + source.pageSize :=
      Nat.succ_mul ..
    by_cases short : rows.length < (pages + 1) * source.pageSize
    · rw [if_pos (by omega)] at done
      rw [if_pos (Or.inl short)]
      exact done.2.symm
    · rw [if_neg (by omega)] at done
      cases enough : met needed ((source.upTo rows (pages + 1)).filter keep) with
      | true =>
        rw [enough, if_pos rfl] at done
        rw [if_pos (Or.inr rfl)]
        exact done.2.symm
      | false =>
        rw [enough, if_neg Bool.false_ne_true] at done
        rw [if_neg]
        · exact ⟨rest, List.sublist_append_right first rest, done⟩
        · rintro (last | none)
          · exact short last
          · cases none
  · exact .inl ⟨_, _, e, .refl _, failed, same.symm⟩

/-- The walk returns the rows kept of the whole list, or enough of the first of them, if every page
can be had. -/
theorem runs_walk (positive : 0 < source.pageSize) (enough : source.Suffices keep needed rows)
    (counted : pages + remaining = source.maxPages)
    (unmet : remaining = 0 → met needed ((source.upTo rows pages).filter keep) = false) :
    ∃ kept, (∀ (trace : List (Exchange T Resp)) outcome, source.Tells rows trace →
        (source.walk keep needed remaining (pages + 1) ((source.upTo rows pages).filter keep)).Runs
          trace outcome → source.Fails trace outcome ∨ outcome = .ok kept) ∧
      kept <+: rows.filter keep ∧ (kept = rows.filter keep ∨ met needed kept = true) := by
  induction remaining generalizing pages with
  | zero =>
    obtain rfl : pages = source.maxPages := counted
    have fits : rows.length ≤ source.maxPages * source.pageSize := by
      refine enough.resolve_right fun met => ?_
      cases (unmet rfl).symm.trans (met_iff.mpr met)
    refine ⟨rows.filter keep, fun trace outcome tells runs => ?_, List.prefix_rfl, .inl rfl⟩
    have probed := runs_probe tells positive runs
    rwa [if_pos fits, upTo_all fits] at probed
  | succ remaining ih =>
    by_cases last : rows.length < (pages + 1) * source.pageSize ∨
        met needed ((source.upTo rows (pages + 1)).filter keep) = true
    · refine ⟨(source.upTo rows (pages + 1)).filter keep, fun trace outcome tells runs => ?_, ?_, ?_⟩
      · have turned := runs_turn tells positive runs
        rwa [if_pos last] at turned
      · exact (List.take_prefix _ _).filter keep
      · refine last.imp (fun short => ?_) id
        rw [upTo_all (Nat.le_of_lt short)]
    · obtain ⟨kept, comes, whole⟩ := @ih (pages + 1) (by omega)
        fun _ => eq_false_of_ne_true fun met => last (.inr met)
      refine ⟨kept, fun trace outcome tells runs => ?_, whole⟩
      have turned := runs_turn tells positive runs
      rw [if_neg last] at turned
      obtain fails | ⟨rest, sub, later⟩ := turned
      · exact .inl fails
      · exact (comes rest outcome (tells.sub sub) later).imp_left fun fails => fails.weaken sub

theorem runs_walk_exceeded (tells : source.Tells rows trace) (positive : 0 < source.pageSize)
    (exceeds : ¬ source.Suffices keep needed rows) (counted : pages + remaining = source.maxPages)
    (runs : (source.walk keep needed remaining (pages + 1)
      ((source.upTo rows pages).filter keep)).Runs trace outcome) :
    source.Fails trace outcome ∨ outcome = .error source.exceeded := by
  have long : source.maxPages * source.pageSize < rows.length :=
    Nat.not_le.mp fun fits => exceeds (.inl fits)
  have unmet : ∀ pages ≤ source.maxPages,
      met needed ((source.upTo rows pages).filter keep) ≠ true := by
    intro pages le met
    obtain ⟨n, member, enough⟩ := met_iff.mp met
    exact exceeds (.inr ⟨n, member, Nat.le_trans enough (upTo_isPrefix le).length_le⟩)
  induction remaining generalizing pages trace with
  | zero =>
    have probed := runs_probe tells positive runs
    rwa [if_neg (Nat.not_le.mpr long)] at probed
  | succ remaining ih =>
    have full : (pages + 1) * source.pageSize ≤ source.maxPages * source.pageSize :=
      Nat.mul_le_mul_right _ (by omega)
    have turned := runs_turn tells positive runs
    rw [if_neg] at turned
    · obtain fails | ⟨rest, sub, later⟩ := turned
      · exact .inl fails
      · exact (ih (tells.sub sub) (by omega) later).imp_left fun fails => fails.weaken sub
    · rintro (short | met)
      · omega
      · exact unmet _ (by omega) met

/-- The read returns the rows kept of the whole list, or the first of them if those are enough. -/
theorem runs_collect (positive : 0 < source.pageSize) (permitted : 0 < source.maxPages)
    (enough : source.Suffices keep needed rows) : ∃ kept,
      (∀ (trace : List (Exchange T Resp)) outcome, source.Tells rows trace →
        (source.collect keep needed).Runs trace outcome →
          source.Fails trace outcome ∨ outcome = .ok kept) ∧
      kept <+: rows.filter keep ∧ (kept = rows.filter keep ∨ ∃ n ∈ needed, n ≤ kept.length) := by
  obtain ⟨kept, comes, part, whole⟩ := @runs_walk _ _ _ _ source keep needed rows T _ 0 positive enough
    (Nat.zero_add source.maxPages) (by omega)
  rw [upTo, Nat.zero_mul, List.take_zero, List.filter_nil] at comes
  exact ⟨kept, comes, part, whole.imp id met_iff.mp⟩

/-- It fails where neither the list nor enough of it is in the pages permitted. -/
theorem runs_collect_exceeded (tells : source.Tells rows trace) (positive : 0 < source.pageSize)
    (exceeds : ¬ source.Suffices keep needed rows)
    (runs : (source.collect keep needed).Runs trace outcome) :
    source.Fails trace outcome ∨ outcome = .error source.exceeded := by
  have start : (source.upTo rows 0).filter keep = [] := by
    rw [upTo, Nat.zero_mul, List.take_zero, List.filter_nil]
  rw [collect, ← start] at runs
  exact runs_walk_exceeded tells positive exceeds (Nat.zero_add _) runs

end Walk

section Static

variable {up : (q : Req) → Resp q} {outcome : Except ε (List Row)}

/-- Whatever page is asked for, the upstream serves that of the list. -/
def Serves (up : (q : Req) → Resp q) (source : Source Resp ε Row) (rows : List Row) : Prop :=
  ∀ number outcome, Gives up (source.fetch number) outcome ↔ outcome = .ok (source.page rows number)

variable (serves : Serves up source rows)

include serves

theorem Serves.tells {trace : List (Exchange Unit Resp)} (static : Static up trace) :
    source.Tells rows trace := by
  intro number part result sub runs
  exact Except.ok.inj ((serves number _).mp ⟨part, static.sub sub, runs⟩)

theorem Serves.not_fails {trace : List (Exchange Unit Resp)} (static : Static up trace) :
    ¬ source.Fails trace outcome := by
  rintro ⟨number, part, e, sub, failed, -⟩
  cases (serves number _).mp ⟨part, static.sub sub, failed⟩

theorem gives_collect (positive : 0 < source.pageSize) (permitted : 0 < source.maxPages)
    (enough : source.Suffices keep needed rows) : ∃ kept,
      (∀ outcome, Gives up (source.collect keep needed) outcome ↔ outcome = .ok kept) ∧
      kept <+: rows.filter keep ∧ (kept = rows.filter keep ∨ ∃ n ∈ needed, n ≤ kept.length) := by
  obtain ⟨kept, comes, whole⟩ := @runs_collect _ _ _ _ source keep needed rows Unit positive permitted enough
  refine ⟨kept, fun outcome => gives_iff_of_only ?_, whole⟩
  rintro result ⟨trace, static, runs⟩
  exact (comes trace result (serves.tells static) runs).resolve_left (serves.not_fails static)

theorem gives_collect_exceeded (positive : 0 < source.pageSize)
    (exceeds : ¬ source.Suffices keep needed rows) :
    Gives up (source.collect keep needed) outcome ↔ outcome = .error source.exceeded := by
  refine gives_iff_of_only ?_
  rintro result ⟨trace, static, runs⟩
  exact (runs_collect_exceeded (serves.tells static) positive exceeds runs).resolve_left
    (serves.not_fails static)

end Static

end Source
end OffsetPaging
