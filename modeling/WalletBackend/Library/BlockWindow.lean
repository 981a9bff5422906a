import Mathlib.Data.List.Sort

/-! Paging a list that is ordered by block. A page takes the oldest entries and is
extended to the end of its last block, so that the block of its last entry can
serve as the cursor of the next page. -/
namespace BlockPaging

variable {Tx : Type} {block : Tx → Nat} {size : Nat}

/-- Entries in ascending block order. -/
def Ordered (block : Tx → Nat) (txs : List Tx) : Prop :=
  txs.Pairwise fun a b => block a ≤ block b

/-- The first `size` entries, and those after them in the block of the last one. -/
def window (size : Nat) (block : Tx → Nat) (txs : List Tx) : List Tx :=
  match (txs.take size).getLast? with
  | none => []
  | some last => txs.take size ++ (txs.drop size).takeWhile fun tx => block tx = block last

/-- The entries above the cursor block. -/
def above (block : Tx → Nat) (after : Option Nat) (txs : List Tx) : List Tx :=
  txs.filter fun tx => ∀ a ∈ after, a < block tx

theorem mem_above {after : Option Nat} {txs : List Tx} {tx : Tx} :
    tx ∈ above block after txs ↔ tx ∈ txs ∧ ∀ a ∈ after, a < block tx := by
  simp [above]

@[simp] theorem above_none (txs : List Tx) : above block none txs = txs :=
  List.filter_eq_self.mpr fun _ _ => decide_eq_true nofun

theorem Ordered.above {after : Option Nat} {txs : List Tx} (ordered : Ordered block txs) :
    Ordered block (above block after txs) :=
  ordered.sublist List.filter_sublist

@[simp] theorem window_nil : window size block [] = [] := by simp [window]

theorem window_sublist (txs : List Tx) : (window size block txs).Sublist txs := by
  cases final : (txs.take size).getLast? with
  | none => simp [window, final]
  | some last =>
    have unfolded : window size block txs =
        txs.take size ++ (txs.drop size).takeWhile fun tx => block tx = block last := by
      rw [window, final]
    rw [unfolded]
    conv_rhs => rw [← List.take_append_drop size txs]
    exact (List.Sublist.refl _).append (List.takeWhile_sublist _)

theorem window_map {Row : Type} (f : Row → Tx) (rows : List Row) :
    window size block (rows.map f) = (window size (fun row => block (f row)) rows).map f := by
  simp only [window, ← List.map_take, List.getLast?_map]
  cases (rows.take size).getLast? with
  | none => rfl
  | some last =>
    simp only [Option.map_some, ← List.map_drop, List.takeWhile_map, List.map_append]
    rfl

theorem above_map {Row : Type} (f : Row → Tx) (after : Option Nat) (rows : List Row) :
    above block after (rows.map f) = (above (fun row => block (f row)) after rows).map f := by
  rw [above, List.filter_map]
  rfl

/-- The block a page of `txs` ends with. -/
def boundary (size : Nat) (block : Tx → Nat) (txs : List Tx) : Option Nat :=
  (txs.take size).getLast?.map block

/-- In ascending order the block of the last entry is an upper bound. -/
theorem Ordered.le_last {txs : List Tx} (ordered : Ordered block txs) {last tx : Tx}
    (ends : txs.getLast? = some last) (member : tx ∈ txs) : block tx ≤ block last := by
  obtain ⟨front, rfl⟩ := List.getLast?_eq_some_iff.mp ends
  obtain early | late := List.mem_append.mp member
  · exact (List.pairwise_append.mp ordered).2.2 tx early last List.mem_cons_self
  · rw [List.mem_singleton.mp late]

theorem takeWhile_eq_filter {txs : List Tx} (ordered : Ordered block txs) {b : Nat}
    (from_ : ∀ tx ∈ txs, b ≤ block tx) :
    (txs.takeWhile fun tx => block tx = b) = txs.filter fun tx => block tx ≤ b := by
  induction txs with
  | nil => rfl
  | cons tx txs ih =>
    obtain ⟨first, rest⟩ := List.pairwise_cons.mp ordered
    have low := from_ tx List.mem_cons_self
    by_cases same : block tx = b
    · have upTo : block tx ≤ b := same.le
      simp [same, ih rest fun tx member => from_ tx (List.mem_cons_of_mem _ member)]
    · have beyond : ∀ tx' ∈ txs, ¬ block tx' ≤ b := by
        intro tx' member
        have later := first tx' member
        omega
      have notUpTo : ¬ block tx ≤ b := by omega
      simp only [List.takeWhile_cons, same, decide_false, Bool.false_eq_true, if_false,
        List.filter_cons, notUpTo]
      exact (List.filter_eq_nil_iff.mpr fun tx' member => by simpa using beyond tx' member).symm

/-- A page is exactly the entries up to its boundary block. -/
theorem window_eq_filter {txs : List Tx} (ordered : Ordered block txs) {b : Nat}
    (ends : boundary size block txs = some b) :
    window size block txs = txs.filter fun tx => block tx ≤ b := by
  obtain ⟨last, final, rfl⟩ := Option.map_eq_some_iff.mp ends
  have split : Ordered block (txs.take size ++ txs.drop size) := by
    rw [List.take_append_drop]
    exact ordered
  obtain ⟨page, rest, across⟩ := List.pairwise_append.mp split
  have inside : (txs.take size).filter (fun tx => block tx ≤ block last) = txs.take size :=
    List.filter_eq_self.mpr fun tx member => decide_eq_true (Ordered.le_last page final member)
  have tail := takeWhile_eq_filter rest (across last (List.mem_of_getLast? final))
  have unfolded : window size block txs =
      txs.take size ++ (txs.drop size).takeWhile fun tx => block tx = block last := by
    rw [window, final]
  rw [unfolded, tail]
  conv_rhs => rw [← List.take_append_drop size txs, List.filter_append, inside]

theorem boundary_eq_none {txs : List Tx} (positive : 0 < size) :
    boundary size block txs = none ↔ txs = [] := by
  rw [boundary, Option.map_eq_none_iff, List.getLast?_eq_none_iff, List.take_eq_nil_iff]
  exact or_iff_right positive.ne'

theorem window_eq_nil {txs : List Tx} (positive : 0 < size) :
    window size block txs = [] ↔ txs = [] := by
  constructor
  · intro none
    by_contra some
    cases final : (txs.take size).getLast? with
    | none =>
      have unbounded : boundary size block txs = Option.none := by rw [boundary, final]; rfl
      exact some ((boundary_eq_none positive).mp unbounded)
    | some last =>
      rw [window, final] at none
      have page := (List.append_eq_nil_iff.mp none).1
      rw [page] at final
      cases final
  · rintro rfl
    exact window_nil

/-- The last entry of a page lies in the boundary block. -/
theorem window_last {txs : List Tx} (ordered : Ordered block txs) {b : Nat}
    (ends : boundary size block txs = some b) {last : Tx}
    (final : (window size block txs).getLast? = some last) : block last = b := by
  have filtered := window_eq_filter ordered ends
  rw [filtered] at final
  obtain ⟨member, upTo⟩ := List.mem_filter.mp (List.mem_of_getLast? final)
  obtain ⟨pivot, pivotal, rfl⟩ := Option.map_eq_some_iff.mp ends
  have present : pivot ∈ txs.filter fun tx => block tx ≤ block pivot :=
    List.mem_filter.mpr ⟨List.mem_of_mem_take (List.mem_of_getLast? pivotal), by simp⟩
  have reached := Ordered.le_last (ordered.sublist List.filter_sublist) final present
  exact le_antisymm (of_decide_eq_true upTo) reached

/-- Two orders of one set by block have the same boundary. -/
theorem boundary_perm {xs ys : List Tx} (same : xs.Perm ys) (left : Ordered block xs)
    (right : Ordered block ys) : boundary size block xs = boundary size block ys := by
  have blocks : xs.map block = ys.map block :=
    (same.map block).eq_of_pairwise (fun _ _ _ _ => le_antisymm)
      (List.pairwise_map.mpr left) (List.pairwise_map.mpr right)
  rw [boundary, boundary, ← List.getLast?_map, ← List.getLast?_map, List.map_take, List.map_take,
    blocks]

/-- A list that fits in a page is its own page. -/
theorem window_of_length_le {txs : List Tx} (short : txs.length ≤ size) :
    window size block txs = txs := by
  cases final : txs.getLast? with
  | none =>
    rw [List.getLast?_eq_none_iff.mp final]
    exact window_nil
  | some last =>
    rw [window, List.take_of_length_le short, List.drop_of_length_le short, final]
    exact List.append_nil txs

/-- The boundary of a list that fills the page is the block of the entry that does. -/
theorem boundary_of_getElem? {txs : List Tx} {pivot : Tx} (positive : 0 < size)
    (found : txs[size - 1]? = some pivot) : boundary size block txs = some (block pivot) := by
  rw [boundary, List.getLast?_take, if_neg positive.ne', found]
  rfl

/-- A page does not depend on the order within blocks. -/
theorem window_perm {xs ys : List Tx} (positive : 0 < size) (same : xs.Perm ys)
    (left : Ordered block xs) (right : Ordered block ys) :
    (window size block xs).Perm (window size block ys) := by
  cases ends : boundary size block ys with
  | none =>
    rw [(boundary_eq_none positive).mp ends] at same ⊢
    rw [same.eq_nil]
  | some b =>
    rw [window_eq_filter left ((boundary_perm same left right).trans ends),
      window_eq_filter right ends]
    exact same.filter _

/-- A page is its own page. -/
theorem window_window {txs : List Tx} (positive : 0 < size) (ordered : Ordered block txs) :
    window size block (window size block txs) = window size block txs := by
  cases ends : boundary size block txs with
  | none => rw [(boundary_eq_none positive).mp ends, window_nil, window_nil]
  | some b =>
    obtain ⟨last, final, rfl⟩ := Option.map_eq_some_iff.mp ends
    have unfolded : window size block txs =
        txs.take size ++ (txs.drop size).takeWhile fun tx => block tx = block last := by
      rw [window, final]
    have filtered := window_eq_filter ordered ends
    have again : boundary size block (window size block txs) = some (block last) := by
      by_cases short : txs.length ≤ size
      · rw [window_of_length_le short, ends]
      · rw [boundary, unfolded, List.take_append_of_le_length (by simp; omega), List.take_take,
          Nat.min_self, final]
        rfl
    rw [window_eq_filter (ordered.sublist (window_sublist txs)) again, filtered, List.filter_filter]
    simp

theorem filter_append_filter {txs : List Tx} (ordered : Ordered block txs) (b : Nat) :
    (txs.filter fun tx => block tx ≤ b) ++ (txs.filter fun tx => b < block tx) = txs := by
  induction txs with
  | nil => rfl
  | cons tx txs ih =>
    obtain ⟨first, rest⟩ := List.pairwise_cons.mp ordered
    by_cases upTo : block tx ≤ b
    · have notAbove : ¬ b < block tx := by omega
      simp [upTo, notAbove, ih rest]
    · have beyond : ∀ tx' ∈ tx :: txs, b < block tx' := by
        intro tx' member
        obtain rfl | later := List.mem_cons.mp member
        · omega
        · have after := first tx' later
          omega
      have none : (tx :: txs).filter (fun tx => block tx ≤ b) = [] :=
        List.filter_eq_nil_iff.mpr fun tx' member => by simpa using beyond tx' member
      have all : (tx :: txs).filter (fun tx => b < block tx) = tx :: txs :=
        List.filter_eq_self.mpr fun tx' member => by simpa using beyond tx' member
      rw [none, all, List.nil_append]

/-- The boundary is not beyond the entry that would fill the page on its own side. -/
theorem boundary_le {xs part : List Tx} (positive : 0 < size) (ordered : Ordered block xs)
    (sorted : Ordered block part) (inside : part.Subperm xs) {pivot : Tx}
    (found : part[size - 1]? = some pivot) {b : Nat} (ends : boundary size block xs = some b) :
    b ≤ block pivot := by
  obtain ⟨bound, here⟩ := List.getElem?_eq_some_iff.mp found
  have long := inside.length_le
  have reaches : size - 1 < xs.length := by omega
  have last : boundary size block xs = some (block xs[size - 1]) :=
    boundary_of_getElem? positive (List.getElem?_eq_getElem reaches)
  obtain rfl := Option.some.inj (ends.symm.trans last)
  by_contra beyond
  let upTo := fun tx => decide (block tx ≤ block pivot)
  have many : size ≤ part.countP upTo := by
    have front : (part.take size).countP upTo = (part.take size).length := by
      refine List.countP_eq_length.mpr fun tx member => decide_eq_true ?_
      refine Ordered.le_last (sorted.sublist (List.take_sublist _ _)) ?_ member
      rw [List.getLast?_take, if_neg positive.ne', found]
      rfl
    have part_ := (List.take_sublist size part).countP_le (p := upTo)
    rw [front, List.length_take] at part_
    omega
  have few : xs.countP upTo ≤ size - 1 := by
    have none : (xs.drop (size - 1)).countP upTo = 0 := by
      refine List.countP_eq_zero.mpr fun tx member => ?_
      rw [List.drop_eq_getElem_cons reaches] at member
      have rest := ordered.sublist (List.drop_sublist (size - 1) xs)
      rw [List.drop_eq_getElem_cons reaches] at rest
      obtain rfl | later := List.mem_cons.mp member
      · simpa [upTo] using beyond
      · have after := (List.pairwise_cons.mp rest).1 tx later
        simp only [upTo, decide_eq_true_eq]
        omega
    conv_lhs => rw [← List.take_append_drop (size - 1) xs]
    rw [List.countP_append, none]
    exact List.countP_le_length.trans (List.length_take_le _ _)
  have more := inside.countP_le upTo
  omega

/-- A full page is settled by the entries up to its boundary. -/
theorem window_of_front {xs ys : List Tx} (positive : 0 < size) (left : Ordered block xs)
    (right : Ordered block ys) {b : Nat} (ends : boundary size block ys = some b)
    (same : (xs.filter fun tx => block tx ≤ b) = ys.filter fun tx => block tx ≤ b)
    (full : size ≤ ys.length) : window size block xs = window size block ys := by
  have bound : size - 1 < ys.length := by omega
  have last : boundary size block ys = some (block ys[size - 1]) :=
    boundary_of_getElem? positive (List.getElem?_eq_getElem bound)
  obtain rfl := Option.some.inj (ends.symm.trans last)
  have inside : size - 1 < (ys.filter fun tx => block tx ≤ block ys[size - 1]).length := by
    by_contra outside
    have found : ys[size - 1]? = some ys[size - 1] := List.getElem?_eq_getElem bound
    conv_lhs at found => rw [← filter_append_filter right (block ys[size - 1])]
    rw [List.getElem?_append_right (Nat.le_of_not_lt outside)] at found
    have beyond := (List.mem_filter.mp (List.mem_of_getElem? found)).2
    simp at beyond
  have front : xs[size - 1]? = some ys[size - 1] := by
    rw [← filter_append_filter left (block ys[size - 1]), same,
      List.getElem?_append_left inside, ← List.getElem?_append_left inside,
      filter_append_filter right, List.getElem?_eq_getElem bound]
  rw [window_eq_filter right ends, window_eq_filter left (boundary_of_getElem? positive front), same]

/-- The boundary block lies above the cursor. -/
theorem boundary_above {after : Option Nat} {txs : List Tx} {b : Nat}
    (ends : boundary size block (above block after txs) = some b) : ∀ a ∈ after, a < b := by
  obtain ⟨pivot, pivotal, rfl⟩ := Option.map_eq_some_iff.mp ends
  exact (mem_above.mp (List.mem_of_mem_take (List.mem_of_getLast? pivotal))).2

/-- What lies above the cursor is the page and what lies above its boundary. -/
theorem window_append_above {after : Option Nat} {txs : List Tx} (ordered : Ordered block txs)
    {b : Nat} (ends : boundary size block (above block after txs) = some b) :
    window size block (above block after txs) ++ above block (some b) txs =
      above block after txs := by
  have beyond : above block (some b) txs =
      (above block after txs).filter fun tx => b < block tx := by
    rw [above, above, List.filter_filter]
    refine List.filter_congr fun tx _ => ?_
    have past := boundary_above ends
    by_cases up : b < block tx
    · simpa [up] using fun a member => (past a member).trans up
    · simp [up]
  rw [window_eq_filter ordered.above ends, beyond, filter_append_filter ordered.above]

/-- Calling a page read again and again with the block of the last entry of the
page before, until a page is empty. -/
inductive Enumeration (page : Option Nat → List Tx → Prop) (block : Tx → Nat) :
    Option Nat → List (List Tx) → Prop where
  | done (after : Option Nat) (empty : page after []) : Enumeration page block after []
  | next (after : Option Nat) (txs : List Tx) (last : Tx) (pages : List (List Tx))
      (read : page after txs) (final : txs.getLast? = some last)
      (rest : Enumeration page block (some (block last)) pages) :
      Enumeration page block after (txs :: pages)

/-- The same reads, of what a function makes of the entries. -/
theorem Enumeration.map {Row : Type} {page : Option Nat → List Tx → Prop} (f : Tx → Row)
    (block' : Row → Nat) (same : ∀ tx, block' (f tx) = block tx) {after : Option Nat}
    {pages : List (List Tx)} (enumeration : Enumeration page block after pages) :
    Enumeration (fun after rows => ∃ txs, page after txs ∧ rows = txs.map f) block' after
      (pages.map (List.map f)) := by
  induction enumeration with
  | done after empty => exact .done after ⟨[], empty, rfl⟩
  | next after txs last pages read final rest ih =>
    rw [← same last] at ih
    refine .next after (txs.map f) (f last) _ ⟨txs, read, rfl⟩ ?_ ih
    rw [List.getLast?_map, final, Option.map_some]

section Enumerate

variable {page : Option Nat → List Tx → Prop} {content : List Tx}

/-- Reads that return windows enumerate the content, each entry once, in order. -/
theorem Enumeration.complete (positive : 0 < size) (ordered : Ordered block content)
    (windows : ∀ after txs, page after txs → txs = window size block (above block after content))
    {after : Option Nat} {pages : List (List Tx)} (enumeration : Enumeration page block after pages) :
    pages.flatten = above block after content := by
  induction enumeration with
  | done after empty =>
    exact ((window_eq_nil positive).mp (windows after [] empty).symm).symm
  | next after txs last pages read final rest ih =>
    obtain rfl := windows after txs read
    cases ends : boundary size block (above block after content) with
    | none =>
      rw [(boundary_eq_none positive).mp ends, window_nil] at final
      cases final
    | some b =>
      rw [window_last ordered.above ends final] at ih
      rw [List.flatten_cons, ih, window_append_above ordered ends]

theorem exists_bound (block : Tx → Nat) (txs : List Tx) : ∃ bound, ∀ tx ∈ txs, block tx ≤ bound := by
  induction txs with
  | nil => exact ⟨0, nofun⟩
  | cons tx txs ih =>
    obtain ⟨bound, upTo⟩ := ih
    refine ⟨max (block tx) bound, fun tx' member => ?_⟩
    obtain rfl | rest := List.mem_cons.mp member
    · exact le_max_left _ _
    · exact (upTo tx' rest).trans (le_max_right _ _)

/-- Reads whose pages move the cursor up a bounded chain come to an empty page. -/
theorem exists_enumeration (bound : Nat) (total : ∀ after, ∃ txs, page after txs)
    (moves : ∀ after txs last, page after txs → txs.getLast? = some last →
      (∀ a ∈ after, a < block last) ∧ block last ≤ bound) (after : Option Nat) :
    ∃ pages, Enumeration page block after pages := by
  induction measure : bound + 1 - after.elim 0 (· + 1) using Nat.strong_induction_on
    generalizing after with
  | _ n ih =>
    obtain ⟨txs, read⟩ := total after
    cases final : txs.getLast? with
    | none =>
      rw [List.getLast?_eq_none_iff.mp final] at read
      exact ⟨[], .done after read⟩
    | some last =>
      obtain ⟨past, within⟩ := moves after txs last read final
      have shrinks : bound + 1 - (some (block last)).elim 0 (· + 1) < n := by
        cases after with
        | none =>
          simp only [Option.elim_none, Option.elim_some] at measure ⊢
          omega
        | some a =>
          have less := past a rfl
          simp only [Option.elim_some] at measure ⊢
          omega
      obtain ⟨pages, rest⟩ := ih _ shrinks _ rfl
      exact ⟨txs :: pages, .next after txs last pages read final rest⟩

end Enumerate
end BlockPaging
