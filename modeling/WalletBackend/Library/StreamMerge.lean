import WalletBackend.Library.BlockWindow

/-! Merging ascending streams one row at a time, each distinct row once, until a
page of the union is complete: the rows taken are a front of the union, so the page
can be closed before the streams are read to their ends. -/
namespace StreamMerge
open BlockPaging

variable {Row : Type} [LinearOrder Row]

/-- `taken` is the distinct rows merged so far, `rests` what is left of each stream. -/
structure Merged (union taken : List Row) (rests : List (List Row)) : Prop where
  sorted : taken.Pairwise (· < ·)
  ascending : ∀ rest ∈ rests, rest.Pairwise (· ≤ ·)
  covers : ∀ row, row ∈ union ↔ row ∈ taken ∨ ∃ rest ∈ rests, row ∈ rest
  below : ∀ row ∈ taken, ∀ rest ∈ rests, ∀ later ∈ rest, row ≤ later

/-- `row` heads the stream `rest` and no other stream has a smaller head. -/
structure LeastHead (rests : List (List Row)) (i : Nat) (row : Row) (rest : List Row) : Prop where
  heads : rests[i]? = some (row :: rest)
  least : ∀ other ∈ rests, ∀ head ∈ other.head?, row ≤ head

/-- The rows taken, once `row` is merged. -/
def take (taken : List Row) (row : Row) : List Row :=
  if row ∈ taken then taken else taken ++ [row]

theorem mem_take {taken : List Row} {row other : Row} :
    other ∈ take taken row ↔ other ∈ taken ∨ other = row := by
  unfold take
  split
  case isTrue present =>
    exact ⟨.inl, fun member => member.elim id fun same => same ▸ present⟩
  case isFalse => simp

variable {union taken : List Row} {rests : List (List Row)} {i : Nat} {row : Row} {rest : List Row}

theorem merged_start (ascending : ∀ rest ∈ rests, rest.Pairwise (· ≤ ·))
    (covers : ∀ row, row ∈ union ↔ ∃ rest ∈ rests, row ∈ rest) : Merged union [] rests where
  sorted := .nil
  ascending := ascending
  covers := by simpa using covers
  below := nofun

/-- The smallest head is below everything left. -/
theorem LeastHead.le (least : LeastHead rests i row rest)
    (ascending : ∀ rest ∈ rests, rest.Pairwise (· ≤ ·)) {other : List Row}
    (member : other ∈ rests) {later : Row} (inside : later ∈ other) : row ≤ later := by
  cases other with
  | nil => exact absurd inside List.not_mem_nil
  | cons head tail =>
    have first := least.least _ member head rfl
    obtain rfl | behind := List.mem_cons.mp inside
    · exact first
    · exact first.trans ((List.pairwise_cons.mp (ascending _ member)).1 later behind)

omit [LinearOrder Row] in
/-- What is left after the head is taken. -/
theorem mem_set_tail {other : List Row} (heads : rests[i]? = some (row :: rest))
    (member : other ∈ rests.set i rest) :
    ∃ before ∈ rests, ∀ later, later ∈ other → later ∈ before := by
  obtain present | rfl := List.mem_or_eq_of_mem_set member
  · exact ⟨other, present, fun _ inside => inside⟩
  · exact ⟨_, List.mem_of_getElem? heads, fun _ inside => List.mem_cons_of_mem _ inside⟩

omit [LinearOrder Row] in
theorem mem_rests_iff (heads : rests[i]? = some (row :: rest)) {other : Row} :
    (∃ stream ∈ rests, other ∈ stream) ↔
      other = row ∨ ∃ stream ∈ rests.set i rest, other ∈ stream := by
  obtain ⟨bound, here⟩ := List.getElem?_eq_some_iff.mp heads
  constructor
  · rintro ⟨stream, member, inside⟩
    obtain ⟨j, within, rfl⟩ := List.getElem_of_mem member
    by_cases same : i = j
    · subst same
      rw [here] at inside
      exact (List.mem_cons.mp inside).imp id fun behind =>
        ⟨rest, List.mem_iff_getElem.mpr ⟨i, by simpa using bound, by simp⟩, behind⟩
    · exact .inr ⟨_, List.mem_iff_getElem.mpr ⟨j, by simpa using within, by simp [same]⟩, inside⟩
  · rintro (rfl | ⟨stream, member, inside⟩)
    · exact ⟨_, List.mem_of_getElem? heads, List.mem_cons_self⟩
    · obtain ⟨before, present, keeps⟩ := mem_set_tail heads member
      exact ⟨before, present, keeps other inside⟩

/-- Taking the smallest head keeps the merge in order. -/
theorem Merged.step (merged : Merged union taken rests) (least : LeastHead rests i row rest) :
    Merged union (take taken row) (rests.set i rest) where
  sorted := by
    unfold take
    split
    case isTrue => exact merged.sorted
    case isFalse fresh =>
      refine List.pairwise_append.mpr ⟨merged.sorted, List.pairwise_singleton _ _, ?_⟩
      rintro earlier member _ single
      obtain rfl := List.mem_singleton.mp single
      have upTo := merged.below earlier member _ (List.mem_of_getElem? least.heads) _
        List.mem_cons_self
      exact lt_of_le_of_ne upTo fun same => fresh (same ▸ member)
  ascending := by
    intro other member
    obtain present | rfl := List.mem_or_eq_of_mem_set member
    · exact merged.ascending other present
    · exact (List.pairwise_cons.mp
        (merged.ascending _ (List.mem_of_getElem? least.heads))).2
  covers := by
    intro other
    rw [merged.covers, mem_rests_iff least.heads, mem_take, or_assoc]
  below := by
    intro earlier member other present later inside
    obtain ⟨before, listed, keeps⟩ := mem_set_tail least.heads present
    obtain old | rfl := mem_take.mp member
    · exact merged.below earlier old before listed later (keeps later inside)
    · exact least.le merged.ascending listed (keeps later inside)

/-- Ascending lists of the same rows are equal. -/
theorem eq_of_mem_iff {xs ys : List Row} (left : xs.Pairwise (· < ·)) (right : ys.Pairwise (· < ·))
    (same : ∀ row, row ∈ xs ↔ row ∈ ys) : xs = ys := by
  have perm : xs.Perm ys := (List.perm_ext_iff_of_nodup (left.imp ne_of_lt)
    (right.imp ne_of_lt)).mpr same
  exact perm.eq_of_pairwise (fun _ _ _ _ up down => absurd (up.trans down) (lt_irrefl _)) left right

/-- The rows taken are a front of the union, and what follows is still in the streams. -/
theorem Merged.front (merged : Merged union taken rests) (ordered : union.Pairwise (· < ·)) :
    ∃ later, union = taken ++ later ∧ ∀ row ∈ later, ∃ rest ∈ rests, row ∈ rest := by
  refine ⟨union.filter (· ∉ taken), ?_, fun row member => ?_⟩
  · refine eq_of_mem_iff ordered (List.pairwise_append.mpr
      ⟨merged.sorted, ordered.sublist List.filter_sublist, ?_⟩) fun row => ?_
    · intro earlier member later behind
      obtain ⟨present, fresh⟩ := List.mem_filter.mp behind
      obtain old | ⟨rest, listed, inside⟩ := (merged.covers later).mp present
      · exact absurd old (of_decide_eq_true fresh)
      · exact lt_of_le_of_ne (merged.below earlier member rest listed later inside)
          fun same => of_decide_eq_true fresh (same ▸ member)
    · rw [List.mem_append, List.mem_filter]
      by_cases old : row ∈ taken
      · simpa [old] using (merged.covers row).mpr (.inl old)
      · simp [old]
  · obtain ⟨present, fresh⟩ := List.mem_filter.mp member
    exact ((merged.covers row).mp present).resolve_left (of_decide_eq_true fresh)

section Page

variable {block : Row → Nat} {size : Nat} {boundary : Option Nat}

/-- `boundary` is the block of the row that fills the page, and nothing beyond it has
been taken. -/
structure Closing (size : Nat) (block : Row → Nat) (taken : List Row) (boundary : Option Nat) :
    Prop where
  pivot : boundary = taken[size - 1]?.map block
  within : ∀ row ∈ taken, ∀ b ∈ boundary, block row ≤ b

/-- The boundary, once `row` is merged. -/
def close (size : Nat) (block : Row → Nat) (taken : List Row) (boundary : Option Nat) (row : Row) :
    Option Nat :=
  if row ∈ taken then boundary
  else if taken.length + 1 = size then some (block row) else boundary

theorem Closing.step (positive : 0 < size) (monotone : Monotone block)
    (closing : Closing size block taken boundary) (upTo : ∀ row' ∈ taken, row' ≤ row)
    (inside : ∀ b ∈ boundary, block row ≤ b) :
    Closing size block (take taken row) (close size block taken boundary row) := by
  unfold take close
  split
  case isTrue => exact closing
  case isFalse =>
    split
    case isTrue fills =>
      refine ⟨?_, fun row' member b filled => ?_⟩
      · rw [List.getElem?_append_right (by omega), (by omega : size - 1 - taken.length = 0)]
        rfl
      · obtain rfl : block row = b := Option.some.inj filled
        obtain old | new := List.mem_append.mp member
        · exact monotone (upTo row' old)
        · rw [List.mem_singleton.mp new]
    case isFalse elsewhere =>
      refine ⟨?_, fun row' member b filled => ?_⟩
      · rw [closing.pivot, List.getElem?_append]
        split
        · rfl
        · rw [List.getElem?_eq_none (by omega), List.getElem?_eq_none (by simp; omega)]
      · obtain old | new := List.mem_append.mp member
        · exact closing.within row' old b filled
        · rw [List.mem_singleton.mp new]
          exact inside b filled

/-- A merge that has nothing left up to its boundary holds the page of the union. -/
theorem Merged.window_eq (positive : 0 < size) (monotone : Monotone block)
    (merged : Merged union taken rests) (ordered : union.Pairwise (· < ·))
    (closing : Closing size block taken boundary)
    (past : ∀ rest ∈ rests, ∀ row ∈ rest, ∃ b ∈ boundary, b < block row) :
    window size block union = taken := by
  obtain ⟨later, rfl, remaining⟩ := merged.front ordered
  have byBlock : Ordered block (taken ++ later) := ordered.imp fun less => monotone less.le
  cases closed : boundary with
  | none =>
    have all : later = [] := List.eq_nil_iff_forall_not_mem.mpr fun row member => by
      obtain ⟨rest, listed, inside⟩ := remaining row member
      obtain ⟨b, filled, -⟩ := past rest listed row inside
      rw [closed] at filled
      cases filled
    have short := closing.pivot
    rw [closed, eq_comm, Option.map_eq_none_iff, List.getElem?_eq_none_iff] at short
    rw [all, List.append_nil]
    exact window_of_length_le (by omega)
  | some b =>
    have filled := closing.pivot
    rw [closed, eq_comm, Option.map_eq_some_iff] at filled
    obtain ⟨pivot, found, rfl⟩ := filled
    obtain ⟨bound, -⟩ := List.getElem?_eq_some_iff.mp found
    have ends : BlockPaging.boundary size block (taken ++ later) = some (block pivot) :=
      boundary_of_getElem? positive (by rw [List.getElem?_append_left bound, found])
    have front : taken.filter (fun row => block row ≤ block pivot) = taken :=
      List.filter_eq_self.mpr fun row member =>
        decide_eq_true (closing.within row member _ closed)
    have none : later.filter (fun row => block row ≤ block pivot) = [] := by
      refine List.filter_eq_nil_iff.mpr fun row member => ?_
      obtain ⟨rest, listed, inside⟩ := remaining row member
      obtain ⟨b, filled, beyond⟩ := past rest listed row inside
      rw [closed] at filled
      cases filled
      simpa using beyond
    rw [window_eq_filter byBlock ends, List.filter_append, front, none, List.append_nil]

/-- Nothing is taken that is not on the page. -/
theorem Merged.subset_window (positive : 0 < size) (monotone : Monotone block)
    (merged : Merged union taken rests) (ordered : union.Pairwise (· < ·))
    (closing : Closing size block taken boundary) : taken ⊆ window size block union := by
  obtain ⟨later, rfl, -⟩ := merged.front ordered
  have byBlock : Ordered block (taken ++ later) := ordered.imp fun less => monotone less.le
  intro row member
  cases filled : taken[size - 1]? with
  | none =>
    have short : taken.length ≤ size := by
      rw [List.getElem?_eq_none_iff] at filled
      omega
    have front : row ∈ (taken ++ later).take size := by
      rw [List.take_append, List.take_of_length_le short]
      exact List.mem_append_left _ member
    cases ends : BlockPaging.boundary size block (taken ++ later) with
    | none =>
      rw [(boundary_eq_none positive).mp ends] at front
      simp at front
    | some b =>
      obtain ⟨last, final, rfl⟩ := Option.map_eq_some_iff.mp ends
      rw [window, final]
      exact List.mem_append_left _ front
  | some pivot =>
    obtain ⟨bound, -⟩ := List.getElem?_eq_some_iff.mp filled
    have ends : BlockPaging.boundary size block (taken ++ later) = some (block pivot) :=
      boundary_of_getElem? positive (by rw [List.getElem?_append_left bound, filled])
    rw [window_eq_filter byBlock ends, List.mem_filter]
    refine ⟨List.mem_append_left _ member, decide_eq_true (closing.within row member _ ?_)⟩
    rw [closing.pivot, filled]
    rfl

end Page
end StreamMerge
