import Mathlib.Order.Lattice
import Mathlib.Data.List.Nodup

/-! Paging by cursor. A listing is kept in strictly ascending key order; a page
holds the first rows whose key lies beyond the cursor, and the next cursor is the
key of the page's last row. The listing may change between any two pages. -/
namespace CursorPaging

variable {T K Row : Type} [LinearOrder K] {key : Row → K} {size : Nat}

/-- `k` lies strictly after the cursor, if there is one. -/
def Beyond (cursor : Option K) (k : K) : Prop := ∀ c ∈ cursor, c < k

instance (cursor : Option K) (k : K) : Decidable (Beyond cursor k) := by
  cases cursor with
  | none => exact isTrue nofun
  | some c => exact decidable_of_iff (c < k) ⟨fun h _ member => Option.mem_some.mp member ▸ h,
      fun h => h c rfl⟩

theorem Beyond.trans {cursor : Option K} {k k' : K} (first : Beyond cursor k)
    (second : Beyond (some k) k') : Beyond cursor k' :=
  fun c member => (first c member).trans (second k rfl)

/-- The rows beyond the cursor. -/
def remaining (key : Row → K) (cursor : Option K) (rows : List Row) : List Row :=
  rows.filter fun row => Beyond cursor (key row)

/-- Rows in strictly ascending key order. -/
def Ascending (key : Row → K) (rows : List Row) : Prop :=
  rows.Pairwise fun a b => key a < key b

theorem mem_remaining {cursor : Option K} {rows : List Row} {row : Row} :
    row ∈ remaining key cursor rows ↔ row ∈ rows ∧ Beyond cursor (key row) := by
  simp [remaining]

theorem Ascending.remaining {cursor : Option K} {rows : List Row} (sorted : Ascending key rows) :
    Ascending key (remaining key cursor rows) :=
  sorted.sublist List.filter_sublist

theorem Ascending.keys_nodup {rows : List Row} (sorted : Ascending key rows) :
    (rows.map key).Nodup :=
  List.pairwise_map.mpr (sorted.imp fun less => less.ne)

theorem Ascending.nodup {rows : List Row} (sorted : Ascending key rows) : rows.Nodup :=
  sorted.keys_nodup.of_map

/-- Two rows with one key are one row. -/
theorem Ascending.row_eq {rows : List Row} (sorted : Ascending key rows) {a b : Row}
    (left : a ∈ rows) (right : b ∈ rows) (same : key a = key b) : a = b :=
  List.inj_on_of_nodup_map sorted.keys_nodup left right same

/-- A row no later than the last row of a page is on the page. -/
theorem Ascending.mem_take {rows : List Row} (sorted : Ascending key rows) {last row : Row}
    (ends : (rows.take size).getLast? = some last) (member : row ∈ rows)
    (upTo : key row ≤ key last) : row ∈ rows.take size := by
  rw [← List.take_append_drop size rows, List.mem_append] at member
  obtain early | late := member
  · exact early
  · rw [Ascending, ← List.take_append_drop size rows, List.pairwise_append] at sorted
    exact absurd upTo (sorted.2.2 last (List.mem_of_getLast? ends) row late).not_ge

/-- A page in ascending order lies up to its last row. -/
theorem Ascending.le_last {rows : List Row} (sorted : Ascending key rows) {last row : Row}
    (ends : rows.getLast? = some last) (member : row ∈ rows) : key row ≤ key last := by
  obtain ⟨front, rfl⟩ := List.getLast?_eq_some_iff.mp ends
  obtain early | late := List.mem_append.mp member
  · exact ((List.pairwise_append.mp sorted).2.2 row early last List.mem_cons_self).le
  · rw [List.mem_singleton.mp late]

/-- Past the last row of its front there is the rest of a list. -/
theorem Ascending.remaining_append {front back : List Row} (sorted : Ascending key (front ++ back))
    {last : Row} (ends : front.getLast? = some last) :
    CursorPaging.remaining key (some (key last)) (front ++ back) = back := by
  obtain ⟨before, after, apart⟩ := List.pairwise_append.mp sorted
  have behind : front.filter (fun row => Beyond (some (key last)) (key row)) = [] := by
    refine List.filter_eq_nil_iff.mpr fun row member beyond => ?_
    exact (Ascending.le_last before ends member).not_gt (of_decide_eq_true beyond _ rfl)
  have ahead : back.filter (fun row => Beyond (some (key last)) (key row)) = back := by
    refine List.filter_eq_self.mpr fun row member => decide_eq_true ?_
    rintro _ ⟨⟩
    exact apart last (List.mem_of_getLast? ends) row member
  rw [CursorPaging.remaining, List.filter_append, behind, ahead, List.nil_append]

theorem remaining_none (rows : List Row) : remaining key none rows = rows :=
  List.filter_eq_self.mpr fun _ _ => decide_eq_true nofun

/-- A completed walk from `cursor`: the instants of its pages and the rows read. -/
inductive Walk (key : Row → K) (size : Nat) (listing : T → List Row) :
    Option K → List T → List Row → Prop where
  | last (t : T) (cursor : Option K)
      (fits : (remaining key cursor (listing t)).length ≤ size) :
      Walk key size listing cursor [t] (remaining key cursor (listing t))
  | next (t : T) (cursor : Option K) (row : Row) {ts : List T} {rows : List Row}
      (ends : ((remaining key cursor (listing t)).take size).getLast? = some row)
      (rest : Walk key size listing (some (key row)) ts rows) :
      Walk key size listing cursor (t :: ts) ((remaining key cursor (listing t)).take size ++ rows)

section Cover

variable {listing : T → List Row} {cursor : Option K} {ts : List T} {rows : List Row}

theorem Walk.beyond (walk : Walk key size listing cursor ts rows) :
    ∀ row ∈ rows, Beyond cursor (key row) := by
  induction walk with
  | last t cursor fits => exact fun row member => (mem_remaining.mp member).2
  | next t cursor final ends _ ih =>
    intro row member
    obtain page | rest := List.mem_append.mp member
    · exact (mem_remaining.mp (List.mem_of_mem_take page)).2
    · have onPage := List.mem_of_mem_take (List.mem_of_getLast? ends)
      exact (mem_remaining.mp onPage).2.trans (ih row rest)

/-- However the listing changes under it, a walk never repeats a row. -/
theorem Walk.ascending (sorted : ∀ t, Ascending key (listing t))
    (walk : Walk key size listing cursor ts rows) : Ascending key rows := by
  induction walk with
  | last t cursor fits => exact (sorted t).remaining
  | next t cursor final ends rest ih =>
    have page : Ascending key ((remaining key cursor (listing t)).take size) :=
      (sorted t).remaining.sublist (List.take_sublist size _)
    refine List.pairwise_append.mpr ⟨page, ih, fun a member b later => ?_⟩
    exact (Ascending.le_last page ends member).trans_lt (rest.beyond b later _ rfl)

theorem Walk.listed (walk : Walk key size listing cursor ts rows) :
    ∀ row ∈ rows, ∃ t ∈ ts, row ∈ listing t := by
  induction walk with
  | last t cursor fits =>
    exact fun row member => ⟨t, List.mem_singleton_self t, (mem_remaining.mp member).1⟩
  | next t cursor final ends _ ih =>
    intro row member
    obtain page | rest := List.mem_append.mp member
    · exact ⟨t, List.mem_cons_self, (mem_remaining.mp (List.mem_of_mem_take page)).1⟩
    · obtain ⟨t', member', listed⟩ := ih row rest
      exact ⟨t', List.mem_cons_of_mem _ member', listed⟩

/-- A key that is listed at every page of the walk is read. -/
theorem Walk.complete (sorted : ∀ t, Ascending key (listing t))
    (walk : Walk key size listing cursor ts rows) {k : K} (after : Beyond cursor k)
    (present : ∀ t ∈ ts, k ∈ (listing t).map key) : k ∈ rows.map key := by
  induction walk with
  | last t cursor fits =>
    obtain ⟨row, member, rfl⟩ := List.mem_map.mp (present t (List.mem_singleton_self t))
    exact List.mem_map_of_mem (mem_remaining.mpr ⟨member, after⟩)
  | next t cursor final ends rest ih =>
    rw [List.map_append, List.mem_append]
    obtain ⟨row, member, rfl⟩ := List.mem_map.mp (present t List.mem_cons_self)
    have left := mem_remaining.mpr ⟨member, after⟩
    by_cases upTo : key row ≤ key final
    · exact .inl (List.mem_map_of_mem ((sorted t).remaining.mem_take ends left upTo))
    · refine .inr (ih ?_ fun t' later => present t' (List.mem_cons_of_mem _ later))
      rintro _ ⟨⟩
      exact lt_of_not_ge upTo

/-- A walk over a listing that stays as it is reads each of its rows once. -/
theorem Walk.perm {listing rows : List Row} (sorted : Ascending key listing)
    (walk : Walk key size (fun _ => listing) none ts rows) : rows.Perm listing := by
  have once : Ascending key rows := walk.ascending fun _ => sorted
  refine (List.perm_ext_iff_of_nodup once.nodup sorted.nodup).mpr fun row => ⟨?_, ?_⟩
  · intro member
    obtain ⟨_, -, listed⟩ := walk.listed row member
    exact listed
  · intro member
    have read : key row ∈ rows.map key :=
      walk.complete (fun _ => sorted) nofun fun _ _ => List.mem_map_of_mem member
    obtain ⟨row', there, same⟩ := List.mem_map.mp read
    obtain ⟨_, -, listed⟩ := walk.listed row' there
    exact sorted.row_eq listed member same ▸ there

end Cover
end CursorPaging
