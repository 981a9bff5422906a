import Mathlib.Data.List.Nodup

/-! Insertion-ordered maps with unique keys. Writing to a key that is present
keeps its position; a key written for the first time goes to the end. -/
namespace Containers

/-- Associations in insertion order, each key once. -/
structure KeyedMap (K V : Type) where
  entries : List (K × V)
  distinct : (entries.map Prod.fst).Nodup

namespace KeyedMap

variable {K V : Type} [DecidableEq K]

def empty : KeyedMap K V := ⟨[], List.nodup_nil⟩

def get? (m : KeyedMap K V) (key : K) : Option V :=
  (m.entries.find? fun entry => entry.1 = key).map Prod.snd

def keys (m : KeyedMap K V) : List K := m.entries.map Prod.fst

def size (m : KeyedMap K V) : Nat := m.entries.length

/-- Keep the associations that satisfy `keep`. -/
def filter (m : KeyedMap K V) (keep : K → V → Bool) : KeyedMap K V :=
  ⟨m.entries.filter fun entry => keep entry.1 entry.2,
    m.distinct.sublist (List.filter_sublist.map Prod.fst)⟩

def delete (m : KeyedMap K V) (key : K) : KeyedMap K V := m.filter fun k _ => k ≠ key

/-- Drop the `n` associations inserted first. -/
def dropOldest (m : KeyedMap K V) (n : Nat) : KeyedMap K V :=
  ⟨m.entries.drop n, m.distinct.sublist ((List.drop_sublist _ _).map Prod.fst)⟩

/-- Replace the value of a key in an association list. -/
def replace (key : K) (value : V) (entries : List (K × V)) : List (K × V) :=
  entries.map fun entry => if entry.1 = key then (key, value) else entry

theorem replace_keys (key : K) (value : V) (entries : List (K × V)) :
    (replace key value entries).map Prod.fst = entries.map Prod.fst := by
  simp only [replace, List.map_map]
  refine List.map_congr_left fun entry _ => ?_
  by_cases h : entry.1 = key <;> simp [h]

def set (m : KeyedMap K V) (key : K) (value : V) : KeyedMap K V :=
  if present : key ∈ m.keys then
    ⟨replace key value m.entries, by rw [replace_keys]; exact m.distinct⟩
  else
    ⟨m.entries ++ [(key, value)], by
      rw [List.map_append, List.nodup_append]
      refine ⟨m.distinct, by simp, ?_⟩
      rintro a member b single rfl
      obtain rfl : a = key := by simpa using single
      exact present member⟩

@[simp] theorem get?_empty (key : K) : (empty : KeyedMap K V).get? key = none := rfl

theorem get?_eq_some_iff {m : KeyedMap K V} {key : K} {value : V} :
    m.get? key = some value ↔ (key, value) ∈ m.entries := by
  obtain ⟨entries, distinct⟩ := m
  simp only [get?]
  induction entries with
  | nil => simp
  | cons entry rest ih =>
    obtain ⟨k, v⟩ := entry
    simp only [List.map_cons, List.nodup_cons] at distinct
    by_cases same : k = key
    · subst same
      have absent : (k, value) ∉ rest := fun member =>
        distinct.1 (List.mem_map.mpr ⟨_, member, rfl⟩)
      simp [absent, eq_comm]
    · simp [same, ih distinct.2, Ne.symm same]

theorem get?_eq_none_iff {m : KeyedMap K V} {key : K} : m.get? key = none ↔ key ∉ m.keys := by
  rw [Option.eq_none_iff_forall_ne_some]
  simp only [ne_eq, get?_eq_some_iff, keys, List.mem_map, not_exists, not_and]
  constructor
  · rintro absent ⟨k, v⟩ member rfl
    exact absent v member
  · exact fun absent v member => absent (key, v) member rfl

theorem get?_set (m : KeyedMap K V) (key key' : K) (value : V) :
    (m.set key value).get? key' = if key' = key then some value else m.get? key' := by
  apply Option.ext
  intro v
  rw [get?_eq_some_iff]
  by_cases present : key ∈ m.keys
  · simp only [set, present, dite_true, replace, List.mem_map]
    by_cases same : key' = key
    · subst same
      simp only [if_true, Option.some.injEq]
      constructor
      · rintro ⟨entry, -, eq⟩
        by_cases h : entry.1 = key'
        · simp only [h, if_true, Prod.mk.injEq] at eq
          exact eq.2
        · simp only [h, if_false] at eq
          exact absurd (congrArg Prod.fst eq) h
      · rintro rfl
        obtain ⟨entry, member, rfl⟩ := List.mem_map.mp present
        exact ⟨entry, member, by simp⟩
    · rw [if_neg same, get?_eq_some_iff]
      constructor
      · rintro ⟨entry, member, eq⟩
        by_cases h : entry.1 = key
        · simp only [h, if_true, Prod.mk.injEq] at eq
          exact absurd eq.1.symm same
        · simp only [h, if_false] at eq
          exact eq ▸ member
      · exact fun member => ⟨_, member, by simp [same]⟩
  · simp only [set, present, dite_false, List.mem_append, List.mem_singleton, Prod.mk.injEq]
    by_cases same : key' = key
    · subst same
      have absent : (key', v) ∉ m.entries := fun member =>
        present (List.mem_map.mpr ⟨_, member, rfl⟩)
      simp [absent, eq_comm]
    · simp [same, get?_eq_some_iff]

@[simp] theorem get?_set_self (m : KeyedMap K V) (key : K) (value : V) :
    (m.set key value).get? key = some value := by rw [get?_set, if_pos rfl]

theorem get?_set_of_ne (m : KeyedMap K V) {key key' : K} (value : V) (other : key' ≠ key) :
    (m.set key value).get? key' = m.get? key' := by rw [get?_set, if_neg other]

theorem size_set_le (m : KeyedMap K V) (key : K) (value : V) :
    (m.set key value).size ≤ m.size + 1 := by
  unfold size set
  split
  · simp only [replace, List.length_map, Nat.le_succ]
  · simp only [List.length_append, List.length_singleton, Nat.le_refl]

theorem size_set_of_mem {m : KeyedMap K V} {key : K} (value : V) (present : key ∈ m.keys) :
    (m.set key value).size = m.size := by
  rw [set, dif_pos present]
  exact List.length_map _

omit [DecidableEq K] in
theorem size_filter_le (m : KeyedMap K V) (keep : K → V → Bool) : (m.filter keep).size ≤ m.size :=
  List.length_filter_le _ _

omit [DecidableEq K] in
@[simp] theorem size_dropOldest (m : KeyedMap K V) (n : Nat) :
    (m.dropOldest n).size = m.size - n :=
  List.length_drop

/-- Cutting down to a positive size keeps what was written last under a new key. -/
theorem get?_dropOldest_set {m : KeyedMap K V} {key : K} {value : V} {keep : K → V → Bool}
    {bound : Nat} (absent : key ∉ m.keys) (kept : keep key value = true) (positive : 1 ≤ bound) :
    (((m.set key value).filter keep).dropOldest
      (((m.set key value).filter keep).size - bound)).get? key = some value := by
  have entries : ((m.set key value).filter keep).entries =
      (m.entries.filter fun entry => keep entry.1 entry.2) ++ [(key, value)] := by
    simp [set, absent, filter, kept]
  rw [get?_eq_some_iff]
  change (key, value) ∈ List.drop (List.length _ - bound) ((m.set key value).filter keep).entries
  rw [entries, List.length_append, List.length_singleton,
    List.drop_append_of_le_length (by omega)]
  exact List.mem_append_right _ (List.mem_singleton_self _)

theorem get?_filter_eq_some {m : KeyedMap K V} {keep : K → V → Bool} {key : K} {value : V} :
    (m.filter keep).get? key = some value ↔ m.get? key = some value ∧ keep key value = true := by
  simp [get?_eq_some_iff, filter]

/-- Keeping by the key alone. -/
theorem get?_filter_key (m : KeyedMap K V) (keep : K → Bool) (key : K) :
    (m.filter fun k _ => keep k).get? key = if keep key then m.get? key else none := by
  apply Option.ext
  intro value
  rw [get?_filter_eq_some]
  by_cases kept : keep key = true <;> simp [kept]

theorem get?_dropOldest {m : KeyedMap K V} {n : Nat} {key : K} {value : V}
    (found : (m.dropOldest n).get? key = some value) : m.get? key = some value := by
  rw [get?_eq_some_iff] at found ⊢
  exact List.mem_of_mem_drop found

theorem get?_delete (m : KeyedMap K V) (key key' : K) :
    (m.delete key).get? key' = if key' = key then none else m.get? key' := by
  apply Option.ext
  intro v
  simp only [delete, get?_filter_eq_some, decide_eq_true_eq]
  by_cases same : key' = key <;> simp [same]

end KeyedMap

section Distinct

variable {Row K : Type} [DecidableEq K] {key : Row → K}

/-- The first row under each key. -/
def distinctBy (key : Row → K) : List Row → List Row
  | [] => []
  | row :: rows => row :: (distinctBy key rows).filter fun other => key other ≠ key row

theorem mem_distinctBy {rows : List Row} {row : Row}
    (unique : ∀ a ∈ rows, ∀ b ∈ rows, key a = key b → a = b) :
    row ∈ distinctBy key rows ↔ row ∈ rows := by
  induction rows with
  | nil => rfl
  | cons first rows ih =>
    have rest := ih fun a left b right =>
      unique a (List.mem_cons_of_mem _ left) b (List.mem_cons_of_mem _ right)
    rw [distinctBy, List.mem_cons, List.mem_cons, List.mem_filter, rest]
    constructor
    · exact fun member => member.imp id And.left
    · rintro (same | later)
      · exact .inl same
      · by_cases repeated : key row = key first
        · exact .inl (unique row (List.mem_cons_of_mem _ later) first List.mem_cons_self repeated)
        · exact .inr ⟨later, decide_eq_true repeated⟩

theorem nodup_distinctBy (rows : List Row) : ((distinctBy key rows).map key).Nodup := by
  induction rows with
  | nil => exact List.nodup_nil
  | cons row rows ih =>
    rw [distinctBy, List.map_cons, List.nodup_cons]
    refine ⟨fun member => ?_, ih.sublist (List.filter_sublist.map _)⟩
    obtain ⟨other, listed, same⟩ := List.mem_map.mp member
    exact of_decide_eq_true (List.mem_filter.mp listed).2 same

/-- Under distinct keys, the rows with the keys of a part are the part. -/
theorem filter_keys {rows part : List Row} (inside : part.Sublist rows)
    (nodup : (rows.map key).Nodup) : (rows.filter fun row => key row ∈ part.map key) = part := by
  induction inside with
  | slnil => rfl
  | @cons part rows row inside ih =>
    obtain ⟨fresh, rest⟩ := List.nodup_cons.mp nodup
    have absent : key row ∉ part.map key := fun member => fresh ((inside.map key).subset member)
    rw [List.filter_cons, if_neg (by simpa using absent), ih rest]
  | @cons_cons part rows row inside ih =>
    obtain ⟨fresh, rest⟩ := List.nodup_cons.mp nodup
    have others : (rows.filter fun other => key other ∈ (row :: part).map key) =
        rows.filter fun other => key other ∈ part.map key := by
      refine List.filter_congr fun other member => decide_eq_decide.mpr ?_
      rw [List.map_cons, List.mem_cons, or_iff_right]
      exact fun same => fresh (same ▸ List.mem_map_of_mem member)
    rw [List.filter_cons, if_pos (by simp), others, ih rest]

end Distinct
end Containers
