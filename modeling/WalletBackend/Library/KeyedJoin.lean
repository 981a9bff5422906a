import WalletBackend.Library.KeyedMap

/-! Maps written from a list of entries. What is found under a key is its last entry, so
entries that agree on each key may come in any order. -/
namespace Containers

/-- What a turn of a loop brings about for its item, and every turn keeps, holds of each item
in the end. -/
theorem foldl_establishes {α β : Type} {f : β → α → β} {P : β → α → Prop}
    (here : ∀ b a, P (f b a) a) (kept : ∀ b a a', P b a' → P (f b a) a') (items : List α)
    (b : β) : ∀ a ∈ items, P (items.foldl f b) a := by
  have later (items : List α) : ∀ b a, P b a → P (items.foldl f b) a := by
    induction items with
    | nil => exact fun _ _ known => known
    | cons item items ih => exact fun b a known => ih _ a (kept b item a known)
  induction items generalizing b with
  | nil => exact nofun
  | cons item items ih =>
    intro a member
    obtain rfl | member := List.mem_cons.mp member
    · exact later items _ _ (here b a)
    · exact ih _ a member

section Last

variable {Row Row' K : Type} [DecidableEq K] {key : Row → K} {rows : List Row} {wanted : K}

/-- The last row of a key. -/
def lastOf (key : Row → K) (rows : List Row) (wanted : K) : Option Row :=
  rows.reverse.find? fun row => key row = wanted

theorem lastOf_cons (row : Row) (rows : List Row) :
    lastOf key (row :: rows) wanted =
      (lastOf key rows wanted).or (if key row = wanted then some row else none) := by
  rw [lastOf, List.reverse_cons, List.find?_append, lastOf]
  by_cases same : key row = wanted <;> simp [List.find?, same]

theorem lastOf_some {row : Row} (found : lastOf key rows wanted = some row) :
    row ∈ rows ∧ key row = wanted :=
  ⟨List.mem_reverse.mp (List.mem_of_find?_eq_some found), by simpa using List.find?_some found⟩

theorem lastOf_exists {row : Row} (member : row ∈ rows) (same : key row = wanted) :
    ∃ last, lastOf key rows wanted = some last :=
  Option.isSome_iff_exists.mp
    (List.find?_isSome.mpr ⟨row, List.mem_reverse.mpr member, decide_eq_true same⟩)

theorem lastOf_map {f : Row' → Row} {rows : List Row'} :
    lastOf key (rows.map f) wanted = (lastOf (key ∘ f) rows wanted).map f := by
  rw [lastOf, ← List.map_reverse, List.find?_map]
  rfl

/-- A row whose key is spelled as it is looked up is one of those of the key. -/
theorem lastOf_of_spelled {normal : K → K} (fixed : normal wanted = wanted)
    (unknown : lastOf (normal ∘ key) rows wanted = none) : lastOf key rows wanted = none := by
  cases spelled : lastOf key rows wanted with
  | none => rfl
  | some row =>
    obtain ⟨member, same⟩ := lastOf_some spelled
    have about : (normal ∘ key) row = wanted := by rw [Function.comp, same, fixed]
    obtain ⟨last, found⟩ := lastOf_exists member about
    rw [unknown] at found
    cases found

end Last

theorem length_filterMap_le {α β γ : Type} {f : α → Option β} {g : α → Option γ} {items : List α}
    (grows : ∀ a ∈ items, (f a).isSome → (g a).isSome) :
    (items.filterMap f).length ≤ (items.filterMap g).length := by
  induction items with
  | nil => exact Nat.le_refl 0
  | cons a items ih =>
    have rest := ih fun b member => grows b (List.mem_cons_of_mem _ member)
    have here := grows a List.mem_cons_self
    cases left : f a with
    | none =>
      rw [List.filterMap_cons_none left]
      cases right : g a with
      | none => rwa [List.filterMap_cons_none right]
      | some c =>
        rw [List.filterMap_cons_some right]
        exact Nat.le_succ_of_le rest
    | some b =>
      obtain ⟨c, right⟩ := Option.isSome_iff_exists.mp (here (by rw [left]; rfl))
      rw [List.filterMap_cons_some left, List.filterMap_cons_some right]
      exact Nat.succ_le_succ rest

/-- Where one of two joins finds whatever the other does, they look alike only if they find
alike for each item. -/
theorem filterMap_alike_iff {α β γ : Type} {f g : α → Option β} {view : β → γ} {items : List α}
    (grows : ∀ a ∈ items, (f a).isSome → (g a).isSome) :
    (items.filterMap f).map view = (items.filterMap g).map view ↔
      ∀ a ∈ items, (f a).map view = (g a).map view := by
  induction items with
  | nil => simp
  | cons a items ih =>
    have later : ∀ b ∈ items, (f b).isSome → (g b).isSome :=
      fun b member => grows b (List.mem_cons_of_mem _ member)
    rw [List.forall_mem_cons]
    cases left : f a with
    | none =>
      cases right : g a with
      | none =>
        rw [List.filterMap_cons_none left, List.filterMap_cons_none right, ih later]
        simp
      | some c =>
        rw [List.filterMap_cons_none left, List.filterMap_cons_some right]
        refine iff_of_false (fun same => ?_) (by simp)
        have lengths := congrArg List.length same
        have fewer := length_filterMap_le later
        simp only [List.length_map, List.length_cons] at lengths
        omega
    | some b =>
      obtain ⟨c, right⟩ := Option.isSome_iff_exists.mp
        (grows a List.mem_cons_self (by rw [left]; rfl))
      rw [List.filterMap_cons_some left, List.filterMap_cons_some right, List.map_cons, List.map_cons,
        List.cons_eq_cons, ih later, right, Option.map_some, Option.map_some, Option.some_inj]

/-- What is found is what was looked for, of the items that either finds. -/
theorem forall₂_reduceOption {α β : Type} {R : α → β → Prop} {as : List (Option α)}
    {bs : List (Option β)} (each : List.Forall₂ (Option.Rel R) as bs) :
    List.Forall₂ R as.reduceOption bs.reduceOption := by
  induction each with
  | nil => exact .nil
  | cons head _ ih =>
    cases head with
    | none => exact ih
    | some related => exact .cons related ih

namespace KeyedMap

variable {K V : Type} [DecidableEq K] {m : KeyedMap K V} {entries : List (K × V)} {key : K} {value : V}

/-- Write the entries, one after the other. -/
def setAll (m : KeyedMap K V) (entries : List (K × V)) : KeyedMap K V :=
  entries.foldl (fun m entry => m.set entry.1 entry.2) m

/-- `new Map(entries)`. -/
def ofEntries (entries : List (K × V)) : KeyedMap K V := empty.setAll entries

@[simp] theorem setAll_nil (m : KeyedMap K V) : m.setAll [] = m := rfl

@[simp] theorem setAll_cons (m : KeyedMap K V) (entry : K × V) (entries : List (K × V)) :
    m.setAll (entry :: entries) = (m.set entry.1 entry.2).setAll entries := rfl

/-- The last entry of a key is found, or what was there before. -/
theorem get?_setAll (m : KeyedMap K V) (entries : List (K × V)) (key : K) :
    (m.setAll entries).get? key =
      ((entries.reverse.find? fun entry => entry.1 = key).map Prod.snd).or (m.get? key) := by
  induction entries generalizing m with
  | nil => rfl
  | cons entry entries ih =>
    rw [setAll_cons, ih, List.reverse_cons, List.find?_append, get?_set]
    cases entries.reverse.find? fun entry => entry.1 = key with
    | some later => rfl
    | none =>
      by_cases same : entry.1 = key
      · simp [List.find?, same]
      · simp [List.find?, same, Ne.symm same]

/-- Entries that are read off rows: the last row of a key is found. -/
theorem get?_setAll_rows {Row : Type} (m : KeyedMap K V) (key : Row → K) (value : Row → V)
    (rows : List Row) (wanted : K) :
    (m.setAll (rows.map fun row => (key row, value row))).get? wanted =
      ((lastOf key rows wanted).map value).or (m.get? wanted) := by
  rw [get?_setAll, ← List.map_reverse, List.find?_map, Option.map_map]
  rfl

/-- Where the entries of a key agree, their value is found. -/
theorem get?_setAll_of_tells (present : ∃ entry ∈ entries, entry.1 = key)
    (tells : ∀ entry ∈ entries, entry.1 = key → entry.2 = value) :
    (m.setAll entries).get? key = some value := by
  obtain ⟨entry, member, same⟩ := present
  rw [get?_setAll]
  cases found : entries.reverse.find? fun entry => entry.1 = key with
  | none =>
    have other := List.find?_eq_none.mp found entry (List.mem_reverse.mpr member)
    simp [same] at other
  | some last =>
    have last_key : last.1 = key := by simpa using List.find?_some found
    have told := tells last (List.mem_reverse.mp (List.mem_of_find?_eq_some found)) last_key
    exact congrArg some told

/-- What is found was written, or was there before. -/
theorem get?_setAll_some (found : (m.setAll entries).get? key = some value) :
    (key, value) ∈ entries ∨ m.get? key = some value := by
  rw [get?_setAll] at found
  cases last : entries.reverse.find? fun entry => entry.1 = key with
  | none =>
    rw [last] at found
    exact .inr found
  | some entry =>
    rw [last] at found
    cases found
    have same : entry.1 = key := by simpa using List.find?_some last
    refine .inl (same ▸ ?_)
    exact List.mem_reverse.mp (List.mem_of_find?_eq_some last)

/-- A key that was written is found. -/
theorem get?_setAll_isSome (written : ∃ entry ∈ entries, entry.1 = key) :
    ∃ value, (m.setAll entries).get? key = some value := by
  obtain ⟨entry, member, same⟩ := written
  rw [get?_setAll]
  cases last : entries.reverse.find? fun entry => entry.1 = key with
  | none =>
    have other := List.find?_eq_none.mp last entry (List.mem_reverse.mpr member)
    simp [same] at other
  | some entry => exact ⟨entry.2, rfl⟩

/-- The entries of one key, among those made for each of some keys. -/
theorem filter_entries (value : K → V) (keys : List K) (key : K) :
    ((keys.map fun other => (other, value other)).filter fun entry => entry.1 = key) =
      (keys.filter fun other => other = key).map fun other => (other, value key) := by
  rw [List.filter_map]
  refine List.map_congr_left fun other member => ?_
  have same : other = key := by simpa using (List.mem_filter.mp member).2
  rw [same]

/-- Only the entries of a key tell what is found under it. -/
theorem get?_setAll_alike {m' : KeyedMap K V} {entries' : List (K × V)} (before : m.get? key = m'.get? key)
    (alike : (entries.filter fun entry => entry.1 = key) = entries'.filter fun entry => entry.1 = key) :
    (m.setAll entries).get? key = (m'.setAll entries').get? key := by
  have own (entries : List (K × V)) : (entries.reverse.find? fun entry => entry.1 = key) =
      (entries.filter fun entry => entry.1 = key).reverse.head? := by
    rw [← List.filter_reverse, List.head?_filter]
  rw [get?_setAll, get?_setAll, own, own, alike, before]

end KeyedMap
end Containers
