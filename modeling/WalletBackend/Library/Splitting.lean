import Mathlib.Data.List.Basic
import Mathlib.Data.List.Chain
import Mathlib.Data.List.Infix

/-! Lists cut into blocks of which each has to fit. A split where no block could have taken the
first element of the next one has the fewest blocks of all. -/
namespace Splitting

variable {α : Type} {fits : List α → Prop}

/-- No block has room for the first element of the next one. -/
def Full (fits : List α → Prop) (blocks : List (List α)) : Prop :=
  blocks.IsChain fun block next => ∀ item ∈ next.head?, ¬ fits (block ++ [item])

theorem full_singleton (block : List α) : Full fits [block] := List.isChain_singleton block

/-- A new block is opened for what the last one has no room for. -/
theorem Full.open_block {blocks : List (List α)} {last : List α} {item : α}
    (full : Full fits (blocks ++ [last])) (excess : ¬ fits (last ++ [item])) :
    Full fits (blocks ++ [last] ++ [[item]]) := by
  refine List.isChain_append.mpr ⟨full, List.isChain_singleton _, ?_⟩
  intro block isLast next isNext
  rw [List.getLast?_concat] at isLast
  cases isLast
  cases isNext
  intro other first
  cases first
  exact excess

/-- A block that holds something keeps its first element when it takes one more. -/
theorem Full.extend {blocks : List (List α)} {last : List α} {item : α}
    (full : Full fits (blocks ++ [last])) (some : last ≠ []) :
    Full fits (blocks ++ [last ++ [item]]) := by
  obtain ⟨earlier, -, link⟩ := List.isChain_append.mp full
  refine List.isChain_append.mpr ⟨earlier, List.isChain_singleton _, ?_⟩
  intro block isLast next isNext
  cases isNext
  rw [List.head?_append_of_ne_nil _ some]
  exact link block isLast last rfl

/-- Where what fits has parts that fit, a full split of a list is ahead of any other one that fits,
at the end of each of its blocks. -/
theorem Full.length_le {blocks others : List (List α)} (full : Full fits blocks) (front : List α)
    (holds : ∀ block ∈ blocks, block ≠ [])
    (parts : ∀ {block part : List α}, part <:+: block → fits block → fits part)
    (split : others.flatten = front ++ blocks.flatten) (fit : ∀ block ∈ others, fits block) :
    blocks.length ≤ others.length := by
  induction blocks generalizing others front with
  | nil => exact Nat.zero_le _
  | cons block blocks ih =>
    have some := holds block List.mem_cons_self
    cases others with
    | nil =>
      have empty : block = [] := by
        have ends := split.symm
        simp only [List.flatten_nil, List.flatten_cons, List.append_eq_nil_iff] at ends
        exact ends.2.1
      exact absurd empty some
    | cons other others =>
      have later : Full fits blocks := full.tail
      have rest := fun block member => holds block (List.mem_cons_of_mem _ member)
      have fitLater := fun block member => fit block (List.mem_cons_of_mem _ member)
      rw [List.flatten_cons, List.flatten_cons, ← List.append_assoc] at split
      rw [List.length_cons, List.length_cons]
      obtain ⟨left, -, same⟩ | ⟨taken, whole, same⟩ := List.append_eq_append_iff.mp split
      · exact Nat.succ_le_succ (ih later left rest same fitLater)
      cases taken with
      | nil => exact Nat.succ_le_succ (ih later [] rest same.symm fitLater)
      | cons item taken =>
        -- The other block would hold this one and the first element of the next.
        cases blocks with
        | nil => cases same
        | cons next blocks =>
          obtain ⟨first, next, rfl⟩ := List.exists_cons_of_ne_nil (rest next List.mem_cons_self)
          rw [List.flatten_cons, List.cons_append, List.cons_append] at same
          obtain ⟨rfl, -⟩ := List.cons.inj same
          have part : block ++ [first] <:+: other := ⟨front, taken, by simp [whole]⟩
          have excess := (List.isChain_cons_cons.mp full).1 first rfl
          exact absurd (parts part (fit other List.mem_cons_self)) excess

/-! ### Blocks of one size -/

theorem flatten_toChunks_go (n : Nat) (chunks : List α) (block : Array α)
    (blocks : Array (List α)) : (List.toChunks.go n chunks block blocks).flatten =
      blocks.toList.flatten ++ block.toList ++ chunks := by
  induction chunks generalizing block blocks with
  | nil => simp [List.toChunks.go]
  | cons item chunks ih =>
    rw [List.toChunks.go]
    split <;> simp [ih]

/-- Together the blocks are the list. -/
theorem flatten_toChunks (n : Nat) (items : List α) : (items.toChunks n).flatten = items := by
  cases items with
  | nil => cases n <;> rfl
  | cons first items =>
    cases n with
    | zero => simp [List.toChunks]
    | succ n => simp [List.toChunks, flatten_toChunks_go]

/-! ### Separators -/

theorem split_at_separator {a : α} {front front' back back' : List α} (clean : a ∉ front)
    (clean' : a ∉ front') (same : front ++ a :: back = front' ++ a :: back') :
    front = front' ∧ back = back' := by
  induction front generalizing front' with
  | nil =>
    cases front' with
    | nil => simpa using same
    | cons b rest => exact absurd (List.cons.inj same).1 fun h => clean' (h ▸ List.mem_cons_self)
  | cons b rest ih =>
    cases front' with
    | nil => exact absurd (List.cons.inj same).1 fun h => clean (h ▸ List.mem_cons_self)
    | cons b' rest' =>
      simp only [List.cons_append, List.cons.injEq, List.mem_cons, not_or] at same clean clean'
      obtain ⟨rfl, rfl⟩ := ih clean.2 clean'.2 same.2
      exact ⟨by rw [same.1], rfl⟩

/-- A part of a text that is split holds no separator, and only what the text holds. -/
theorem mem_splitOn [DecidableEq α] {separator : α} {text part : List α}
    (member : part ∈ text.splitOn separator) : separator ∉ part ∧ part ⊆ text := by
  induction text generalizing part with
  | nil =>
    rw [List.splitOn_nil, List.mem_singleton] at member
    subst member
    exact ⟨List.not_mem_nil, List.Subset.refl _⟩
  | cons c text ih =>
    rw [List.splitOn_cons_eq_if_modifyHead] at member
    split at member
    case isTrue =>
      obtain rfl | later := List.mem_cons.mp member
      · exact ⟨List.not_mem_nil, List.nil_subset _⟩
      · exact (ih later).imp_right (List.subset_cons_of_subset c)
    case isFalse other =>
      cases parts : text.splitOn separator with
      | nil => exact absurd parts (List.splitOn_ne_nil _ _)
      | cons first others =>
        rw [parts] at member
        obtain rfl | later := List.mem_cons.mp member
        · obtain ⟨without, inside⟩ := ih (parts ▸ List.mem_cons_self)
          have fresh : separator ≠ c := fun same => other (by simp [same])
          exact ⟨List.not_mem_cons_of_ne_of_not_mem fresh without, List.cons_subset_cons c inside⟩
        · exact (ih (parts ▸ List.mem_cons_of_mem _ later)).imp_right (List.subset_cons_of_subset c)

theorem mem_intercalate {separator : List α} {parts : List (List α)} {c : α}
    (member : c ∈ separator.intercalate parts) : c ∈ separator ∨ ∃ part ∈ parts, c ∈ part := by
  induction parts with
  | nil => simp at member
  | cons part parts ih =>
    cases parts with
    | nil => exact .inr ⟨part, List.mem_cons_self, by simpa using member⟩
    | cons next parts =>
      rw [List.intercalate_cons_cons, List.append_assoc, List.mem_append, List.mem_append] at member
      obtain here | between | later := member
      · exact .inr ⟨part, List.mem_cons_self, here⟩
      · exact .inl between
      · exact (ih later).imp_right fun ⟨other, there, inside⟩ =>
          ⟨other, List.mem_cons_of_mem _ there, inside⟩

end Splitting
