import WalletBackend.Cache.Memory

/-! The generation of a key is the latest clear that concerns it, and what each
operation does to the fields of the cache. -/
namespace WalletBackend.Cache
open Containers

variable {V E L : Type}

section Related

theorem startsWith_iff {key start : String} :
    startsWith key start = true ↔ start.toList <+: key.toList := List.isPrefixOf_iff_prefix

theorem startsWith_empty (key : String) : startsWith key "" = true := rfl

theorem startsWith_self (key : String) : startsWith key key = true :=
  startsWith_iff.mpr (List.prefix_refl _)

theorem startsWith_trans {a b c : String} (ab : startsWith a b = true)
    (bc : startsWith b c = true) : startsWith a c = true :=
  startsWith_iff.mpr ((startsWith_iff.mp bc).trans (startsWith_iff.mp ab))

/-- Two starts of one key concern each other. -/
theorem related_of_startsWith {key a b : String} (left : startsWith key a = true)
    (right : startsWith key b = true) : related a b = true := by
  rw [related, Bool.or_eq_true]
  rcases List.prefix_or_prefix_of_prefix (startsWith_iff.mp left) (startsWith_iff.mp right) with
    shorter | longer
  · exact .inl (startsWith_iff.mpr shorter)
  · exact .inr (startsWith_iff.mpr longer)

end Related

namespace MemoryCache

variable {c c' : MemoryCache V E L}

section GenerationFor

theorem laterClear_spec (key : String) (latest : Nat) (clear : String × Nat) :
    latest ≤ laterClear key latest clear ∧
      (clear.1 ≠ "" → related clear.1 key = true → clear.2 ≤ laterClear key latest clear) ∧
      (laterClear key latest clear = latest ∨
        related clear.1 key = true ∧ laterClear key latest clear = clear.2) := by
  rw [laterClear]
  split
  case isTrue taken =>
    exact ⟨Nat.le_of_lt taken.2.2, fun _ _ => Nat.le_refl _, .inr ⟨taken.2.1, rfl⟩⟩
  case isFalse skipped =>
    refine ⟨Nat.le_refl _, ?_, .inl rfl⟩
    intro named concerns
    exact Nat.le_of_not_lt fun later => skipped ⟨named, concerns, later⟩

/-- The loop ends with the latest of the clears that concern the key. -/
theorem foldl_laterClear (key : String) (clears : List (String × Nat)) (init : Nat) :
    init ≤ clears.foldl (laterClear key) init ∧
      (∀ clear ∈ clears, clear.1 ≠ "" → related clear.1 key = true →
        clear.2 ≤ clears.foldl (laterClear key) init) ∧
      (clears.foldl (laterClear key) init = init ∨
        ∃ clear ∈ clears, related clear.1 key = true ∧
          clears.foldl (laterClear key) init = clear.2) := by
  induction clears generalizing init with
  | nil => exact ⟨Nat.le_refl _, nofun, .inl rfl⟩
  | cons clear clears ih =>
    rw [List.foldl_cons]
    obtain ⟨rises, above, attained⟩ := ih (laterClear key init clear)
    obtain ⟨stepRises, stepAbove, stepAttained⟩ := laterClear_spec key init clear
    refine ⟨Nat.le_trans stepRises rises, ?_, ?_⟩
    · intro other member named concerns
      rcases List.mem_cons.mp member with rfl | later
      · exact Nat.le_trans (stepAbove named concerns) rises
      · exact above other later named concerns
    · rcases attained with same | ⟨other, member, concerns, same⟩
      · rcases stepAttained with kept | ⟨concerns, taken⟩
        · exact .inl (same.trans kept)
        · exact .inr ⟨clear, List.mem_cons_self, concerns, same.trans taken⟩
      · exact .inr ⟨other, List.mem_cons_of_mem _ member, concerns, same⟩

theorem related_empty (key : String) : related "" key = true := by
  rw [related, startsWith_empty, Bool.true_or]

/-- No clear that concerns a key is later than its generation. -/
theorem le_generationFor {start key : String} {clearedAt : Nat}
    (concerns : related start key = true)
    (cleared : c.clearGenerations.get? start = some clearedAt) :
    clearedAt ≤ c.generationFor key := by
  obtain ⟨rises, above, -⟩ :=
    foldl_laterClear key c.clearGenerations.entries ((c.clearGenerations.get? "").getD 0)
  rw [generationFor]
  by_cases all : start = ""
  · subst all
    rw [cleared] at rises ⊢
    exact rises
  · exact above _ (KeyedMap.get?_eq_some_iff.mp cleared) all concerns

/-- The generation is zero, or that of a clear that concerns the key. -/
theorem generationFor_attained (c : MemoryCache V E L) (key : String) :
    c.generationFor key = 0 ∨ ∃ start, related start key = true ∧
      c.clearGenerations.get? start = some (c.generationFor key) := by
  obtain ⟨-, -, attained⟩ :=
    foldl_laterClear key c.clearGenerations.entries ((c.clearGenerations.get? "").getD 0)
  rw [generationFor]
  rcases attained with same | ⟨clear, member, concerns, same⟩
  · rw [same]
    cases all : c.clearGenerations.get? "" with
    | none => exact .inl rfl
    | some clearedAt => exact .inr ⟨"", related_empty key, all⟩
  · rw [same]
    exact .inr ⟨clear.1, concerns, KeyedMap.get?_eq_some_iff.mpr member⟩

/-- Only the clears that concern a key enter into its generation. -/
theorem generationFor_congr {key : String}
    (same : ∀ start, related start key = true →
      c.clearGenerations.get? start = c'.clearGenerations.get? start) :
    c.generationFor key = c'.generationFor key := by
  apply Nat.le_antisymm
  · rcases generationFor_attained c key with zero | ⟨start, concerns, cleared⟩
    · rw [zero]
      exact Nat.zero_le _
    · exact le_generationFor concerns ((same start concerns).symm.trans cleared)
  · rcases generationFor_attained c' key with zero | ⟨start, concerns, cleared⟩
    · rw [zero]
      exact Nat.zero_le _
    · exact le_generationFor concerns ((same start concerns).trans cleared)

/-- Without a clear every generation is zero. -/
theorem generationFor_uncleared (uncleared : c.clearGenerations = .empty) (key : String) :
    c.generationFor key = 0 := by
  rw [generationFor, uncleared]
  rfl

end GenerationFor

end MemoryCache
end WalletBackend.Cache
