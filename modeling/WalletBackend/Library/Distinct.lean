import Mathlib.Data.List.Nodup

/-! The distinct members of a list, each where it comes first. -/
namespace Distinct

variable {α : Type} [BEq α] [LawfulBEq α]

theorem nodup_eraseDups (xs : List α) : xs.eraseDups.Nodup := by
  induction length : xs.length using Nat.strongRecOn generalizing xs with
  | ind n ih =>
    cases xs with
    | nil => exact .nil
    | cons x xs =>
      rw [List.eraseDups_cons, List.nodup_cons]
      constructor
      · simp [List.mem_eraseDups]
      · apply ih _ _ _ rfl
        rw [← length, List.length_cons]
        exact Nat.lt_succ_of_le (List.length_filter_le _ _)

theorem eraseDups_of_nodup {xs : List α} (nodup : xs.Nodup) : xs.eraseDups = xs := by
  induction xs with
  | nil => rfl
  | cons x xs ih =>
    obtain ⟨fresh, rest⟩ := List.nodup_cons.mp nodup
    have same : (xs.filter fun y => !y == x) = xs :=
      List.filter_eq_self.mpr fun y member => by
        simpa using fun h : y = x => fresh (h ▸ member)
    rw [List.eraseDups_cons, same, ih rest]

end Distinct
