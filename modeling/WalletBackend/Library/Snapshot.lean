import Mathlib.Order.Interval.Set.OrdConnected
import Mathlib.Data.List.Perm.Subperm

/-! When do reads made at different instants describe one instant? Two complete
walks that find the same members pin every instant between them, because what
has left a set does not come back to it; counting the set at one such instant
then leaves no room for a member that was missed. -/
namespace Snapshots

variable {T K : Type} [LinearOrder T]

/-- A set observed over time as a list without repetition, in which a member that
has left does not come back. -/
structure History (T K : Type) [LinearOrder T] where
  members : T → List K
  distinct : ∀ t, (members t).Nodup
  noReturn : ∀ k, {t | k ∈ members t}.OrdConnected

variable {h : History T K}

theorem History.present_between (h : History T K) {k : K} {s t u : T} (first : k ∈ h.members s)
    (last : k ∈ h.members u) (after : s ≤ t) (before : t ≤ u) : k ∈ h.members t :=
  (h.noReturn k).out first last ⟨after, before⟩

/-- Keys read at an instant. -/
structure Sighting (T K : Type) where
  instant : T
  keys : List K

/-- Keys that two walks have both seen are present at every instant that no
sighting of the first walk follows and no sighting of the second precedes. -/
theorem present_at {first second : List (Sighting T K)}
    (honest₁ : ∀ x ∈ first, ∀ k ∈ x.keys, k ∈ h.members x.instant)
    (honest₂ : ∀ x ∈ second, ∀ k ∈ x.keys, k ∈ h.members x.instant)
    {t : T} (after : ∀ x ∈ first, x.instant ≤ t) (before : ∀ x ∈ second, t ≤ x.instant)
    {k : K} (seen₁ : k ∈ first.flatMap Sighting.keys) (seen₂ : k ∈ second.flatMap Sighting.keys) :
    k ∈ h.members t := by
  obtain ⟨x, member₁, key₁⟩ := List.mem_flatMap.mp seen₁
  obtain ⟨y, member₂, key₂⟩ := List.mem_flatMap.mp seen₂
  exact h.present_between (honest₁ x member₁ k key₁) (honest₂ y member₂ k key₂)
    (after x member₁) (before y member₂)

/-- Two walks with the same keys return the set of any instant between them at
which it has no more members than the walks have keys. -/
theorem agreement_pins {first second : List (Sighting T K)} {keys : List K} (nodup : keys.Nodup)
    (same₁ : first.flatMap Sighting.keys = keys) (same₂ : second.flatMap Sighting.keys = keys)
    (honest₁ : ∀ x ∈ first, ∀ k ∈ x.keys, k ∈ h.members x.instant)
    (honest₂ : ∀ x ∈ second, ∀ k ∈ x.keys, k ∈ h.members x.instant)
    {t : T} (after : ∀ x ∈ first, x.instant ≤ t) (before : ∀ x ∈ second, t ≤ x.instant)
    (count : (h.members t).length ≤ keys.length) : keys.Perm (h.members t) := by
  have inside : keys ⊆ h.members t := fun k member =>
    present_at honest₁ honest₂ after before (same₁ ▸ member) (same₂ ▸ member)
  exact (List.subperm_of_subset nodup inside).perm_of_length_le count

end Snapshots
