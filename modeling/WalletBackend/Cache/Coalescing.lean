import WalletBackend.Cache.Steps

/-! Reads of one key share one load. -/
namespace WalletBackend.Cache
open Containers

variable {V E L : Type}

namespace MemoryCache

variable {c : MemoryCache V E L}

/-- Concurrent reads share a load, a failure is not cached, and an older load leaves the
registration of a newer one alone. -/
structure Coalesces (c : MemoryCache V E L) : Prop where
  /-- At most one load of a key is outstanding and not superseded by a clear. -/
  alone : ∀ id attempt id' attempt', c.Outstanding id attempt → c.Current attempt →
    c.Outstanding id' attempt' → c.Current attempt' → attempt.key = attempt'.key → id = id'
  /-- A read that finds no fresh value shares it. -/
  shared : ∀ id attempt policy load id', c.Outstanding id attempt → c.Current attempt →
    c.peek attempt.key = none → c.read attempt.key policy load id' = (c, .attempt id)
  /-- What is shared is one outcome, for good. -/
  outcome : ∀ events id attempt outcome, c.attempts id = some attempt →
    attempt.phase = .settled outcome → (c.after events).attempts id = some attempt
  /-- A failed load stores nothing. -/
  failure : ∀ id attempt error, c.attempts id = some attempt →
    attempt.phase = .loaded (.error error) → (c.handle id).entries = c.entries
  /-- No read joins a load that has settled, -/
  settled : ∀ events id attempt outcome key policy load id', c.attempts id = some attempt →
    attempt.phase = .settled outcome → (c.after events).attempts id' = none →
    ((c.after events).read key policy load id').2 ≠ .attempt id
  /-- and the read after it settled starts a load of its own, unless there is a newer one. -/
  retried : ∀ id attempt outcome policy load id', c.attempts id = some attempt →
    attempt.phase = .handled outcome → (∀ newer, c.inFlight.get? attempt.key = some newer → newer = id) →
    (c.finish id).peek attempt.key = none →
    (c.finish id).read attempt.key policy load id' =
      ((c.finish id).register attempt.key policy load id', .attempt id')
  /-- The settlement of one load keeps the registration of another. -/
  kept : ∀ id key newer, newer ≠ id → c.inFlight.get? key = some newer →
    (c.finish id).inFlight.get? key = some newer

theorem read_of_flying {key : String} {policy : CachePolicy} {load : L} {id pending : Nat}
    (missing : c.peek key = none) (flying : c.inFlight.get? key = some pending) :
    c.read key policy load id = (c, .attempt pending) := by
  rw [read, missing]
  simp only [flying]

theorem read_of_idle {key : String} {policy : CachePolicy} {load : L} {id : Nat}
    (missing : c.peek key = none) (alone : c.inFlight.get? key = none) :
    c.read key policy load id = (c.register key policy load id, .attempt id) := by
  rw [read, missing]
  simp only [alone]

theorem handle_failed_entries {id : Nat} {attempt : Attempt V E L} {error : E}
    (known : c.attempts id = some attempt) (failed : attempt.phase = .loaded (.error error)) :
    (c.handle id).entries = c.entries := by
  simp only [handle, known, failed]
  rfl

/-- `finally` removes the registration of its own attempt and no other. -/
theorem finish_inFlight {id : Nat} {attempt : Attempt V E L} {outcome : Except E V}
    (known : c.attempts id = some attempt) (handled : attempt.phase = .handled outcome)
    (key : String) : (c.finish id).inFlight.get? key =
      if key = attempt.key ∧ c.inFlight.get? key = some id then none else c.inFlight.get? key := by
  simp only [finish, known, handled]
  by_cases registered : c.inFlight.get? attempt.key = some id
  · rw [if_pos registered]
    change (c.inFlight.delete attempt.key).get? key = _
    rw [KeyedMap.get?_delete]
    by_cases same : key = attempt.key
    · rw [if_pos same, if_pos ⟨same, same ▸ registered⟩]
    · rw [if_neg same, if_neg fun both => same both.1]
  · rw [if_neg registered, if_neg]
    · rfl
    · rintro ⟨rfl, flying⟩
      exact registered flying

theorem finish_kept {id newer : Nat} {key : String} (other : newer ≠ id)
    (flying : c.inFlight.get? key = some newer) : (c.finish id).inFlight.get? key = some newer := by
  cases known : c.attempts id with
  | none =>
    simp only [finish, known]
    exact flying
  | some attempt =>
    cases phase : attempt.phase with
    | handled outcome =>
      rw [finish_inFlight known phase, if_neg]
      · exact flying
      · rintro ⟨-, registered⟩
        exact other (Option.some.inj (flying.symm.trans registered))
    | _ =>
      simp only [finish, known, phase]
      exact flying

/-- A load that a read joins is outstanding. -/
theorem Consistent.joined (consistent : c.Consistent) {key : String} {policy : CachePolicy} {load : L}
    {id id' : Nat} (unused : c.attempts id' = none)
    (joins : (c.read key policy load id').2 = .attempt id) :
    c.attempts id = none ∨ ∃ attempt, c.Outstanding id attempt ∧ attempt.key = key := by
  cases missing : c.peek key with
  | some value =>
    rw [read, missing] at joins
    cases joins
  | none =>
    cases flying : c.inFlight.get? key with
    | some pending =>
      rw [read_of_flying missing flying] at joins
      cases joins
      exact .inr (consistent.registered key id flying)
    | none =>
      rw [read_of_idle missing flying] at joins
      cases joins
      exact .inl unused

/-- Reads coalesce in every reachable state of the cache. -/
theorem reads_coalesce (reachable : c.Reachable) : c.Coalesces where
  alone id attempt id' attempt' there current there' current' same := by
    have flying := reachable.consistent.live id attempt there current
    have flying' := reachable.consistent.live id' attempt' there' current'
    rw [same] at flying
    exact Option.some.inj (flying.symm.trans flying')
  shared id attempt policy load id' there current missing :=
    read_of_flying missing (reachable.consistent.live id attempt there current)
  outcome events id attempt outcome there settled := settled_kept_after events there settled
  failure id attempt error known failed := handle_failed_entries known failed
  settled events id attempt outcome key policy load id' there settled unused joins := by
    have kept := settled_kept_after events there settled
    have consistent := reachable.consistent.after events
    rcases consistent.joined unused joins with none | ⟨other, outstanding, -⟩
    · cases none.symm.trans kept
    · obtain rfl : other = attempt := Option.some.inj (outstanding.1.symm.trans kept)
      exact outstanding.2 outcome settled
  retried id attempt outcome policy load id' known handled newest missing := by
    refine read_of_idle missing ?_
    rw [finish_inFlight known handled]
    cases flying : c.inFlight.get? attempt.key with
    | none => rw [if_neg fun both => nomatch both.2]
    | some newer => rw [if_pos ⟨rfl, congrArg some (newest newer flying)⟩]
  kept id key newer other flying := finish_kept other flying

/-- One load, started. -/
def loneLoad : MemoryCache String Unit Unit :=
  (createMemoryCache 10 0).after [.read "k" ⟨100, 0⟩ () 0, .startLoad 0]

/-- The next reader waits for the same promise. -/
theorem loneLoad_coalesces : loneLoad.read "k" ⟨100, 0⟩ () 1 = (loneLoad, .attempt 0) :=
  have reachable : loneLoad.Reachable := ⟨10, 0, _, rfl⟩
  (reads_coalesce reachable).shared 0 ⟨"k", ⟨100, 0⟩, (), 0, .loading⟩ ⟨100, 0⟩ () 1 ⟨rfl, nofun⟩ rfl rfl

end MemoryCache
end WalletBackend.Cache
