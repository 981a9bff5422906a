import WalletBackend.Cache.Capacity
import WalletBackend.Cache.Promises
import Mathlib.Data.List.Induction

/-! How old a value may be that a read returns: younger than the lifetime of its policy where
upstream is not asked, and within the stale window of the policy where it is asked and fails. -/
namespace WalletBackend.Cache
open Containers

variable {V E L : Type}

namespace MemoryCache

variable {s : MemoryCache V E L} {key : String} {policy : CachePolicy} {value : V} {id time : Nat}
  {events : List (Event V E L)} {event : Event V E L}

/-- The clock does not go back, and the key is only written by reads under the policy. -/
def Follows (key : String) (policy : CachePolicy) (c : MemoryCache V E L) : Event V E L → Prop
  | .tick now => c.now ≤ now
  | .set written _ _ => written ≠ key
  | .setIfGeneration written _ _ _ => written ≠ key
  | .read wanted under _ _ => wanted = key → under = policy
  | _ => True

/-- The run stores the value under the key at the time. -/
def StoredAt (s : MemoryCache V E L) (events : List (Event V E L)) (key : String) (value : V)
    (policy : CachePolicy) (time : Nat) : Prop :=
  Machine.Occurs apply (fun c event => Stores c event key value policy ∧ c.now = time) s events

/-- The load of the promise brings the value in the run. -/
def Brought (s : MemoryCache V E L) (events : List (Event V E L)) (id : Nat) (value : V) : Prop :=
  Machine.Occurs apply (fun c event => event = .answer id (.ok value) ∧
    ∃ attempt, c.attempts id = some attempt ∧ attempt.phase = .loading) s events

/-- The load of the promise has failed, which is now handled. -/
def Fails (c : MemoryCache V E L) (id : Nat) : Prop :=
  ∃ attempt error, c.attempts id = some attempt ∧ attempt.phase = .loaded (.error error)

/-- The promise gets a value that had been stored, within its stale window, as its load failed. -/
def FellBack (s : MemoryCache V E L) (events : List (Event V E L)) (id : Nat) (key : String)
    (value : V) (policy : CachePolicy) : Prop :=
  ∃ before rest time, events = before ++ .handle id :: rest ∧ Fails (s.after before) id ∧
    StoredAt s before key value policy time ∧ time ≤ (s.after before).now ∧
    (s.after before).now < time + policy.ttlMs + policy.staleIfErrorMs

/-- What the run so far says of the key: when its entry was stored, and where its loads have their
values from. -/
structure Traced (s : MemoryCache V E L) (key : String) (policy : CachePolicy)
    (events : List (Event V E L)) : Prop where
  entry : ∀ entry, (s.after events).entries.get? key = some entry →
    ∃ time, StoredAt s events key entry.value policy time ∧ time ≤ (s.after events).now ∧
      entry.expiresAt = time + policy.ttlMs ∧
      entry.usableUntil = time + policy.ttlMs + policy.staleIfErrorMs
  made : ∀ id attempt, (s.after events).attempts id = some attempt → attempt.key = key →
    attempt.policy = policy
  value : ∀ id attempt value, (s.after events).attempts id = some attempt → attempt.key = key →
    attempt.phase.value? = some value →
    Brought s events id value ∨ FellBack s events id key value policy

theorem after_concat (s : MemoryCache V E L) (events : List (Event V E L)) (event : Event V E L) :
    s.after (events ++ [event]) = (s.after events).apply event :=
  Machine.run_append events [event]

theorem StoredAt.concat (stored : StoredAt s events key value policy time) (event : Event V E L) :
    StoredAt s (events ++ [event]) key value policy time :=
  Machine.occurs_append.mpr (.inl stored)

theorem Brought.concat (brought : Brought s events id value) (event : Event V E L) :
    Brought s (events ++ [event]) id value :=
  Machine.occurs_append.mpr (.inl brought)

theorem FellBack.concat (fellBack : FellBack s events id key value policy) (event : Event V E L) :
    FellBack s (events ++ [event]) id key value policy := by
  obtain ⟨before, rest, time, rfl, failed, stored, window⟩ := fellBack
  exact ⟨before, rest ++ [event], time, by simp, failed, stored, window⟩

theorem create_traced (maxEntries now : Nat) :
    Traced (createMemoryCache maxEntries now : MemoryCache V E L) key policy [] :=
  ⟨nofun, nofun, nofun⟩

section Step

variable {c : MemoryCache V E L}

theorem Follows.now_le (follows : Follows key policy c event) : c.now ≤ (c.apply event).now := by
  have effect := apply_effect c event
  generalize c.apply event = c' at effect
  cases effect with
  | ticked now => exact follows
  | stored => exact Nat.le_of_eq (store_now ..).symm
  | set => exact Nat.le_of_eq (store_now ..).symm
  | guarded => exact Nat.le_of_eq (store_now ..).symm
  | cleared => exact Nat.le_of_eq (clear_now ..).symm
  | _ => exact Nat.le_refl _

/-- What is stored under the key is stored under its policy. -/
theorem Stores.under {policy' : CachePolicy} (stores : Stores c event key value policy')
    (follows : Follows key policy c event)
    (made : ∀ id attempt, c.attempts id = some attempt → attempt.key = key →
      attempt.policy = policy) : policy' = policy := by
  cases stores with
  | loaded known => exact made _ _ known rfl
  | set => exact absurd rfl follows
  | guarded => exact absurd rfl follows

/-- A promise keeps its key and its policy. -/
theorem Advance.under {after : Attempt V E L} (advance : Advance c id after event) :
    (∃ before, c.attempts id = some before ∧ before.key = after.key ∧
      before.policy = after.policy) ∨ event = .read after.key after.policy after.load id := by
  cases advance with
  | kept _ known => exact .inl ⟨after, known, rfl, rfl⟩
  | made => exact .inr rfl
  | started known _ same => exact .inl ⟨_, known, same ▸ rfl, same ▸ rfl⟩
  | answered known _ same => exact .inl ⟨_, known, same ▸ rfl, same ▸ rfl⟩
  | loaded known _ same => exact .inl ⟨_, known, same ▸ rfl, same ▸ rfl⟩
  | fellBack known _ _ same => exact .inl ⟨_, known, same ▸ rfl, same ▸ rfl⟩
  | failed known _ _ same => exact .inl ⟨_, known, same ▸ rfl, same ▸ rfl⟩
  | finished known _ same => exact .inl ⟨_, known, same ▸ rfl, same ▸ rfl⟩

theorem fallback_eq_some {attempt : Attempt V E L} (stale : c.fallback attempt = some value) :
    ∃ entry, c.entries.get? attempt.key = some entry ∧ entry.value = value ∧
      c.now < entry.usableUntil := by
  obtain ⟨entry, found, served⟩ := Option.bind_eq_some_iff.mp stale
  simp only [Bool.and_eq_true, decide_eq_true_eq, Option.ite_none_right_eq_some,
    Option.some.injEq] at served
  exact ⟨entry, found, served.2, served.1.2⟩

end Step

theorem Traced.entry_concat (traced : Traced s key policy events)
    (follows : Follows key policy (s.after events) event) {entry : Entry V}
    (found : (s.after (events ++ [event])).entries.get? key = some entry) :
    ∃ time, StoredAt s (events ++ [event]) key entry.value policy time ∧
      time ≤ (s.after (events ++ [event])).now ∧ entry.expiresAt = time + policy.ttlMs ∧
      entry.usableUntil = time + policy.ttlMs + policy.staleIfErrorMs := by
  rw [after_concat] at found ⊢
  have later := follows.now_le
  have before (there : (s.after events).entries.get? key = some entry) :
      ∃ time, StoredAt s (events ++ [event]) key entry.value policy time ∧
        time ≤ ((s.after events).apply event).now ∧ entry.expiresAt = time + policy.ttlMs ∧
        entry.usableUntil = time + policy.ttlMs + policy.staleIfErrorMs := by
    obtain ⟨time, stored, past, deadlines⟩ := traced.entry entry there
    exact ⟨time, stored.concat event, Nat.le_trans past later, deadlines⟩
  obtain ⟨written, value, under, stores⟩ | ⟨start, rfl⟩ | kept :=
    (apply_effect (s.after events) event).stores_or_kept
  · rw [stores.apply_eq.1] at found
    obtain ⟨rfl, rfl⟩ | ⟨-, there⟩ := get?_store found
    · obtain rfl := stores.under follows traced.made
      exact ⟨(s.after events).now, Machine.occurs_append.mpr (.inr (.inl ⟨stores, rfl⟩)), later, rfl, rfl⟩
    · exact before there
  · change ((s.after events).clear start).entries.get? key = some entry at found
    rw [clear_entries] at found
    split at found
    · cases found
    · exact before found
  · exact before (kept ▸ found)

/-- The trace follows every event. -/
theorem Traced.concat (traced : Traced s key policy events)
    (follows : Follows key policy (s.after events) event) :
    Traced s key policy (events ++ [event]) := by
  refine ⟨fun entry => traced.entry_concat follows, ?_, ?_⟩
  · intro id attempt there wanted
    rw [after_concat] at there
    obtain ⟨before, known, sameKey, samePolicy⟩ | rfl := ((apply_effect _ event).advance there).under
    · exact samePolicy ▸ traced.made id before known (sameKey.trans wanted)
    · exact follows wanted
  · intro id attempt value there wanted holds
    rw [after_concat] at there
    have earlier {before : Attempt V E L} (known : (s.after events).attempts id = some before)
        (same : before.key = key) (held : before.phase.value? = some value) :
        Brought s (events ++ [event]) id value ∨
          FellBack s (events ++ [event]) id key value policy :=
      (traced.value id before value known same held).imp (·.concat event) (·.concat event)
    cases (apply_effect _ event).advance there with
    | kept _ known => exact earlier known wanted holds
    | made _ queued =>
      rw [queued] at holds
      cases holds
    | started _ _ same =>
      subst same
      cases holds
    | @answered before result known loading same =>
      subst same
      cases result with
      | error => cases holds
      | ok loaded =>
        cases holds
        exact .inl (Machine.occurs_append.mpr (.inr (.inl ⟨rfl, before, known, loading⟩)))
    | @loaded before loaded known phase same =>
      subst same
      refine earlier known wanted ?_
      rw [phase]
      exact holds
    | @fellBack before error stale known phase fallback same =>
      subst same
      cases holds
      obtain ⟨entry, found, rfl, usable⟩ := fallback_eq_some fallback
      change before.key = key at wanted
      rw [wanted] at found
      obtain ⟨time, stored, past, -, until_eq⟩ := traced.entry entry found
      rw [until_eq] at usable
      exact .inr ⟨events, [], time, rfl, ⟨before, error, known, phase⟩, stored, past, usable⟩
    | failed _ _ _ same =>
      subst same
      cases holds
    | @finished before outcome known phase same =>
      subst same
      refine earlier known wanted ?_
      rw [phase]
      cases outcome with
      | ok => exact holds
      | error => cases holds

theorem traced_run (initial : Traced s key policy [])
    (follows : Machine.Along apply (Follows key policy) s events) : Traced s key policy events := by
  induction events using List.reverseRecOn with
  | nil => exact initial
  | append_singleton events event ih =>
    obtain ⟨earlier, last, -⟩ := Machine.along_append.mp follows
    exact (ih earlier).concat last

/-- How a read comes by a value: the entry was stored less than the lifetime ago and the read does
nothing; or the load that the read started or joined brings it; or that load fails, and the value
had been stored less than the lifetime and the stale window ago. -/
inductive Served (s : MemoryCache V E L) (before : List (Event V E L)) (read : Event V E L)
    (rest : List (Event V E L)) (key : String) (policy : CachePolicy) (value : V) :
    Reading V → Prop where
  | fresh {time : Nat} (stored : StoredAt s before key value policy time)
      (past : time ≤ (s.after before).now) (young : (s.after before).now < time + policy.ttlMs)
      (quiet : (s.after before).apply read = s.after before) :
      Served s before read rest key policy value (.hit value)
  | loaded {id : Nat} (brought : Brought s (before ++ read :: rest) id value) :
      Served s before read rest key policy value (.attempt id)
  | stale {id : Nat} (fellBack : FellBack s (before ++ read :: rest) id key value policy) :
      Served s before read rest key policy value (.attempt id)

theorem Traced.peek {before : List (Event V E L)} (traced : Traced s key policy before)
    (hit : (s.after before).peek key = some value) :
    ∃ time, StoredAt s before key value policy time ∧ time ≤ (s.after before).now ∧
      (s.after before).now < time + policy.ttlMs := by
  obtain ⟨entry, found, served⟩ := Option.bind_eq_some_iff.mp hit
  split at served
  case isFalse => cases served
  case isTrue young =>
    cases served
    obtain ⟨time, stored, past, expires, -⟩ := traced.entry entry found
    exact ⟨time, stored, past, expires ▸ young⟩

theorem Fails.entries_eq {c : MemoryCache V E L} (fails : Fails c id) :
    (c.apply (.handle id)).entries = c.entries := by
  obtain ⟨attempt, error, known, phase⟩ := fails
  simp only [apply, handle, known, phase]
  rfl

/-- In a run of a new cache in which the clock does not go back and a key is written only by reads
under one policy, a read of the key is served so. The deadlines of the entry are always those of a
time when its value was stored, a failed load leaves the entries as they are, and without a stale
window an expired entry is served neither by a read nor for a failed load. -/
theorem reads_bounded_by_policy (maxEntries start : Nat) {key : String} {policy : CachePolicy}
    {before rest : List (Event V E L)} {load : L} {id : Nat} :
    let s : MemoryCache V E L := createMemoryCache maxEntries start
    let events := before ++ .read key policy load id :: rest
    Machine.Along apply (Follows key policy) s events → (s.after before).attempts id = none →
    (∀ value, (s.after events).settlement ((s.after before).read key policy load id).2 =
        some (.ok value) →
      Served s before (.read key policy load id) rest key policy value
        ((s.after before).read key policy load id).2) ∧
    (∀ entry, (s.after events).entries.get? key = some entry →
      ∃ time, StoredAt s events key entry.value policy time ∧
        entry.expiresAt = time + policy.ttlMs ∧
        entry.usableUntil = time + policy.ttlMs + policy.staleIfErrorMs) ∧
    (∀ first id' last, events = first ++ .handle id' :: last → Fails (s.after first) id' →
      (s.after (first ++ [.handle id'])).entries = (s.after first).entries) ∧
    (policy.staleIfErrorMs = 0 → ∀ entry, (s.after events).entries.get? key = some entry →
      entry.expiresAt ≤ (s.after events).now → (s.after events).peek key = none ∧
        ∀ attempt, attempt.key = key → (s.after events).fallback attempt = none) := by
  intro s events follows unused
  have traced := traced_run (create_traced maxEntries start) follows
  refine ⟨?_, ?_, ?_, ?_⟩
  · intro value settled
    obtain ⟨earlier, -⟩ := Machine.along_append.mp follows
    have applied : (s.after before).apply (.read key policy load id) =
        ((s.after before).read key policy load id).1 := by
      rw [apply, unused]
      rfl
    cases reading : ((s.after before).read key policy load id).2 with
    | hit held =>
      rw [reading] at settled
      cases settled
      obtain ⟨hit, kept⟩ := read_hit reading
      obtain ⟨time, stored, past, young⟩ :=
        (traced_run (create_traced maxEntries start) earlier).peek hit
      exact .fresh stored past young (applied.trans kept)
    | attempt pending =>
      rw [reading] at settled
      have consistent := (create_consistent maxEntries start).after before
      obtain ⟨attempt, made, wanted⟩ := consistent.read_attempt reading
      rw [← applied] at made
      obtain ⟨phase, there⟩ := attempt_kept_after rest made
      rw [show ((s.after before).apply (.read key policy load id)).after rest = s.after events from
        (Machine.run_append before (.read key policy load id :: rest)).symm] at there
      obtain ⟨last, known, resolved⟩ := resolves_of_settlement settled
      obtain rfl := Option.some.inj (known.symm.trans there)
      obtain brought | fellBack :=
        traced.value pending _ value there wanted (Phase.value?_of_resolved? resolved)
      · exact .loaded brought
      · exact .stale fellBack
  · intro entry found
    obtain ⟨time, stored, -, deadlines⟩ := traced.entry entry found
    exact ⟨time, stored, deadlines⟩
  · intro first id' last _ fails
    rw [after_concat]
    exact fails.entries_eq
  · intro windowless entry found expired
    obtain ⟨time, -, -, expires, usable⟩ := traced.entry entry found
    refine ⟨?_, fun attempt wanted => ?_⟩
    · rw [peek, found]
      exact if_neg (Nat.not_lt.mpr expired)
    · cases stale : (s.after events).fallback attempt with
      | none => rfl
      | some value =>
        obtain ⟨other, there, -, young⟩ := fallback_eq_some stale
        rw [wanted] at there
        obtain rfl := Option.some.inj (there.symm.trans found)
        omega

section Outage

def outagePolicy : CachePolicy := ⟨10, 20⟩

def beforeOutage : List (Event Nat Unit Unit) :=
  [.read "pools" outagePolicy () 0, .startLoad 0, .answer 0 (.ok 7), .handle 0, .finish 0, .tick 15]

def duringOutage : List (Event Nat Unit Unit) :=
  [.startLoad 1, .answer 1 (.error ()), .handle 1, .finish 1]

/-- The load of the second read fails, and the value of the first is still in its stale window. -/
theorem outage_served : Served (createMemoryCache 5 0) beforeOutage
    (.read "pools" outagePolicy () 1) duringOutage "pools" outagePolicy 7 (.attempt 1) :=
  (@reads_bounded_by_policy Nat Unit Unit 5 0 "pools" outagePolicy beforeOutage duringOutage () 1
    ⟨fun _ => rfl, trivial, trivial, trivial, trivial, Nat.zero_le 15, fun _ => rfl, trivial, trivial,
      trivial, trivial, trivial⟩ (by decide)).1 7 (by decide)

end Outage

end MemoryCache
end WalletBackend.Cache
