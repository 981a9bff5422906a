import WalletBackend.Cache.Steps

/-! A clear is a barrier: what was loaded or promised before it is never served again
for the keys it clears, and no read after it waits for a load from before. -/
namespace WalletBackend.Cache
open Containers

variable {V E L : Type}

namespace MemoryCache

/-- Some run leads from a reachable state to `c`. -/
def Earlier (earlier c : MemoryCache V E L) : Prop :=
  earlier.Reachable ∧ ∃ events, earlier.after events = c

/-- How the values that are called old may come in after a clear of `start` in the state
`c`: from loads begun before, or under a token taken before for a prefix of the key. -/
def Delivery (c : MemoryCache V E L) (start : String) (old : V → Prop) : Event V E L → Prop
  | .answer id (.ok value) => old value → (c.attempts id).isSome = true
  | .set key value _ => startsWith key start = true → ¬ old value
  | .setIfGeneration key value _ generation =>
      startsWith key start = true → old value →
        ∃ taken key', Earlier taken c ∧ startsWith key key' = true ∧
          generation = taken.generation (some key')
  | _ => True

/-- No old value is served for a key that starts with `start`, and no read of such a key
joins a load that was known in the state `before`. -/
structure Sealed (before : MemoryCache V E L) (start : String) (old : V → Prop)
    (c : MemoryCache V E L) : Prop where
  peek : ∀ key value, startsWith key start = true → c.peek key = some value → ¬ old value
  hit : ∀ key policy load id value, startsWith key start = true →
    (c.read key policy load id).2 = .hit value → ¬ old value
  fallback : ∀ id attempt error value, c.attempts id = some attempt →
    startsWith attempt.key start = true → attempt.phase = .loaded (.error error) →
    ((c.handle id).attempts id).map Attempt.phase = some (.handled (.ok value)) → ¬ old value
  join : ∀ key policy load id pending, startsWith key start = true → c.attempts id = none →
    (c.read key policy load id).2 = .attempt pending → before.attempts pending = none

/-- What holds from the clear on: everything old is out of date. `clearedAt` is the
count of clears at that clear, `before` the loads made before it. -/
structure Barred (start : String) (old : V → Prop) (before : Nat → Prop) (clearedAt : Nat)
    (c : MemoryCache V E L) : Prop where
  consistent : c.Consistent
  cleared : ∃ latest, c.clearGenerations.get? start = some latest ∧ clearedAt ≤ latest
  entries : ∀ key entry, startsWith key start = true → c.entries.get? key = some entry →
    ¬ old entry.value
  flights : ∀ key id, startsWith key start = true → c.inFlight.get? key = some id → ¬ before id
  known : ∀ id, before id → c.attempts id ≠ none
  outdated : ∀ id attempt, before id → c.attempts id = some attempt → attempt.generation < clearedAt
  loads : ∀ id attempt value, c.attempts id = some attempt →
    attempt.phase = .loaded (.ok value) → old value → before id

section Barred

variable {c : MemoryCache V E L} {start : String} {old : V → Prop} {before : Nat → Prop}
  {clearedAt : Nat}

/-- The keys that were cleared are of a later generation. -/
theorem Barred.le_generationFor (barred : c.Barred start old before clearedAt) {key : String}
    (inside : startsWith key start = true) : clearedAt ≤ c.generationFor key := by
  obtain ⟨latest, cleared, later⟩ := barred.cleared
  have concerns : related start key = true := by rw [related, inside, Bool.true_or]
  exact Nat.le_trans later (c.le_generationFor concerns cleared)

theorem Barred.store (barred : c.Barred start old before clearedAt) {key : String} {value : V}
    {policy : CachePolicy} (fresh : startsWith key start = true → ¬ old value) :
    (c.store key value policy).Barred start old before clearedAt := by
  have entries : ∀ key' entry, startsWith key' start = true →
      (c.store key value policy).entries.get? key' = some entry → ¬ old entry.value := by
    intro key' entry inside found
    rcases get?_store found with ⟨rfl, rfl⟩ | ⟨-, kept⟩
    · exact fresh inside
    · exact barred.entries key' entry inside kept
  have consistent := barred.consistent.store key value policy
  rw [store_fields] at entries consistent ⊢
  exact ⟨consistent, barred.cleared, entries, barred.flights, barred.known, barred.outdated,
    barred.loads⟩

/-- A step of a load, where the phases that bring in a value bring in no old one that
is not from before. -/
theorem Barred.setPhase (barred : c.Barred start old before clearedAt) {id : Nat}
    {attempt : Attempt V E L} {phase : Phase V E} {inFlight : KeyedMap String Nat}
    (known : c.attempts id = some attempt)
    (consistent : ({ c with inFlight }.setPhase id attempt phase).Consistent)
    (removed : ∀ key id', inFlight.get? key = some id' → c.inFlight.get? key = some id')
    (delivered : ∀ value, phase = .loaded (.ok value) → old value → before id) :
    ({ c with inFlight }.setPhase id attempt phase).Barred start old before clearedAt where
  consistent := consistent
  cleared := barred.cleared
  entries := barred.entries
  flights key id' inside flying := barred.flights key id' inside (removed key id' flying)
  known id' early := by
    rw [setPhase_attempts]
    split
    · exact Option.some_ne_none _
    · exact barred.known id' early
  outdated id' attempt' early there := by
    rw [setPhase_attempts] at there
    split at there
    case isTrue same =>
      cases there
      exact barred.outdated id attempt (same ▸ early) known
    case isFalse => exact barred.outdated id' attempt' early there
  loads id' attempt' value there loaded aged := by
    rw [setPhase_attempts] at there
    split at there
    case isTrue same =>
      cases there
      exact same ▸ delivered value loaded aged
    case isFalse => exact barred.loads id' attempt' value there loaded aged

/-- The event brings in old values only from before. -/
def Admits (start : String) (old : V → Prop) (before : Nat → Prop) (clearedAt : Nat) :
    Event V E L → Prop
  | .answer id (.ok value) => old value → before id
  | .set key value _ => startsWith key start = true → ¬ old value
  | .setIfGeneration key value _ generation =>
      startsWith key start = true → old value → generation < clearedAt
  | _ => True

theorem Barred.effect (barred : c.Barred start old before clearedAt) {event : Event V E L}
    {c' : MemoryCache V E L} (effect : Effect c event c')
    (admits : Admits start old before clearedAt event) :
    c'.Barred start old before clearedAt := by
  have consistent := barred.consistent.effect effect
  cases effect with
  | idle => exact barred
  | @made key policy load id unused missing alone =>
    refine ⟨consistent, barred.cleared, barred.entries, ?_, ?_, ?_, ?_⟩
    · intro key' id' inside flying early
      rw [register_inFlight] at flying
      split at flying
      case isTrue =>
        cases flying
        exact barred.known id early unused
      case isFalse => exact barred.flights key' id' inside flying early
    · intro id' early
      rw [register_attempts]
      split
      · exact Option.some_ne_none _
      · exact barred.known id' early
    · intro id' attempt early known
      rw [register_attempts] at known
      split at known
      case isTrue same => exact absurd unused (barred.known id (same ▸ early))
      case isFalse => exact barred.outdated id' attempt early known
    · intro id' attempt value known loaded aged
      rw [register_attempts] at known
      split at known
      case isTrue =>
        cases known
        cases loaded
      case isFalse => exact barred.loads id' attempt value known loaded aged
  | started known => exact barred.setPhase known consistent (fun _ _ flying => flying) (by simp)
  | answered known loading =>
    refine barred.setPhase known consistent (fun _ _ flying => flying) ?_
    rintro value same aged
    cases same
    exact admits aged
  | @stored id attempt value known loaded current =>
    have fresh : startsWith attempt.key start = true → ¬ old value := by
      intro inside aged
      have early := barred.loads id attempt value known loaded aged
      have outdated := barred.outdated id attempt early known
      rw [current] at outdated
      exact absurd (barred.le_generationFor inside) (Nat.not_le.mpr outdated)
    have kept : (c.store attempt.key value attempt.policy).Barred start old before clearedAt :=
      barred.store fresh
    have there : (c.store attempt.key value attempt.policy).attempts id = some attempt := by
      rw [store_attempts]
      exact known
    exact kept.setPhase there consistent (fun _ _ flying => flying) (by simp)
  | dropped known => exact barred.setPhase known consistent (fun _ _ flying => flying) (by simp)
  | fellBack known => exact barred.setPhase known consistent (fun _ _ flying => flying) (by simp)
  | failed known => exact barred.setPhase known consistent (fun _ _ flying => flying) (by simp)
  | cleaned known =>
    refine barred.setPhase known consistent ?_ (by simp)
    intro key id' flying
    rw [KeyedMap.get?_delete] at flying
    split at flying
    · cases flying
    · exact flying
  | finished known => exact barred.setPhase known consistent (fun _ _ flying => flying) (by simp)
  | set key value ttlMs => exact barred.store admits
  | guarded current =>
    apply barred.store
    intro inside aged
    have early := admits inside aged
    rw [current] at early
    exact absurd (barred.le_generationFor inside) (Nat.not_le.mpr early)
  | cleared other =>
    refine ⟨consistent, ?_, ?_, ?_, ?_, ?_, ?_⟩
    · obtain ⟨latest, cleared, later⟩ := barred.cleared
      rw [clear_clearGenerations, KeyedMap.get?_set]
      split
      · have bound := barred.consistent.clears start latest cleared
        exact ⟨_, rfl, by omega⟩
      · exact ⟨latest, cleared, later⟩
    · intro key entry inside found
      rw [clear_entries] at found
      split at found
      · cases found
      · exact barred.entries key entry inside found
    · intro key id inside flying
      rw [clear_inFlight] at flying
      split at flying
      · cases flying
      · exact barred.flights key id inside flying
    all_goals rw [clear_attempts]
    · exact barred.known
    · exact barred.outdated
    · exact barred.loads
  | ticked =>
    exact ⟨consistent, barred.cleared, barred.entries, barred.flights, barred.known,
      barred.outdated, barred.loads⟩

/-- A token taken earlier is no later than the clears that had happened. -/
theorem Earlier.generation_le {taken : MemoryCache V E L} (earlier : Earlier taken c)
    (key : Option String) : taken.generation key ≤ c.clearGeneration := by
  obtain ⟨reachable, events, rfl⟩ := earlier
  exact Nat.le_trans (reachable.consistent.generationFor_le _)
    (clearGeneration_le_after taken events)

/-- The clear itself bars everything that was there. -/
theorem Consistent.barred (consistent : c.Consistent) (prefix_ : Option String) (old : V → Prop) :
    (c.clear prefix_).Barred (prefix_.getD "") old (fun id => c.attempts id ≠ none)
      (c.clearGeneration + 1) where
  consistent := consistent.clear prefix_
  cleared := by
    refine ⟨c.clearGeneration + 1, ?_, Nat.le_refl _⟩
    rw [clear_clearGenerations, KeyedMap.get?_set_self]
  entries key entry inside found := by
    rw [clear_entries, if_pos inside] at found
    cases found
  flights key id inside flying := by
    rw [clear_inFlight, if_pos inside] at flying
    cases flying
  known id early := by
    rw [clear_attempts]
    exact early
  outdated id attempt _ known := by
    rw [clear_attempts] at known
    exact Nat.lt_succ_of_le (Nat.le_trans (consistent.stamped id attempt known)
      (consistent.generationFor_le attempt.key))
  loads id attempt value known _ _ := by
    rw [clear_attempts] at known
    rw [known]
    exact Option.some_ne_none _

/-- What is barred is sealed off from the reads. -/
theorem Barred.sealed (barred : c.Barred start old before clearedAt) {origin : MemoryCache V E L}
    (made : ∀ id, before id ↔ origin.attempts id ≠ none) : Sealed origin start old c := by
  have peek : ∀ key value, startsWith key start = true → c.peek key = some value → ¬ old value := by
    intro key value inside found
    rw [MemoryCache.peek] at found
    obtain ⟨entry, there, served⟩ := Option.bind_eq_some_iff.mp found
    split at served
    · cases served
      exact barred.entries key entry inside there
    · cases served
  refine ⟨peek, ?_, ?_, ?_⟩
  · intro key policy load id value inside reading
    rw [read] at reading
    cases found : c.peek key with
    | some hit =>
      rw [found] at reading
      cases reading
      exact peek key value inside found
    | none =>
      rw [found] at reading
      cases flying : c.inFlight.get? key with
      | some pending =>
        rw [flying] at reading
        cases reading
      | none =>
        rw [flying] at reading
        cases reading
  · intro id attempt error value known inside failed outcome
    rw [handle, known] at outcome
    simp only [failed, setPhase_attempts, if_true, Option.map_some, Option.some.injEq,
      Phase.handled.injEq] at outcome
    cases stale : c.fallback attempt with
    | none =>
      rw [stale] at outcome
      cases outcome
    | some kept =>
      rw [stale] at outcome
      cases outcome
      rw [fallback] at stale
      obtain ⟨entry, there, served⟩ := Option.bind_eq_some_iff.mp stale
      split at served
      · cases served
        exact barred.entries attempt.key entry inside there
      · cases served
  · intro key policy load id pending inside unused reading
    have late : ¬ before pending := by
      rw [read] at reading
      cases found : c.peek key with
      | some hit =>
        rw [found] at reading
        cases reading
      | none =>
        rw [found] at reading
        cases flying : c.inFlight.get? key with
        | some other =>
          rw [flying] at reading
          cases reading
          exact barred.flights key pending inside flying
        | none =>
          rw [flying] at reading
          cases reading
          exact fun early => barred.known id early unused
    rw [made] at late
    exact Classical.not_not.mp late

end Barred

/-- A cache clear is a barrier. Whichever values are called old: if after the clear they
are delivered only by loads begun before it and under tokens taken before it, then in
no run after it is one of them served, by `peek`, by a fresh hit or as a stale
fallback, for a key that starts with the prefix, nor does a read of such a key join a
load begun before it. -/
theorem clear_is_barrier {c : MemoryCache V E L} (reachable : c.Reachable)
    (prefix_ : Option String) (old : V → Prop) {events : List (Event V E L)}
    (deliveries : ∀ event ∈ events, c.Delivery (prefix_.getD "") old event) :
    Sealed c (prefix_.getD "") old ((c.clear prefix_).after events) := by
  have barred := reachable.consistent.barred prefix_ old
  have kept : ((c.clear prefix_).after events).Barred (prefix_.getD "") old
      (fun id => c.attempts id ≠ none) (c.clearGeneration + 1) := by
    refine Machine.run_of_mem ?_ barred
    intro event member s still
    refine still.effect (apply_effect s event) ?_
    have delivery := deliveries event member
    cases event with
    | answer id result =>
      cases result with
      | ok value => exact fun aged => Option.isSome_iff_ne_none.mp (delivery aged)
      | error => trivial
    | set => exact delivery
    | setIfGeneration key value ttlMs generation =>
      intro inside aged
      obtain ⟨taken, key', earlier, -, rfl⟩ := delivery inside aged
      exact Nat.lt_succ_of_le (earlier.generation_le _)
    | _ => trivial
  exact kept.sealed fun id => Iff.rfl

section Example

/-- A load of one key, under way. -/
def slowLoad : MemoryCache String Unit Unit :=
  (createMemoryCache 10 0).after [.read "provider:tip" ⟨100, 50⟩ () 0, .startLoad 0]

/-- After the clear the load delivers its value, and a newer load another. -/
def afterClear : List (Event String Unit Unit) :=
  [.read "provider:tip" ⟨100, 50⟩ () 1, .answer 0 (.ok "old"), .handle 0, .finish 0]

/-- The value is nowhere to be read. -/
theorem slow_load_is_barred :
    ((slowLoad.clear (some "provider:")).after afterClear).peek "provider:tip" ≠ some "old" := by
  have reachable : slowLoad.Reachable := ⟨10, 0, _, rfl⟩
  have deliveries : ∀ event ∈ afterClear,
      slowLoad.Delivery "provider:" (fun value => value = "old") event := by
    intro event member
    simp only [afterClear, List.mem_cons, List.not_mem_nil, or_false] at member
    rcases member with rfl | rfl | rfl | rfl
    · trivial
    · exact fun _ => rfl
    · trivial
    · trivial
  intro served
  exact (clear_is_barrier reachable (some "provider:") _ deliveries).peek _ _ rfl served rfl

end Example

end MemoryCache
end WalletBackend.Cache
