import WalletBackend.Cache.Steps

/-! Values by the clears that had happened when the request they were obtained from was
begun. A cache is purged where nothing in it was asked for before a clear of its key. -/
namespace WalletBackend.Cache
open Containers

/-- A value, and the count of clears when its request was begun. -/
structure Sourced (V : Type) where
  value : V
  begunAt : Nat
  deriving DecidableEq

variable {V E L : Type}

namespace MemoryCache

/-- No clear that covers the key came after `begunAt`. -/
def UnclearedSince (c : MemoryCache V E L) (key : String) (begunAt : Nat) : Prop :=
  ∀ clear ∈ c.clearGenerations.entries, startsWith key clear.1 = true → clear.2 ≤ begunAt

instance (c : MemoryCache V E L) (key : String) (begunAt : Nat) :
    Decidable (c.UnclearedSince key begunAt) :=
  inferInstanceAs (Decidable (∀ clear ∈ c.clearGenerations.entries, _))

variable {c c' : MemoryCache (Sourced V) E L} {event : Event (Sourced V) E L}

theorem unclearedSince_iff {c : MemoryCache V E L} {key : String} {begunAt : Nat} :
    c.UnclearedSince key begunAt ↔ ∀ start clearedAt,
      c.clearGenerations.get? start = some clearedAt → startsWith key start = true →
        clearedAt ≤ begunAt := by
  constructor
  · intro uncleared start clearedAt cleared inside
    exact uncleared (start, clearedAt) (KeyedMap.get?_eq_some_iff.mp cleared) inside
  · rintro uncleared ⟨start, clearedAt⟩ member inside
    exact uncleared start clearedAt (KeyedMap.get?_eq_some_iff.mpr member) inside

/-- A token that still writes was taken after every clear that covers the key. -/
theorem unclearedSince_of_token {c : MemoryCache V E L} {key : String} {token begunAt : Nat}
    (current : token = c.generationFor key) (earlier : token ≤ begunAt) :
    c.UnclearedSince key begunAt := by
  apply unclearedSince_iff.mpr
  intro start clearedAt cleared inside
  have concerns : related start key = true := by rw [related, inside, Bool.true_or]
  calc
    clearedAt ≤ c.generationFor key := le_generationFor concerns cleared
    _ = token := current.symm
    _ ≤ begunAt := earlier

theorem UnclearedSince.congr {c c' : MemoryCache V E L} {key : String} {begunAt : Nat}
    (uncleared : c.UnclearedSince key begunAt) (same : c'.clearGenerations = c.clearGenerations) :
    c'.UnclearedSince key begunAt := by
  rw [UnclearedSince, same]
  exact uncleared

/-- Nothing in the cache was asked for before a clear that covers its key, and what a
load has brought was asked for after the load was registered. -/
structure Purged (c : MemoryCache (Sourced V) E L) : Prop where
  consistent : c.Consistent
  entries : ∀ key entry, c.entries.get? key = some entry →
    c.UnclearedSince key entry.value.begunAt
  loads : ∀ id attempt known, c.attempts id = some attempt → attempt.phase = .loaded (.ok known) →
    attempt.generation ≤ known.begunAt

theorem create_purged (maxEntries now : Nat) :
    (createMemoryCache maxEntries now : MemoryCache (Sourced V) E L).Purged :=
  ⟨create_consistent maxEntries now, nofun, nofun⟩

/-- The event brings in a value that was asked for after the clears of its key. -/
def Asks (c : MemoryCache (Sourced V) E L) : Event (Sourced V) E L → Prop
  | .answer id (.ok known) =>
      ∀ attempt, c.attempts id = some attempt → attempt.generation ≤ known.begunAt
  | .set key known _ => c.UnclearedSince key known.begunAt
  | .setIfGeneration key known _ token =>
      token = c.generationFor key → c.UnclearedSince key known.begunAt
  | _ => True

theorem Purged.store (purged : c.Purged) {key : String} {known : Sourced V} {policy : CachePolicy}
    (uncleared : c.UnclearedSince key known.begunAt) : (c.store key known policy).Purged := by
  refine ⟨purged.consistent.store .., ?_, ?_⟩
  · intro key' entry found
    apply UnclearedSince.congr _ (store_clearGenerations ..)
    rcases get?_store found with ⟨rfl, rfl⟩ | ⟨-, kept⟩
    · exact uncleared
    · exact purged.entries key' entry kept
  · rw [store_attempts]
    exact purged.loads

theorem Purged.setPhase (purged : c.Purged) {id : Nat} {attempt : Attempt (Sourced V) E L}
    {phase : Phase (Sourced V) E} {inFlight : KeyedMap String Nat}
    (consistent : ({ c with inFlight }.setPhase id attempt phase).Consistent)
    (asked : ∀ known, phase = .loaded (.ok known) → attempt.generation ≤ known.begunAt) :
    ({ c with inFlight }.setPhase id attempt phase).Purged := by
  refine ⟨consistent, purged.entries, ?_⟩
  intro id' attempt' known there loaded
  rw [setPhase_attempts] at there
  split at there
  · cases there
    exact asked known loaded
  · exact purged.loads id' attempt' known there loaded

theorem Purged.clear (purged : c.Purged) (start : Option String) : (c.clear start).Purged := by
  refine ⟨purged.consistent.clear start, ?_, ?_⟩
  · intro key entry found
    rw [clear_entries] at found
    split at found
    · cases found
    case isFalse outside =>
      apply unclearedSince_iff.mpr
      intro other clearedAt cleared inside
      rw [clear_clearGenerations, KeyedMap.get?_set_of_ne] at cleared
      · exact unclearedSince_iff.mp (purged.entries key entry found) other clearedAt cleared inside
      · rintro rfl
        exact outside inside
  · rw [clear_attempts]
    exact purged.loads

theorem Purged.effect (purged : c.Purged) (effect : Effect c event c') (asks : c.Asks event) :
    c'.Purged := by
  have consistent := purged.consistent.effect effect
  cases effect with
  | idle => exact purged
  | @made key policy load id =>
    refine ⟨consistent, purged.entries, ?_⟩
    intro id' attempt known there loaded
    rw [register_attempts] at there
    split at there
    · cases there
      cases loaded
    · exact purged.loads id' attempt known there loaded
  | started => exact purged.setPhase consistent nofun
  | @answered id attempt result known =>
    refine purged.setPhase consistent ?_
    rintro brought same
    cases same
    exact asks attempt known
  | @stored id attempt brought known loaded current =>
    have earlier := purged.loads id attempt brought known loaded
    exact (purged.store (unclearedSince_of_token current earlier)).setPhase consistent nofun
  | dropped => exact purged.setPhase consistent nofun
  | fellBack => exact purged.setPhase consistent nofun
  | failed => exact purged.setPhase consistent nofun
  | cleaned => exact purged.setPhase consistent nofun
  | finished => exact purged.setPhase consistent nofun
  | set => exact purged.store asks
  | guarded current => exact purged.store (asks current)
  | cleared start => exact purged.clear start
  | ticked => exact ⟨consistent, purged.entries, purged.loads⟩

theorem Purged.apply (purged : c.Purged) {event : Event (Sourced V) E L} (asks : c.Asks event) :
    (c.apply event).Purged :=
  purged.effect (apply_effect c event) asks

/-- A prefix once cleared stays cleared no earlier. -/
def ClearedSince (c : MemoryCache V E L) (start : String) (clearedAt : Nat) : Prop :=
  ∃ latest, c.clearGenerations.get? start = some latest ∧ clearedAt ≤ latest

theorem clear_clearedSince (c : MemoryCache V E L) (start : Option String) :
    (c.clear start).ClearedSince (start.getD "") (c.clearGeneration + 1) := by
  refine ⟨c.clearGeneration + 1, ?_, Nat.le_refl _⟩
  rw [clear_clearGenerations, KeyedMap.get?_set_self]

theorem ClearedSince.effect {c c' : MemoryCache V E L} {event : Event V E L} {start : String}
    {clearedAt : Nat} (cleared : c.ClearedSince start clearedAt) (consistent : c.Consistent)
    (effect : Effect c event c') : c'.ClearedSince start clearedAt := by
  obtain ⟨latest, there, later⟩ := cleared
  cases effect with
  | stored =>
    refine ⟨latest, ?_, later⟩
    exact (congrArg (KeyedMap.get? · start) (store_clearGenerations ..)).trans there
  | set => exact ⟨latest, by rw [store_clearGenerations, there], later⟩
  | guarded => exact ⟨latest, by rw [store_clearGenerations, there], later⟩
  | cleared other =>
    rw [ClearedSince, clear_clearGenerations, KeyedMap.get?_set]
    split
    · have bound := consistent.clears start latest there
      exact ⟨_, rfl, by omega⟩
    · exact ⟨latest, there, later⟩
  | _ => exact ⟨latest, there, later⟩

/-- Whatever a purged cache holds under a cleared prefix was asked for after the clear. -/
theorem Purged.asked_after (purged : c.Purged) {start key : String} {clearedAt : Nat}
    {entry : Entry (Sourced V)} (cleared : c.ClearedSince start clearedAt)
    (inside : startsWith key start = true) (found : c.entries.get? key = some entry) :
    clearedAt ≤ entry.value.begunAt := by
  obtain ⟨latest, there, later⟩ := cleared
  exact Nat.le_trans later
    (unclearedSince_iff.mp (purged.entries key entry found) start latest there inside)

end MemoryCache
end WalletBackend.Cache
