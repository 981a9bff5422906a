import WalletBackend.Cache.Steps

/-! What the values under each key have in common is kept by the cache: it hands out
what it was given. -/
namespace WalletBackend.Cache
open Containers

variable {V E L : Type}

/-- The value that a load has brought. -/
def Phase.value? : Phase V E → Option V
  | .loaded (.ok value) => some value
  | .handled (.ok value) => some value
  | .settled (.ok value) => some value
  | _ => none

namespace MemoryCache

variable {c c' : MemoryCache V E L} {fits : String → V → Prop}
  {meant : String → CachePolicy → L → Prop} {event : Event V E L}

/-- Every value stored or loaded fits its key, and every attempt was made as it is meant
for its key. -/
structure Typed (fits : String → V → Prop) (meant : String → CachePolicy → L → Prop)
    (c : MemoryCache V E L) : Prop where
  entries : ∀ key entry, c.entries.get? key = some entry → fits key entry.value
  attempts : ∀ id attempt value, c.attempts id = some attempt → attempt.phase.value? = some value →
    fits attempt.key value
  made : ∀ id attempt, c.attempts id = some attempt →
    meant attempt.key attempt.policy attempt.load

/-- The event brings in a fitting value, or makes an attempt as it is meant. -/
def Brings (fits : String → V → Prop) (meant : String → CachePolicy → L → Prop)
    (c : MemoryCache V E L) : Event V E L → Prop
  | .read key policy load _ => meant key policy load
  | .answer id (.ok value) => ∀ attempt, c.attempts id = some attempt → fits attempt.key value
  | .set key value _ => fits key value
  | .setIfGeneration key value _ _ => fits key value
  | _ => True

theorem Typed.store (typed : c.Typed fits meant) {key : String} {value : V} {policy : CachePolicy}
    (fitting : fits key value) : (c.store key value policy).Typed fits meant := by
  have entries : ∀ key' entry, (c.store key value policy).entries.get? key' = some entry →
      fits key' entry.value := by
    intro key' entry found
    rcases get?_store found with ⟨rfl, rfl⟩ | ⟨-, kept⟩
    · exact fitting
    · exact typed.entries key' entry kept
  rw [store_fields] at entries ⊢
  exact ⟨entries, typed.attempts, typed.made⟩

theorem Typed.setPhase (typed : c.Typed fits meant) {id : Nat} {attempt : Attempt V E L}
    {phase : Phase V E} {inFlight : KeyedMap String Nat} (known : c.attempts id = some attempt)
    (brought : ∀ value, phase.value? = some value → fits attempt.key value) :
    ({ c with inFlight }.setPhase id attempt phase).Typed fits meant where
  entries := typed.entries
  attempts id' attempt' value there found := by
    rw [setPhase_attempts] at there
    split at there
    · cases there
      exact brought value found
    · exact typed.attempts id' attempt' value there found
  made id' attempt' there := by
    rw [setPhase_attempts] at there
    split at there
    · cases there
      exact typed.made id attempt known
    · exact typed.made id' attempt' there

theorem Typed.effect (typed : c.Typed fits meant) (effect : Effect c event c')
    (brings : c.Brings fits meant event) : c'.Typed fits meant := by
  have same : ∀ {id attempt} {before after : Phase V E}, c.attempts id = some attempt →
      attempt.phase = before → (∀ value, after.value? = some value → before.value? = some value) →
      ∀ value, after.value? = some value → fits attempt.key value := by
    rintro id attempt _ after known rfl carries value found
    exact typed.attempts id attempt value known (carries value found)
  cases effect with
  | idle => exact typed
  | @made key policy load id =>
    refine ⟨typed.entries, ?_, ?_⟩
    · intro id' attempt value there found
      rw [register_attempts] at there
      split at there
      · cases there
        cases found
      · exact typed.attempts id' attempt value there found
    · intro id' attempt there
      rw [register_attempts] at there
      split at there
      · cases there
        exact brings
      · exact typed.made id' attempt there
  | started known => exact typed.setPhase known nofun
  | @answered id attempt result known loading =>
    refine typed.setPhase known ?_
    intro value found
    cases result with
    | ok answer =>
      cases found
      exact brings attempt known
    | error => cases found
  | @stored id attempt value known loaded =>
    have fitting := typed.attempts id attempt value known (by rw [loaded]; rfl)
    have kept : (c.store attempt.key value attempt.policy).Typed fits meant := typed.store fitting
    refine kept.setPhase ?_ ?_
    · rw [store_attempts]
      exact known
    · intro value' found
      cases found
      exact fitting
  | dropped known loaded => exact typed.setPhase known (same known loaded fun _ found => found)
  | @fellBack id attempt error value known loaded stale =>
    refine typed.setPhase known ?_
    intro value' found
    cases found
    rw [fallback] at stale
    obtain ⟨entry, there, served⟩ := Option.bind_eq_some_iff.mp stale
    split at served
    · cases served
      exact typed.entries attempt.key entry there
    · cases served
  | failed known => exact typed.setPhase known nofun
  | @cleaned id attempt outcome known handled =>
    refine typed.setPhase known (same known handled ?_)
    intro value found
    cases outcome with
    | ok => exact found
    | error => cases found
  | @finished id attempt outcome known handled =>
    refine typed.setPhase known (same known handled ?_)
    intro value found
    cases outcome with
    | ok => exact found
    | error => cases found
  | set => exact typed.store brings
  | guarded => exact typed.store brings
  | cleared start =>
    refine ⟨?_, ?_, ?_⟩
    · intro key entry found
      rw [clear_entries] at found
      split at found
      · cases found
      · exact typed.entries key entry found
    · rw [clear_attempts]
      exact typed.attempts
    · rw [clear_attempts]
      exact typed.made
  | ticked => exact ⟨typed.entries, typed.attempts, typed.made⟩

theorem Typed.peek (typed : c.Typed fits meant) {key : String} {value : V}
    (found : c.peek key = some value) : fits key value := by
  rw [MemoryCache.peek] at found
  obtain ⟨entry, there, served⟩ := Option.bind_eq_some_iff.mp found
  split at served
  · cases served
    exact typed.entries key entry there
  · cases served

theorem Typed.fallback (typed : c.Typed fits meant) {attempt : Attempt V E L} {value : V}
    (stale : c.fallback attempt = some value) : fits attempt.key value := by
  rw [MemoryCache.fallback] at stale
  obtain ⟨entry, there, served⟩ := Option.bind_eq_some_iff.mp stale
  split at served
  · cases served
    exact typed.entries attempt.key entry there
  · cases served

theorem create_typed (maxEntries now : Nat) :
    (createMemoryCache maxEntries now : MemoryCache V E L).Typed fits meant :=
  ⟨nofun, nofun, nofun⟩

end MemoryCache
end WalletBackend.Cache
