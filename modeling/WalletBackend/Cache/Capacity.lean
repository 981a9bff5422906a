import WalletBackend.Cache.Steps

/-! The bound on the entries of the in-memory cache, and which entries go to keep to it. -/
namespace WalletBackend.Cache
open Containers

variable {V E L : Type}

/-- The entry could still be served, if only for a refresh that fails. -/
def Entry.Usable (now : Nat) (entry : Entry V) : Prop := now < entry.usableUntil

instance {now : Nat} {entry : Entry V} : Decidable (entry.Usable now) :=
  inferInstanceAs (Decidable (now < entry.usableUntil))

namespace MemoryCache

variable {c c' : MemoryCache V E L} {event : Event V E L} {key : String} {value : V}
  {policy : CachePolicy} {entry : Entry V}

/-- The event writes the value under the key. -/
inductive Stores (c : MemoryCache V E L) : Event V E L → String → V → CachePolicy → Prop where
  | loaded {id attempt value} (known : c.attempts id = some attempt)
      (loaded : attempt.phase = .loaded (.ok value))
      (current : attempt.generation = c.generationFor attempt.key) :
      Stores c (.handle id) attempt.key value attempt.policy
  | set (key value ttlMs) : Stores c (.set key value ttlMs) key value (.ofTtl ttlMs)
  | guarded (key value ttlMs) :
      Stores c (.setIfGeneration key value ttlMs (c.generationFor key)) key value (.ofTtl ttlMs)

/-- The event takes the entry of the key away, and is no clear. -/
structure Evicts (c : MemoryCache V E L) (event : Event V E L) (key : String) (entry : Entry V) :
    Prop where
  unasked : ∀ start, event ≠ .clear start
  found : c.entries.get? key = some entry
  gone : (c.apply event).entries.get? key = none

theorem size_evict_le (c : MemoryCache V E L) : c.evict.entries.size ≤ c.maxEntries := by
  rw [evict]
  split
  · assumption
  · rw [KeyedMap.size_dropOldest]
    omega

/-- Where an eviction takes an entry away, what it keeps is usable. -/
theorem usable_of_evict_gone (found : c.entries.get? key = some entry)
    (gone : c.evict.entries.get? key = none) {key' : String} {entry' : Entry V}
    (kept : c.evict.entries.get? key' = some entry') : entry'.Usable c.now := by
  rw [evict] at gone kept
  split at gone
  · cases found.symm.trans gone
  · rename_i excess
    rw [if_neg excess] at kept
    have usable := (KeyedMap.get?_filter_eq_some.mp (KeyedMap.get?_dropOldest kept)).2
    exact of_decide_eq_true usable

theorem usable_of_store_gone (found : c.entries.get? key = some entry) {stored : String}
    (gone : (c.store stored value policy).entries.get? key = none) {key' : String}
    {entry' : Entry V} (kept : (c.store stored value policy).entries.get? key' = some entry') :
    entry'.Usable c.now := by
  obtain ⟨written, found'⟩ :
      ∃ written, (c.entries.set stored (c.stored value policy)).get? key = some written := by
    rw [KeyedMap.get?_set]
    split
    · exact ⟨_, rfl⟩
    · exact ⟨entry, found⟩
  exact usable_of_evict_gone (c := { c with entries := _ }) found' gone kept

/-- What is stored with a positive lifetime survives its own insertion. -/
theorem get?_store_self (room : 1 ≤ c.maxEntries) (bounded : c.size ≤ c.maxEntries)
    (lives : 0 < policy.ttlMs) :
    (c.store key value policy).entries.get? key = some (c.stored value policy) := by
  have usable : decide (c.now < (c.stored value policy).usableUntil) = true := by
    apply decide_eq_true
    change c.now < c.now + policy.ttlMs + policy.staleIfErrorMs
    omega
  rw [store, evict]
  split
  · exact KeyedMap.get?_set_self _ _ _
  · rename_i excess
    have absent : key ∉ c.entries.keys := by
      intro present
      apply excess
      exact Nat.le_trans (Nat.le_of_eq (KeyedMap.size_set_of_mem _ present)) bounded
    exact KeyedMap.get?_dropOldest_set absent usable room

section Steps

theorem Stores.apply_eq (stores : Stores c event key value policy) :
    (c.apply event).entries = (c.store key value policy).entries ∧
      (c.apply event).now = c.now := by
  cases stores with
  | loaded known loaded current =>
    simp only [apply, handle, known, loaded, if_pos current]
    exact ⟨rfl, store_now ..⟩
  | set => exact ⟨rfl, store_now ..⟩
  | guarded =>
    rw [apply, setIfGeneration, if_neg (not_not.mpr rfl)]
    exact ⟨rfl, store_now ..⟩

/-- An event that writes nothing and clears nothing leaves the entries alone. -/
theorem Effect.stores_or_kept (effect : Effect c event c') :
    (∃ key value policy, Stores c event key value policy) ∨ (∃ start, event = .clear start) ∨
      c'.entries = c.entries := by
  cases effect with
  | stored known loaded current => exact .inl ⟨_, _, _, .loaded known loaded current⟩
  | set => exact .inl ⟨_, _, _, .set ..⟩
  | guarded current =>
    subst current
    exact .inl ⟨_, _, _, .guarded ..⟩
  | cleared start => exact .inr (.inl ⟨start, rfl⟩)
  | _ => exact .inr (.inr rfl)

theorem Effect.maxEntries_eq (effect : Effect c event c') : c'.maxEntries = c.maxEntries := by
  cases effect with
  | stored => rw [store_fields]; rfl
  | set => rw [store_fields]
  | guarded => rw [store_fields]
  | cleared start => cases start <;> rfl
  | _ => rfl

theorem size_clear_le (start : Option String) : (c.clear start).size ≤ c.size := by
  cases start with
  | none => exact Nat.zero_le _
  | some start => exact KeyedMap.size_filter_le _ _

/-- Every event keeps to the bound. -/
theorem size_apply_le (bounded : c.size ≤ c.maxEntries) (event : Event V E L) :
    (c.apply event).size ≤ (c.apply event).maxEntries := by
  have effect := apply_effect c event
  rw [effect.maxEntries_eq, size]
  obtain ⟨key, value, policy, stores⟩ | ⟨start, rfl⟩ | kept := effect.stores_or_kept
  · rw [stores.apply_eq.1]
    exact size_evict_le _
  · exact Nat.le_trans (size_clear_le start) bounded
  · rw [kept]
    exact bounded

theorem Evicts.stores (evicts : Evicts c event key entry) :
    ∃ key value policy, Stores c event key value policy := by
  obtain stores | ⟨start, clear⟩ | kept := (apply_effect c event).stores_or_kept
  · exact stores
  · exact absurd clear (evicts.unasked start)
  · cases evicts.found.symm.trans (kept ▸ evicts.gone)

theorem Stores.peek (stores : Stores c event key value policy) (room : 1 ≤ c.maxEntries)
    (bounded : c.size ≤ c.maxEntries) (lives : 0 < policy.ttlMs) :
    (c.apply event).peek key = some value := by
  obtain ⟨entries, now⟩ := stores.apply_eq
  rw [MemoryCache.peek, entries, get?_store_self room bounded lives, now]
  exact if_pos (Nat.lt_add_of_pos_right lives)

end Steps

theorem bounded_after (maxEntries start : Nat) (events : List (Event V E L)) :
    ((createMemoryCache maxEntries start).after events).size ≤ maxEntries ∧
      ((createMemoryCache maxEntries start).after events).maxEntries = maxEntries := by
  refine Machine.run_preserves (P := fun c : MemoryCache V E L =>
    c.size ≤ maxEntries ∧ c.maxEntries = maxEntries) ?_ ⟨Nat.zero_le _, rfl⟩
  rintro c event ⟨bounded, same⟩
  have kept := (apply_effect c event).maxEntries_eq.trans same
  have next := size_apply_le (same ▸ bounded) event
  exact ⟨kept ▸ next, kept⟩

/-- In every run of a cache with room for an entry, each event leaves at most as many entries as
there is room for; it evicts no usable entry while it keeps one that is not; and what it stores for
some time can be read at once. -/
theorem capacity_and_eviction (maxEntries start : Nat) (room : 1 ≤ maxEntries)
    (events : List (Event V E L)) (event : Event V E L) :
    let c := (createMemoryCache maxEntries start).after events
    (c.apply event).size ≤ maxEntries ∧
      (∀ key entry, Evicts c event key entry → entry.Usable c.now →
        ∀ key' kept, (c.apply event).entries.get? key' = some kept → kept.Usable (c.apply event).now) ∧
      ∀ key value policy, Stores c event key value policy → 0 < policy.ttlMs →
        (c.apply event).peek key = some value ∧
          ∀ policy' load id, (c.apply event).read key policy' load id = (c.apply event, .hit value) := by
  intro c
  obtain ⟨bounded, same⟩ := bounded_after maxEntries start events
  have within : c.size ≤ c.maxEntries := by
    rw [same]
    exact bounded
  refine ⟨?_, ?_, ?_⟩
  · have next := size_apply_le within event
    rwa [(apply_effect c event).maxEntries_eq, same] at next
  · intro key entry evicts _ key' kept there
    obtain ⟨stored, value, policy, stores⟩ := evicts.stores
    obtain ⟨entries, now⟩ := stores.apply_eq
    have gone := evicts.gone
    rw [entries] at gone there
    rw [now]
    exact usable_of_store_gone evicts.found gone there
  · intro key value policy stores lives
    have readable := stores.peek (same ▸ room) within lives
    refine ⟨readable, fun policy' load id => ?_⟩
    rw [read, readable]

/-- With room for one entry, a second one takes the place of the first. -/
theorem second_takes_place :
    let c : MemoryCache Nat Unit Unit := (createMemoryCache 1 0).after [.set "first" 1 100]
    (c.apply (.set "second" 2 50)).size ≤ 1 ∧ (⟨2, 50, 50⟩ : Entry Nat).Usable 0 ∧
      (c.apply (.set "second" 2 50)).peek "second" = some 2 := by
  obtain ⟨bounded, usable, readable⟩ := @capacity_and_eviction Nat Unit Unit 1 0 (by decide)
    [.set "first" 1 100] (.set "second" 2 50)
  exact ⟨bounded, usable "first" ⟨1, 100, 100⟩ ⟨nofun, by decide, by decide⟩ (by decide) "second" _
    (by decide), (readable "second" 2 _ (.set ..) (by decide)).1⟩

end MemoryCache
end WalletBackend.Cache
