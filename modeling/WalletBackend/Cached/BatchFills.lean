import WalletBackend.Koios.MetadataLoads
import WalletBackend.Prices.AdaPools
import WalletBackend.Domain.Errors

/-! The loaders that fill the cache many keys at a time, side by side over one cache. The
Koios loaders write under tokens and respect every clear; the multi-token answers of
GeckoTerminal are written unguarded, and outlive a clear that came while they were
under way. -/
namespace WalletBackend.Cached
open Cache Containers Koios Prices

/-- How the loaders read what the upstreams answer. -/
structure Readings (Row Fields V Number : Type) where
  mapTokenMetadata : AssetInfoRow Row → V
  drepCredentialHex : String → Option String
  drepMetaFields : Fields → V
  pool : Option AdaPool → V
  number : String → Number
  cacheNamespace : String

structure BatchFills (V : Type) where
  cache : MemoryCache (Sourced V) Failure String
  metadataLoads : Nat → Option (MetadataLoad V)
  poolFetches : Nat → Option (PoolFetch V)
  inFlightPools : KeyedMap String Nat
  /-- For each promise of `resolveAdaPool` whose loader has run, the count of clears
  before it. -/
  loadersRun : Nat → Option Nat

/-- What can happen: a call, a request sent, an answer, a step of a cached read, a
clear. Each call and promise has a number of its own. -/
inductive FillEvent (Row Fields : Type) where
  | getTokenMetadata (id : Nat) (subjects : List String)
  | drepMetadataByHex (id : Nat) (drepIds : List String)
  | requestMetadata (id : Nat)
  | answerTokens (id : Nat) (rows : List (AssetInfoRow Row × Nat))
  | answerDreps (id : Nat) (rows : List (DrepMetadataRow Fields × Nat))
  | resolveAdaPoolsBatch (id : Nat) (subjects : List String)
  | sendChunk (id : Nat)
  | answerChunk (id : Nat) (body : Option MultiTokensResponse)
  | settleFetch (id : Nat)
  /-- For a fallback of a batch, or for a history. -/
  | resolveAdaPool (subject : String) (promise : Nat)
  | startLoad (promise : Nat)
  | answerPools (promise : Nat) (body : Except Failure (Option (List PoolEntry)))
  | handle (promise : Nat)
  | finish (promise : Nat)
  | clear (start : Option String)
  | tick (now : Nat)

namespace BatchFills

variable {Row Fields V Number : Type} [LT Number] [DecidableLT Number]
  (readings : Readings Row Fields V Number) (s : BatchFills V)

def create (maxEntries now : Nat) : BatchFills V where
  cache := createMemoryCache maxEntries now
  metadataLoads := fun _ => none
  poolFetches := fun _ => none
  inFlightPools := .empty
  loadersRun := fun _ => none

def withLoad (id : Nat) (load : MetadataLoad V) : BatchFills V :=
  { s with metadataLoads := Function.update s.metadataLoads id (some load) }

def withFetch (id : Nat) (fetch : PoolFetch V) : BatchFills V :=
  { s with poolFetches := Function.update s.poolFetches id (some fetch) }

/-- The rows of one answer, written if the call is of their kind. -/
def answerMetadata (kind : MetadataKind) (id : Nat) (rows : List (String × V × Nat)) : BatchFills V :=
  match s.metadataLoads id with
  | some load =>
      if load.kind = kind then
        let answered := load.answer s.cache (load.sourced rows)
        { s.withLoad id answered.1 with cache := answered.2 }
      else s
  | none => s

def answerChunk (id : Nat) (body : Option MultiTokensResponse) : BatchFills V :=
  match s.poolFetches id with
  | some fetch =>
      match fetch.chunks, fetch.sent with
      | chunk :: _, some begunAt =>
          let answered := fetch.answer readings.pool readings.cacheNamespace begunAt
            (readChunk readings.number chunk body) s.cache
          { s.withFetch id answered.1 with cache := answered.2 }
      | _, _ => s
  | none => s

/-- `resolveAdaPool`; its loader asks for the pools of the subject. -/
def resolveAdaPool (subject : String) (promise : Nat) : BatchFills V :=
  { s with
    cache := s.cache.apply (.read (poolCacheKey readings.cacheNamespace subject)
      (.ofTtl TOKEN_POOL_TTL_MS) subject promise) }

/-- The loader of a promise runs. -/
def startLoad (promise : Nat) : BatchFills V :=
  match (s.cache.attempts promise).map Attempt.phase with
  | some .queued =>
      { s with
        cache := s.cache.startLoad promise
        loadersRun := Function.update s.loadersRun promise (some s.cache.clearGeneration) }
  | _ => s

def answerPools (promise : Nat) (body : Except Failure (Option (List PoolEntry))) : BatchFills V :=
  match s.cache.attempts promise, s.loadersRun promise with
  | some attempt, some begunAt =>
      let result := match body with
        | .ok pools => .ok ⟨readings.pool
            (pickMostLiquidAdaPool readings.number attempt.load (pools.getD [])), begunAt⟩
        | .error failure => .error failure
      { s with cache := s.cache.answer promise result }
  | _, _ => s

def apply (s : BatchFills V) : FillEvent Row Fields → BatchFills V
  | .getTokenMetadata id subjects =>
      if (s.metadataLoads id).isSome then s
      else s.withLoad id (Koios.getTokenMetadata s.cache subjects)
  | .drepMetadataByHex id drepIds =>
      if (s.metadataLoads id).isSome then s
      else s.withLoad id (Koios.drepMetadataByHex readings.drepCredentialHex s.cache drepIds)
  | .requestMetadata id =>
      match s.metadataLoads id with
      | some load => s.withLoad id (load.request s.cache)
      | none => s
  | .answerTokens id rows => s.answerMetadata .token id (tokenRows readings.mapTokenMetadata rows)
  | .answerDreps id rows =>
      s.answerMetadata .drep id (drepRows readings.drepCredentialHex readings.drepMetaFields rows)
  | .resolveAdaPoolsBatch id subjects =>
      if (s.poolFetches id).isSome then s
      else
        let claimed := Prices.resolveAdaPoolsBatch s.cache readings.cacheNamespace s.inFlightPools id
          subjects
        { s.withFetch id claimed.1 with inFlightPools := claimed.2 }
  | .sendChunk id =>
      match s.poolFetches id with
      | some fetch => s.withFetch id (fetch.send s.cache)
      | none => s
  | .answerChunk id body => s.answerChunk readings id body
  | .settleFetch id =>
      match s.poolFetches id with
      | some fetch =>
          let settled := fetch.settle s.inFlightPools
          { s.withFetch id settled.1 with inFlightPools := settled.2 }
      | none => s
  | .resolveAdaPool subject promise => s.resolveAdaPool readings subject promise
  | .startLoad promise => s.startLoad promise
  | .answerPools promise body => s.answerPools readings promise body
  | .handle promise => { s with cache := s.cache.handle promise }
  | .finish promise => { s with cache := s.cache.finish promise }
  | .clear start => { s with cache := s.cache.clear start }
  | .tick now => { s with cache := { s.cache with now } }

def after (s : BatchFills V) (events : List (FillEvent Row Fields)) : BatchFills V :=
  Machine.run (apply readings) s events

/-- The values that the event writes without a token of their own are of no earlier date
than the clears of their keys: the rows that a Koios batch did not ask for, and all
that a multi-token answer tells. -/
def Timely (s : BatchFills V) : FillEvent Row Fields → Prop
  | .answerTokens id rows => ∀ load ∈ s.metadataLoads id,
      ∀ row ∈ load.sourced (tokenRows readings.mapTokenMetadata rows), load.Covered s.cache row
  | .answerDreps id rows => ∀ load ∈ s.metadataLoads id,
      ∀ row ∈ load.sourced (drepRows readings.drepCredentialHex readings.drepMetaFields rows),
        load.Covered s.cache row
  | .answerChunk id body => ∀ fetch ∈ s.poolFetches id, ∀ chunk ∈ fetch.chunks.head?,
      ∀ begunAt ∈ fetch.sent, ∀ write ∈ (readChunk readings.number chunk body).writes,
        s.cache.UnclearedSince (poolCacheKey readings.cacheNamespace write.1) begunAt
  | _ => True

instance (s : BatchFills V) : DecidablePred (Timely readings s)
  | .answerTokens id _ => inferInstanceAs (Decidable (∀ load ∈ s.metadataLoads id, _))
  | .answerDreps id _ => inferInstanceAs (Decidable (∀ load ∈ s.metadataLoads id, _))
  | .answerChunk id _ => inferInstanceAs (Decidable (∀ fetch ∈ s.poolFetches id, _))
  | .getTokenMetadata .. | .drepMetadataByHex .. | .requestMetadata _ | .resolveAdaPoolsBatch ..
  | .sendChunk _ | .settleFetch _ | .resolveAdaPool .. | .startLoad _ | .answerPools .. | .handle _
  | .finish _ | .clear _ | .tick _ => .isTrue trivial

/-- What holds of the whole: the cache is purged, the tokens are ahead of the requests,
and a loader ran after its promise was registered. -/
structure Sound (s : BatchFills V) : Prop where
  purged : s.cache.Purged
  ahead : ∀ id load, s.metadataLoads id = some load → load.Ahead s.cache
  ran : ∀ promise attempt begunAt, s.cache.attempts promise = some attempt →
    s.loadersRun promise = some begunAt → attempt.generation ≤ begunAt
  unrun : ∀ promise, s.cache.attempts promise = none → s.loadersRun promise = none

variable {readings} {s}

/-- An event of the cache. -/
theorem Sound.cache (sound : s.Sound) {event : Cache.Event (Sourced V) Failure String}
    {cache : MemoryCache (Sourced V) Failure String}
    (effect : MemoryCache.Effect s.cache event cache) (asks : s.cache.Asks event) :
    ({ s with cache } : BatchFills V).Sound := by
  refine ⟨sound.purged.effect effect asks, ?_, ?_, ?_⟩
  · intro id load there
    exact (sound.ahead id load there).mono effect.clearGeneration_le
  · intro promise attempt begunAt there ran
    cases before : s.cache.attempts promise with
    | none => cases ran.symm.trans (sound.unrun promise before)
    | some earlier =>
      obtain ⟨phase, kept⟩ := effect.attempt_kept before
      cases there.symm.trans kept
      exact sound.ran promise earlier begunAt before ran
  · intro promise none'
    exact sound.unrun promise (effect.unmade none')

/-- Writes that leave the promises and the clears alone. -/
theorem Sound.written (sound : s.Sound) {cache : MemoryCache (Sourced V) Failure String}
    (purged : cache.Purged) (attempts : cache.attempts = s.cache.attempts)
    (count : cache.clearGeneration = s.cache.clearGeneration) :
    ({ s with cache } : BatchFills V).Sound := by
  refine ⟨purged, ?_, ?_, ?_⟩
  · intro id load there
    exact (sound.ahead id load there).mono (Nat.le_of_eq count.symm)
  · rw [attempts]
    exact sound.ran
  · rw [attempts]
    exact sound.unrun

theorem Sound.withLoad (sound : s.Sound) {id : Nat} {load : MetadataLoad V}
    (ahead : load.Ahead s.cache) : (s.withLoad id load).Sound := by
  refine ⟨sound.purged, ?_, sound.ran, sound.unrun⟩
  intro id' load' there
  change Function.update s.metadataLoads id (some load) id' = some load' at there
  rw [Function.update_apply] at there
  split at there
  · cases there
    exact ahead
  · exact sound.ahead id' load' there

/-- The pool fetches do not enter into it. -/
theorem Sound.withFetch (sound : s.Sound) {id : Nat} {fetch : PoolFetch V}
    {inFlightPools : KeyedMap String Nat} :
    ({ s.withFetch id fetch with inFlightPools } : BatchFills V).Sound :=
  ⟨sound.purged, sound.ahead, sound.ran, sound.unrun⟩

theorem Sound.answerMetadata (sound : s.Sound) {kind : MetadataKind} {id : Nat}
    {rows : List (String × V × Nat)}
    (covered : ∀ load ∈ s.metadataLoads id, ∀ row ∈ load.sourced rows, load.Covered s.cache row) :
    (s.answerMetadata kind id rows).Sound := by
  rw [BatchFills.answerMetadata]
  cases there : s.metadataLoads id with
  | none => exact sound
  | some load =>
    simp only
    split
    · have ahead := sound.ahead id load there
      have purged := ahead.answer sound.purged
        (fun row member => MetadataLoad.sourced_begunAt member) (covered load there)
      obtain ⟨-, count, attempts⟩ := load.answer_fields s.cache (load.sourced rows)
      have written := sound.written purged attempts count
      exact written.withLoad (ahead.mono (Nat.le_of_eq count.symm))
    · exact sound

theorem Sound.answerChunk (sound : s.Sound) {id : Nat} {body : Option MultiTokensResponse}
    (timely : Timely readings s (.answerChunk id body)) :
    (s.answerChunk readings id body).Sound := by
  rw [BatchFills.answerChunk]
  cases there : s.poolFetches id with
  | none => exact sound
  | some fetch =>
    simp only
    split
    · rename_i chunk chunks begunAt first sent
      have purged := writePools_purged readings.pool sound.purged
        (timely fetch there chunk (by rw [first]; rfl) begunAt sent)
      obtain ⟨-, count, attempts⟩ := writePools_fields s.cache readings.pool
        readings.cacheNamespace begunAt (readChunk readings.number chunk body).writes
      exact (sound.written purged attempts count).withFetch
    · exact sound

theorem Sound.startLoad (sound : s.Sound) {promise : Nat} : (s.startLoad promise).Sound := by
  have effect := MemoryCache.apply_effect s.cache (.startLoad promise)
  rw [BatchFills.startLoad]
  split
  case h_1 queued =>
    have started := sound.cache effect trivial
    refine ⟨started.purged, started.ahead, ?_, ?_⟩
    · intro promise' attempt begunAt there ran
      change Function.update s.loadersRun promise _ promise' = some begunAt at ran
      rw [Function.update_apply] at ran
      split at ran
      · cases ran
        have consistent := started.purged.consistent
        calc
          attempt.generation ≤ _ := consistent.stamped promise' attempt there
          _ ≤ (s.cache.startLoad promise).clearGeneration := consistent.generationFor_le attempt.key
          _ = s.cache.clearGeneration := MemoryCache.startLoad_clearGeneration promise
      · exact started.ran promise' attempt begunAt there ran
    · intro promise' absent
      have unmade := effect.unmade absent
      change Function.update s.loadersRun promise _ promise' = none
      rw [Function.update_of_ne, sound.unrun promise' unmade]
      rintro rfl
      rw [unmade] at queued
      cases queued
  case h_2 => exact sound

theorem Sound.answerPools (sound : s.Sound) {promise : Nat}
    {body : Except Failure (Option (List PoolEntry))} :
    (s.answerPools readings promise body).Sound := by
  rw [BatchFills.answerPools]
  split
  case h_1 attempt begunAt there ran =>
    refine sound.cache (MemoryCache.apply_effect s.cache (.answer promise _)) ?_
    cases body with
    | error failure => trivial
    | ok pools =>
      intro attempt' there'
      cases there.symm.trans there'
      exact sound.ran promise attempt begunAt there ran
  case h_2 => exact sound

theorem Sound.apply (sound : s.Sound) {event : FillEvent Row Fields} (timely : Timely readings s event) :
    (s.apply readings event).Sound := by
  have consistent := sound.purged.consistent
  cases event with
  | getTokenMetadata id subjects =>
    rw [BatchFills.apply]
    split
    · exact sound
    · exact sound.withLoad (MetadataLoad.beginLoad_ahead consistent _ _)
  | drepMetadataByHex id drepIds =>
    rw [BatchFills.apply]
    split
    · exact sound
    · exact sound.withLoad (MetadataLoad.beginLoad_ahead consistent _ _)
  | requestMetadata id =>
    rw [BatchFills.apply]
    cases there : s.metadataLoads id with
    | none => exact sound
    | some load => exact sound.withLoad (sound.ahead id load there).request
  | answerTokens id rows => exact sound.answerMetadata timely
  | answerDreps id rows => exact sound.answerMetadata timely
  | resolveAdaPoolsBatch id subjects =>
    rw [BatchFills.apply]
    split
    · exact sound
    · exact sound.withFetch
  | sendChunk id =>
    rw [BatchFills.apply]
    cases s.poolFetches id with
    | none => exact sound
    | some fetch => exact sound.withFetch
  | answerChunk id body => exact sound.answerChunk timely
  | settleFetch id =>
    rw [BatchFills.apply]
    cases s.poolFetches id with
    | none => exact sound
    | some fetch => exact sound.withFetch
  | resolveAdaPool subject promise =>
    exact sound.cache (MemoryCache.apply_effect s.cache (.read _ _ subject promise)) trivial
  | startLoad promise => exact sound.startLoad
  | answerPools promise body => exact sound.answerPools
  | handle promise => exact sound.cache (MemoryCache.apply_effect s.cache (.handle promise)) trivial
  | finish promise => exact sound.cache (MemoryCache.apply_effect s.cache (.finish promise)) trivial
  | clear start => exact sound.cache (MemoryCache.apply_effect s.cache (.clear start)) trivial
  | tick now => exact sound.cache (MemoryCache.apply_effect s.cache (.tick now)) trivial

/-- A clear is never forgotten. -/
theorem Sound.apply_clearedSince (sound : s.Sound) {event : FillEvent Row Fields} {start : String}
    {clearedAt : Nat} (cleared : s.cache.ClearedSince start clearedAt) :
    (s.apply readings event).cache.ClearedSince start clearedAt := by
  have cached : ∀ event, (s.cache.apply event).ClearedSince start clearedAt := fun event =>
    cleared.effect sound.purged.consistent (MemoryCache.apply_effect s.cache event)
  have same : ∀ cache : MemoryCache (Sourced V) Failure String,
      cache.clearGenerations = s.cache.clearGenerations → cache.ClearedSince start clearedAt := by
    intro cache same
    rw [MemoryCache.ClearedSince, same]
    exact cleared
  have metadata : ∀ kind id rows,
      (s.answerMetadata kind id rows).cache.ClearedSince start clearedAt := by
    intro kind id rows
    rw [BatchFills.answerMetadata]
    cases s.metadataLoads id with
    | none => exact cleared
    | some load =>
      simp only
      split
      · exact same _ (load.answer_fields s.cache _).1
      · exact cleared
  cases event with
  | answerTokens id rows => exact metadata ..
  | answerDreps id rows => exact metadata ..
  | answerChunk id body =>
    rw [BatchFills.apply, BatchFills.answerChunk]
    cases s.poolFetches id with
    | none => exact cleared
    | some fetch =>
      simp only
      split
      · exact same _ (writePools_fields s.cache ..).1
      · exact cleared
  | resolveAdaPool subject promise => exact cached (.read _ _ subject promise)
  | startLoad promise =>
    rw [BatchFills.apply, BatchFills.startLoad]
    split
    · exact cached (.startLoad promise)
    · exact cleared
  | answerPools promise body =>
    rw [BatchFills.apply, BatchFills.answerPools]
    split
    · exact cached (.answer promise _)
    · exact cleared
  | handle promise => exact cached (.handle promise)
  | finish promise => exact cached (.finish promise)
  | clear start => exact cached (.clear start)
  | tick now => exact cached (.tick now)
  | _ =>
    rw [BatchFills.apply]
    split <;> exact cleared

theorem create_sound (maxEntries now : Nat) : (create maxEntries now : BatchFills V).Sound :=
  ⟨MemoryCache.create_purged maxEntries now, nofun, nofun, fun _ _ => rfl⟩

/-- Where every unguarded write is of no earlier date than the clears of its key, the
batch fills respect clears: whatever the cache holds after a clear under a key with its
prefix, for a peek, a hit or a fallback to serve, comes from a request begun after it. -/
theorem fills_respect_clears {maxEntries now : Nat} {events : List (FillEvent Row Fields)}
    (timely : Machine.Along (apply readings) (Timely readings) (create maxEntries now) events)
    {first rest : List (FillEvent Row Fields)} {start : Option String}
    (split : events = first ++ .clear start :: rest) {key : String} {entry : Entry (Sourced V)}
    (inside : startsWith key (start.getD "") = true)
    (found : ((create maxEntries now).after readings events).cache.entries.get? key = some entry) :
    ((create maxEntries now).after readings first).cache.clearGeneration < entry.value.begunAt := by
  subst split
  obtain ⟨before, clearing, after⟩ := Machine.along_append.mp timely
  have sound : ((create maxEntries now).after readings first).Sound :=
    Machine.run_invariant (fun _ _ timely sound => Sound.apply sound timely) before
      (create_sound maxEntries now)
  have cleared := MemoryCache.clear_clearedSince
    ((create maxEntries now).after readings first).cache start
  have kept := Machine.run_invariant (P := fun s : BatchFills V => s.Sound ∧
    s.cache.ClearedSince (start.getD "")
      (((create maxEntries now).after readings first).cache.clearGeneration + 1))
    (fun _ _ timely kept => ⟨kept.1.apply timely, kept.1.apply_clearedSince kept.2⟩) after
    ⟨sound.apply clearing, cleared⟩
  rw [BatchFills.after, Machine.run_append] at found
  exact kept.1.purged.asked_after kept.2 inside found

section Example

/-- Pools only, with reserves in whole dollars. -/
def poolReadings : Readings Unit Unit (Option AdaPool) Nat where
  mapTokenMetadata := fun _ => none
  drepCredentialHex := fun _ => none
  drepMetaFields := fun _ => none
  pool := id
  number := fun text => text.toNat?.getD 0
  cacheNamespace := "cardano"

/-- The multi-token endpoint knows the subject and its market in ADA. -/
def adaMarket : MultiTokensResponse where
  data := [⟨"aa", some ["p"]⟩]
  included := some [
    { id := "p", address := "addr", base_token_price_native_currency := "2"
      quote_token_price_usd := "1", reserve_in_usd := some "10"
      price_change_percentage_h24 := none, volume_usd_h24 := none
      base_token := "cardano_aa", quote_token := "cardano_0x" }]

/-- A batch whose request is under way when the prices are cleared. -/
def clearedBatch (body : Option MultiTokensResponse) : List (FillEvent Unit Unit) :=
  [.resolveAdaPoolsBatch 0 ["aa"], .sendChunk 0, .clear (some "price:"), .answerChunk 0 body]

/-- A batch begun after the clear. -/
def laterBatch (body : Option MultiTokensResponse) : List (FillEvent Unit Unit) :=
  [.clear (some "price:"), .resolveAdaPoolsBatch 0 ["aa"], .sendChunk 0, .answerChunk 0 body]

theorem laterBatch_respects_clears :
    ∃ entry, ((create 10 0).after poolReadings (laterBatch none)).cache.entries.get?
      "price:token:pool:cardano:aa" = some entry ∧ 0 < entry.value.begunAt := by
  have timely : Machine.Along (apply poolReadings) (Timely poolReadings) (create 10 0)
      (laterBatch none) := by decide
  have split : laterBatch none = [] ++ .clear (some "price:") :: (laterBatch none).tail := rfl
  have held : (((create 10 0).after poolReadings (laterBatch none)).cache.entries.get?
      "price:token:pool:cardano:aa").isSome := by decide
  obtain ⟨entry, found⟩ := Option.isSome_iff_exists.mp held
  exact ⟨entry, found, fills_respect_clears timely split (by decide) found⟩

/-- The answer is cached after the clear all the same, whether it tells of a pool or of
none. -/
theorem clearedBatch_outlives_clear :
    ((create 10 0 : BatchFills (Option AdaPool)).after poolReadings
        ((clearedBatch (some adaMarket)).take 2)).cache.clearGeneration = 0 ∧
      (((create 10 0).after poolReadings (clearedBatch (some adaMarket))).cache.peek
        "price:token:pool:cardano:aa").map Sourced.begunAt = some 0 ∧
      ((create 10 0).after poolReadings (clearedBatch none)).cache.peek
        "price:token:pool:cardano:aa" = some ⟨none, 0⟩ :=
  ⟨by decide +kernel, by decide +kernel, by decide +kernel⟩

end Example

end BatchFills
end WalletBackend.Cached
