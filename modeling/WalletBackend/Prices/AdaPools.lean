import WalletBackend.Cache.Sourced
import Mathlib.Data.List.Basic

/-! The pool resolution of the GeckoTerminal client: many subjects by the multi-token
endpoint, and one subject by its list of pools. -/
namespace WalletBackend.Prices
open Cache Containers

def NETWORK : String := "cardano"
def NATIVE_TOKEN_ID : String := NETWORK ++ "_0x"
def TOKEN_POOL_TTL_MS : Nat := 60000
def MULTI_TOKEN_BATCH : Nat := 30

/-- `poolEntry`; the figures of the last day may be missing with their wrapper. -/
structure PoolEntry where
  address : String
  base_token_price_native_currency : String
  quote_token_price_usd : String
  reserve_in_usd : Option String
  price_change_percentage_h24 : Option String
  volume_usd_h24 : Option String
  base_token : String
  quote_token : String

structure IncludedPool extends PoolEntry where
  id : String

/-- `multiTokenEntry`. -/
structure MultiTokenEntry where
  address : String
  top_pools : Option (List String)

/-- `multiTokensResponse`. -/
structure MultiTokensResponse where
  data : List MultiTokenEntry
  included : Option (List IncludedPool)

structure AdaPool where
  address : String
  priceAda : String
  adaUsdPrice : String
  changePercent24h : Option String
  volumeUsd24h : Option String
  deriving DecidableEq

def isDirectAdaPool (subject : String) (pool : PoolEntry) : Bool :=
  pool.base_token == NETWORK ++ "_" ++ subject && pool.quote_token == NATIVE_TOKEN_ID

def toAdaPool (pool : PoolEntry) : AdaPool where
  address := pool.address
  priceAda := pool.base_token_price_native_currency
  adaUsdPrice := pool.quote_token_price_usd
  changePercent24h := pool.price_change_percentage_h24
  volumeUsd24h := pool.volume_usd_h24

section Picking

-- `Number` of a decimal string, and its order.
variable {Number : Type} [LT Number] [DecidableLT Number] (number : String → Number)

def pickMostLiquidAdaPool (subject : String) (pools : List PoolEntry) : Option AdaPool :=
  let best := pools.foldl (fun (best : Option (PoolEntry × Number)) pool =>
    if isDirectAdaPool subject pool then
      let reserve := number (pool.reserve_in_usd.getD "0")
      match best with
      | none => some (pool, reserve)
      | some known => if known.2 < reserve then some (pool, reserve) else some known
    else best) none
  best.map fun found => toAdaPool found.1

/-- What an answer of the multi-token endpoint leads to: the writes, in order, and the
subjects whose own lists of pools are to be read. -/
structure ChunkOutcome where
  writes : List (String × Option AdaPool)
  needsFallback : List String

/-- The two loops of `fetchAdaPools` over one chunk and its answer; a 404 answers
nothing. -/
def readChunk (chunk : List String) (body : Option MultiTokensResponse) : ChunkOutcome :=
  let included := (body.bind MultiTokensResponse.included).getD []
  let poolsById : KeyedMap String IncludedPool :=
    included.foldl (fun pools pool => pools.set pool.id pool) .empty
  let data := (body.map MultiTokensResponse.data).getD []
  let picked := data.map fun token =>
    let subject := token.address.toLower
    let topPools := (token.top_pools.getD []).filterMap poolsById.get?
    (subject, pickMostLiquidAdaPool number subject (topPools.map IncludedPool.toPoolEntry))
  let returned := picked.map Prod.fst
  let absent := chunk.filter fun subject => !returned.contains subject
  { writes := picked.filter (fun token => token.2.isSome) ++ absent.map fun subject => (subject, none)
    needsFallback := (picked.filter fun token => token.2.isNone).map Prod.fst }

end Picking

variable {V E L : Type}

def poolCacheKey (cacheNamespace subject : String) : String :=
  "price:token:pool:" ++ cacheNamespace ++ ":" ++ subject

/-- A call of `resolveAdaPoolsBatch` and its `fetchAdaPools`. -/
structure PoolFetch (V : Type) where
  /-- Hits. -/
  cached : KeyedMap String (Sourced V)
  /-- Subjects awaited, by the call that fetches them. -/
  awaiting : KeyedMap String Nat
  owned : List String
  /-- The chunks not answered yet. -/
  chunks : List (List String)
  /-- The request of the first of them, once let out of the bucket. -/
  sent : Option Nat
  resolved : KeyedMap String (Option AdaPool)
  needsFallback : List String
  settled : Bool

/-- The loop over the subjects. -/
def claim (cache : MemoryCache (Sourced V) E L) (cacheNamespace : String) (id : Nat)
    (state : PoolFetch V × KeyedMap String Nat) (subject : String) :
    PoolFetch V × KeyedMap String Nat :=
  let (fetch, inFlightPools) := state
  match cache.peek (poolCacheKey cacheNamespace subject) with
  | some hit => ({ fetch with cached := fetch.cached.set subject hit }, inFlightPools)
  | none =>
      match inFlightPools.get? subject with
      | some pending => ({ fetch with awaiting := fetch.awaiting.set subject pending }, inFlightPools)
      | none =>
          ({ fetch with
              awaiting := fetch.awaiting.set subject id
              owned := fetch.owned ++ [subject] }, inFlightPools.set subject id)

/-- `resolveAdaPoolsBatch` up to its first request. -/
def resolveAdaPoolsBatch (cache : MemoryCache (Sourced V) E L) (cacheNamespace : String)
    (inFlightPools : KeyedMap String Nat) (id : Nat) (subjects : List String) :
    PoolFetch V × KeyedMap String Nat :=
  let claimed := subjects.foldl (claim cache cacheNamespace id)
    (⟨.empty, .empty, [], [], none, .empty, [], false⟩, inFlightPools)
  ({ claimed.1 with chunks := claimed.1.owned.toChunks MULTI_TOKEN_BATCH }, claimed.2)

namespace PoolFetch

variable (fetch : PoolFetch V)

/-- The rate limiter lets the request of a chunk out. -/
def send (cache : MemoryCache (Sourced V) E L) : PoolFetch V :=
  if fetch.settled || fetch.chunks.isEmpty || fetch.sent.isSome then fetch
  else { fetch with sent := some cache.clearGeneration }

/-- The promises of the owned subjects settle, with their pools or with an error. -/
def settle (inFlightPools : KeyedMap String Nat) : PoolFetch V × KeyedMap String Nat :=
  ({ fetch with settled := true, sent := none }, fetch.owned.foldl (fun pools subject => pools.delete subject)
    inFlightPools)

end PoolFetch

/-- `cache.set`, of the pool or of its absence. -/
def writePool (pool : Option AdaPool → V) (cacheNamespace : String) (begunAt : Nat)
    (cache : MemoryCache (Sourced V) E L) (write : String × Option AdaPool) :
    MemoryCache (Sourced V) E L :=
  cache.set (poolCacheKey cacheNamespace write.1) ⟨pool write.2, begunAt⟩ TOKEN_POOL_TTL_MS

/-- The answer to the first chunk, and what is left to do. -/
def PoolFetch.answer (fetch : PoolFetch V) (pool : Option AdaPool → V) (cacheNamespace : String)
    (begunAt : Nat) (outcome : ChunkOutcome) (cache : MemoryCache (Sourced V) E L) :
    PoolFetch V × MemoryCache (Sourced V) E L :=
  ({ fetch with
      chunks := fetch.chunks.tail
      sent := none
      resolved := outcome.writes.foldl (fun resolved write => resolved.set write.1 write.2)
        fetch.resolved
      needsFallback := fetch.needsFallback ++ outcome.needsFallback },
    outcome.writes.foldl (writePool pool cacheNamespace begunAt) cache)

section Writes

variable (cache : MemoryCache (Sourced V) E L) (pool : Option AdaPool → V)
  (cacheNamespace : String) (begunAt : Nat)

theorem writePool_fields (write : String × Option AdaPool) :
    (writePool pool cacheNamespace begunAt cache write).clearGenerations = cache.clearGenerations ∧
      (writePool pool cacheNamespace begunAt cache write).clearGeneration = cache.clearGeneration ∧
      (writePool pool cacheNamespace begunAt cache write).attempts = cache.attempts :=
  ⟨MemoryCache.store_clearGenerations .., MemoryCache.store_clearGeneration ..,
    MemoryCache.store_attempts ..⟩

/-- What the writes of a chunk leave alone. -/
theorem writePools_fields (writes : List (String × Option AdaPool)) :
    (writes.foldl (writePool pool cacheNamespace begunAt) cache).clearGenerations =
        cache.clearGenerations ∧
      (writes.foldl (writePool pool cacheNamespace begunAt) cache).clearGeneration =
        cache.clearGeneration ∧
      (writes.foldl (writePool pool cacheNamespace begunAt) cache).attempts = cache.attempts := by
  induction writes generalizing cache with
  | nil => exact ⟨rfl, rfl, rfl⟩
  | cons write writes ih =>
    rw [List.foldl_cons]
    obtain ⟨clears, count, attempts⟩ := ih (writePool pool cacheNamespace begunAt cache write)
    obtain ⟨clears', count', attempts'⟩ := writePool_fields cache pool cacheNamespace begunAt write
    exact ⟨clears.trans clears', count.trans count', attempts.trans attempts'⟩

variable {cache cacheNamespace begunAt}

/-- Unguarded, a write is good only where no clear of its key came since the request. -/
theorem writePools_purged (purged : cache.Purged) {writes : List (String × Option AdaPool)}
    (uncleared : ∀ write ∈ writes,
      cache.UnclearedSince (poolCacheKey cacheNamespace write.1) begunAt) :
    (writes.foldl (writePool pool cacheNamespace begunAt) cache).Purged := by
  induction writes generalizing cache with
  | nil => exact purged
  | cons write writes ih =>
    have asks : cache.Asks (.set (poolCacheKey cacheNamespace write.1) ⟨pool write.2, begunAt⟩
        TOKEN_POOL_TTL_MS) := uncleared write List.mem_cons_self
    apply ih (purged.apply asks)
    intro other member
    exact (uncleared other (List.mem_cons_of_mem _ member)).congr
      (writePool_fields cache pool cacheNamespace begunAt write).1

end Writes
end WalletBackend.Prices
