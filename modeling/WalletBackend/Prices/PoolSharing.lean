import WalletBackend.Cache.Promises
import WalletBackend.Library.KeyedJoin
import WalletBackend.Prices.AdaPools

/-! Calls of `resolveAdaPoolsBatch` side by side. A call fetches the subjects that nobody else
fetches, registers their promises for others to await, and removes them when its fetch is
over. -/
namespace WalletBackend.Prices
open Cache Containers

/-- How far `fetchAdaPools` has come. -/
inductive Fetch (E : Type) where
  /-- The request of `chunk` is out, or waits for the rate limiter. -/
  | asking (chunk : List String) (later : List (List String))
      (resolved : KeyedMap String (Option AdaPool)) (needsFallback : List String)
  /-- The reads of `resolveAdaPool` are awaited together. -/
  | reading (resolved : KeyedMap String (Option AdaPool))
      (reads : List (String × Reading (Option AdaPool)))
  | settled (outcome : Except E (KeyedMap String (Option AdaPool)))

def Fetch.Outstanding {E : Type} : Fetch E → Prop
  | .settled _ => False
  | _ => True

structure PoolCall (E : Type) where
  subjects : List String
  /-- Hits. -/
  cached : KeyedMap String (Option AdaPool)
  /-- Subjects whose promises are awaited, by the call that fetches them. -/
  awaiting : KeyedMap String Nat
  owned : List String
  fetch : Fetch E

/-- The client: its cache, the promises its reads have made, its calls. -/
structure PoolClient (E : Type) where
  cache : MemoryCache (Option AdaPool) E String
  promises : Nat
  inFlightPools : KeyedMap String Nat
  calls : Nat → Option (PoolCall E)

/-- What can happen: a call, an answer or a failure of its request, the end of its reads; a
read for a history, a step of a read; a clear, the passing of time. -/
inductive PoolEvent (E : Type) where
  | resolveAdaPoolsBatch (id : Nat) (subjects : List String)
  | answerChunk (id : Nat) (body : Except E (Option MultiTokensResponse))
  | joinReads (id : Nat)
  /-- `Promise.all` rejects with the failure of one of the reads. -/
  | failReads (id index : Nat)
  | resolveAdaPool (subject : String)
  | startLoad (promise : Nat)
  | answerPools (promise : Nat) (body : Except E (Option (List PoolEntry)))
  | handle (promise : Nat)
  | finish (promise : Nat)
  | clear (start : Option String)
  | tick (now : Nat)

namespace PoolClient

variable {E Number : Type} [LT Number] [DecidableLT Number] (number : String → Number)
  (cacheNamespace : String) (s : PoolClient E)

def create (maxEntries now : Nat) : PoolClient E where
  cache := createMemoryCache maxEntries now
  promises := 0
  inFlightPools := .empty
  calls := fun _ => none

def withCall (id : Nat) (call : PoolCall E) : PoolClient E :=
  { s with calls := Function.update s.calls id (some call) }

/-- The loop of `resolveAdaPoolsBatch` over the subjects. -/
def claim (id : Nat) (state : PoolCall E × KeyedMap String Nat) (subject : String) :
    PoolCall E × KeyedMap String Nat :=
  let (call, inFlightPools) := state
  match s.cache.peek (poolCacheKey cacheNamespace subject) with
  | some hit => ({ call with cached := call.cached.set subject hit }, inFlightPools)
  | none =>
      match inFlightPools.get? subject with
      | some pending => ({ call with awaiting := call.awaiting.set subject pending }, inFlightPools)
      | none =>
          ({ call with
              awaiting := call.awaiting.set subject id
              owned := call.owned ++ [subject] }, inFlightPools.set subject id)

/-- `fetchAdaPools` up to its first request. -/
def fetchAdaPools (owned : List String) : Fetch E :=
  match owned.toChunks MULTI_TOKEN_BATCH with
  | [] => .settled (.ok .empty)
  | chunk :: later => .asking chunk later .empty []

def resolveAdaPoolsBatch (id : Nat) (subjects : List String) : PoolClient E :=
  let (call, inFlightPools) := subjects.foldl (s.claim cacheNamespace id)
    (⟨subjects, .empty, .empty, [], .settled (.ok .empty)⟩, s.inFlightPools)
  { s.withCall id { call with fetch := fetchAdaPools call.owned } with inFlightPools }

/-- `resolveAdaPool`, whose loader asks for the pools of the subject. -/
def resolveAdaPool (subject : String) : PoolClient E × Reading (Option AdaPool) :=
  let (cache, reading) := s.cache.read (poolCacheKey cacheNamespace subject)
    (.ofTtl TOKEN_POOL_TTL_MS) subject s.promises
  ({ s with cache, promises := s.promises + 1 }, reading)

def readPools : List String → PoolClient E → PoolClient E × List (String × Reading (Option AdaPool))
  | [], s => (s, [])
  | subject :: subjects, s =>
      let (s, reading) := s.resolveAdaPool cacheNamespace subject
      let (s, reads) := readPools subjects s
      (s, (subject, reading) :: reads)

/-- `cache.set`, of a pool or of its absence. -/
def writePool (cache : MemoryCache (Option AdaPool) E String) (write : String × Option AdaPool) :
    MemoryCache (Option AdaPool) E String :=
  cache.set (poolCacheKey cacheNamespace write.1) write.2 TOKEN_POOL_TTL_MS

def writePools (writes : List (String × Option AdaPool)) : PoolClient E :=
  { s with cache := writes.foldl (writePool cacheNamespace) s.cache }

/-- The reads of the subjects that the chunks left open. -/
def beginReads (id : Nat) (call : PoolCall E) (resolved : KeyedMap String (Option AdaPool))
    (needsFallback : List String) : PoolClient E :=
  let (s, reads) := readPools cacheNamespace needsFallback s
  s.withCall id { call with fetch := .reading resolved reads }

/-- The promises of the owned subjects settle and are no longer in flight. -/
def settle (id : Nat) (call : PoolCall E) (outcome : Except E (KeyedMap String (Option AdaPool))) :
    PoolClient E :=
  { s.withCall id { call with fetch := .settled outcome } with
    inFlightPools := call.owned.foldl KeyedMap.delete s.inFlightPools }

def answerChunk (id : Nat) (body : Except E (Option MultiTokensResponse)) : PoolClient E :=
  match s.calls id with
  | none => s
  | some call =>
      match call.fetch with
      | .asking chunk later resolved needsFallback =>
          match body with
          | .error e => s.settle id call (.error e)
          | .ok body =>
              let outcome := readChunk number chunk body
              let written := s.writePools cacheNamespace outcome.writes
              let resolved := resolved.setAll outcome.writes
              let needsFallback := needsFallback ++ outcome.needsFallback
              match later with
              | chunk :: later =>
                  written.withCall id { call with fetch := .asking chunk later resolved needsFallback }
              | [] => written.beginReads cacheNamespace id call resolved needsFallback
      | _ => s

/-- What the reads have come to, once all have come to a pool. -/
def joined : List (String × Reading (Option AdaPool)) → Option (List (String × Option AdaPool))
  | [] => some []
  | (subject, reading) :: reads =>
      match s.cache.settlement reading, joined reads with
      | some (.ok pool), some pools => some ((subject, pool) :: pools)
      | _, _ => none

def joinReads (id : Nat) : PoolClient E :=
  match s.calls id with
  | none => s
  | some call =>
      match call.fetch with
      | .reading resolved reads =>
          match s.joined reads with
          | some pools => s.settle id call (.ok (resolved.setAll pools))
          | none => s
      | _ => s

def failReads (id index : Nat) : PoolClient E :=
  match s.calls id with
  | none => s
  | some call =>
      match call.fetch with
      | .reading _ reads =>
          match (reads[index]?).bind fun read => s.cache.settlement read.2 with
          | some (.error e) => s.settle id call (.error e)
          | _ => s
      | _ => s

/-- The loader of a promise has its answer. -/
def answerPools (promise : Nat) (body : Except E (Option (List PoolEntry))) : PoolClient E :=
  match s.cache.attempts promise with
  | none => s
  | some attempt =>
      { s with
        cache := s.cache.answer promise (body.map fun pools =>
          pickMostLiquidAdaPool number attempt.load (pools.getD [])) }

def apply (s : PoolClient E) : PoolEvent E → PoolClient E
  | .resolveAdaPoolsBatch id subjects =>
      if (s.calls id).isSome then s else s.resolveAdaPoolsBatch cacheNamespace id subjects
  | .answerChunk id body => s.answerChunk number cacheNamespace id body
  | .joinReads id => s.joinReads id
  | .failReads id index => s.failReads id index
  | .resolveAdaPool subject => (s.resolveAdaPool cacheNamespace subject).1
  | .startLoad promise => { s with cache := s.cache.startLoad promise }
  | .answerPools promise body => s.answerPools number promise body
  | .handle promise => { s with cache := s.cache.handle promise }
  | .finish promise => { s with cache := s.cache.finish promise }
  | .clear start => { s with cache := s.cache.clear start }
  | .tick now => { s with cache := { s.cache with now } }

def after (events : List (PoolEvent E)) : PoolClient E :=
  Machine.run (apply number cacheNamespace) s events

/-- The promise of a subject that a call owns, once it has settled. -/
def settlement (subject : String) (owner : Nat) : Option (Except E (Option AdaPool)) :=
  match (s.calls owner).map PoolCall.fetch with
  | some (.settled outcome) => some (outcome.map fun fetched => (fetched.get? subject).join)
  | _ => none

/-- `Promise.all` over what a call awaits; of several failures the first. -/
def awaitAll : List (String × Nat) → Option (Except E (List (String × Option AdaPool)))
  | [] => some (.ok [])
  | (subject, owner) :: awaiting =>
      match s.settlement subject owner, awaitAll awaiting with
      | some (.error e), _ => some (.error e)
      | _, some (.error e) => some (.error e)
      | some (.ok pool), some (.ok pools) => some (.ok ((subject, pool) :: pools))
      | _, _ => none

/-- What a call has come to, once its own fetch is over and what it awaits has settled. -/
def outcome (call : PoolCall E) : Option (Except E (KeyedMap String (Option AdaPool))) :=
  match call.fetch with
  | .settled _ => (s.awaitAll call.awaiting.entries).map (Except.map call.cached.setAll)
  | _ => none

end PoolClient
end WalletBackend.Prices
