import WalletBackend.Blockfrost.Pools
import WalletBackend.Cache.Promises

/-! `getPoolList` over the cache that all of the service shares. A page is built by a
load of its own, which reads the ranking of its epoch through the cache or, where the
epoch is not known, scans for itself. Values carry the loads they come from. -/
namespace WalletBackend.Blockfrost.Pools
open Cache Interaction

def RANKING_TTL_MS : Nat := 6 * 24 * 60 * 60 * 1000
def PAGE_TTL_MS : Nat := 90000
def PAGE_STALE_IF_ERROR_MS : Nat := 10 * 60000

/-- The rows of a scan, and the load that made it. -/
structure Ranking where
  rows : List PoolExtendedRow
  scan : Nat
  deriving DecidableEq

/-- The pools of a page, the load that built it, and the ranking it was cut from. -/
structure Page where
  pools : List PoolInfo
  load : Nat
  ranking : Ranking
  deriving DecidableEq

/-- What the cache holds. -/
inductive Value (O : Type) where
  | ranking (ranking : Ranking)
  | page (page : Page)
  | other (value : O)
  deriving DecidableEq

/-- The loaders that are passed to the cache. -/
inductive Load where
  | ranking (epoch : Nat)
  | page (params : PoolListParams) (epoch : Option Nat)
  | other
  deriving DecidableEq

def rankingKey (epoch : Nat) : String := s!"pools:ranking:{epoch}"

def pageKey (params : PoolListParams) (epoch : Option Nat) : String :=
  let epochText := (epoch.map toString).getD "none"
  let ticker := params.ticker.getD ""
  s!"pools:page:{epochText}:{ticker}:{params.offset}:{params.limit}"

def pagePolicy : CachePolicy := ⟨PAGE_TTL_MS, PAGE_STALE_IF_ERROR_MS⟩

/-- How far the loader of a page has come. -/
inductive Build (O : Type) where
  | awaitingRanking (reading : Reading (Value O))
  | scanning
  | hydrating (ranking : Ranking)

/-- How far a call of `getPoolList` has come. -/
inductive Call (O : Type) where
  | awaitingEpoch (params : PoolListParams)
  | empty
  | asked (params : PoolListParams) (epoch : Option Nat) (reading : Reading (Value O))
  deriving DecidableEq

/-- The cache, the loaders of pages by the number of their load, and the calls. -/
structure PoolList (O : Type) where
  cache : MemoryCache (Value O) Failure Load
  builds : Nat → Option (Build O)
  calls : Nat → Option (Call O)

/-- What a program can come to. -/
def Outcome {α : Type} (x : Read α) : Type :=
  { outcome : Except Failure α //
    ∃ trace : List (Exchange Unit Endpoint.Answer), x.Runs trace outcome }

/-- What becomes of the hydration of a page, whichever it is. -/
abbrev Hydration (toLowerCase : String → String) : Type :=
  (params : PoolListParams) → (rows : List PoolExtendedRow) →
    Outcome (hydratePage toLowerCase params rows)

/-- The epoch to key the cache on, of what `currentEpoch` came to if there is one. -/
def cacheEpoch (currentEpoch : Option (Except Failure Nat)) : Option Nat :=
  match currentEpoch with
  | some (.ok epoch) => some epoch
  | _ => none

variable {O : Type} {toLowerCase : String → String}

def create (maxEntries now : Nat) : PoolList O where
  cache := createMemoryCache maxEntries now
  builds := fun _ => none
  calls := fun _ => none

namespace PoolList

variable (s : PoolList O)

def withBuild (id : Nat) (build : Build O) : PoolList O :=
  { s with builds := Function.update s.builds id (some build) }

def withCall (call : Nat) (state : Call O) : PoolList O :=
  { s with calls := Function.update s.calls call (some state) }

def getPoolList (call : Nat) (params : PoolListParams) : PoolList O :=
  match s.calls call with
  | none => s.withCall call (if params.limit = 0 then .empty else .awaitingEpoch params)
  | some _ => s

/-- A call goes on when it knows the epoch, or that it is not to be had. The load that it
begins is named `id`. -/
def resumeCall (call : Nat) (epoch : Option Nat) (id : Nat) : PoolList O :=
  match s.calls call with
  | some (.awaitingEpoch params) =>
      let read := s.cache.read (pageKey params epoch) pagePolicy (.page params epoch) id
      { s with cache := read.1 }.withCall call (.asked params epoch read.2)
  | _ => s

/-- `rankedPools` in the loader of a page. The scan of a ranking that is not there is
named `scan`. -/
def rankedPools (id : Nat) (epoch : Option Nat) (scan : Nat) : PoolList O :=
  match epoch with
  | none => s.withBuild id .scanning
  | some epoch =>
      let read := s.cache.read (rankingKey epoch) (.ofTtl RANKING_TTL_MS) (.ranking epoch) scan
      { s with cache := read.1 }.withBuild id (.awaitingRanking read.2)

/-- The microtask that calls a loader. -/
def startLoad (id scan : Nat) : PoolList O :=
  match s.cache.attempts id with
  | some { load := .page _ epoch, phase := .queued, .. } =>
      { s with cache := s.cache.startLoad id }.rankedPools id epoch scan
  | some { load := .ranking _, .. } => { s with cache := s.cache.startLoad id }
  | _ => s

/-- The scan of a load settles. -/
def scanned (id : Nat) (outcome : Except Failure (List PoolExtendedRow)) : PoolList O :=
  match (s.cache.attempts id).map Attempt.load, s.builds id with
  | some (.ranking _), _ =>
      { s with cache := s.cache.answer id (outcome.map fun rows => .ranking ⟨rows, id⟩) }
  | some (.page _ _), some .scanning =>
      match outcome with
      | .ok rows => s.withBuild id (.hydrating ⟨rows, id⟩)
      | .error failure => { s with cache := s.cache.answer id (.error failure) }
  | _, _ => s

/-- The loader of a page goes on when the ranking that it waits for has settled. -/
def resumeBuild (id : Nat) : PoolList O :=
  match s.builds id with
  | some (.awaitingRanking reading) =>
      match s.cache.settlement reading with
      | some (.ok (.ranking ranking)) => s.withBuild id (.hydrating ranking)
      | some (.error failure) => { s with cache := s.cache.answer id (.error failure) }
      | _ => s
  | _ => s

/-- The loader of a page returns, or throws. -/
def hydrated (id : Nat) (hydration : Hydration toLowerCase) : PoolList O :=
  match (s.cache.attempts id).map Attempt.load, s.builds id with
  | some (.page params _), some (.hydrating ranking) =>
      let outcome := (hydration params ranking.rows).val
      { s with cache := s.cache.answer id (outcome.map fun pools => .page ⟨pools, id, ranking⟩) }
  | _, _ => s

end PoolList

/-- What can happen. New calls and loads are named by numbers not used before. -/
inductive Event (O : Type) (toLowerCase : String → String) where
  | getPoolList (call : Nat) (params : PoolListParams)
  | cacheEpoch (call : Nat) (currentEpoch : Option (Except Failure Nat)) (id : Nat)
  | startLoad (id scan : Nat)
  | scanned (id : Nat) (outcome : Outcome scan)
  | resumeBuild (id : Nat)
  | hydrated (id : Nat) (hydration : Hydration toLowerCase)
  | cache (event : Cache.Event (Value O) Failure Load)

/-- What other consumers do is on keys of their own, and with loads of their own. The
outcomes of all loads are handled alike. -/
def elsewhere (c : MemoryCache (Value O) Failure Load) : Cache.Event (Value O) Failure Load → Bool
  | .read key _ load id =>
      !startsWith key "pools:" && load == .other && (c.attempts id).isNone
  | .set key _ _ | .setIfGeneration key _ _ _ => !startsWith key "pools:"
  | .startLoad id | .answer id _ => (c.attempts id).all fun attempt => attempt.load == .other
  | .handle _ | .finish _ | .clear _ | .tick _ => true

namespace PoolList

def apply (s : PoolList O) : Event O toLowerCase → PoolList O
  | .getPoolList call params => s.getPoolList call params
  | .cacheEpoch call currentEpoch id =>
      if (s.cache.attempts id).isSome then s
      else s.resumeCall call (Pools.cacheEpoch currentEpoch) id
  | .startLoad id scan => if (s.cache.attempts scan).isSome then s else s.startLoad id scan
  | .scanned id outcome => s.scanned id outcome.val
  | .resumeBuild id => s.resumeBuild id
  | .hydrated id hydration => s.hydrated id hydration
  | .cache event => if elsewhere s.cache event then { s with cache := s.cache.apply event } else s

def after (s : PoolList O) (events : List (Event O toLowerCase)) : PoolList O :=
  Machine.run apply s events

end PoolList
end WalletBackend.Blockfrost.Pools
