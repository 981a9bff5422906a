import WalletBackend.Blockfrost.Concurrency
import WalletBackend.Blockfrost.Pagination
import WalletBackend.Domain.Pools
import Mathlib.Data.List.Sort

/-! The stake-pool reads of `pools.ts`, apart from the cache: the scan that ranks the
registered pools, and the hydration of a page of the ranking. -/
namespace WalletBackend.Blockfrost.Pools
open Interaction Containers

def POOL_LOOKUP_CONCURRENCY : Nat := 10

def activeStakeOf (row : PoolExtendedRow) : Nat :=
  (row.active_stake.map Numeric.toBigInt).getD 0

/-- Largest active stake first, ties by pool id. -/
def byActiveStakeDesc (a b : PoolExtendedRow) : Ordering :=
  let left := activeStakeOf a
  let right := activeStakeOf b
  if left ≠ right then (if left > right then .lt else .gt)
  else if a.pool_id < b.pool_id then .lt
  else if a.pool_id > b.pool_id then .gt
  else .eq

def poolStatus (row : PoolRow) (retiringEpoch : Option Nat) : PoolStatus :=
  if retiringEpoch.isSome then .retiring
  else if row.registration.length > row.retirement.length then .registered
  else .retired

def mapPoolMetadata (m : Option PoolMetaFields) : Option PoolMetadata :=
  m.bind fun m =>
    let md : PoolMetadata :=
      { name := m.name, ticker := m.ticker, homepage := m.homepage, description := m.description }
    if md = ⟨none, none, none, none⟩ then none else some md

/-- `String(value ?? 0)`. -/
def textOrZero (value : Option Numeric) : String := (value.map Numeric.text).getD "0"

def mapPoolInfo (row : PoolRow) (metadata : Option PoolMetadata) (retiringEpoch : Option Nat) :
    PoolInfo where
  poolId := row.pool_id
  poolIdHex := row.hex
  status := poolStatus row retiringEpoch
  retiringEpoch := retiringEpoch
  margin := row.margin_cost
  fixedCost := textOrZero row.fixed_cost
  pledge := textOrZero row.declared_pledge
  livePledge := textOrZero row.live_pledge
  activeStake := textOrZero row.active_stake
  liveStake := textOrZero row.live_stake
  saturation := row.live_saturation.getD 0
  liveDelegators := row.live_delegators.getD 0
  blocksMinted := row.blocks_minted.getD 0
  metadata := metadata

def retiringList : PagedList PoolRetireRow where
  basePath := "/pools/retiring"
  fetch page path := get (.poolsRetiring page) path
  label := "/pools/retiring"

def extendedList : PagedList PoolExtendedRow where
  basePath := "/pools/extended"
  fetch page path := get (.poolsExtended page) path
  label := "/pools/extended"

section Fetch

variable {T : Type} (t : T) (page : Nat) (path : String)

theorem runs_retiring (rows : List PoolRetireRow) :
    (retiringList.fetch page path).Runs [⟨t, .poolsRetiring page, .ok (some rows)⟩] (.ok rows) :=
  runs_get_ok.mpr ⟨t, rfl⟩

theorem runs_extended (rows : List PoolExtendedRow) :
    (extendedList.fetch page path).Runs [⟨t, .poolsExtended page, .ok (some rows)⟩] (.ok rows) :=
  runs_get_ok.mpr ⟨t, rfl⟩

end Fetch

/-- `new Map(entries)`: a later entry replaces an earlier one of its key. -/
def mapOf {V : Type} (entries : List (String × V)) : KeyedMap String V :=
  entries.foldl (fun map entry => map.set entry.1 entry.2) .empty

/-- The pools that are about to retire, or none if the list cannot be read. -/
def retiringPools : Read (KeyedMap String Nat) :=
  tryCatch (do
    let rows ← collectPages retiringList none
    pure (mapOf (rows.map fun row => (row.pool_id, row.epoch))))
    fun _ => pure .empty

def poolMetadata (poolId : String) : Read (Option PoolMetadata) :=
  tryCatch (do
    let row ← getOrUndefined (.poolMetadata poolId)
    pure (mapPoolMetadata row))
    fun _ => pure none

/-- One pool, unless upstream does not know it. -/
def lookupPool (retiring : KeyedMap String Nat)
    (inlineMetadata : Option (KeyedMap String (Option PoolMetadata))) (id : String) :
    Read (Option PoolInfo) := do
  match ← getOrUndefined (.pool id) with
  | none => pure none
  | some row =>
      let metadata ← match inlineMetadata.bind (·.get? id) with
        | some known => pure known
        | none => poolMetadata id
      pure (some (mapPoolInfo row metadata (retiring.get? id)))

def poolInfoByIds (poolIds : List String) (retiring : KeyedMap String Nat)
    (inlineMetadata : Option (KeyedMap String (Option PoolMetadata))) : Read (List PoolInfo) :=
  if poolIds.isEmpty then pure []
  else do
    let mapped ← mapWithConcurrency poolIds POOL_LOOKUP_CONCURRENCY
      fun id _ => lookupPool retiring inlineMetadata id
    pure mapped.reduceOption

/-- Stable, like `sort`. -/
def ranked (rows : List PoolExtendedRow) : List PoolExtendedRow :=
  rows.mergeSort fun a b => byActiveStakeDesc a b != .gt

/-- The registered pools in the order of their active stake. -/
def scan : Read (List PoolExtendedRow) := do
  let rows ← collectPages extendedList none
  pure (ranked rows)

/-- The rows whose ticker has the needle in it, whatever the case of either. -/
def filtered (toLowerCase : String → String) (ranking : List PoolExtendedRow)
    (ticker : Option String) : List PoolExtendedRow :=
  match ticker.map toLowerCase with
  | none => ranking
  | some needle => ranking.filter fun row =>
      (row.metadata.bind PoolMetaFields.ticker).any fun t =>
        needle.toList <:+: (toLowerCase t).toList

/-- `filtered.slice(offset, offset + limit)`. -/
def window (toLowerCase : String → String) (ranking : List PoolExtendedRow)
    (params : PoolListParams) : List PoolExtendedRow :=
  ((filtered toLowerCase ranking params.ticker).drop params.offset).take params.limit

/-- What `servePage` does with the ranking it has read: the stake that the ranking used
takes the place of the one that hydration read. -/
def hydratePage (toLowerCase : String → String) (params : PoolListParams)
    (ranking : List PoolExtendedRow) : Read (List PoolInfo) := do
  let page := window toLowerCase ranking params
  let retiring ← retiringPools
  let inlineMetadata := mapOf (page.map fun row => (row.pool_id, mapPoolMetadata row.metadata))
  let hydrated ← poolInfoByIds (page.map PoolExtendedRow.pool_id) retiring (some inlineMetadata)
  let rankedStake := mapOf (page.map fun row => (row.pool_id, textOrZero row.active_stake))
  pure (hydrated.map fun pool =>
    { pool with activeStake := (rankedStake.get? pool.poolId).getD pool.activeStake })

/-- `servePage` without an epoch, and so without a ranking that was kept. -/
def servePage (toLowerCase : String → String) (params : PoolListParams) : Read (List PoolInfo) := do
  let ranking ← scan
  hydratePage toLowerCase params ranking

def getPoolInfo (poolIds : List String) : Read (List PoolInfo) :=
  if poolIds.isEmpty then pure []
  else do
    let retiring ← retiringPools
    poolInfoByIds poolIds retiring none

end WalletBackend.Blockfrost.Pools
