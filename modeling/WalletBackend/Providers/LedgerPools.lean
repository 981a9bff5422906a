import WalletBackend.Blockfrost.Pools
import WalletBackend.Koios.PoolTiles
import WalletBackend.Providers.LedgerTransaction

/-! The stake pools of one ledger, as each upstream tells of them, and the ranking of the pools that
are delegated to. -/
namespace WalletBackend.Providers
open Interaction Containers CursorPaging
open Blockfrost (isPoolIdBech32 PoolMetaFields PoolRow PoolExtendedRow PoolRetireRow)

/-- A pool, the hashes of its certificates, and its saturation as a percentage and as a fraction. -/
structure LedgerPool where
  poolId : String
  poolIdHex : String
  status : PoolStatus
  retiringEpoch : Option Nat
  registration : List String
  retirement : List String
  margin : ℚ
  fixedCost : Nat
  pledge : Nat
  livePledge : Nat
  /-- None before the first snapshot. -/
  activeStake : Option Nat
  liveStake : Nat
  percentage : Float
  fraction : ℚ
  liveDelegators : Nat
  blocksMinted : Nat
  metadata : Option PoolMetadata
  valid : isPoolIdBech32 poolId = true
  announced : status = .retiring → retiringEpoch.isSome

namespace LedgerPool

variable (pool : LedgerPool)

def stake : Nat := pool.activeStake.getD 0

/-- The epoch of a retirement that is still to come. -/
def scheduled : Option Nat := if pool.status = .retiring then pool.retiringEpoch else none

/-- Metadata without a field is not published. -/
def published : Option PoolMetadata :=
  pool.metadata.bind fun metadata =>
    if metadata = ⟨none, none, none, none⟩ then none else some metadata

/-- What a wallet is told, but for what each driver makes of the lifecycle, the saturation and the
metadata. -/
def info (status : PoolStatus) (retiringEpoch : Option Nat) (saturation : ℚ)
    (metadata : Option PoolMetadata) : PoolInfo where
  poolId := pool.poolId
  poolIdHex := pool.poolIdHex
  status
  retiringEpoch
  margin := pool.margin
  fixedCost := toString pool.fixedCost
  pledge := toString pool.pledge
  livePledge := toString pool.livePledge
  activeStake := toString pool.stake
  liveStake := toString pool.liveStake
  saturation
  liveDelegators := pool.liveDelegators
  blocksMinted := pool.blocksMinted
  metadata

def koiosInfo : PoolInfo :=
  pool.info pool.status pool.retiringEpoch (Binary64.toRat (pool.percentage / 100)) pool.published

/-- What Blockfrost comes to with the epoch and the metadata that it could read: the lifecycle is
read off the list of retirements and the numbers of certificates. -/
def infoWith (retiringEpoch : Option Nat) (metadata : Option PoolMetadata) : PoolInfo :=
  pool.info
    (if retiringEpoch.isSome then .retiring
      else if pool.registration.length > pool.retirement.length then .registered else .retired)
    retiringEpoch pool.fraction metadata

def blockfrostInfo : PoolInfo := pool.infoWith pool.scheduled pool.published

/-- A pool of which both drivers make the same. -/
structure OneReading : Prop where
  registered : pool.status = .registered →
    pool.retiringEpoch = none ∧ pool.retirement.length < pool.registration.length
  retired : pool.status = .retired →
    pool.retiringEpoch = none ∧ pool.registration.length ≤ pool.retirement.length
  saturation : Binary64.toRat (pool.percentage / 100) = pool.fraction

/-! The rows of Koios. -/

def stakeRow : Koios.PoolStakeRow String := ⟨pool.poolId, pool.activeStake.map decimal⟩

def koiosRow : Koios.Pools.PoolInfoRow where
  pool_id_bech32 := pool.poolId
  pool_id_hex := pool.poolIdHex
  pool_status := pool.status
  retiring_epoch := pool.retiringEpoch
  margin := pool.margin
  fixed_cost := some (decimal pool.fixedCost)
  pledge := some (decimal pool.pledge)
  live_pledge := some (decimal pool.livePledge)
  active_stake := pool.activeStake.map decimal
  live_stake := some (decimal pool.liveStake)
  live_saturation := some pool.percentage
  live_delegators := some pool.liveDelegators
  block_count := some pool.blocksMinted
  meta_json := pool.metadata.map fun metadata =>
    ⟨metadata.name, metadata.ticker, metadata.homepage, metadata.description⟩

/-! The rows of Blockfrost, which knows no missing stake. -/

def metaFields : Option PoolMetaFields :=
  pool.metadata.map fun metadata =>
    ⟨metadata.ticker, metadata.name, metadata.homepage, metadata.description⟩

def blockfrostRow : PoolRow where
  pool_id := pool.poolId
  hex := pool.poolIdHex
  blocks_minted := some pool.blocksMinted
  live_stake := some (decimal pool.liveStake)
  live_saturation := some pool.fraction
  live_delegators := some pool.liveDelegators
  active_stake := some (decimal pool.stake)
  declared_pledge := some (decimal pool.pledge)
  live_pledge := some (decimal pool.livePledge)
  margin_cost := pool.margin
  fixed_cost := some (decimal pool.fixedCost)
  registration := pool.registration
  retirement := pool.retirement
  valid := pool.valid

def extendedRow : PoolExtendedRow :=
  ⟨pool.poolId, some (decimal pool.stake), pool.metaFields, pool.valid⟩

/-- The row of the list of retirements, of a pool that is to retire. -/
def retireRow : Option PoolRetireRow := pool.scheduled.map fun epoch => ⟨pool.poolId, epoch, pool.valid⟩

/-- The ticker has the one in it that is searched for, if any is. -/
def carries (toLowerCase : String → String) (ticker : Option String) : Bool :=
  ticker.all fun needle => (pool.metadata.bind PoolMetadata.ticker).any fun t =>
    (toLowerCase needle).toList <:+: (toLowerCase t).toList

variable {pool}

theorem textOrZero_stake : Koios.Pools.textOrZero (pool.activeStake.map decimal) = toString pool.stake := by
  rw [stake]
  cases pool.activeStake <;> rfl

theorem mapPoolInfo_koiosRow (pool : LedgerPool) :
    Koios.Pools.mapPoolInfo pool.koiosRow = pool.koiosInfo := by
  have metadata : Koios.Pools.mapPoolMetadata pool.koiosRow.meta_json = pool.published := by
    unfold Koios.Pools.mapPoolMetadata koiosRow published
    cases pool.metadata <;> rfl
  unfold Koios.Pools.mapPoolInfo
  rw [metadata]
  simp only [koiosRow, koiosInfo, info, textOrZero_stake]
  rfl

theorem mapPoolMetadata_metaFields (pool : LedgerPool) :
    Blockfrost.Pools.mapPoolMetadata pool.metaFields = pool.published := by
  unfold Blockfrost.Pools.mapPoolMetadata metaFields published
  cases pool.metadata <;> rfl

theorem mapPoolInfo_blockfrostRow (pool : LedgerPool) (metadata : Option PoolMetadata)
    (retiringEpoch : Option Nat) :
    Blockfrost.Pools.mapPoolInfo pool.blockfrostRow metadata retiringEpoch =
      pool.infoWith retiringEpoch metadata := rfl

theorem info_inj {status status' : PoolStatus} {epoch epoch' : Option Nat} {saturation saturation' : ℚ}
    {metadata metadata' : Option PoolMetadata} :
    pool.info status epoch saturation metadata = pool.info status' epoch' saturation' metadata' ↔
      status = status' ∧ epoch = epoch' ∧ saturation = saturation' ∧ metadata = metadata' := by
  simp [info]

theorem scheduled_isSome (pool : LedgerPool) : pool.scheduled.isSome ↔ pool.status = .retiring := by
  rw [scheduled]
  split
  case isTrue retiring => exact iff_of_true (pool.announced retiring) retiring
  case isFalse other => exact iff_of_false Bool.false_ne_true other

theorem infos_agree_iff (pool : LedgerPool) : pool.koiosInfo = pool.blockfrostInfo ↔ pool.OneReading := by
  rw [koiosInfo, blockfrostInfo, infoWith, info_inj]
  simp only [scheduled_isSome]
  rw [scheduled]
  constructor
  · rintro ⟨status, epoch, saturation, -⟩
    refine ⟨fun registered => ?_, fun retired => ?_, saturation⟩
    · simp only [registered, reduceCtorEq, if_false] at status epoch
      exact ⟨epoch, by by_contra fewer; rw [if_neg fewer] at status; cases status⟩
    · simp only [retired, reduceCtorEq, if_false] at status epoch
      exact ⟨epoch, by by_contra more; rw [if_pos (by omega)] at status; cases status⟩
  · rintro ⟨registered, retired, saturation⟩
    cases status : pool.status with
    | registered =>
      obtain ⟨epoch, more⟩ := registered status
      simp [epoch, more, saturation]
    | retiring => simp [saturation]
    | retired =>
      obtain ⟨epoch, fewer⟩ := retired status
      simp [epoch, Nat.not_lt.mpr fewer, saturation]

/-! The order of the ranking: more stake first, then the smaller id. -/

def Before (a b : LedgerPool) : Prop :=
  b.stake < a.stake ∨ (a.stake = b.stake ∧ a.poolId ≤ b.poolId)

instance (a b : LedgerPool) : Decidable (Before a b) :=
  inferInstanceAs (Decidable (_ ∨ (_ ∧ _)))

theorem toBigInt_decimal (n : Nat) : (decimal n).toBigInt = n := by
  simp [Numeric.toBigInt, decimal]

theorem activeStakeOf_stakeRow (pool : LedgerPool) : Koios.Pools.activeStakeOf pool.stakeRow = pool.stake := by
  unfold Koios.Pools.activeStakeOf stakeRow stake
  cases pool.activeStake with
  | none => rfl
  | some n => exact toBigInt_decimal n

theorem before_stakeRow (a b : LedgerPool) :
    (Koios.Pools.byActiveStakeDesc a.stakeRow b.stakeRow != .gt) = decide (Before a b) := by
  rw [Bool.eq_iff_iff, Koios.Pools.byActiveStakeDesc_iff, decide_eq_true_eq, Koios.Pools.Before,
    activeStakeOf_stakeRow, activeStakeOf_stakeRow]
  rfl

theorem byActiveStakeDesc_extendedRow (a b : LedgerPool) :
    Blockfrost.Pools.byActiveStakeDesc a.extendedRow b.extendedRow =
      Koios.Pools.byActiveStakeDesc a.stakeRow b.stakeRow := by
  have stakes (pool : LedgerPool) : Blockfrost.Pools.activeStakeOf pool.extendedRow = pool.stake :=
    toBigInt_decimal pool.stake
  unfold Blockfrost.Pools.byActiveStakeDesc Koios.Pools.byActiveStakeDesc
  rw [stakes, stakes, activeStakeOf_stakeRow, activeStakeOf_stakeRow]
  rfl

end LedgerPool

/-- The pools of a ledger. -/
structure LedgerPools where
  pools : List LedgerPool
  distinct : (pools.map LedgerPool.poolId).Nodup

namespace LedgerPools

variable (ledger : LedgerPools)

def find (id : String) : Option LedgerPool := ledger.pools.find? fun pool => pool.poolId = id

/-- The pools of some ids that are known. -/
def known (ids : List String) : List LedgerPool := ids.filterMap ledger.find

def ranking (pools : List LedgerPool) : List LedgerPool :=
  pools.mergeSort fun a b => decide (LedgerPool.Before a b)

def listed (statuses : List PoolStatus) (toLowerCase : String → String) (ticker : Option String) :
    List LedgerPool :=
  ledger.pools.filter fun pool => decide (pool.status ∈ statuses) && pool.carries toLowerCase ticker

/-- A page of the ranking of those pools. -/
def page (statuses : List PoolStatus) (toLowerCase : String → String) (params : PoolListParams) :
    List LedgerPool :=
  ((ranking (ledger.listed statuses toLowerCase params.ticker)).drop params.offset).take params.limit

end LedgerPools

end WalletBackend.Providers
