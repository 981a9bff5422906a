import WalletBackend.Domain.Pools
import WalletBackend.Koios.Reads
import WalletBackend.Koios.RegisteredScans
import WalletBackend.Library.Binary64
import WalletBackend.Library.KeyedJoin
import WalletBackend.Library.StaticRuns
import Mathlib.Data.String.Basic

/-! The stake-pool reads of the Koios `pools.ts`, apart from the cache of pages: the scan
that ranks the registered pools, and the hydration of a page of the ranking. -/
namespace WalletBackend.Koios.Pools
open Interaction Containers

/-- `poolMetaJson`. -/
structure PoolMetaJson where
  name : Option String
  ticker : Option String
  homepage : Option String
  description : Option String

/-- `poolInfoRow`; the saturation is a percentage. -/
structure PoolInfoRow where
  pool_id_bech32 : String
  pool_id_hex : String
  pool_status : PoolStatus
  retiring_epoch : Option Nat
  margin : ℚ
  fixed_cost : Option Numeric
  pledge : Option Numeric
  live_pledge : Option Numeric
  active_stake : Option Numeric
  live_stake : Option Numeric
  live_saturation : Option Float
  live_delegators : Option Nat
  block_count : Option Nat
  meta_json : Option PoolMetaJson

def NO_ACTIVE_STAKE : Nat := 0

def activeStakeOf (row : PoolStakeRow String) : Nat :=
  (row.active_stake.map Numeric.toBigInt).getD NO_ACTIVE_STAKE

/-- Largest active stake first, ties by pool id. -/
def byActiveStakeDesc (a b : PoolStakeRow String) : Ordering :=
  let left := activeStakeOf a
  let right := activeStakeOf b
  if left ≠ right then (if left > right then .lt else .gt)
  else if a.pool_id_bech32 < b.pool_id_bech32 then .lt
  else if a.pool_id_bech32 > b.pool_id_bech32 then .gt
  else .eq

def mapPoolMetadata (m : Option PoolMetaJson) : Option PoolMetadata :=
  m.bind fun m =>
    let md : PoolMetadata :=
      { name := m.name, ticker := m.ticker, homepage := m.homepage, description := m.description }
    if md = ⟨none, none, none, none⟩ then none else some md

/-- `String(value ?? 0)`. -/
def textOrZero (value : Option Numeric) : String := (value.map Numeric.text).getD "0"

def mapPoolInfo (row : PoolInfoRow) : PoolInfo where
  poolId := row.pool_id_bech32
  poolIdHex := row.pool_id_hex
  status := row.pool_status
  retiringEpoch := row.retiring_epoch
  margin := row.margin
  fixedCost := textOrZero row.fixed_cost
  pledge := textOrZero row.pledge
  livePledge := textOrZero row.live_pledge
  activeStake := textOrZero row.active_stake
  liveStake := textOrZero row.live_stake
  saturation := Binary64.toRat (row.live_saturation.getD 0 / 100)
  liveDelegators := row.live_delegators.getD 0
  blocksMinted := row.block_count.getD 0
  metadata := mapPoolMetadata row.meta_json

inductive Request where
  | list (request : ListRequest String)
  | info (poolIds : List String)

abbrev Request.Rows : Request → Type
  | .list _ => List (PoolStakeRow String)
  | .info _ => List PoolInfoRow

abbrev Request.Answer (request : Request) : Type := Except Failure request.Rows

abbrev PoolRead (α : Type) := Async Request.Answer Failure α

/-- `{ _pool_bech32_ids: chunk }`. -/
def poolIdsBody : BodyBuilder String where
  before := "\x7b\"_pool_bech32_ids\":"
  item id := "\"" ++ id ++ "\""
  after := "\x7d"

/-- A ranking that a cache hands out: from its entry, or from a load in flight. -/
abbrev RankingCache := Nat → Option (Except Failure (List (PoolStakeRow String)))

section Program

variable (attempts : ReadAttempts) (bodyLimit : Nat) (cache : RankingCache)

/-- `koios.batch`: fetch, validate and retry. -/
def batch (poolIds : List String) : PoolRead (List PoolInfoRow) :=
  read attempts do Async.ofExcept (← Async.ask (Request.info poolIds))

/-- The rows that were found, in the order of the ids; of two for one id the later. -/
def joinInfos (poolIds : List String) (rows : List PoolInfoRow) : List PoolInfo :=
  let byId : KeyedMap String PoolInfoRow :=
    .ofEntries (rows.map fun row => (row.pool_id_bech32, row))
  poolIds.flatMap fun id =>
    match byId.get? id with
    | some row => [mapPoolInfo row]
    | none => []

def poolInfoByIds (poolIds : List String) : PoolRead (List PoolInfo) :=
  if poolIds.length = 0 then pure []
  else do
    let rows ← batchAll poolIdsBody (batch attempts) bodyLimit poolIds
    pure (joinInfos poolIds rows)

def getPoolInfo (poolIds : List String) : PoolRead (List PoolInfo) :=
  poolInfoByIds attempts bodyLimit poolIds

/-- Stable, like `sort`. -/
def ranked (rows : List (PoolStakeRow String)) : List (PoolStakeRow String) :=
  rows.mergeSort fun a b => byActiveStakeDesc a b != .gt

/-- `registeredPoolStakes`, whose requests go through the client, in the order of stake. -/
def scan (ticker : Option String) : PoolRead (List (PoolStakeRow String)) := do
  let rows ← Async.relay Request.list (fun _ => id) (registeredPoolStakes attempts ticker)
  pure (ranked rows)

def rankedPools (ticker : Option String) (epoch : Option Nat) :
    PoolRead (List (PoolStakeRow String)) :=
  match ticker, epoch with
  | none, some epoch =>
      match cache epoch with
      | some handed => Async.ofExcept handed
      | none => scan attempts none
  | ticker, _ => scan attempts ticker

/-- `slice(offset, offset + limit)`. -/
def pageOf (ranking : List (PoolStakeRow String)) (params : PoolListParams) :
    List (PoolStakeRow String) :=
  (ranking.take (params.offset + params.limit)).drop params.offset

/-- The stake that the ranking used, whatever stake the detail row carries. -/
def withRankedStake (page : List (PoolStakeRow String)) (pool : PoolInfo) : PoolInfo :=
  let rankedStake : KeyedMap String String :=
    .ofEntries (page.map fun row => (row.pool_id_bech32, textOrZero row.active_stake))
  { pool with activeStake := (rankedStake.get? pool.poolId).getD pool.activeStake }

def servePage (params : PoolListParams) (epoch : Option Nat) : PoolRead (List PoolInfo) := do
  let ranking ← rankedPools attempts cache params.ticker epoch
  let page := pageOf ranking params
  let hydrated ← poolInfoByIds attempts bodyLimit (page.map PoolStakeRow.pool_id_bech32)
  pure (hydrated.map (withRankedStake page))

end Program

section Ranking

/-- The order of the ranking. -/
def Before (a b : PoolStakeRow String) : Prop :=
  activeStakeOf b < activeStakeOf a ∨
    (activeStakeOf a = activeStakeOf b ∧ a.pool_id_bech32 ≤ b.pool_id_bech32)

theorem byActiveStakeDesc_iff {a b : PoolStakeRow String} :
    (byActiveStakeDesc a b != .gt) = true ↔ Before a b := by
  unfold byActiveStakeDesc Before
  dsimp only
  split
  case isTrue differ =>
    split
    case isTrue larger => simp [larger]
    case isFalse smaller =>
      refine iff_of_false (by simp) ?_
      omega
  case isFalse same =>
    have same := Decidable.not_not.mp same
    split
    case isTrue less => simp [same, less.le]
    case isFalse atLeast =>
      split
      case isTrue greater => simp [same, greater]
      case isFalse atMost => simp [same, not_lt.mp atMost]

variable {rows listing : List (PoolStakeRow String)}

theorem ranked_perm (rows : List (PoolStakeRow String)) : (ranked rows).Perm rows :=
  List.mergeSort_perm _ _

theorem ranked_sorted (rows : List (PoolStakeRow String)) : (ranked rows).Pairwise Before := by
  have total (a b : PoolStakeRow String) :
      (byActiveStakeDesc a b != .gt || byActiveStakeDesc b a != .gt) = true := by
    rw [Bool.or_eq_true, byActiveStakeDesc_iff, byActiveStakeDesc_iff]
    obtain less | same | more := Nat.lt_trichotomy (activeStakeOf a) (activeStakeOf b)
    · exact .inr (.inl less)
    · obtain le | ge := le_total a.pool_id_bech32 b.pool_id_bech32
      · exact .inl (.inr ⟨same, le⟩)
      · exact .inr (.inr ⟨same.symm, ge⟩)
    · exact .inl (.inl more)
  have trans (a b c : PoolStakeRow String) (first : (byActiveStakeDesc a b != .gt) = true)
      (second : (byActiveStakeDesc b c != .gt) = true) : (byActiveStakeDesc a c != .gt) = true := by
    rw [byActiveStakeDesc_iff] at *
    obtain more | ⟨same, le⟩ := first
    · left
      obtain more' | ⟨same', -⟩ := second <;> omega
    · obtain more' | ⟨same', le'⟩ := second
      · left
        omega
      · exact .inr ⟨same.trans same', le.trans le'⟩
  exact (List.pairwise_mergeSort trans total rows).imp byActiveStakeDesc_iff.mp

/-- Pools with distinct ids have one ranking, in whichever order they are read. -/
theorem ranked_congr (perm : rows.Perm listing)
    (distinct : (listing.map PoolStakeRow.pool_id_bech32).Nodup) : ranked rows = ranked listing := by
  have alike := (ranked_perm rows).trans (perm.trans (ranked_perm listing).symm)
  refine alike.eq_of_pairwise ?_ (ranked_sorted rows) (ranked_sorted listing)
  intro a b left right forth back
  have same_id : a.pool_id_bech32 = b.pool_id_bech32 := by
    unfold Before at forth back
    obtain more | ⟨same, le⟩ := forth
    · omega
    · obtain more | ⟨-, le'⟩ := back
      · omega
      · exact le_antisymm le le'
  exact List.inj_on_of_nodup_map distinct (perm.subset ((ranked_perm rows).subset left))
    ((ranked_perm listing).subset right) same_id

end Ranking

end WalletBackend.Koios.Pools
