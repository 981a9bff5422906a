import WalletBackend.Blockfrost.StaticPages
import WalletBackend.Library.Requests
import WalletBackend.Providers.LedgerPools

/-! What the pool reads of either driver come to on a ledger: the pools that are looked up, and the
page that the driver cuts from its own ranking. -/
namespace WalletBackend.Providers
open Interaction Containers CursorPaging
open Blockfrost (PoolExtendedRow PoolRetireRow pagesOf inReach runs_getOrUndefined runs_get_ok
  runs_get_error collectPages_runs collectPages_whole)

namespace LedgerPools

variable {ledger : LedgerPools} {pool : LedgerPool} {poolId : String}

theorem find_eq_some : ledger.find poolId = some pool ↔ pool ∈ ledger.pools ∧ pool.poolId = poolId := by
  constructor
  · intro found
    exact ⟨List.mem_of_find?_eq_some found, by simpa using List.find?_some found⟩
  · rintro ⟨member, rfl⟩
    obtain ⟨other, found⟩ := Option.isSome_iff_exists.mp (List.find?_isSome.mpr
      ⟨pool, member, decide_eq_true rfl⟩ : (ledger.find pool.poolId).isSome)
    have same : other.poolId = pool.poolId := by simpa using List.find?_some found
    rw [find, found, List.inj_on_of_nodup_map ledger.distinct (List.mem_of_find?_eq_some found) member same]

theorem find_eq_none : ledger.find poolId = none ↔ ∀ pool ∈ ledger.pools, pool.poolId ≠ poolId := by
  simp [find]

variable {statuses : List PoolStatus} {toLowerCase : String → String} {params : PoolListParams}

theorem ranking_perm (pools : List LedgerPool) : (ranking pools).Perm pools := List.mergeSort_perm _ _

theorem ranking_sorted (pools : List LedgerPool) : (ranking pools).Pairwise LedgerPool.Before := by
  have trans (a b c : LedgerPool) (first : LedgerPool.Before a b) (second : LedgerPool.Before b c) :
      LedgerPool.Before a c := by
    obtain more | ⟨same, le⟩ := first
    · left
      obtain more' | ⟨same', -⟩ := second <;> omega
    · obtain more' | ⟨same', le'⟩ := second
      · left
        omega
      · exact .inr ⟨same.trans same', le.trans le'⟩
  have total (a b : LedgerPool) : LedgerPool.Before a b ∨ LedgerPool.Before b a := by
    obtain less | same | more := Nat.lt_trichotomy a.stake b.stake
    · exact .inr (.inl less)
    · exact (le_total a.poolId b.poolId).imp (fun le => .inr ⟨same, le⟩) fun ge => .inr ⟨same.symm, ge⟩
    · exact .inl (.inl more)
  have sorted : (ranking pools).Pairwise fun a b => decide (LedgerPool.Before a b) = true :=
    List.pairwise_mergeSort (fun a b c => by simpa using trans a b c)
      (fun a b => by simpa using total a b) pools
  exact sorted.imp of_decide_eq_true

/-- Pools with distinct ids have one ranking. -/
theorem ranking_unique {pools ordered : List LedgerPool} (distinct : (pools.map LedgerPool.poolId).Nodup)
    (perm : ordered.Perm pools) (sorted : ordered.Pairwise LedgerPool.Before) :
    ordered = ranking pools := by
  refine (perm.trans (ranking_perm pools).symm).eq_of_pairwise ?_ sorted (ranking_sorted pools)
  intro a b left right forth back
  refine List.inj_on_of_nodup_map distinct (perm.subset left) ((ranking_perm pools).subset right) ?_
  obtain more | ⟨same, le⟩ := forth
  · obtain more' | ⟨same', -⟩ := back <;> omega
  · obtain more' | ⟨-, le'⟩ := back
    · omega
    · exact le_antisymm le le'

theorem listed_distinct (statuses : List PoolStatus) (toLowerCase : String → String)
    (ticker : Option String) :
    ((ledger.listed statuses toLowerCase ticker).map LedgerPool.poolId).Nodup :=
  (List.filter_sublist.map _).nodup ledger.distinct

/-- The pools that are searched for are ranked as they are among all. -/
theorem filter_ranking (statuses : List PoolStatus) (toLowerCase : String → String)
    (ticker : Option String) :
    (ranking (ledger.listed statuses id none)).filter (fun pool =>
        pool.carries toLowerCase ticker) =
      ranking (ledger.listed statuses toLowerCase ticker) := by
  have all : (ledger.listed statuses id none).filter (fun pool => pool.carries toLowerCase ticker) =
      ledger.listed statuses toLowerCase ticker := by
    rw [listed, List.filter_filter, listed]
    refine List.filter_congr fun pool _ => ?_
    rw [Bool.and_comm, LedgerPool.carries, Option.all_none, Bool.and_true]
  refine ranking_unique (listed_distinct ..) ?_ ((ranking_sorted _).sublist List.filter_sublist)
  rw [← all]
  exact (ranking_perm _).filter _

theorem page_sublist : (ledger.page statuses toLowerCase params).Sublist
    (ranking (ledger.listed statuses toLowerCase params.ticker)) :=
  (List.take_sublist _ _).trans (List.drop_sublist _ _)

theorem page_subset (member : pool ∈ ledger.page statuses toLowerCase params) : pool ∈ ledger.pools :=
  (List.mem_filter.mp ((ranking_perm _).subset (page_sublist.subset member))).1

theorem page_nodup : ((ledger.page statuses toLowerCase params).map LedgerPool.poolId).Nodup := by
  refine (page_sublist.map _).nodup (((ranking_perm _).map _).nodup_iff.mpr ?_)
  exact listed_distinct ..

theorem known_page :
    ledger.known ((ledger.page statuses toLowerCase params).map LedgerPool.poolId) =
      ledger.page statuses toLowerCase params := by
  rw [known, List.filterMap_map]
  refine (List.filterMap_congr fun pool member => ?_).trans List.filterMap_some
  exact find_eq_some.mpr ⟨page_subset member, rfl⟩

/-- What is written under the ids of a page is found there. -/
theorem get?_page {V : Type} {value : LedgerPool → V}
    (member : pool ∈ ledger.page statuses toLowerCase params) :
    (KeyedMap.ofEntries ((ledger.page statuses toLowerCase params).map fun pool =>
      (pool.poolId, value pool))).get? pool.poolId = some (value pool) := by
  refine KeyedMap.get?_setAll_of_tells ⟨_, List.mem_map_of_mem member, rfl⟩ ?_
  intro entry there key
  obtain ⟨other, inside, rfl⟩ := List.mem_map.mp there
  obtain rfl := List.inj_on_of_nodup_map page_nodup inside member key
  rfl

theorem known_ids (ids : List String) :
    (ledger.known ids).map LedgerPool.poolId = ids.filter fun id => (ledger.find id).isSome := by
  rw [known, List.map_filterMap, ← List.filterMap_eq_filter]
  refine List.filterMap_congr fun id _ => ?_
  cases found : ledger.find id with
  | none => simp [Option.guard, found]
  | some pool => simp [Option.guard, found, (find_eq_some.mp found).2]

theorem known_subset {ids : List String} (member : pool ∈ ledger.known ids) : pool ∈ ledger.pools := by
  obtain ⟨id, -, found⟩ := List.mem_filterMap.mp member
  exact (find_eq_some.mp found).1

/-- Pools are published alike by both drivers if each is one of which both make the same. -/
theorem infos_alike_iff (pools : List LedgerPool) :
    pools.map LedgerPool.koiosInfo = pools.map LedgerPool.blockfrostInfo ↔
      ∀ pool ∈ pools, pool.OneReading :=
  List.map_inj_left.trans (forall₂_congr fun pool _ => pool.infos_agree_iff)

end LedgerPools

section Koios

variable {T : Type} {ledger : LedgerPools} {trace : List (Exchange T Koios.Pools.Request.Answer)}
  {attempts : Koios.ReadAttempts} {bodyLimit : Nat}

/-- Koios tells of the pools of the ledger that it is asked about. Any request may fail. -/
def KoiosPools (ledger : LedgerPools) (trace : List (Exchange T Koios.Pools.Request.Answer)) : Prop :=
  ∀ t ids rows, ⟨t, .info ids, .ok rows⟩ ∈ trace →
    (∀ row ∈ rows, ∃ pool ∈ ledger.pools, row = pool.koiosRow) ∧
    ∀ pool ∈ ledger.pools, pool.poolId ∈ ids → pool.koiosRow ∈ rows

theorem KoiosPools.sub {part : List (Exchange T Koios.Pools.Request.Answer)}
    (koios : KoiosPools ledger trace) (sub : part.Sublist trace) : KoiosPools ledger part :=
  fun t ids rows member => koios t ids rows (sub.subset member)

/-- Koios lists the registered pools of the ledger, in the order of their ids: those whose ticker
has the one in it that is searched for. -/
def KoiosLists (ledger : LedgerPools) (toLowerCase : String → String) (ticker : Option String)
    (trace : List (Exchange T Koios.Pools.Request.Answer)) : Prop :=
  ∃ registry : Koios.Pools.PoolRegistry,
    registry.rows.Perm ((ledger.listed [.registered] toLowerCase ticker).map LedgerPool.stakeRow) ∧
    ∀ t request rows, request.path = (@Koios.poolList String ticker).path →
      ⟨t, .list request, .ok rows⟩ ∈ trace →
        rows = (remaining Koios.PoolStakeRow.pool_id_bech32 request.after registry.rows).take
          request.limit

theorem joinInfos_rows {ids : List String} {rows : List Koios.Pools.PoolInfoRow}
    (told : ∀ row ∈ rows, ∃ pool ∈ ledger.pools, row = pool.koiosRow)
    (complete : ∀ pool ∈ ledger.pools, pool.poolId ∈ ids → pool.koiosRow ∈ rows) :
    Koios.Pools.joinInfos ids rows = (ledger.known ids).map LedgerPool.koiosInfo := by
  unfold Koios.Pools.joinInfos LedgerPools.known
  rw [List.map_filterMap, List.filterMap_eq_flatMap_toList]
  refine List.flatMap_congr fun id asked => ?_
  cases knows : ledger.find id with
  | none =>
    cases found : (KeyedMap.ofEntries
        (rows.map fun row => (row.pool_id_bech32, row))).get? id with
    | none => rfl
    | some row =>
      obtain written | before := KeyedMap.get?_setAll_some found
      · obtain ⟨row', member, same⟩ := List.mem_map.mp written
        obtain ⟨pool, there, rfl⟩ := told row' member
        exact absurd (congrArg Prod.fst same) (LedgerPools.find_eq_none.mp knows pool there)
      · cases before
  | some pool =>
    obtain ⟨member, rfl⟩ := LedgerPools.find_eq_some.mp knows
    have found : (KeyedMap.ofEntries (rows.map fun row => (row.pool_id_bech32, row))).get? pool.poolId =
        some pool.koiosRow := by
      refine KeyedMap.get?_setAll_of_tells
        ⟨_, List.mem_map_of_mem (complete pool member asked), rfl⟩ ?_
      intro entry there key
      obtain ⟨row, inside, rfl⟩ := List.mem_map.mp there
      obtain ⟨other, there', rfl⟩ := told row inside
      rw [List.inj_on_of_nodup_map ledger.distinct there' member key]
    simp only [found, Option.map_some, Option.toList_some, LedgerPool.mapPoolInfo_koiosRow]

theorem KoiosPools.poolInfoByIds (koios : KoiosPools ledger trace) {ids : List String}
    {pools : List PoolInfo}
    (runs : (Koios.Pools.poolInfoByIds attempts bodyLimit ids).Runs trace (.ok pools)) :
    pools = (ledger.known ids).map LedgerPool.koiosInfo := by
  unfold Koios.Pools.poolInfoByIds at runs
  split at runs
  case isTrue none =>
    obtain ⟨-, same⟩ := runs
    cases same
    rw [List.length_eq_zero_iff.mp none]
    rfl
  case isFalse =>
    obtain ⟨first, rest, rows, rfl, all, -, same⟩ := Async.runs_bind_ok.mp runs
    cases same
    have before := koios.sub (List.sublist_append_left first rest)
    refine joinInfos_rows (fun row member => ?_) fun pool member asked => ?_
    · obtain ⟨chunk, part, inside, -, there, sub, ran⟩ := Koios.batchAll_row all member
      obtain ⟨t, answered⟩ := Koios.Pools.batch_runs ran
      exact (before t chunk part (sub.subset answered)).1 row there
    · obtain ⟨chunk, part, inside, asked, sub, within, ran⟩ := Koios.batchAll_item all asked
      obtain ⟨t, answered⟩ := Koios.Pools.batch_runs ran
      exact sub ((before t chunk part (within.subset answered)).2 pool member asked)

/-- A scan asks for pages of its own list. -/
theorem asks_scan {Row Id Out : Type} {list : Koios.ScannedList Row Id Out} {needed : Option Nat}
    {more : Nat} {after : Option Id} {found : List Out} :
    (list.scan attempts needed more after found).Asks fun request => request.path = list.path := by
  have rows {limit : Nat} {after : Option Id} :
      (Koios.getRows attempts ⟨list.path, limit, after⟩ : Koios.ListRead Row Id (List Row)).Asks
        fun request => request.path = list.path := by
    rw [Koios.getRows, Koios.read, Koios.readAgain_eq]
    refine Async.asks_retrying (Async.asks_bind ?_ fun _ => Async.asks_settled _) _
    exact ⟨rfl, fun _ => trivial⟩
  induction more generalizing after found with
  | zero =>
    refine Async.asks_bind rows fun probe => ?_
    split <;> exact Async.asks_settled _
  | succ more ih =>
    refine Async.asks_bind rows fun rows => ?_
    dsimp only
    split
    · exact Async.asks_settled _
    · split
      · exact Async.asks_settled _
      · split
        · exact Async.asks_settled _
        · exact ih

/-- A request for the list that a search for a ticker scans. -/
def Searches (ticker : Option String) : Koios.Pools.Request → Prop
  | .list request => request.path = (@Koios.poolList String ticker).path
  | .info _ => True

theorem ranked_stakeRows (pools : List LedgerPool) :
    Koios.Pools.ranked (pools.map LedgerPool.stakeRow) =
      (LedgerPools.ranking pools).map LedgerPool.stakeRow :=
  (List.map_mergeSort fun a _ b _ => (LedgerPool.before_stakeRow a b).symm).symm

variable {toLowerCase : String → String} {ticker : Option String}

theorem KoiosLists.scan (lists : KoiosLists ledger toLowerCase ticker trace)
    {part : List (Exchange T Koios.Pools.Request.Answer)} (sub : part.Sublist trace)
    {ranking : List (Koios.PoolStakeRow String)}
    (runs : (Koios.Pools.scan attempts ticker).Runs part (.ok ranking)) :
    ranking = (LedgerPools.ranking (ledger.listed [.registered] toLowerCase ticker)).map
      LedgerPool.stakeRow := by
  obtain ⟨registry, perm, serves⟩ := lists
  have asks : (Koios.Pools.scan attempts ticker).Asks (Searches ticker) :=
    Async.asks_bind (Async.asks_relay asks_scan) fun _ => Async.asks_settled _
  have listed : registry.Lists part := fun t request rows member =>
    serves t request rows (asks.only runs _ member) (sub.subset member)
  have distinct : (((ledger.listed [.registered] toLowerCase ticker).map LedgerPool.stakeRow).map
      Koios.PoolStakeRow.pool_id_bech32).Nodup := by
    rw [List.map_map]
    exact (List.filter_sublist.map _).nodup ledger.distinct
  rw [Koios.Pools.scan_ranking listed runs, Koios.Pools.PoolRegistry.ranking,
    Koios.Pools.ranked_congr perm distinct, ranked_stakeRows]

variable {params : PoolListParams}

theorem pageOf_stakeRows (pools : List LedgerPool) :
    Koios.Pools.pageOf (pools.map LedgerPool.stakeRow) params =
      ((pools.drop params.offset).take params.limit).map LedgerPool.stakeRow := by
  rw [Koios.Pools.pageOf, ← List.map_take, ← List.map_drop, List.drop_take, Nat.add_sub_cancel_left]

/-- The stake of the ranking is the one that the lookup tells. -/
theorem withRankedStake_koiosInfo {pool : LedgerPool} {statuses : List PoolStatus}
    (member : pool ∈ ledger.page statuses toLowerCase params) :
    Koios.Pools.withRankedStake ((ledger.page statuses toLowerCase params).map LedgerPool.stakeRow)
      pool.koiosInfo = pool.koiosInfo := by
  have stakes : ((ledger.page statuses toLowerCase params).map LedgerPool.stakeRow).map
      (fun row => (row.pool_id_bech32, Koios.Pools.textOrZero row.active_stake)) =
        (ledger.page statuses toLowerCase params).map fun pool => (pool.poolId, toString pool.stake) := by
    rw [List.map_map]
    exact List.map_congr_left fun pool _ => congrArg (pool.poolId, ·) LedgerPool.textOrZero_stake
  have found : (KeyedMap.ofEntries ((ledger.page statuses toLowerCase params).map fun pool =>
      (pool.poolId, toString pool.stake))).get? pool.koiosInfo.poolId = some (toString pool.stake) :=
    LedgerPools.get?_page member
  simp only [Koios.Pools.withRankedStake, stakes, found]
  rfl

theorem KoiosPools.servePage (koios : KoiosPools ledger trace)
    (lists : KoiosLists ledger toLowerCase params.ticker trace) {pools : List PoolInfo}
    (runs : (Koios.Pools.servePage attempts bodyLimit (fun _ => none) params none).Runs trace
      (.ok pools)) :
    pools = (ledger.page [.registered] toLowerCase params).map LedgerPool.koiosInfo := by
  obtain ⟨first, rest, ranking, rfl, ordered, tail⟩ := Async.runs_bind_ok.mp runs
  have scanned : (Koios.Pools.scan attempts params.ticker).Runs first (.ok ranking) := by
    cases ticker : params.ticker <;> simpa only [Koios.Pools.rankedPools, ticker] using ordered
  rw [lists.scan (List.sublist_append_left first rest) scanned, pageOf_stakeRows] at tail
  obtain ⟨details, last, hydrated, rfl, found, done⟩ := Async.runs_bind_ok.mp tail
  cases done.2
  have ids : (ledger.page [.registered] toLowerCase params).map
      (Koios.PoolStakeRow.pool_id_bech32 ∘ LedgerPool.stakeRow) =
        (ledger.page [.registered] toLowerCase params).map LedgerPool.poolId := rfl
  have during := koios.sub ((List.sublist_append_left details last).trans
    (List.sublist_append_right first _))
  rw [List.map_map] at found
  rw [during.poolInfoByIds found, ← LedgerPools.page, ids, LedgerPools.known_page, List.map_map]
  refine List.map_congr_left fun pool member => ?_
  exact withRankedStake_koiosInfo member

end Koios

section Blockfrost

variable {T : Type} {ledger : LedgerPools} {trace part : List (Exchange T Blockfrost.Endpoint.Answer)}

/-- Blockfrost knows the pools of the ledger and their metadata, tells of the retirements that are
to come, and lists the pools that are not retired in some order. Any request may fail. -/
structure BlockfrostPools (ledger : LedgerPools)
    (trace : List (Exchange T Blockfrost.Endpoint.Answer)) : Prop where
  pool : ∀ t id row, ⟨t, .pool id, .ok row⟩ ∈ trace →
    row = (ledger.find id).map LedgerPool.blockfrostRow
  metadata : ∀ pool ∈ ledger.pools, ∀ t row, ⟨t, .poolMetadata pool.poolId, .ok row⟩ ∈ trace →
    row = pool.metaFields
  retiring : ∃ listing : List PoolRetireRow, listing.length ≤ inReach ∧
    (∀ t page row, ⟨t, .poolsRetiring page, .ok row⟩ ∈ trace →
      row = some ((pagesOf Blockfrost.Pools.retiringList).page listing page)) ∧
    ∀ pool ∈ ledger.pools, lastOf PoolRetireRow.pool_id listing pool.poolId = pool.retireRow
  extended : ∃ pools : List LedgerPool, pools.Perm (ledger.listed [.registered, .retiring] id none) ∧
    ∀ t page row, ⟨t, .poolsExtended page, .ok row⟩ ∈ trace →
      row = some ((pagesOf Blockfrost.Pools.extendedList).page (pools.map LedgerPool.extendedRow) page)

/-! The list of retirements and the metadata are extras: a read goes on without them. -/

def MissedRetiring (trace : List (Exchange T Blockfrost.Endpoint.Answer)) : Prop :=
  ∃ t page e, ⟨t, .poolsRetiring page, .error e⟩ ∈ trace

def MissedMetadata (trace : List (Exchange T Blockfrost.Endpoint.Answer)) (id : String) : Prop :=
  ∃ t e, ⟨t, .poolMetadata id, .error e⟩ ∈ trace

/-- No extra was missed. -/
def Enriched (trace : List (Exchange T Blockfrost.Endpoint.Answer)) : Prop :=
  ¬ MissedRetiring trace ∧ ∀ id, ¬ MissedMetadata trace id

/-- What is published of a pool, without the extras that were missed. -/
def LedgerPool.Told (trace : List (Exchange T Blockfrost.Endpoint.Answer)) (pool : LedgerPool)
    (published : PoolInfo) : Prop :=
  ∃ retiringEpoch metadata, published = pool.infoWith retiringEpoch metadata ∧
    (retiringEpoch = pool.scheduled ∨ retiringEpoch = none ∧ MissedRetiring trace) ∧
    (metadata = pool.published ∨ metadata = none ∧ MissedMetadata trace pool.poolId)

theorem LedgerPool.Told.poolId {pool : LedgerPool} {published : PoolInfo}
    (told : pool.Told trace published) : published.poolId = pool.poolId := by
  obtain ⟨_, _, rfl, -⟩ := told
  rfl

theorem LedgerPool.Told.whole {pool : LedgerPool} {published : PoolInfo}
    (told : pool.Told trace published) (enriched : Enriched trace) :
    published = pool.blockfrostInfo := by
  obtain ⟨_, _, rfl, rfl | ⟨-, missed⟩, rfl | ⟨-, missed'⟩⟩ := told
  · rfl
  · exact absurd missed' (enriched.2 _)
  · exact absurd missed enriched.1
  · exact absurd missed enriched.1

theorem told_ids {pools : List LedgerPool} {published : List PoolInfo}
    (told : List.Forall₂ (LedgerPool.Told trace) pools published) :
    published.map PoolInfo.poolId = pools.map LedgerPool.poolId := by
  induction told with
  | nil => rfl
  | cons head _ ih => rw [List.map_cons, List.map_cons, head.poolId, ih]

theorem told_whole {pools : List LedgerPool} {published : List PoolInfo}
    (told : List.Forall₂ (LedgerPool.Told trace) pools published) (enriched : Enriched trace) :
    published = pools.map LedgerPool.blockfrostInfo := by
  induction told with
  | nil => rfl
  | cons head _ ih => rw [List.map_cons, head.whole enriched, ih]

/-- The map knows the retirement of each pool that is to retire, or is empty as the list was
missed. -/
def Schedules (ledger : LedgerPools) (trace : List (Exchange T Blockfrost.Endpoint.Answer))
    (retiring : KeyedMap String Nat) : Prop :=
  (∀ pool ∈ ledger.pools, retiring.get? pool.poolId = pool.scheduled) ∨
    retiring = .empty ∧ MissedRetiring trace

theorem BlockfrostPools.retiringPools (blockfrost : BlockfrostPools ledger trace)
    (sub : part.Sublist trace) {retiring : KeyedMap String Nat}
    (runs : Blockfrost.Pools.retiringPools.Runs part (.ok retiring)) :
    Schedules ledger trace retiring := by
  obtain ⟨listing, few, serves, last⟩ := blockfrost.retiring
  have tells : (pagesOf Blockfrost.Pools.retiringList).Tells listing part := by
    intro number inner result inside ran
    obtain ⟨t, rfl⟩ := runs_get_ok.mp ran
    exact Option.some.inj (serves t number _ (sub.subset (inside.subset List.mem_cons_self)))
  obtain ⟨read, ran, same⟩ | ⟨first, rest, e, rfl, failed, recovered⟩ := Async.runs_tryCatch.mp runs
  · obtain ⟨pages, done, rows, rfl, walked, -, made⟩ := Async.runs_bind_ok.mp ran
    cases same
    cases made
    left
    intro pool member
    have found := KeyedMap.get?_setAll_rows .empty PoolRetireRow.pool_id PoolRetireRow.epoch listing
      pool.poolId
    rw [last pool member, KeyedMap.get?_empty, Option.or_none] at found
    rw [collectPages_whole (tells.sub (List.sublist_append_left pages done)) walked]
    refine Eq.trans found ?_
    rw [LedgerPool.retireRow, Option.map_map]
    exact Option.map_id'
  · right
    cases recovered.2
    refine ⟨rfl, ?_⟩
    have before := tells.sub (List.sublist_append_left first rest)
    obtain ⟨pages, done, rows, rfl, -, returned⟩ | ⟨e', walked, -⟩ := Async.runs_bind.mp failed
    · cases returned.2
    · obtain ⟨number, inner, e'', inside, missing, -⟩ | same := collectPages_runs before few walked
      · obtain ⟨t, rfl⟩ | ⟨t, rfl, -⟩ := runs_get_error missing
        · exact ⟨t, number, e'', (inside.trans ((List.sublist_append_left ..).trans sub)).subset
            List.mem_cons_self⟩
        · cases serves t number none ((inside.trans ((List.sublist_append_left ..).trans sub)).subset
            List.mem_cons_self)
      · cases same

theorem retiringPools_ok {outcome : Except Failure (KeyedMap String Nat)}
    (runs : Blockfrost.Pools.retiringPools.Runs part outcome) : ∃ retiring, outcome = .ok retiring := by
  obtain ⟨read, -, same⟩ | ⟨_, _, e, -, -, recovered⟩ := Async.runs_tryCatch.mp runs
  · exact ⟨read, same.symm⟩
  · exact ⟨_, recovered.2.symm⟩

/-- Metadata that came with the list is that of the ledger. -/
def InlineTells (ledger : LedgerPools)
    (inlineMetadata : Option (KeyedMap String (Option PoolMetadata))) : Prop :=
  ∀ pool ∈ ledger.pools, ∀ known, inlineMetadata.bind (·.get? pool.poolId) = some known →
    known = pool.published

theorem BlockfrostPools.poolMetadata (blockfrost : BlockfrostPools ledger trace) {pool : LedgerPool}
    (member : pool ∈ ledger.pools) (sub : part.Sublist trace) {metadata : Option PoolMetadata}
    (runs : (Blockfrost.Pools.poolMetadata pool.poolId).Runs part (.ok metadata)) :
    metadata = pool.published ∨ metadata = none ∧ MissedMetadata trace pool.poolId := by
  obtain ⟨found, ran, same⟩ | ⟨first, rest, e, rfl, failed, recovered⟩ := Async.runs_tryCatch.mp runs
  · cases same
    obtain ⟨asked, done, row, rfl, looked, -, made⟩ := Async.runs_bind_ok.mp ran
    cases made
    obtain ⟨t, rfl⟩ := runs_getOrUndefined.mp looked
    rw [blockfrost.metadata pool member t row (sub.subset List.mem_cons_self),
      LedgerPool.mapPoolMetadata_metaFields]
    exact .inl rfl
  · cases recovered.2
    obtain ⟨_, _, _, -, -, returned⟩ | ⟨e', looked, -⟩ := Async.runs_bind.mp failed
    · cases returned.2
    · obtain ⟨t, rfl⟩ := runs_getOrUndefined.mp looked
      exact .inr ⟨rfl, t, e', sub.subset List.mem_cons_self⟩

theorem BlockfrostPools.lookupPool (blockfrost : BlockfrostPools ledger trace)
    {retiring : KeyedMap String Nat} (schedules : Schedules ledger trace retiring)
    {inlineMetadata : Option (KeyedMap String (Option PoolMetadata))}
    (tells : InlineTells ledger inlineMetadata) (sub : part.Sublist trace) {id : String}
    {found : Option PoolInfo}
    (runs : (Blockfrost.Pools.lookupPool retiring inlineMetadata id).Runs part (.ok found)) :
    Option.Rel (LedgerPool.Told trace) (ledger.find id) found := by
  obtain ⟨first, rest, row, rfl, looked, continued⟩ := Async.runs_bind_ok.mp runs
  obtain ⟨t, rfl⟩ := runs_getOrUndefined.mp looked
  have told := blockfrost.pool t id row (sub.subset List.mem_cons_self)
  cases knows : ledger.find id with
  | none =>
    rw [knows] at told
    cases told
    cases continued.2
    exact .none
  | some pool =>
    obtain ⟨member, rfl⟩ := LedgerPools.find_eq_some.mp knows
    rw [knows] at told
    cases told
    dsimp only [Option.map_some] at continued
    have epoch : retiring.get? pool.poolId = pool.scheduled ∨
        retiring.get? pool.poolId = none ∧ MissedRetiring trace := by
      refine schedules.imp (fun knows => knows pool member) ?_
      rintro ⟨rfl, missed⟩
      exact ⟨KeyedMap.get?_empty _, missed⟩
    cases inline : inlineMetadata.bind (·.get? pool.poolId) with
    | some metadata =>
      rw [inline] at continued
      cases continued.2
      exact .some ⟨_, metadata, pool.mapPoolInfo_blockfrostRow metadata _, epoch,
        .inl (tells pool member metadata inline)⟩
    | none =>
      rw [inline] at continued
      obtain ⟨read, done, metadata, rfl, had, -, made⟩ := Async.runs_bind_ok.mp continued
      cases made
      exact .some ⟨_, metadata, pool.mapPoolInfo_blockfrostRow metadata _, epoch,
        blockfrost.poolMetadata member ((List.sublist_append_left read done).trans
          ((List.sublist_append_right _ _).trans sub)) had⟩

theorem BlockfrostPools.poolInfoByIds (blockfrost : BlockfrostPools ledger trace)
    {retiring : KeyedMap String Nat} (schedules : Schedules ledger trace retiring)
    {inlineMetadata : Option (KeyedMap String (Option PoolMetadata))}
    (tells : InlineTells ledger inlineMetadata) (sub : part.Sublist trace) {ids : List String}
    {pools : List PoolInfo}
    (runs : (Blockfrost.Pools.poolInfoByIds ids retiring inlineMetadata).Runs part (.ok pools)) :
    List.Forall₂ (LedgerPool.Told trace) (ledger.known ids) pools := by
  unfold Blockfrost.Pools.poolInfoByIds at runs
  split at runs
  case isTrue none =>
    cases runs.2
    rw [List.isEmpty_iff.mp none]
    exact .nil
  case isFalse =>
    obtain ⟨fanned, done, mapped, rfl, looked, -, made⟩ := Async.runs_bind_ok.mp runs
    cases made
    have each : List.Forall₂ (Option.Rel (LedgerPool.Told trace)) (ids.map ledger.find) mapped := by
      refine List.forall₂_map_left_iff.mpr ((fanOut_each looked).imp ?_)
      rintro id found ⟨-, -, inner, inside, ran⟩
      exact blockfrost.lookupPool schedules tells
        (inside.trans ((List.sublist_append_left fanned done).trans sub)) ran
    have known := forall₂_reduceOption each
    rwa [List.reduceOption, List.filterMap_map] at known

theorem BlockfrostPools.getPoolInfo (blockfrost : BlockfrostPools ledger trace) {ids : List String}
    {pools : List PoolInfo} (runs : (Blockfrost.Pools.getPoolInfo ids).Runs trace (.ok pools)) :
    List.Forall₂ (LedgerPool.Told trace) (ledger.known ids) pools := by
  unfold Blockfrost.Pools.getPoolInfo at runs
  split at runs
  case isTrue none =>
    cases runs.2
    rw [List.isEmpty_iff.mp none]
    exact .nil
  case isFalse =>
    obtain ⟨first, rest, retiring, rfl, read, looked⟩ := Async.runs_bind_ok.mp runs
    have tells : InlineTells ledger none := by
      intro pool _ known told
      cases told
    exact blockfrost.poolInfoByIds (blockfrost.retiringPools (List.sublist_append_left first rest) read)
      tells (List.sublist_append_right first rest) looked

theorem ranked_extendedRows {pools listed : List LedgerPool} (perm : pools.Perm listed)
    (distinct : (listed.map LedgerPool.poolId).Nodup) :
    Blockfrost.Pools.ranked (pools.map LedgerPool.extendedRow) =
      (LedgerPools.ranking listed).map LedgerPool.extendedRow := by
  rw [← LedgerPools.ranking_unique distinct ((LedgerPools.ranking_perm pools).trans perm)
    (LedgerPools.ranking_sorted pools)]
  refine (List.map_mergeSort fun a _ b _ => ?_).symm
  rw [LedgerPool.byActiveStakeDesc_extendedRow, LedgerPool.before_stakeRow]

theorem BlockfrostPools.scan (blockfrost : BlockfrostPools ledger trace) (sub : part.Sublist trace)
    {ranking : List PoolExtendedRow} (runs : Blockfrost.Pools.scan.Runs part (.ok ranking)) :
    ranking = (LedgerPools.ranking (ledger.listed [.registered, .retiring] id none)).map
      LedgerPool.extendedRow := by
  obtain ⟨pools, perm, serves⟩ := blockfrost.extended
  obtain ⟨pages, done, rows, rfl, walked, -, made⟩ := Async.runs_bind_ok.mp runs
  cases made
  have tells : (pagesOf Blockfrost.Pools.extendedList).Tells (pools.map LedgerPool.extendedRow)
      pages := by
    intro number inner result inside ran
    obtain ⟨t, rfl⟩ := runs_get_ok.mp ran
    exact Option.some.inj (serves t number _ ((inside.trans
      ((List.sublist_append_left pages done).trans sub)).subset List.mem_cons_self))
  rw [collectPages_whole tells walked, ranked_extendedRows perm (LedgerPools.listed_distinct ..)]

variable {toLowerCase : String → String} {params : PoolListParams}

/-- The pools that are listed, in the part of their ranking that is asked for. -/
theorem window_extendedRows (statuses : List PoolStatus) :
    Blockfrost.Pools.window toLowerCase
        ((LedgerPools.ranking (ledger.listed statuses id none)).map LedgerPool.extendedRow) params =
      (ledger.page statuses toLowerCase params).map LedgerPool.extendedRow := by
  have searched : Blockfrost.Pools.filtered toLowerCase
      ((LedgerPools.ranking (ledger.listed statuses id none)).map LedgerPool.extendedRow)
        params.ticker =
      (LedgerPools.ranking (ledger.listed statuses toLowerCase params.ticker)).map
        LedgerPool.extendedRow := by
    rw [← LedgerPools.filter_ranking statuses toLowerCase params.ticker]
    cases params.ticker with
    | none => exact congrArg _ (List.filter_eq_self.mpr fun _ _ => rfl).symm
    | some needle =>
      refine (List.filter_map ..).trans (congrArg _ (List.filter_congr fun pool _ => ?_))
      rw [Function.comp, LedgerPool.carries, Option.all_some, LedgerPool.extendedRow,
        LedgerPool.metaFields]
      cases pool.metadata <;> rfl
  rw [Blockfrost.Pools.window, searched, ← List.map_drop, ← List.map_take, LedgerPools.page]

theorem inlineTells_page (statuses : List PoolStatus) :
    InlineTells ledger (some (Blockfrost.Pools.mapOf
      ((ledger.page statuses toLowerCase params).map fun pool => (pool.poolId, pool.published)))) := by
  intro pool member known told
  obtain written | before := KeyedMap.get?_setAll_some told
  · obtain ⟨other, inside, same⟩ := List.mem_map.mp written
    obtain ⟨key, rfl⟩ := Prod.mk.inj same
    rw [List.inj_on_of_nodup_map ledger.distinct (LedgerPools.page_subset inside) member key]
  · cases before

/-- The stake of the ranking is the one that the lookup tells. -/
theorem LedgerPool.Told.ranked {pool : LedgerPool} {published : PoolInfo} {stake : Option String}
    (told : pool.Told trace published) (ranked : stake = some (toString pool.stake)) :
    pool.Told trace { published with activeStake := stake.getD published.activeStake } := by
  obtain ⟨retiringEpoch, metadata, rfl, extras⟩ := told
  rw [ranked]
  exact ⟨retiringEpoch, metadata, rfl, extras⟩

theorem BlockfrostPools.servePage (blockfrost : BlockfrostPools ledger trace) {pools : List PoolInfo}
    (runs : (Blockfrost.Pools.servePage toLowerCase params).Runs trace (.ok pools)) :
    List.Forall₂ (LedgerPool.Told trace) (ledger.page [.registered, .retiring] toLowerCase params)
      pools := by
  obtain ⟨pages, later, ranking, rfl, scanned, tail⟩ := Async.runs_bind_ok.mp runs
  rw [blockfrost.scan (List.sublist_append_left pages later) scanned, Blockfrost.Pools.hydratePage,
    window_extendedRows] at tail
  obtain ⟨first, rest, retiring, rfl, read, tail⟩ := Async.runs_bind_ok.mp tail
  obtain ⟨details, done, hydrated, rfl, found, -, made⟩ := Async.runs_bind_ok.mp tail
  cases made
  have schedules := blockfrost.retiringPools
    ((List.sublist_append_left first _).trans (List.sublist_append_right pages _)) read
  have inline : ((ledger.page [.registered, .retiring] toLowerCase params).map
      LedgerPool.extendedRow).map (fun row => (row.pool_id,
        Blockfrost.Pools.mapPoolMetadata row.metadata)) =
      (ledger.page [.registered, .retiring] toLowerCase params).map fun pool =>
        (pool.poolId, pool.published) := by
    rw [List.map_map]
    exact List.map_congr_left fun pool _ =>
      congrArg (pool.poolId, ·) pool.mapPoolMetadata_metaFields
  have ids : (ledger.page [.registered, .retiring] toLowerCase params).map
      (PoolExtendedRow.pool_id ∘ LedgerPool.extendedRow) =
        (ledger.page [.registered, .retiring] toLowerCase params).map LedgerPool.poolId := rfl
  rw [inline, List.map_map, ids] at found
  have known := blockfrost.poolInfoByIds schedules (inlineTells_page _)
    ((List.sublist_append_left details done).trans
      ((List.sublist_append_right first _).trans (List.sublist_append_right pages _))) found
  rw [LedgerPools.known_page] at known
  rw [List.map_map]
  have listed := (List.forall₂_and_left _ _).mpr ⟨fun pool member => member, known⟩
  refine List.forall₂_map_right_iff.mpr (listed.imp fun pool published both => ?_)
  refine both.2.ranked ?_
  rw [both.2.poolId]
  exact (LedgerPools.get?_page both.1 :
    (KeyedMap.ofEntries ((ledger.page [.registered, .retiring] toLowerCase params).map fun pool =>
      (pool.poolId, toString pool.stake))).get? pool.poolId = some (toString pool.stake))

end Blockfrost

end WalletBackend.Providers
