import WalletBackend.Providers.PoolReads

/-! The pool reads of the two drivers on one ledger: where what they publish is the same, on a ledger
of three pools with the runs of each driver. -/
namespace WalletBackend.Providers
open Interaction Containers CursorPaging
open Blockfrost (pagesOf runs_getOrUndefined runs_get_ok runs_get_error collectPages_runs)

section Agreement

variable {T : Type} {ledger : LedgerPools}

/-- Two pages are published alike if they are one page, of pools that are read alike. -/
theorem pages_agree_iff {statuses statuses' : List PoolStatus} {toLowerCase : String → String}
    {params : PoolListParams} :
    (ledger.page statuses toLowerCase params).map LedgerPool.koiosInfo =
        (ledger.page statuses' toLowerCase params).map LedgerPool.blockfrostInfo ↔
      ledger.page statuses toLowerCase params = ledger.page statuses' toLowerCase params ∧
        ∀ pool ∈ ledger.page statuses toLowerCase params, pool.OneReading := by
  constructor
  · intro same
    have ids := congrArg (List.map PoolInfo.poolId) same
    rw [List.map_map, List.map_map] at ids
    have page : ledger.page statuses toLowerCase params = ledger.page statuses' toLowerCase params := by
      rw [← @LedgerPools.known_page ledger statuses, ← @LedgerPools.known_page ledger statuses']
      exact congrArg ledger.known ids
    rw [← page] at same
    exact ⟨page, (LedgerPools.infos_alike_iff _).mp same⟩
  · rintro ⟨page, alike⟩
    rw [← page]
    exact (LedgerPools.infos_alike_iff _).mpr alike

/-- Either driver looks up the pools that are known, in the order asked, and pages its ranking: Koios
that of the registered pools, Blockfrost that of the retiring ones as well. An extra that could not
be had costs a pool no more than that. Where none was missed, what they publish is the same exactly
if the pages are, and each pool is one of which both make the same. -/
theorem pools_agree_iff (ledger : LedgerPools) (attempts : Koios.ReadAttempts) (bodyLimit : Nat)
    (toLowerCase : String → String) (trace : List (Exchange T Koios.Pools.Request.Answer))
    (trace' : List (Exchange T Blockfrost.Endpoint.Answer)) (koios : KoiosPools ledger trace)
    (blockfrost : BlockfrostPools ledger trace') (pools pools' : List PoolInfo) :
    (∀ ids,
      (Koios.Pools.getPoolInfo attempts bodyLimit ids).Runs trace (.ok pools) →
      (Blockfrost.Pools.getPoolInfo ids).Runs trace' (.ok pools') →
      (∀ published ∈ [pools, pools'], published.map PoolInfo.poolId =
        ids.filter fun id => (ledger.find id).isSome) ∧
      List.Forall₂ (LedgerPool.Told trace') (ledger.known ids) pools' ∧
      (Enriched trace' → (pools = pools' ↔ ∀ pool ∈ ledger.known ids, pool.OneReading))) ∧
    ∀ params, KoiosLists ledger toLowerCase params.ticker trace →
      (Koios.Pools.servePage attempts bodyLimit (fun _ => none) params none).Runs trace (.ok pools) →
      (Blockfrost.Pools.servePage toLowerCase params).Runs trace' (.ok pools') →
      pools.map PoolInfo.poolId =
        (ledger.page [.registered] toLowerCase params).map LedgerPool.poolId ∧
      List.Forall₂ (LedgerPool.Told trace') (ledger.page [.registered, .retiring] toLowerCase params)
        pools' ∧
      (Enriched trace' → (pools = pools' ↔
        ledger.page [.registered] toLowerCase params =
          ledger.page [.registered, .retiring] toLowerCase params ∧
        ∀ pool ∈ ledger.page [.registered] toLowerCase params, pool.OneReading)) := by
  constructor
  · intro ids runs runs'
    have told := blockfrost.getPoolInfo runs'
    rw [koios.poolInfoByIds runs]
    refine ⟨fun published member => ?_, told, fun enriched => ?_⟩
    · obtain rfl | rfl := List.mem_pair.mp member
      · rw [List.map_map]
        exact LedgerPools.known_ids ids
      · rw [told_ids told, LedgerPools.known_ids]
    · rw [told_whole told enriched]
      exact LedgerPools.infos_alike_iff _
  · intro params lists runs runs'
    have told := blockfrost.servePage runs'
    rw [koios.servePage lists runs, List.map_map]
    refine ⟨rfl, told, fun enriched => ?_⟩
    rw [told_whole told enriched]
    exact pages_agree_iff

end Agreement

section Three

/-! Two registered pools, one of them with metadata, and one that is about to retire. -/

def plainPool : LedgerPool where
  poolId := "pool1a"
  poolIdHex := "ab"
  status := .registered
  retiringEpoch := none
  registration := ["c1"]
  retirement := []
  margin := 0
  fixedCost := 340000000
  pledge := 5
  livePledge := 6
  activeStake := some 7
  liveStake := 7
  percentage := 3
  fraction := Binary64.toRat (3 / 100)
  liveDelegators := 2
  blocksMinted := 0
  metadata := none
  valid := by decide
  announced := nofun

def namedPool : LedgerPool :=
  { plainPool with
    poolId := "pool1b"
    activeStake := some 9
    metadata := some ⟨some "B", some "BB", none, none⟩
    valid := by decide }

def retiringPool : LedgerPool :=
  { plainPool with
    poolId := "pool1c"
    status := .retiring
    retiringEpoch := some 501
    activeStake := some 3
    metadata := some ⟨none, some "CC", none, none⟩
    valid := by decide
    announced := fun _ => rfl }

def threePools : LedgerPools := ⟨[plainPool, namedPool, retiringPool], by decide⟩

theorem mem_threePools {pool : LedgerPool} :
    pool ∈ threePools.pools ↔ pool = plainPool ∨ pool = namedPool ∨ pool = retiringPool := by
  simp [threePools]

def threeStakes : List (Koios.PoolStakeRow String) := [plainPool.stakeRow, namedPool.stakeRow]

def threeRegistry : Koios.Pools.PoolRegistry where
  rows := threeStakes
  ascending := List.pairwise_pair.mpr (String.lt_iff_toList_lt.mpr (by decide))

def servedKoios : (request : Koios.Pools.Request) → request.Answer
  | .list request => .ok ((remaining Koios.PoolStakeRow.pool_id_bech32 request.after
      threeStakes).take request.limit)
  | .info ids => .ok ((threePools.pools.filter (·.poolId ∈ ids)).map LedgerPool.koiosRow)

/-- The list of retirements may be unavailable. -/
def servedBlockfrost (available : Bool) : (endpoint : Blockfrost.Endpoint) → endpoint.Answer
  | .poolsExtended page => .ok (some ((pagesOf Blockfrost.Pools.extendedList).page
      (threePools.pools.map LedgerPool.extendedRow) page))
  | .poolsRetiring page =>
      if available then .ok (some ((pagesOf Blockfrost.Pools.retiringList).page
        retiringPool.retireRow.toList page))
      else .error (.timeout "")
  | .pool id => .ok ((threePools.find id).map LedgerPool.blockfrostRow)
  | .poolMetadata id => .ok ((threePools.find id).bind LedgerPool.metaFields)
  | _ => .ok none

variable {T : Type}

section Served

variable {trace : List (Exchange T Koios.Pools.Request.Answer)}
  (static : Async.Static servedKoios trace)

include static

theorem threePools_koios : KoiosPools threePools trace := by
  intro t ids rows member
  cases static _ member
  refine ⟨fun row there => ?_, fun pool listed asked => ?_⟩
  · obtain ⟨pool, inside, rfl⟩ := List.mem_map.mp there
    exact ⟨pool, (List.mem_filter.mp inside).1, rfl⟩
  · exact List.mem_map_of_mem (List.mem_filter.mpr ⟨listed, decide_eq_true asked⟩)

theorem threePools_lists (toLowerCase : String → String) :
    KoiosLists threePools toLowerCase none trace := by
  refine ⟨threeRegistry, .refl _, fun t request rows _ member => ?_⟩
  cases static _ member
  rfl

theorem getPoolInfo_koios {ids : List String}
    (fits : ∀ id ∈ ids, Koios.Pools.poolIdsBody.Fits Koios.KOIOS_BODY_LIMIT_BYTES id)
    {outcome : Except Failure (List PoolInfo)}
    (runs : (Koios.Pools.getPoolInfo .single Koios.KOIOS_BODY_LIMIT_BYTES ids).Runs trace outcome) :
    ∃ pools, outcome = .ok pools := by
  unfold Koios.Pools.getPoolInfo Koios.Pools.poolInfoByIds at runs
  split at runs
  case isTrue => exact ⟨_, runs.2.symm⟩
  case isFalse =>
    obtain ⟨first, rest, rows, rfl, -, done⟩ | ⟨e, failed, -⟩ := Async.runs_bind.mp runs
    · exact ⟨_, done.2.symm⟩
    · refine absurd (Koios.batchAll_returns fits (fun chunk _ part e' sub ran => ?_) failed) nofun
      obtain ⟨t, answer, _, rfl, -, same⟩ := ran
      cases static _ (sub.subset List.mem_cons_self)
      cases same

theorem scan_koios {outcome : Except Failure (List (Koios.PoolStakeRow String))}
    (runs : (Koios.Pools.scan .single none).Runs trace outcome) : ∃ ranking, outcome = .ok ranking := by
  obtain ⟨first, rest, rows, rfl, -, done⟩ | ⟨e, failed, -⟩ := Async.runs_bind.mp runs
  · exact ⟨_, done.2.symm⟩
  · obtain ⟨t, answer, rest, rfl, tail⟩ := failed
    cases static _ List.mem_cons_self
    have short : threeStakes.length < 1000 := by decide
    cases tail.2

/-- The pools on a page are among those that are delegated to. -/
theorem servePage_koios {params : PoolListParams} (all : params.ticker = none)
    {outcome : Except Failure (List PoolInfo)}
    (runs : (Koios.Pools.servePage .single Koios.KOIOS_BODY_LIMIT_BYTES (fun _ => none) params none).Runs
      trace outcome) : ∃ pools, outcome = .ok pools := by
  unfold Koios.Pools.servePage at runs
  rw [all] at runs
  obtain ⟨first, rest, ranking, rfl, scanned, tail⟩ | ⟨e, failed, -⟩ := Async.runs_bind.mp runs
  · have before := (Async.static_append.mp static).1
    have ranked := (threePools_lists before id).scan (.refl _) scanned
    obtain ⟨_, _, hydrated, rfl, -, done⟩ | ⟨e, failed, -⟩ := Async.runs_bind.mp tail
    · exact ⟨_, done.2.symm⟩
    · refine absurd (getPoolInfo_koios (Async.static_append.mp static).2 (fun id listed => ?_) failed) nofun
      obtain ⟨row, inside, rfl⟩ := List.mem_map.mp listed
      rw [ranked] at inside
      obtain ⟨pool, there, rfl⟩ := List.mem_map.mp ((Koios.Pools.pageOf_sublist _ _).subset inside)
      have member := (List.mem_filter.mp ((LedgerPools.ranking_perm _).subset there)).1
      unfold Koios.BodyBuilder.Fits
      obtain rfl | rfl | rfl := mem_threePools.mp member <;> decide
  · exact absurd (scan_koios (Async.static_append.mp (show Async.Static servedKoios (trace ++ []) by
      rwa [List.append_nil])).1 failed) nofun

end Served

section Served

variable {available : Bool} {trace : List (Exchange T Blockfrost.Endpoint.Answer)}
  (static : Async.Static (servedBlockfrost available) trace)

include static

theorem threePools_blockfrost : BlockfrostPools threePools trace where
  pool t id row member := by
    cases static _ member
    rfl
  metadata pool listed t row member := by
    cases static _ member
    rw [LedgerPools.find_eq_some.mpr ⟨listed, rfl⟩]
    rfl
  retiring := by
    refine ⟨retiringPool.retireRow.toList, by decide, fun t page row member => ?_, fun pool listed => ?_⟩
    · have served := static _ member
      cases available with
      | true =>
        cases served
        rfl
      | false => cases served
    · obtain rfl | rfl | rfl := mem_threePools.mp listed <;> rfl
  extended := by
    refine ⟨threePools.pools, .refl _, fun t page row member => ?_⟩
    cases static _ member
    rfl

theorem threePools_enriched (read : available = true) : Enriched trace := by
  subst read
  constructor
  · rintro ⟨t, page, e, member⟩
    cases static _ member
  · rintro id ⟨t, e, member⟩
    cases static _ member

theorem poolInfoByIds_blockfrost {retiring : KeyedMap String Nat}
    {inlineMetadata : Option (KeyedMap String (Option PoolMetadata))} {ids : List String} {e : Failure} :
    ¬ (Blockfrost.Pools.poolInfoByIds ids retiring inlineMetadata).Runs trace (.error e) := by
  intro runs
  unfold Blockfrost.Pools.poolInfoByIds at runs
  split at runs
  case isTrue => cases runs.2
  case isFalse =>
    obtain ⟨_, _, _, -, -, done⟩ | ⟨e', failed, -⟩ := Async.runs_bind.mp runs
    · cases done.2
    · obtain ⟨i, bound, part, sub, ran⟩ := fanOut_fails failed
      obtain ⟨first, rest, row, rfl, -, continued⟩ | ⟨e'', asked, -⟩ := Async.runs_bind.mp ran
      · cases row with
        | none => cases continued.2
        | some row =>
          dsimp only at continued
          split at continued
          case h_1 => cases continued.2
          case h_2 =>
            obtain ⟨_, _, _, -, -, done⟩ | ⟨_, had, -⟩ := Async.runs_bind.mp continued
            · cases done.2
            · obtain ⟨_, -, same⟩ | ⟨_, _, _, -, -, done⟩ := Async.runs_tryCatch.mp had
              · cases same
              · cases done.2
      · obtain ⟨t, rfl⟩ := runs_getOrUndefined.mp asked
        cases static _ (sub.subset List.mem_cons_self)

theorem getPoolInfo_blockfrost {ids : List String} {outcome : Except Failure (List PoolInfo)}
    (runs : (Blockfrost.Pools.getPoolInfo ids).Runs trace outcome) : ∃ pools, outcome = .ok pools := by
  cases outcome with
  | ok pools => exact ⟨pools, rfl⟩
  | error e =>
    unfold Blockfrost.Pools.getPoolInfo at runs
    split at runs
    case isTrue => cases runs.2
    case isFalse =>
      obtain ⟨first, rest, _, rfl, -, looked⟩ | ⟨e', read, -⟩ := Async.runs_bind.mp runs
      · exact absurd looked (poolInfoByIds_blockfrost (Async.static_append.mp static).2)
      · exact absurd (retiringPools_ok read) nofun

theorem servePage_blockfrost {params : PoolListParams} {outcome : Except Failure (List PoolInfo)}
    (runs : (Blockfrost.Pools.servePage id params).Runs trace outcome) : ∃ pools, outcome = .ok pools := by
  cases outcome with
  | ok pools => exact ⟨pools, rfl⟩
  | error e =>
    obtain ⟨first, rest, _, rfl, -, tail⟩ | ⟨e', scanned, -⟩ := Async.runs_bind.mp runs
    · obtain ⟨_, later, _, rfl, -, tail⟩ | ⟨e', read, -⟩ := Async.runs_bind.mp tail
      · obtain ⟨_, _, _, rfl, -, done⟩ | ⟨e', looked, -⟩ := Async.runs_bind.mp tail
        · cases done.2
        · refine absurd looked (poolInfoByIds_blockfrost (static.sub ?_))
          exact (List.sublist_append_right _ later).trans (List.sublist_append_right first _)
      · exact absurd (retiringPools_ok read) nofun
    · obtain ⟨_, _, _, rfl, -, done⟩ | ⟨e'', walked, -⟩ := Async.runs_bind.mp scanned
      · cases done.2
      · have tells : (pagesOf Blockfrost.Pools.extendedList).Tells
            (threePools.pools.map LedgerPool.extendedRow) trace := by
          intro number part result sub ran
          obtain ⟨t, rfl⟩ := runs_get_ok.mp ran
          cases static _ (sub.subset List.mem_cons_self)
          rfl
        obtain ⟨number, part, _, sub, failed, -⟩ | same := collectPages_runs tells (by decide) walked
        · obtain ⟨t, rfl⟩ | ⟨t, rfl, -⟩ := runs_get_error failed
          · cases static _ (sub.subset List.mem_cons_self)
          · cases static _ (sub.subset List.mem_cons_self)
        · cases same

end Served

theorem ranking_registered : LedgerPools.ranking (threePools.listed [.registered] id none) =
    [namedPool, plainPool] := by
  have perm : [namedPool, plainPool].Perm (threePools.listed [.registered] id none) := .swap ..
  refine (LedgerPools.ranking_unique (LedgerPools.listed_distinct ..) perm ?_).symm
  exact List.pairwise_pair.mpr (.inl (by decide))

theorem ranking_listed : LedgerPools.ranking (threePools.listed [.registered, .retiring] id none) =
    [namedPool, plainPool, retiringPool] := by
  have perm : [namedPool, plainPool, retiringPool].Perm
      (threePools.listed [.registered, .retiring] id none) := .swap ..
  refine (LedgerPools.ranking_unique (LedgerPools.listed_distinct ..) perm ?_).symm
  refine List.pairwise_cons.mpr ⟨fun pool member => .inl ?_, List.pairwise_pair.mpr (.inl (by decide))⟩
  obtain rfl | rfl := List.mem_pair.mp member <;> decide

theorem threePools_page (limit offset : Nat) :
    threePools.page [.registered] id ⟨limit, offset, none⟩ =
        ([namedPool, plainPool].drop offset).take limit ∧
      threePools.page [.registered, .retiring] id ⟨limit, offset, none⟩ =
        ([namedPool, plainPool, retiringPool].drop offset).take limit := by
  rw [LedgerPools.page, LedgerPools.page, ranking_registered, ranking_listed]
  exact ⟨rfl, rfl⟩

/-- Both drivers make the same of each of the three. -/
theorem threePools_oneReading {pool : LedgerPool} (member : pool ∈ threePools.pools) :
    pool.OneReading := by
  obtain rfl | rfl | rfl := mem_threePools.mp member
  · exact ⟨fun _ => ⟨rfl, by decide⟩, nofun, rfl⟩
  · exact ⟨fun _ => ⟨rfl, by decide⟩, nofun, rfl⟩
  · exact ⟨nofun, nofun, rfl⟩

/-- A lookup of four ids, one of them unknown, and the first page of two are the same by both drivers;
from the second pool on the pages differ, even if the list of retirements cannot be read. -/
theorem threePools_agree :
    (∃ (trace : List (Exchange Unit Koios.Pools.Request.Answer))
      (trace' : List (Exchange Unit Blockfrost.Endpoint.Answer)) (pools : List PoolInfo),
      (Koios.Pools.getPoolInfo .single Koios.KOIOS_BODY_LIMIT_BYTES
        ["pool1c", "pool1x", "pool1a", "pool1b"]).Runs trace (.ok pools) ∧
      (Blockfrost.Pools.getPoolInfo ["pool1c", "pool1x", "pool1a", "pool1b"]).Runs trace' (.ok pools) ∧
      pools.map PoolInfo.poolId = ["pool1c", "pool1a", "pool1b"]) ∧
    (∃ (trace : List (Exchange Unit Koios.Pools.Request.Answer))
      (trace' : List (Exchange Unit Blockfrost.Endpoint.Answer)) (pools : List PoolInfo),
      (Koios.Pools.servePage .single Koios.KOIOS_BODY_LIMIT_BYTES (fun _ => none) ⟨2, 0, none⟩ none).Runs
        trace (.ok pools) ∧
      (Blockfrost.Pools.servePage id ⟨2, 0, none⟩).Runs trace' (.ok pools) ∧
      pools.map PoolInfo.poolId = ["pool1b", "pool1a"]) ∧
    ∃ (trace : List (Exchange Unit Koios.Pools.Request.Answer))
      (trace' : List (Exchange Unit Blockfrost.Endpoint.Answer)) (pools pools' : List PoolInfo),
      (Koios.Pools.servePage .single Koios.KOIOS_BODY_LIMIT_BYTES (fun _ => none) ⟨2, 1, none⟩ none).Runs
        trace (.ok pools) ∧
      (Blockfrost.Pools.servePage id ⟨2, 1, none⟩).Runs trace' (.ok pools') ∧
      Async.Static (servedBlockfrost false) trace' ∧
      pools.map PoolInfo.poolId = ["pool1a"] ∧ pools'.map PoolInfo.poolId = ["pool1a", "pool1c"] := by
  have agree {trace : List (Exchange Unit Koios.Pools.Request.Answer)}
      {trace' : List (Exchange Unit Blockfrost.Endpoint.Answer)} {available : Bool}
      (static : Async.Static servedKoios trace)
      (static' : Async.Static (servedBlockfrost available) trace') :=
    pools_agree_iff threePools .single Koios.KOIOS_BODY_LIMIT_BYTES id trace trace'
      (threePools_koios static) (threePools_blockfrost static')
  refine ⟨?_, ?_, ?_⟩
  · obtain ⟨_, trace, static, runs⟩ := Async.exists_gives servedKoios
      (Koios.Pools.getPoolInfo .single Koios.KOIOS_BODY_LIMIT_BYTES
        ["pool1c", "pool1x", "pool1a", "pool1b"])
    obtain ⟨_, trace', static', runs'⟩ := Async.exists_gives (servedBlockfrost true)
      (Blockfrost.Pools.getPoolInfo ["pool1c", "pool1x", "pool1a", "pool1b"])
    obtain ⟨pools, rfl⟩ := getPoolInfo_koios static
      (by unfold Koios.BodyBuilder.Fits; decide) runs
    obtain ⟨pools', rfl⟩ := getPoolInfo_blockfrost static' runs'
    obtain ⟨ids, -, same⟩ := (agree static static' pools pools').1 _ runs runs'
    have one := (same (threePools_enriched static' rfl)).mpr fun pool member =>
      threePools_oneReading (LedgerPools.known_subset member)
    refine ⟨trace, trace', pools, runs, one ▸ runs', (ids pools List.mem_cons_self).trans ?_⟩
    decide
  · obtain ⟨_, trace, static, runs⟩ := Async.exists_gives servedKoios
      (Koios.Pools.servePage .single Koios.KOIOS_BODY_LIMIT_BYTES (fun _ => none) ⟨2, 0, none⟩ none)
    obtain ⟨_, trace', static', runs'⟩ := Async.exists_gives (servedBlockfrost true)
      (Blockfrost.Pools.servePage id ⟨2, 0, none⟩)
    obtain ⟨pools, rfl⟩ := servePage_koios static rfl runs
    obtain ⟨pools', rfl⟩ := servePage_blockfrost static' runs'
    obtain ⟨ids, -, same⟩ := (agree static static' pools pools').2 ⟨2, 0, none⟩
      (threePools_lists static id) runs runs'
    have one := (same (threePools_enriched static' rfl)).mpr
      ⟨(threePools_page 2 0).1.trans (threePools_page 2 0).2.symm,
        fun pool member => threePools_oneReading (LedgerPools.page_subset member)⟩
    refine ⟨trace, trace', pools, runs, one ▸ runs', ids.trans ?_⟩
    rw [(threePools_page 2 0).1]
    rfl
  · obtain ⟨_, trace, static, runs⟩ := Async.exists_gives servedKoios
      (Koios.Pools.servePage .single Koios.KOIOS_BODY_LIMIT_BYTES (fun _ => none) ⟨2, 1, none⟩ none)
    obtain ⟨_, trace', static', runs'⟩ := Async.exists_gives (servedBlockfrost false)
      (Blockfrost.Pools.servePage id ⟨2, 1, none⟩)
    obtain ⟨pools, rfl⟩ := servePage_koios static rfl runs
    obtain ⟨pools', rfl⟩ := servePage_blockfrost static' runs'
    obtain ⟨ids, told, -⟩ := (agree static static' pools pools').2 ⟨2, 1, none⟩
      (threePools_lists static id) runs runs'
    refine ⟨trace, trace', pools, pools', runs, runs', static', ids.trans ?_, (told_ids told).trans ?_⟩
    · rw [(threePools_page 2 1).1]
      rfl
    · rw [(threePools_page 2 1).2]
      rfl

end Three

end WalletBackend.Providers
