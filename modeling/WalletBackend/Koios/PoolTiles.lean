import WalletBackend.Koios.Pools

/-! The pages of the pool list are cut from one ranking. Whatever the detail rows carry, and
in whichever order and chunks they come, each page holds its own slice of the ranking but for
the pools that the lookup does not know. -/
namespace WalletBackend.Koios.Pools
open Interaction Containers CursorPaging

variable {T : Type}

/-- The registered pools, as the upstream lists them. -/
structure PoolRegistry where
  rows : List (PoolStakeRow String)
  ascending : Ascending PoolStakeRow.pool_id_bech32 rows

namespace PoolRegistry

variable (registry : PoolRegistry)

def ranking : List (PoolStakeRow String) := ranked registry.rows

/-- The pages of the list that were answered are cut from the registry. -/
def Lists (trace : List (Exchange T Request.Answer)) : Prop :=
  ∀ t request rows, ⟨t, .list request, .ok rows⟩ ∈ trace →
    rows = (remaining PoolStakeRow.pool_id_bech32 request.after registry.rows).take request.limit

/-- The rankings that a cache hands out are of the registry. -/
def Caches (cache : RankingCache) : Prop :=
  ∀ epoch ranking, cache epoch = some (.ok ranking) → ranking = registry.ranking

end PoolRegistry

section Scan

variable {registry : PoolRegistry} {attempts : ReadAttempts} {cache : RankingCache}
  {trace : List (Exchange T Request.Answer)}

/-- The scan of a registry that stays as it is comes to its ranking. -/
theorem scan_ranking {ticker : Option String} (lists : registry.Lists trace)
    {ranking : List (PoolStakeRow String)} (runs : (scan attempts ticker).Runs trace (.ok ranking)) :
    ranking = registry.ranking := by
  obtain ⟨first, rest, rows, rfl, scanned, -, same⟩ := Async.runs_bind_ok.mp runs
  cases same
  obtain ⟨own, ran, through⟩ := Async.runs_relay _ _ scanned
  have honest : HonestPages (poolList ticker) (fun _ : T => registry.rows) (pages own) := by
    intro page member
    obtain ⟨answer, there, same⟩ := through _ _ _ (mem_of_mem_pages member)
    cases same
    exact lists _ _ _ (List.mem_append_left _ there)
  obtain ⟨read, same, walk⟩ := scan_walk (show 0 < POOL_LIST_PAGE_SIZE by decide) ran honest
  have kept : rows = read := by
    rw [same, List.nil_append]
    exact List.filterMap_some
  rw [kept]
  exact ranked_congr (walk.perm registry.ascending) registry.ascending.keys_nodup

theorem rankedPools_handed {epoch : Nat} {handed : Except Failure (List (PoolStakeRow String))}
    (found : cache epoch = some handed) :
    rankedPools attempts cache none (some epoch) = Async.ofExcept handed := by
  simp only [rankedPools, found]

theorem rankedPools_ranking {ticker : Option String} {epoch : Option Nat} (lists : registry.Lists trace)
    (caches : ticker = none → registry.Caches cache) {ranking : List (PoolStakeRow String)}
    (runs : (rankedPools attempts cache ticker epoch).Runs trace (.ok ranking)) :
    ranking = registry.ranking := by
  unfold rankedPools at runs
  split at runs
  case h_1 epoch =>
    cases handed : cache epoch with
    | none =>
      rw [handed] at runs
      exact scan_ranking lists runs
    | some outcome =>
      rw [handed] at runs
      obtain ⟨-, rfl⟩ := runs
      exact caches rfl epoch ranking handed
  case h_2 => exact scan_ranking lists runs

end Scan

section Hydration

variable {attempts : ReadAttempts} {bodyLimit : Nat} {trace : List (Exchange T Request.Answer)}
  {known : String → Bool}

/-- The details answered are of pools that the lookup knows, and of each that it was asked
about. -/
def Details (known : String → Bool) (trace : List (Exchange T Request.Answer)) : Prop :=
  ∀ t ids rows, ⟨t, .info ids, .ok rows⟩ ∈ trace →
    (∀ row ∈ rows, known row.pool_id_bech32) ∧
    ∀ id ∈ ids, known id → ∃ row ∈ rows, row.pool_id_bech32 = id

theorem batch_runs {ids : List String} {rows : List PoolInfoRow}
    (runs : (batch attempts ids).Runs trace (.ok rows)) : ∃ t, ⟨t, .info ids, .ok rows⟩ ∈ trace := by
  obtain ⟨t, answer, member, rfl⟩ := read_asked runs
  exact ⟨t, member⟩

/-- A row is joined by its own id, and the known ids are those that have one. -/
theorem joinInfos_spec {ids : List String} {rows : List PoolInfoRow}
    (knows : ∀ row ∈ rows, known row.pool_id_bech32)
    (finds : ∀ id ∈ ids, known id → ∃ row ∈ rows, row.pool_id_bech32 = id) :
    (joinInfos ids rows).map PoolInfo.poolId = ids.filter known := by
  unfold joinInfos
  rw [List.map_flatMap]
  induction ids with
  | nil => rfl
  | cons id ids ih =>
    rw [List.flatMap_cons, ih fun other member => finds other (List.mem_cons_of_mem _ member),
      List.filter_cons]
    cases found : (KeyedMap.ofEntries (rows.map fun row => (row.pool_id_bech32, row))).get? id with
    | some row =>
      obtain written | before := KeyedMap.get?_setAll_some found
      · obtain ⟨row', member, same⟩ := List.mem_map.mp written
        cases same
        rw [if_pos (knows _ member)]
        rfl
      · cases before
    | none =>
      have unknown : ¬ known id := by
        intro told
        obtain ⟨row, member, same⟩ := finds id List.mem_cons_self told
        have written := List.mem_map_of_mem (f := fun row => (row.pool_id_bech32, row)) member
        obtain ⟨other, there⟩ := KeyedMap.get?_setAll_isSome (m := .empty) ⟨_, written, same⟩
        rw [KeyedMap.ofEntries, there] at found
        cases found
      rw [if_neg unknown]
      rfl

theorem poolInfoByIds_ids {ids : List String} {pools : List PoolInfo} (details : Details known trace)
    (runs : (poolInfoByIds attempts bodyLimit ids).Runs trace (.ok pools)) :
    pools.map PoolInfo.poolId = ids.filter known := by
  unfold poolInfoByIds at runs
  split at runs
  case isTrue none =>
    obtain ⟨-, same⟩ := runs
    cases same
    rw [List.length_eq_zero_iff.mp none]
    rfl
  case isFalse =>
    obtain ⟨first, rest, rows, rfl, all, -, same⟩ := Async.runs_bind_ok.mp runs
    cases same
    refine joinInfos_spec (fun row member => ?_) fun id member told => ?_
    · obtain ⟨chunk, part, inside, -, there, sub, ran⟩ := batchAll_row all member
      obtain ⟨t, answered⟩ := batch_runs ran
      exact (details t chunk part (List.mem_append_left _ (sub.subset answered))).1 row there
    · obtain ⟨chunk, part, inside, asked, sub, within, ran⟩ := batchAll_item all member
      obtain ⟨t, answered⟩ := batch_runs ran
      obtain ⟨row, there, same⟩ :=
        (details t chunk part (List.mem_append_left _ (within.subset answered))).2 id asked told
      exact ⟨row, sub there, same⟩

end Hydration

section Page

/-- `BigInt(value)` of a string of digits. -/
def bigInt (value : String) : Nat := Nat.ofDigitChars 10 value.toList 0

/-- What is exposed of a pool, of the parts that the ranking is about. -/
def exposed (pool : PoolInfo) : String × String := (pool.poolId, pool.activeStake)

/-- What a row of the ranking says. -/
def standing (row : PoolStakeRow String) : String × String :=
  (row.pool_id_bech32, textOrZero row.active_stake)

theorem bigInt_textOrZero (row : PoolStakeRow String) :
    bigInt (textOrZero row.active_stake) = activeStakeOf row := by
  unfold activeStakeOf textOrZero bigInt
  cases row.active_stake with
  | none => rfl
  | some stake =>
    cases stake with
    | digits s _ => rfl
    | number n _ => simp [Numeric.text, Numeric.toBigInt]

theorem withRankedStake_exposed {page : List (PoolStakeRow String)}
    (distinct : (page.map PoolStakeRow.pool_id_bech32).Nodup) {row : PoolStakeRow String}
    (member : row ∈ page) {pool : PoolInfo} (same : pool.poolId = row.pool_id_bech32) :
    exposed (withRankedStake page pool) = standing row := by
  have stake : (KeyedMap.ofEntries (page.map standing)).get? row.pool_id_bech32 =
      some (textOrZero row.active_stake) := by
    refine KeyedMap.get?_setAll_of_tells ⟨_, List.mem_map_of_mem member, rfl⟩ ?_
    intro entry there key
    obtain ⟨other, inside, rfl⟩ := List.mem_map.mp there
    obtain rfl := List.inj_on_of_nodup_map distinct inside member key
    rfl
  simp only [exposed, withRankedStake, same]
  exact congrArg (fun found : Option String => (row.pool_id_bech32, found.getD pool.activeStake)) stake

/-- Pools that were found for some rows of a page, as they are exposed. -/
theorem exposed_part {page part : List (PoolStakeRow String)} {pools : List PoolInfo}
    (distinct : (page.map PoolStakeRow.pool_id_bech32).Nodup) (inside : part ⊆ page)
    (ids : pools.map PoolInfo.poolId = part.map PoolStakeRow.pool_id_bech32) :
    (pools.map (withRankedStake page)).map exposed = part.map standing := by
  induction part generalizing pools with
  | nil =>
    rw [List.map_eq_nil_iff.mp ids]
    rfl
  | cons row part ih =>
    obtain ⟨pool, rest, rfl, same, later⟩ := List.map_eq_cons_iff.mp ids
    obtain ⟨member, inside⟩ := List.cons_subset.mp inside
    rw [List.map_cons, List.map_cons, List.map_cons, withRankedStake_exposed distinct member same,
      ih inside later]

variable {registry : PoolRegistry} {attempts : ReadAttempts} {bodyLimit : Nat} {cache : RankingCache}
  {params : PoolListParams} {epoch : Option Nat} {trace : List (Exchange T Request.Answer)}
  {known : String → Bool}

theorem pageOf_sublist (ranking : List (PoolStakeRow String)) (params : PoolListParams) :
    (pageOf ranking params).Sublist ranking :=
  (List.drop_sublist _ _).trans (List.take_sublist _ _)

theorem PoolRegistry.ranking_nodup (registry : PoolRegistry) :
    (registry.ranking.map PoolStakeRow.pool_id_bech32).Nodup :=
  ((ranked_perm registry.rows).map _).nodup_iff.mpr registry.ascending.keys_nodup

/-- A page is its slice of the ranking, without the pools that the lookup does not know. -/
theorem servePage_exposed (lists : registry.Lists trace)
    (caches : params.ticker = none → registry.Caches cache) (details : Details known trace)
    {pools : List PoolInfo}
    (runs : (servePage attempts bodyLimit cache params epoch).Runs trace (.ok pools)) :
    pools.map exposed =
      ((pageOf registry.ranking params).filter fun row => known row.pool_id_bech32).map standing := by
  obtain ⟨first, rest, ranking, rfl, ordered, tail⟩ := Async.runs_bind_ok.mp runs
  obtain rfl := rankedPools_ranking
    (fun t request rows member => lists t request rows (List.mem_append_left _ member)) caches ordered
  obtain ⟨later, rest, hydrated, rfl, found, -, same⟩ := Async.runs_bind_ok.mp tail
  cases same
  have during : Details known later := fun t asked rows member => details t asked rows (by simp [member])
  have ids := poolInfoByIds_ids during found
  rw [List.filter_map] at ids
  have distinct := ((pageOf_sublist registry.ranking params).map _).nodup registry.ranking_nodup
  exact exposed_part distinct (List.filter_subset_self _) ids

end Page

section Tiles

/-- Consecutive slices make up the front of a list. -/
theorem slices_tile {α : Type} (xs : List α) (limit n : Nat) :
    (List.range n).flatMap (fun k => (xs.take (k * limit + limit)).drop (k * limit)) =
      xs.take (n * limit) := by
  induction n with
  | zero => simp
  | succ n ih =>
    have split := List.take_append_drop (n * limit) (xs.take (n * limit + limit))
    rw [List.take_take, Nat.min_eq_left (Nat.le_add_right _ _)] at split
    rw [List.range_succ, List.flatMap_append, ih, List.flatMap_singleton, split, Nat.succ_mul]

/-- The page of the ranking at a multiple of its limit. -/
def slice (ranking : List (PoolStakeRow String)) (limit : Nat) (ticker : Option String) (k : Nat) :
    List (PoolStakeRow String) :=
  pageOf ranking ⟨limit, k * limit, ticker⟩

/-- Larger stakes come first, and of equal ones the smaller id. -/
def Descending (a b : PoolInfo) : Prop :=
  bigInt b.activeStake < bigInt a.activeStake ∨
    (bigInt a.activeStake = bigInt b.activeStake ∧ a.poolId < b.poolId)

/-- One call for a page, by whichever client, and what it returned. -/
structure PageCall (T : Type) where
  attempts : ReadAttempts
  bodyLimit : Nat
  cache : RankingCache
  epoch : Option Nat
  trace : List (Exchange T Request.Answer)
  pools : List PoolInfo

/-- The call was served from the registry, with details of the pools that were known then. -/
structure PageCall.Serves (call : PageCall T) (registry : PoolRegistry) (known : String → Bool)
    (params : PoolListParams) : Prop where
  runs : (servePage call.attempts call.bodyLimit call.cache params call.epoch).Runs call.trace
    (.ok call.pools)
  lists : registry.Lists call.trace
  caches : params.ticker = none → registry.Caches call.cache
  details : Details known call.trace

/-- The pages tile the ranking. -/
structure Tiling (registry : PoolRegistry) (limit : Nat) (ticker : Option String) (n : Nat)
    (known : Nat → String → Bool) (pages : Nat → List PoolInfo) : Prop where
  registered : registry.ranking.Perm registry.rows
  ordered : registry.ranking.Pairwise Before
  slices : (List.range n).flatMap (slice registry.ranking limit ticker) =
    registry.ranking.take (n * limit)
  shown : ∀ k < n, (pages k).map exposed =
    ((slice registry.ranking limit ticker k).filter fun row => known k row.pool_id_bech32).map standing
  unrepeated : (((List.range n).flatMap pages).map PoolInfo.poolId).Nodup
  descending : ((List.range n).flatMap pages).Pairwise Descending

/-- What is exposed of rows that are ranked is ranked. -/
theorem descending_of_ranked {rows : List (PoolStakeRow String)} {pools : List PoolInfo}
    (shown : pools.map exposed = rows.map standing) (ordered : rows.Pairwise Before)
    (distinct : (rows.map PoolStakeRow.pool_id_bech32).Nodup) : pools.Pairwise Descending := by
  have strict : (rows.map standing).Pairwise fun a b =>
      bigInt b.2 < bigInt a.2 ∨ (bigInt a.2 = bigInt b.2 ∧ a.1 < b.1) := by
    rw [List.pairwise_map]
    refine (ordered.and (List.pairwise_map.mp distinct)).imp fun {a b} both => ?_
    simp only [standing, bigInt_textOrZero]
    exact both.1.imp_right fun tied => ⟨tied.1, lt_of_le_of_ne tied.2 both.2⟩
  rw [← shown, List.pairwise_map] at strict
  exact strict

theorem servePage_tiles (registry : PoolRegistry) (ticker : Option String) (limit n : Nat)
    (known : Nat → String → Bool) (calls : Nat → PageCall T)
    (served : ∀ k < n, (calls k).Serves registry (known k) ⟨limit, k * limit, ticker⟩) :
    Tiling registry limit ticker n known fun k => (calls k).pools := by
  let front := (List.range n).flatMap fun k =>
    (slice registry.ranking limit ticker k).filter fun row => known k row.pool_id_bech32
  have slices : (List.range n).flatMap (slice registry.ranking limit ticker) =
      registry.ranking.take (n * limit) := slices_tile _ limit n
  have shown (k : Nat) (bound : k < n) := servePage_exposed (served k bound).lists
    (served k bound).caches (served k bound).details (served k bound).runs
  have all : ((List.range n).flatMap fun k => (calls k).pools).map exposed = front.map standing := by
    rw [List.map_flatMap, List.map_flatMap]
    exact List.flatMap_congr fun k member => shown k (List.mem_range.mp member)
  have inside : front.Sublist registry.ranking := by
    have part : front.Sublist ((List.range n).flatMap (slice registry.ranking limit ticker)) :=
      List.Sublist.flatMap_right _ fun k _ => List.filter_sublist
    rw [slices] at part
    exact part.trans (List.take_sublist _ _)
  have distinct := (inside.map PoolStakeRow.pool_id_bech32).nodup registry.ranking_nodup
  have ids := congrArg (List.map Prod.fst) all
  rw [List.map_map, List.map_map] at ids
  exact {
    registered := ranked_perm registry.rows
    ordered := ranked_sorted registry.rows
    slices := slices
    shown := shown
    unrepeated := ids ▸ distinct
    descending := descending_of_ranked all ((ranked_sorted registry.rows).sublist inside) distinct }

/-- Two pools, of which one has no stake. -/
def twoPools : PoolRegistry where
  rows := [⟨"pool1a", none⟩, ⟨"pool1b", some (.number 7 (by decide))⟩]
  ascending := List.pairwise_pair.mpr (String.lt_iff_toList_lt.mpr (by decide))

def bareInfo (id : String) : PoolInfoRow where
  pool_id_bech32 := id
  pool_id_hex := ""
  pool_status := .registered
  retiring_epoch := none
  margin := 0
  fixed_cost := none
  pledge := none
  live_pledge := none
  active_stake := some (.number 9 (by decide))
  live_stake := none
  live_saturation := none
  live_delegators := none
  block_count := none
  meta_json := none

/-- The call for a page of one pool, whose details carry another stake. -/
def onePool (row : PoolStakeRow String) : PageCall Unit where
  attempts := .single
  bodyLimit := KOIOS_BODY_LIMIT_BYTES
  cache _ := some (.ok twoPools.ranking)
  epoch := some 500
  trace := [⟨(), .info [row.pool_id_bech32], .ok [bareInfo row.pool_id_bech32]⟩]
  pools := [withRankedStake [row] (mapPoolInfo (bareInfo row.pool_id_bech32))]

theorem onePool_serves {row : PoolStakeRow String} {params : PoolListParams}
    (ticker : params.ticker = none) (page : pageOf twoPools.ranking params = [row])
    (packed : packBySize [row.pool_id_bech32] poolIdsBody KOIOS_BODY_LIMIT_BYTES =
      .ok [[row.pool_id_bech32]]) :
    (onePool row).Serves twoPools (fun _ => true) params where
  runs := by
    have found : (batch .single [row.pool_id_bech32]).Runs (onePool row).trace
        (.ok [bareInfo row.pool_id_bech32]) :=
      ⟨(), _, [], rfl, rfl, rfl⟩
    have joined : joinInfos [row.pool_id_bech32] [bareInfo row.pool_id_bech32] =
        [mapPoolInfo (bareInfo row.pool_id_bech32)] := by
      simp [joinInfos, KeyedMap.ofEntries, bareInfo]
    have hydrated : (poolInfoByIds .single KOIOS_BODY_LIMIT_BYTES [row.pool_id_bech32]).Runs
        (onePool row).trace (.ok [mapPoolInfo (bareInfo row.pool_id_bech32)]) := by
      unfold poolInfoByIds
      rw [if_neg (by simp), ← joined]
      exact Async.runs_bind_ok.mpr ⟨_, [], _, (List.append_nil _).symm,
        batchAll_lone (by simp) packed found, rfl, rfl⟩
    have ordered : (rankedPools .single (onePool row).cache params.ticker (some 500)).Runs
        ([] : List (Exchange Unit Request.Answer)) (.ok twoPools.ranking) := by
      have held : (onePool row).cache 500 = some (.ok twoPools.ranking) := rfl
      rw [ticker, rankedPools_handed held]
      exact ⟨rfl, rfl⟩
    refine Async.runs_bind_ok.mpr ⟨[], (onePool row).trace, twoPools.ranking, rfl, ordered, ?_⟩
    rw [page]
    have exposed : (pure ([mapPoolInfo (bareInfo row.pool_id_bech32)].map (withRankedStake [row])) :
        PoolRead (List PoolInfo)).Runs ([] : List (Exchange Unit Request.Answer))
          (.ok (onePool row).pools) := ⟨rfl, rfl⟩
    have limit : (onePool row).bodyLimit = KOIOS_BODY_LIMIT_BYTES := rfl
    rw [limit]
    exact Async.runs_bind_ok.mpr ⟨(onePool row).trace, [], _, (List.append_nil _).symm, hydrated,
      exposed⟩
  lists := by
    intro t request rows member
    simp [onePool] at member
  caches := by
    intro _ epoch ranking handed
    cases handed
    rfl
  details := by
    intro t ids rows member
    obtain ⟨-, rfl, rfl⟩ : t = () ∧ ids = [row.pool_id_bech32] ∧
        rows = [bareInfo row.pool_id_bech32] := by simpa [onePool] using member
    exact ⟨fun _ _ => rfl, fun id asked _ => ⟨_, List.mem_singleton_self _, (List.mem_singleton.mp asked).symm⟩⟩

/-- Pages of one pool each. -/
theorem servePage_tiles_two : Tiling twoPools 1 none 2 (fun _ _ => true) fun k =>
    (onePool (if k = 0 then ⟨"pool1b", some (.number 7 (by decide))⟩ else ⟨"pool1a", none⟩)).pools := by
  have ranking : twoPools.ranking =
      [⟨"pool1b", some (.number 7 (by decide))⟩, ⟨"pool1a", none⟩] := by
    refine (ranked_congr (List.Perm.swap _ _ []) twoPools.ascending.keys_nodup).symm.trans ?_
    refine List.mergeSort_of_pairwise (List.pairwise_pair.mpr ?_)
    exact byActiveStakeDesc_iff.mpr (.inl (by decide))
  refine servePage_tiles twoPools none 1 2 (fun _ _ => true) (fun k => onePool
    (if k = 0 then ⟨"pool1b", some (.number 7 (by decide))⟩ else ⟨"pool1a", none⟩)) ?_
  intro k bound
  obtain rfl | rfl : k = 0 ∨ k = 1 := by omega
  · exact onePool_serves rfl (by rw [ranking]; rfl) (by decide)
  · exact onePool_serves rfl (by rw [ranking]; rfl) (by decide)

end Tiles

end WalletBackend.Koios.Pools
