import WalletBackend.Prices.Activity

/-! What a batch says of one token depends on what GeckoTerminal says of that token, as long as
no volume of the batch overflows. -/
namespace WalletBackend.Prices.Activity
open Interaction Containers

/-- What GeckoTerminal answers while nothing changes. -/
abbrev Responses := (request : Request) → Option request.Body

def serve {E : Type} (up : Responses) (request : Request) : request.Answer E := .ok (up request)

section Static

variable {E : Type} (view : CacheView) (up : Responses) (subjects : List String)

def chunkOutcomes : List ChunkOutcome :=
  (subjects.toChunks MULTI_TOKEN_BATCH).map fun chunk =>
    readChunk Binary64.ofText chunk (up (.multiTokens chunk))

/-- The pools that the multi-token answers settle. -/
def embeddedPools : KeyedMap String (Option AdaPool) :=
  .ofEntries ((chunkOutcomes up subjects).flatMap ChunkOutcome.writes)

/-- What the fallback finds for a subject. -/
def listedPool (written : KeyedMap String (Option AdaPool)) (subject : String) : Option AdaPool :=
  (view.reread written subject).getD
    (pickMostLiquidAdaPool Binary64.ofText subject ((up (.tokenPools subject)).getD []))

def fetchedPools : KeyedMap String (Option AdaPool) :=
  (embeddedPools up subjects).setAll
    (((chunkOutcomes up subjects).flatMap ChunkOutcome.needsFallback).map fun subject =>
      (subject, listedPool view up (embeddedPools up subjects) subject))

def resolvedPools : KeyedMap String (Option AdaPool) :=
  let cached := subjects.filterMap fun subject => (view.pools subject).map fun pool => (subject, pool)
  let owned := subjects.filter fun subject => (view.pools subject).isNone
  (KeyedMap.ofEntries cached).setAll
    (owned.map fun subject => (subject, ((fetchedPools view up owned).get? subject).join))

/-- The pool that a batch takes for a subject. -/
def poolOf (subject : String) : Option AdaPool := ((resolvedPools view up subjects).get? subject).join

def candlesOf (window : PriceWindow) (subject : String) (pool : AdaPool) : List OhlcvCandle :=
  (view.candles window subject pool.address).getD
    ((up (.ohlcv pool.address .day 1 (windowDays window))).getD []).reverse

/-- The activity of one subject over a window longer than a day. -/
def tradedBy (window : PriceWindow) (subject : String) : Except RangeError (Option TokenActivity) :=
  match poolOf view up subjects subject with
  | none => .ok none
  | some pool => tradedOver (candlesOf view up window subject pool) subject

variable {view up subjects}

theorem gives_getOrNotFound {request : Request}
    (outcome : Except (Thrown E) (Option request.Body)) :
    Async.Gives (serve up) (getOrNotFound request) outcome ↔ outcome = .ok (up request) := by
  rw [getOrNotFound, Async.gives_bind_of fun _ => Async.gives_ask]
  exact Async.gives_ofExcept

theorem gives_fetchChunks {chunks : List (List String)}
    (outcome : Except (Thrown E) (List ChunkOutcome)) :
    Async.Gives (serve up) (fetchChunks chunks) outcome ↔
      outcome = .ok (chunks.map fun chunk =>
        readChunk Binary64.ofText chunk (up (.multiTokens chunk))) := by
  induction chunks generalizing outcome with
  | nil => exact Async.gives_pure
  | cons chunk chunks ih =>
    rw [fetchChunks, Async.gives_bind_of gives_getOrNotFound, Async.gives_bind_of ih]
    exact Async.gives_pure

theorem gives_resolveAdaPool {written : KeyedMap String (Option AdaPool)} {subject : String}
    (outcome : Except (Thrown E) (Option AdaPool)) :
    Async.Gives (serve up) (resolveAdaPool view written subject) outcome ↔
      outcome = .ok (listedPool view up written subject) := by
  unfold resolveAdaPool listedPool
  cases view.reread written subject with
  | some pool => exact Async.gives_pure
  | none =>
    rw [Async.gives_bind_of gives_getOrNotFound]
    exact Async.gives_pure

theorem gives_fetchAdaPools (outcome : Except (Thrown E) (KeyedMap String (Option AdaPool))) :
    Async.Gives (serve up) (fetchAdaPools view subjects) outcome ↔
      outcome = .ok (fetchedPools view up subjects) := by
  rw [fetchAdaPools, Async.gives_bind_of gives_fetchChunks,
    Async.gives_bind_of (gives_promiseAll fun subject _ => gives_resolveAdaPool),
    ← List.map_prod_left_eq_zip]
  exact Async.gives_pure

theorem gives_resolveAdaPoolsBatch
    (outcome : Except (Thrown E) (KeyedMap String (Option AdaPool))) :
    Async.Gives (serve up) (resolveAdaPoolsBatch view subjects) outcome ↔
      outcome = .ok (resolvedPools view up subjects) := by
  have owned (owned : List String) (result : Except (Thrown E) (KeyedMap String (Option AdaPool))) :
      Async.Gives (serve up) (fetchOwned view owned) result ↔
        result = .ok (fetchedPools view up owned) := by
    unfold fetchOwned
    split
    case isTrue none =>
      rw [List.length_eq_zero_iff.mp none]
      exact Async.gives_pure
    case isFalse => exact gives_fetchAdaPools result
  rw [resolveAdaPoolsBatch, Async.gives_bind_of (owned _)]
  exact Async.gives_pure

theorem gives_activityFromCandles {window : PriceWindow} {subject : String}
    (outcome : Except (Thrown E) (Option TokenActivity)) :
    Async.Gives (serve up)
        (activityFromCandles view window subject (poolOf view up subjects subject)) outcome ↔
      outcome = (tradedBy view up subjects window subject).mapError .rangeError := by
  unfold tradedBy
  cases poolOf view up subjects subject with
  | none => exact Async.gives_pure
  | some pool =>
    have candles (result : Except (Thrown E) (List OhlcvCandle)) :
        Async.Gives (serve up) (readCandles view window subject pool) result ↔
          result = .ok (candlesOf view up window subject pool) := by
      unfold readCandles candlesOf
      cases view.candles window subject pool.address with
      | some candles => exact Async.gives_pure
      | none =>
        rw [fetchOhlcv, Async.gives_bind_of gives_getOrNotFound]
        exact Async.gives_pure
    rw [activityFromCandles, Async.gives_bind_of candles]
    exact Async.gives_ofExcept

end Static

/-! ### Answers that tell the same of one subject -/

/-- A pool as two answers tell it, the same if it is one of the subject. -/
structure AlikePool (subject : String) (pool pool' : IncludedPool) : Prop where
  id : pool.id = pool'.id
  base_token : pool.base_token = pool'.base_token
  quote_token : pool.quote_token = pool'.quote_token
  own : pool.base_token = NETWORK ++ "_" ++ subject → pool = pool'

def includedPools (body : Option MultiTokensResponse) : List IncludedPool :=
  (body.bind MultiTokensResponse.included).getD []

def returnedTokens (body : Option MultiTokensResponse) : List MultiTokenEntry :=
  (body.map MultiTokensResponse.data).getD []

/-- Two answers of the multi-token endpoint with the same tokens, and pools that may differ in
their figures but for those of the subject. -/
structure AlikeBody (subject : String) (body body' : Option MultiTokensResponse) : Prop where
  tokens : returnedTokens body = returnedTokens body'
  pools : List.Forall₂ (AlikePool subject) (includedPools body) (includedPools body')

section Alike

variable {subject : String} {pools pools' : List IncludedPool} {body body' : Option MultiTokensResponse}

theorem AlikePool.direct {pool pool' : IncludedPool} (alike : AlikePool subject pool pool') :
    isDirectAdaPool subject pool.toPoolEntry = isDirectAdaPool subject pool'.toPoolEntry := by
  rw [isDirectAdaPool, isDirectAdaPool, alike.base_token, alike.quote_token]

theorem direct_pools_alike (alike : List.Forall₂ (AlikePool subject) pools pools') :
    (pools.map IncludedPool.toPoolEntry).filter (isDirectAdaPool subject) =
      (pools'.map IncludedPool.toPoolEntry).filter (isDirectAdaPool subject) := by
  induction alike with
  | nil => rfl
  | @cons pool pool' pools pools' here rest ih =>
    rw [List.map_cons, List.map_cons, List.filter_cons, List.filter_cons, ih, ← here.direct]
    split
    case isTrue direct =>
      rw [isDirectAdaPool, Bool.and_eq_true, beq_iff_eq] at direct
      rw [here.own direct.1]
    case isFalse => rfl

/-- Only the pools that pair the subject with ADA are looked at. -/
theorem pickMostLiquidAdaPool_filter (subject : String) (pools : List PoolEntry) :
    pickMostLiquidAdaPool Binary64.ofText subject (pools.filter (isDirectAdaPool subject)) =
      pickMostLiquidAdaPool Binary64.ofText subject pools := by
  unfold pickMostLiquidAdaPool
  simp only [List.foldl_filter]
  congr 2
  funext best pool
  cases isDirectAdaPool subject pool <;> rfl

/-- Pools are found alike under their ids. -/
theorem poolsById_alike (alike : List.Forall₂ (AlikePool subject) pools pools')
    {m m' : KeyedMap String IncludedPool}
    (before : ∀ id, Option.Rel (AlikePool subject) (m.get? id) (m'.get? id)) (id : String) :
    Option.Rel (AlikePool subject)
      ((pools.foldl (fun pools pool => pools.set pool.id pool) m).get? id)
      ((pools'.foldl (fun pools pool => pools.set pool.id pool) m').get? id) := by
  induction alike generalizing m m' with
  | nil => exact before id
  | @cons pool pool' pools pools' here rest ih =>
    refine ih fun other => ?_
    rw [KeyedMap.get?_set, KeyedMap.get?_set, ← here.id]
    split
    · exact .some here
    · exact before other

theorem filterMap_alike {find find' : String → Option IncludedPool}
    (alike : ∀ id, Option.Rel (AlikePool subject) (find id) (find' id)) (ids : List String) :
    List.Forall₂ (AlikePool subject) (ids.filterMap find) (ids.filterMap find') := by
  induction ids with
  | nil => exact .nil
  | cons id ids ih =>
    have here := alike id
    cases found : find id with
    | none =>
      cases found' : find' id with
      | none => rwa [List.filterMap_cons_none found, List.filterMap_cons_none found']
      | some pool' =>
        rw [found, found'] at here
        cases here
    | some pool =>
      cases found' : find' id with
      | none =>
        rw [found, found'] at here
        cases here
      | some pool' =>
        rw [found, found'] at here
        cases here with
        | some same =>
          rw [List.filterMap_cons_some found, List.filterMap_cons_some found']
          exact .cons same ih

/-- What the loop over the tokens picks for each. -/
def pickedPools (body : Option MultiTokensResponse) : List (String × Option AdaPool) :=
  let poolsById : KeyedMap String IncludedPool :=
    (includedPools body).foldl (fun pools pool => pools.set pool.id pool) .empty
  (returnedTokens body).map fun token =>
    (token.address.toLower, pickMostLiquidAdaPool Binary64.ofText token.address.toLower
      (((token.top_pools.getD []).filterMap poolsById.get?).map IncludedPool.toPoolEntry))

theorem pickedPools_alike (alike : AlikeBody subject body body') :
    (pickedPools body).filter (fun token => token.1 = subject) =
      (pickedPools body').filter fun token => token.1 = subject := by
  unfold pickedPools
  rw [List.filter_map, List.filter_map, ← alike.tokens]
  refine List.map_congr_left fun token member => ?_
  have own : token.address.toLower = subject := by simpa using (List.mem_filter.mp member).2
  have empty (id : String) : Option.Rel (AlikePool subject)
      ((KeyedMap.empty : KeyedMap String IncludedPool).get? id) (KeyedMap.empty.get? id) := .none
  have found := filterMap_alike (poolsById_alike alike.pools empty) (token.top_pools.getD [])
  rw [own, ← pickMostLiquidAdaPool_filter, direct_pools_alike found, pickMostLiquidAdaPool_filter]

theorem readChunk_writes (chunk : List String) (body : Option MultiTokensResponse) :
    (readChunk Binary64.ofText chunk body).writes =
      (pickedPools body).filter (fun token => token.2.isSome) ++
        (chunk.filter fun subject => !((pickedPools body).map Prod.fst).contains subject).map
          fun subject => (subject, none) := rfl

theorem readChunk_needsFallback (chunk : List String) (body : Option MultiTokensResponse) :
    (readChunk Binary64.ofText chunk body).needsFallback =
      ((pickedPools body).filter fun token => token.2.isNone).map Prod.fst := rfl

/-- What a chunk leads to for the subject is the same. -/
theorem readChunk_alike (chunk : List String) (alike : AlikeBody subject body body') :
    ((readChunk Binary64.ofText chunk body).writes.filter fun write => write.1 = subject) =
        ((readChunk Binary64.ofText chunk body').writes.filter fun write => write.1 = subject) ∧
      ((readChunk Binary64.ofText chunk body).needsFallback.filter fun other => other = subject) =
        (readChunk Binary64.ofText chunk body').needsFallback.filter fun other => other = subject := by
  have picked := pickedPools_alike alike
  have returned : (pickedPools body).map Prod.fst = (pickedPools body').map Prod.fst := by
    unfold pickedPools
    rw [List.map_map, List.map_map, alike.tokens]
    rfl
  constructor
  · rw [readChunk_writes, readChunk_writes, returned, List.filter_append, List.filter_append,
      List.filter_comm, picked, List.filter_comm]
  · rw [readChunk_needsFallback, readChunk_needsFallback, List.filter_map, List.filter_map]
    refine congrArg (List.map Prod.fst) ?_
    calc ((pickedPools body).filter fun token => token.2.isNone).filter fun token => token.1 = subject
      _ = ((pickedPools body).filter fun token => token.1 = subject).filter fun token =>
          token.2.isNone := List.filter_comm _ _ _
      _ = ((pickedPools body').filter fun token => token.1 = subject).filter fun token =>
          token.2.isNone := by rw [picked]
      _ = ((pickedPools body').filter fun token => token.2.isNone).filter fun token =>
          token.1 = subject := List.filter_comm _ _ _

end Alike

def normalized (subjects : List String) : List String := dedupeSubjects (subjects.map String.toLower)

/-- Two sets of answers that tell the same of one subject: all its pools, and the candles of the
pool that the batch takes for it. -/
structure SameFor (view : CacheView) (subjects : List String) (window : PriceWindow)
    (subject : String) (up up' : Responses) : Prop where
  embedded : ∀ chunk, AlikeBody subject (up (.multiTokens chunk)) (up' (.multiTokens chunk))
  listed : up (.tokenPools subject) = up' (.tokenPools subject)
  candles : ∀ pool,
    poolOf view up (normalized subjects) subject = some pool →
    up (.ohlcv pool.address .day 1 (windowDays window)) =
      up' (.ohlcv pool.address .day 1 (windowDays window))

section Same

variable {view : CacheView} {subject : String} {up up' : Responses} {subjects : List String}

theorem chunkOutcomes_alike (subjects : List String)
    (embedded : ∀ chunk, AlikeBody subject (up (.multiTokens chunk)) (up' (.multiTokens chunk))) :
    (((chunkOutcomes up subjects).flatMap ChunkOutcome.writes).filter fun write =>
        write.1 = subject) =
        (((chunkOutcomes up' subjects).flatMap ChunkOutcome.writes).filter fun write =>
          write.1 = subject) ∧
      (((chunkOutcomes up subjects).flatMap ChunkOutcome.needsFallback).filter fun other =>
        other = subject) =
        ((chunkOutcomes up' subjects).flatMap ChunkOutcome.needsFallback).filter fun other =>
          other = subject := by
  unfold chunkOutcomes
  rw [List.filter_flatMap, List.filter_flatMap, List.filter_flatMap, List.filter_flatMap,
    List.flatMap_map, List.flatMap_map, List.flatMap_map, List.flatMap_map]
  constructor
  · refine List.flatMap_congr fun chunk _ => ?_
    exact (readChunk_alike chunk (embedded chunk)).1
  · refine List.flatMap_congr fun chunk _ => ?_
    exact (readChunk_alike chunk (embedded chunk)).2

theorem fetchedPools_alike
    (embedded : ∀ chunk, AlikeBody subject (up (.multiTokens chunk)) (up' (.multiTokens chunk)))
    (listed : up (.tokenPools subject) = up' (.tokenPools subject)) :
    (fetchedPools view up subjects).get? subject = (fetchedPools view up' subjects).get? subject := by
  obtain ⟨writes, needsFallback⟩ := chunkOutcomes_alike subjects embedded
  have written : (embeddedPools up subjects).get? subject =
      (embeddedPools up' subjects).get? subject := KeyedMap.get?_setAll_alike rfl writes
  have same : listedPool view up (embeddedPools up subjects) subject =
      listedPool view up' (embeddedPools up' subjects) subject := by
    unfold listedPool CacheView.reread
    rw [written, listed]
  refine KeyedMap.get?_setAll_alike written ?_
  rw [KeyedMap.filter_entries, KeyedMap.filter_entries, needsFallback, same]

/-- The pool of a subject depends on what is told of the subject. -/
theorem poolOf_alike
    (embedded : ∀ chunk, AlikeBody subject (up (.multiTokens chunk)) (up' (.multiTokens chunk)))
    (listed : up (.tokenPools subject) = up' (.tokenPools subject)) :
    poolOf view up subjects subject = poolOf view up' subjects subject := by
  unfold poolOf resolvedPools
  refine congrArg Option.join (KeyedMap.get?_setAll_alike rfl ?_)
  rw [KeyedMap.filter_entries, KeyedMap.filter_entries, fetchedPools_alike embedded listed]

theorem tradedBy_alike {window : PriceWindow}
    (same : SameFor view subjects window subject up up') :
    tradedBy view up (normalized subjects) window subject =
      tradedBy view up' (normalized subjects) window subject := by
  unfold tradedBy
  rw [← poolOf_alike same.embedded same.listed]
  cases taken : poolOf view up (normalized subjects) subject with
  | none => rfl
  | some pool =>
    have candles := same.candles pool taken
    simp only [candlesOf, candles]

end Same

/-! ### Overflow -/

/-- The change over the candles is finite, but their total volume is not. -/
def Overflows (candles : List OhlcvCandle) : Prop :=
  ∃ oldest newest, candles.head? = some oldest ∧ candles.getLast? = some newest ∧
    (changeBetween oldest newest).isFinite = true ∧ (totalVolume candles).isFinite = false

theorem tradedOver_isOk (candles : List OhlcvCandle) (subject : String) :
    (∃ activity, tradedOver candles subject = .ok activity) ↔ ¬ Overflows candles := by
  unfold tradedOver Overflows
  cases candles.head? with
  | none => simp
  | some oldest =>
    cases candles.getLast? with
    | none => simp
    | some newest =>
      have closing : newest.closing.isFinite = true := newest.finite _ (by simp)
      obtain ⟨priceAda, formatted⟩ := (toDecimalString_isOk newest.closing).mpr closing
      by_cases changed : (changeBetween oldest newest).isFinite = true
      · simp only [changed, if_true, formatted, Bind.bind, Except.bind]
        cases volume : (totalVolume candles).isFinite with
        | true =>
          obtain ⟨volumeAda, told⟩ := (toDecimalString_isOk (totalVolume candles)).mpr volume
          simp [told]
        | false =>
          cases told : toDecimalString (totalVolume candles) with
          | error e => simp [changed]
          | ok volumeAda =>
            have finite := (toDecimalString_isOk (totalVolume candles)).mp ⟨volumeAda, told⟩
            rw [volume] at finite
            cases finite
      · simp [changed]

theorem tradedOver_subject {candles : List OhlcvCandle} {subject : String} {activity : TokenActivity}
    (told : tradedOver candles subject = .ok (some activity)) : activity.subject = subject := by
  unfold tradedOver at told
  split at told
  case h_1 oldest newest _ _ =>
    dsimp only at told
    split at told
    · cases closing : toDecimalString newest.closing with
      | error e =>
        rw [closing] at told
        cases told
      | ok priceAda =>
        cases volume : toDecimalString (totalVolume candles) with
        | error e =>
          rw [closing, volume] at told
          cases told
        | ok volumeAda =>
          rw [closing, volume] at told
          cases told
          rfl
    · cases told
  case h_2 => cases told

theorem activityFromPool_subject {subject : String} {pool : Option AdaPool} {activity : TokenActivity}
    (told : activityFromPool subject pool = some activity) : activity.subject = subject := by
  obtain ⟨pool, rfl, figures⟩ := Option.bind_eq_some_iff.mp told
  split at figures
  · split at figures
    · cases figures
    · dsimp only at figures
      split at figures
      · cases figures
        rfl
      · cases figures
  · cases figures

/-- No subject of a batch has candles whose total volume overflows. -/
def Summed (view : CacheView) (subjects : List String) (window : PriceWindow) (up : Responses) : Prop :=
  ∀ subject ∈ normalized subjects, ∀ pool, poolOf view up (normalized subjects) subject = some pool →
    ¬ Overflows (candlesOf view up window subject pool)

section Isolated

variable {E : Type} {view : CacheView} {subjects : List String} {window : PriceWindow}
  {up up' : Responses} {subject : String}

theorem summed_iff : Summed view subjects window up ↔
    ∀ subject ∈ normalized subjects,
      ∃ activity, tradedBy view up (normalized subjects) window subject = .ok activity := by
  unfold Summed tradedBy
  refine forall₂_congr fun subject _ => ?_
  cases poolOf view up (normalized subjects) subject with
  | none => simp
  | some pool => simp [← tradedOver_isOk _ subject]

/-- Within a batch that returns, no volume overflows. -/
theorem summed_of_returns {items : List TokenActivity} (longer : window ≠ .h24)
    (gives : Async.Gives (serve up) (getTokenActivity view subjects window)
      (.ok items : Except (Thrown E) (List TokenActivity))) : Summed view subjects window up := by
  rw [getTokenActivity, Async.gives_bind_of gives_resolveAdaPoolsBatch, if_neg longer,
    Async.gives_bind] at gives
  obtain ⟨results, together, -⟩ | ⟨e, -, same⟩ := gives
  · rw [summed_iff]
    intro subject member
    obtain ⟨activity, returns⟩ := promiseAll_gives together member
    have same : (.ok activity : Except (Thrown E) (Option TokenActivity)) =
        (tradedBy view up (normalized subjects) window subject).mapError .rangeError :=
      (gives_activityFromCandles _).mp returns
    cases traded : tradedBy view up (normalized subjects) window subject with
    | error e =>
      rw [traded] at same
      cases same
    | ok activity => exact ⟨activity, rfl⟩
  · cases same

/-- What a batch says of one of its subjects. -/
def activityOf (view : CacheView) (subjects : List String) (window : PriceWindow) (up : Responses)
    (subject : String) : Option TokenActivity :=
  if window = .h24 then activityFromPool subject (poolOf view up (normalized subjects) subject)
  else (tradedBy view up (normalized subjects) window subject).toOption.join

theorem gives_getTokenActivity (fits : window = .h24 ∨ Summed view subjects window up)
    (outcome : Except (Thrown E) (List TokenActivity)) :
    Async.Gives (serve up) (getTokenActivity view subjects window) outcome ↔
      outcome = .ok ((normalized subjects).filterMap (activityOf view subjects window up)) := by
  rw [getTokenActivity, Async.gives_bind_of gives_resolveAdaPoolsBatch]
  by_cases day : window = .h24
  · have own : activityOf view subjects window up = fun subject =>
        activityFromPool subject (poolOf view up (normalized subjects) subject) :=
      funext fun subject => if_pos day
    rw [if_pos day, own]
    exact Async.gives_pure
  · rw [if_neg day]
    have summed := summed_iff.mp (fits.resolve_left day)
    have each (subject : String) (member : subject ∈ normalized subjects)
        (result : Except (Thrown E) (Option TokenActivity)) :
        Async.Gives (serve up) (activityFromCandles view window subject
            (poolOf view up (normalized subjects) subject)) result ↔
          result = .ok (activityOf view subjects window up subject) := by
      obtain ⟨activity, traded⟩ := summed subject member
      rw [gives_activityFromCandles, activityOf, if_neg day, traded]
      rfl
    refine (Async.gives_bind_of (gives_promiseAll each)).trans ?_
    rw [Async.gives_pure, List.reduceOption, List.filterMap_map]
    rfl

theorem activityOf_subject {activity : TokenActivity}
    (found : activityOf view subjects window up subject = some activity) :
    activity.subject = subject := by
  unfold activityOf at found
  split at found
  · exact activityFromPool_subject found
  · unfold tradedBy at found
    cases taken : poolOf view up (normalized subjects) subject with
    | none =>
      rw [taken] at found
      cases found
    | some pool =>
      rw [taken] at found
      cases traded : tradedOver (candlesOf view up window subject pool) subject with
      | error e =>
        simp only [traded] at found
        cases found
      | ok told =>
        simp only [traded] at found
        cases told with
        | none => cases found
        | some activity' =>
          cases found
          exact tradedOver_subject traded

/-- Of what a batch returns, what is about the subject. -/
theorem filter_activities :
    (((normalized subjects).filterMap (activityOf view subjects window up)).filter fun activity =>
        activity.subject = subject) =
      ((normalized subjects).filter fun other => other = subject).filterMap fun _ =>
        activityOf view subjects window up subject := by
  rw [List.filter_filterMap, List.filterMap_filter]
  refine List.filterMap_congr fun other _ => ?_
  cases found : activityOf view subjects window up other with
  | none =>
    by_cases same : other = subject
    · simp [← same, found]
    · simp [same]
  | some activity =>
    by_cases same : other = subject
    · simp [← same, found, activityOf_subject found]
    · simp [same, activityOf_subject found]

theorem activityOf_alike (same : SameFor view subjects window subject up up') :
    activityOf view subjects window up subject = activityOf view subjects window up' subject := by
  unfold activityOf
  rw [poolOf_alike same.embedded same.listed, tradedBy_alike same]

/-- Both batches return, and say the same of the subject. -/
def Unspoilt (subject : String) (outcome outcome' : Except (Thrown E) (List TokenActivity)) : Prop :=
  ∃ items items', outcome = .ok items ∧ outcome' = .ok items' ∧
    (items.filter fun activity => activity.subject = subject) =
      items'.filter fun activity => activity.subject = subject

/-- Whatever else the answers tell of other subjects, a batch says the same of a subject exactly
where the window is a day or no total volume overflows. -/
theorem getTokenActivity_isolated_iff (same : SameFor view subjects window subject up up') :
    (∀ outcome outcome' : Except (Thrown E) (List TokenActivity),
      Async.Gives (serve up) (getTokenActivity view subjects window) outcome →
      Async.Gives (serve up') (getTokenActivity view subjects window) outcome' →
      Unspoilt subject outcome outcome') ↔
    window = .h24 ∨ Summed view subjects window up ∧ Summed view subjects window up' := by
  constructor
  · intro isolated
    obtain ⟨outcome, gives⟩ := Async.exists_gives (serve up)
      (getTokenActivity (E := E) view subjects window)
    obtain ⟨outcome', gives'⟩ := Async.exists_gives (serve up')
      (getTokenActivity (E := E) view subjects window)
    obtain ⟨items, items', rfl, rfl, -⟩ := isolated outcome outcome' gives gives'
    by_cases day : window = .h24
    · exact .inl day
    · exact .inr ⟨summed_of_returns day gives, summed_of_returns day gives'⟩
  · rintro fits outcome outcome' gives gives'
    rw [gives_getTokenActivity (fits.imp_right And.left)] at gives
    rw [gives_getTokenActivity (fits.imp_right And.right)] at gives'
    refine ⟨_, _, gives, gives', ?_⟩
    rw [filter_activities, filter_activities, activityOf_alike same]

end Isolated

section Spoiling

def quietSubject : String := String.ofList (List.replicate 56 'a')
def loudSubject : String := String.ofList (List.replicate 56 'b')

/-- The one pool of a subject, with ADA. -/
def soloPool (subject address : String) : IncludedPool where
  id := address
  address := address
  base_token_price_native_currency := "1"
  quote_token_price_usd := "0.5"
  reserve_in_usd := some "1000"
  price_change_percentage_h24 := some "0"
  volume_usd_h24 := some "10"
  base_token := NETWORK ++ "_" ++ subject
  quote_token := NATIVE_TOKEN_ID

theorem one_finite : (1 : Float).isFinite = true := by decide

def flatCandle (volume : Float) (finite : volume.isFinite = true) : OhlcvCandle where
  time := 1
  opening := 1
  high := 1
  low := 1
  closing := 1
  volume := volume
  finite := by simp [one_finite, finite]

def soloPools : MultiTokensResponse where
  data := [⟨quietSubject, some ["quiet"]⟩, ⟨loudSubject, some ["loud"]⟩]
  included := some [soloPool quietSubject "quiet", soloPool loudSubject "loud"]

/-- Two tokens with a pool each, and two candles of the loud one's. -/
def market (volume : Float) (finite : volume.isFinite = true) : Responses
  | .multiTokens _ => some soloPools
  | .tokenPools _ => none
  | .ohlcv poolAddress _ _ _ =>
      if poolAddress = "quiet" then some [flatCandle 1 one_finite]
      else some [flatCandle volume finite, flatCandle volume finite]

theorem market_pools {volume : Float} {finite : volume.isFinite = true} {chunk : List String} :
    market volume finite (.multiTokens chunk) = some soloPools := rfl

theorem market_quiet {volume : Float} {finite : volume.isFinite = true} {timeframe : Timeframe}
    {aggregate limit : Nat} : market volume finite (.ohlcv "quiet" timeframe aggregate limit) =
      some [flatCandle 1 one_finite] := by
  simp [market]

theorem market_loud {volume : Float} {finite : volume.isFinite = true} {timeframe : Timeframe}
    {aggregate limit : Nat} : market volume finite (.ohlcv "loud" timeframe aggregate limit) =
      some [flatCandle volume finite, flatCandle volume finite] := by
  simp [market]

/-- Half of the largest power of two. -/
def loudVolume : Float := 8.98846567431158e307

theorem loudVolume_finite : loudVolume.isFinite = true := by decide +kernel

def loudMarket : Responses := market loudVolume loudVolume_finite
def calmMarket : Responses := market 1 one_finite

def bothSubjects : List String := [quietSubject, loudSubject]

theorem normalized_bothSubjects : normalized bothSubjects = bothSubjects := by decide +kernel

theorem resolvedPools_loud : (resolvedPools noCache loudMarket bothSubjects).entries =
    [(quietSubject, some (toAdaPool (soloPool quietSubject "quiet").toPoolEntry)),
      (loudSubject, some (toAdaPool (soloPool loudSubject "loud").toPoolEntry))] := by
  decide +kernel

theorem markets_same : SameFor noCache bothSubjects .d7 quietSubject loudMarket calmMarket where
  embedded chunk := by
    rw [loudMarket, calmMarket, market_pools, market_pools]
    exact ⟨rfl, List.forall₂_same.mpr fun _ _ => ⟨rfl, rfl, rfl, fun _ => rfl⟩⟩
  listed := by
    rw [loudMarket, calmMarket, market, market]
  candles pool taken := by
    rw [normalized_bothSubjects, poolOf, KeyedMap.get?, resolvedPools_loud] at taken
    obtain rfl : toAdaPool (soloPool quietSubject "quiet").toPoolEntry = pool := by simpa using taken
    exact market_quiet.trans market_quiet.symm

theorem markets_isolated_iff :
    (∀ outcome outcome' : Except (Thrown Unit) (List TokenActivity),
      Async.Gives (serve loudMarket) (getTokenActivity noCache bothSubjects .d7) outcome →
      Async.Gives (serve calmMarket) (getTokenActivity noCache bothSubjects .d7) outcome' →
      Unspoilt quietSubject outcome outcome') ↔
    PriceWindow.d7 = .h24 ∨ Summed noCache bothSubjects .d7 loudMarket ∧
      Summed noCache bothSubjects .d7 calmMarket :=
  getTokenActivity_isolated_iff markets_same

/-- Two candles of the loud token make the batch reject, and with it what it says of the quiet
one. -/
theorem loudMarket_spoils :
    SameFor noCache bothSubjects .d7 quietSubject loudMarket calmMarket ∧
      ¬ ∀ outcome outcome' : Except (Thrown Unit) (List TokenActivity),
        Async.Gives (serve loudMarket) (getTokenActivity noCache bothSubjects .d7) outcome →
        Async.Gives (serve calmMarket) (getTokenActivity noCache bothSubjects .d7) outcome' →
        Unspoilt quietSubject outcome outcome' := by
  refine ⟨markets_same, fun isolated => ?_⟩
  obtain ⟨outcome, gives⟩ := Async.exists_gives (serve loudMarket)
    (getTokenActivity (E := Unit) noCache bothSubjects .d7)
  obtain ⟨outcome', gives'⟩ := Async.exists_gives (serve calmMarket)
    (getTokenActivity (E := Unit) noCache bothSubjects .d7)
  obtain ⟨items, items', rfl, rfl, -⟩ := isolated outcome outcome' gives gives'
  have summed := summed_of_returns (by decide) gives
  have taken : poolOf noCache loudMarket bothSubjects loudSubject =
      some (toAdaPool (soloPool loudSubject "loud").toPoolEntry) := by
    rw [poolOf, KeyedMap.get?, resolvedPools_loud]
    have other : quietSubject ≠ loudSubject := by decide
    simp [other]
  rw [Summed, normalized_bothSubjects] at summed
  have candles : candlesOf noCache loudMarket .d7 loudSubject
      (toAdaPool (soloPool loudSubject "loud").toPoolEntry) =
        [flatCandle loudVolume loudVolume_finite, flatCandle loudVolume loudVolume_finite] := by
    have traded : loudMarket (.ohlcv "loud" .day 1 (windowDays .d7)) =
        some [flatCandle loudVolume loudVolume_finite, flatCandle loudVolume loudVolume_finite] :=
      market_loud
    unfold candlesOf
    show ((loudMarket (.ohlcv "loud" .day 1 (windowDays .d7))).getD []).reverse = _
    rw [traded]
    rfl
  refine summed loudSubject (by simp [bothSubjects]) _ taken ?_
  rw [candles]
  exact ⟨_, _, rfl, rfl, by decide +kernel, by decide +kernel⟩

end Spoiling

end WalletBackend.Prices.Activity
