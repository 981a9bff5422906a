import WalletBackend.Library.KeyedJoin
import WalletBackend.Library.PoolRuns
import WalletBackend.Prices.AdaPools
import WalletBackend.Prices.Decimal

/-! The market activity of tokens: the figures of the last day from the pools, those of a
longer window from daily candles. -/
namespace WalletBackend.Prices
open Interaction Containers

inductive PriceWindow where
  | h24
  | d7
  | d30
  deriving DecidableEq

structure TokenActivity where
  subject : String
  priceAda : String
  changePercent : Float
  volumeAda : String

/-- `[unix seconds, open, high, low, close, volume]`. -/
structure OhlcvCandle where
  time : Float
  opening : Float
  high : Float
  low : Float
  closing : Float
  volume : Float
  finite : ∀ number ∈ [time, opening, high, low, closing, volume], number.isFinite = true

/-- The first occurrence of each subject. -/
def dedupeSubjects (subjects : List String) : List String := distinctBy id subjects

/-- The figures of the last day; a subject that lacks one, or whose figures are out of range,
has no activity. -/
def activityFromPool (subject : String) (pool : Option AdaPool) : Option TokenActivity :=
  pool.bind fun pool =>
    match pool.changePercent24h, pool.volumeUsd24h with
    | some changePercent24h, some volumeUsd24h =>
        match divideDecimalStrings volumeUsd24h pool.adaUsdPrice with
        | .error _ => none
        | .ok volumeAda =>
            let changePercent := Binary64.ofText changePercent24h
            if changePercent.isFinite then some ⟨subject, pool.priceAda, changePercent, volumeAda⟩
            else none
    | _, _ => none

section Candles

variable (candles : List OhlcvCandle)

/-- The change from the open of the oldest candle to the close of the newest. -/
def changeBetween (oldest newest : OhlcvCandle) : Float :=
  ((newest.closing - oldest.opening) / oldest.opening) * 100

def totalVolume : Float := candles.foldl (fun sum candle => sum + candle.volume) 0

/-- `activityFromCandles`, once it has the candles. -/
def tradedOver (subject : String) : Except RangeError (Option TokenActivity) :=
  match candles.head?, candles.getLast? with
  | some oldest, some newest =>
      let changePercent := changeBetween oldest newest
      if changePercent.isFinite then do
        let priceAda ← toDecimalString newest.closing
        let volumeAda ← toDecimalString (totalVolume candles)
        .ok (some ⟨subject, priceAda, changePercent, volumeAda⟩)
      else .ok none
  | _, _ => .ok none

end Candles

inductive Timeframe where
  | minute
  | hour
  | day
  deriving DecidableEq

/-- What is asked of GeckoTerminal. -/
inductive Request where
  | multiTokens (chunk : List String)
  | tokenPools (subject : String)
  | ohlcv (poolAddress : String) (timeframe : Timeframe) (aggregate limit : Nat)

abbrev Request.Body : Request → Type
  | .multiTokens _ => MultiTokensResponse
  | .tokenPools _ => List PoolEntry
  | .ohlcv .. => List OhlcvCandle

/-- A 404 has no body. -/
abbrev Request.Answer (E : Type) (request : Request) : Type := Except E (Option request.Body)

inductive Thrown (E : Type) where
  | rangeError (error : RangeError)
  | upstream (error : E)

abbrev PriceRead (E α : Type) := Async (Request.Answer E) (Thrown E) α

def getOrNotFound {E : Type} (request : Request) : PriceRead E (Option request.Body) := do
  let answer ← Async.ask request
  Async.ofExcept (answer.mapError .upstream)

/-- What a call finds in the cache: pools, whether a pool that it wrote is still there, and
candles of a window, by subject and pool. -/
structure CacheView where
  pools : String → Option (Option AdaPool)
  keeps : String → Bool
  candles : PriceWindow → String → String → Option (List OhlcvCandle)

/-- No cache. -/
def noCache : CacheView where
  pools _ := none
  keeps _ := false
  candles _ _ _ := none

/-- What is cached of a subject once the pools of some have been written. -/
def CacheView.reread (view : CacheView) (written : KeyedMap String (Option AdaPool))
    (subject : String) : Option (Option AdaPool) :=
  match written.get? subject with
  | some pool => if view.keeps subject then some pool else none
  | none => view.pools subject

namespace Activity

variable {E : Type} (view : CacheView)

def resolveAdaPool (written : KeyedMap String (Option AdaPool)) (subject : String) :
    PriceRead E (Option AdaPool) :=
  match view.reread written subject with
  | some pool => pure pool
  | none => do
      let body ← getOrNotFound (.tokenPools subject)
      pure (pickMostLiquidAdaPool Binary64.ofText subject (body.getD []))

/-- The loop of `fetchAdaPools` over the chunks. -/
def fetchChunks : List (List String) → PriceRead E (List ChunkOutcome)
  | [] => pure []
  | chunk :: chunks => do
      let body ← getOrNotFound (.multiTokens chunk)
      let outcomes ← fetchChunks chunks
      pure (readChunk Binary64.ofText chunk body :: outcomes)

def fetchAdaPools (subjects : List String) : PriceRead E (KeyedMap String (Option AdaPool)) := do
  let outcomes ← fetchChunks (subjects.toChunks MULTI_TOKEN_BATCH)
  let resolved := KeyedMap.ofEntries (outcomes.flatMap ChunkOutcome.writes)
  let needsFallback := outcomes.flatMap ChunkOutcome.needsFallback
  let pools ← promiseAll (needsFallback.map (resolveAdaPool view resolved))
  pure (resolved.setAll (needsFallback.zip pools))

/-- Nothing is fetched where the call owns no subject. -/
def fetchOwned (owned : List String) : PriceRead E (KeyedMap String (Option AdaPool)) :=
  if owned.length = 0 then pure .empty else fetchAdaPools view owned

/-- The pools of distinct subjects, none of which another call resolves meanwhile. -/
def resolveAdaPoolsBatch (subjects : List String) :
    PriceRead E (KeyedMap String (Option AdaPool)) := do
  let cached := subjects.filterMap fun subject => (view.pools subject).map fun pool => (subject, pool)
  let owned := subjects.filter fun subject => (view.pools subject).isNone
  let fetched ← fetchOwned view owned
  pure ((KeyedMap.ofEntries cached).setAll
    (owned.map fun subject => (subject, (fetched.get? subject).join)))

/-- Candles, the oldest first. -/
def fetchOhlcv (poolAddress : String) (timeframe : Timeframe) (aggregate limit : Nat) :
    PriceRead E (List OhlcvCandle) := do
  let body ← getOrNotFound (.ohlcv poolAddress timeframe aggregate limit)
  pure (body.getD []).reverse

def windowDays (window : PriceWindow) : Nat := if window = .d7 then 7 else 30

/-- The cached read of the candles of a window. -/
def readCandles (window : PriceWindow) (subject : String) (pool : AdaPool) :
    PriceRead E (List OhlcvCandle) :=
  match view.candles window subject pool.address with
  | some candles => pure candles
  | none => fetchOhlcv pool.address .day 1 (windowDays window)

def activityFromCandles (window : PriceWindow) (subject : String) (pool : Option AdaPool) :
    PriceRead E (Option TokenActivity) :=
  match pool with
  | none => pure none
  | some pool => do
      let candles ← readCandles view window subject pool
      Async.ofExcept ((tradedOver candles subject).mapError .rangeError)

def getTokenActivity (subjects : List String) (window : PriceWindow) :
    PriceRead E (List TokenActivity) := do
  let normalized := dedupeSubjects (subjects.map String.toLower)
  let pools ← resolveAdaPoolsBatch view normalized
  if window = .h24 then
    pure (normalized.filterMap fun subject => activityFromPool subject (pools.get? subject).join)
  else do
    let results ← promiseAll (normalized.map fun subject =>
      activityFromCandles view window subject (pools.get? subject).join)
    pure results.reduceOption

end Activity
end WalletBackend.Prices
