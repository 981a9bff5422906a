import WalletBackend.Cache.Typed
import WalletBackend.Domain.Chain
import WalletBackend.Domain.Errors

/-! The provider that `withCache` wraps around a driver: the tip and the protocol
parameters go through the cache, and a caller whose parameters are of another epoch
than its tip recovers with a fresh pair. Calls are numbered, and so are the promises
they make. -/
namespace WalletBackend.Cached
open Cache

def TIP_TTL_MS : Nat := 10000
def TIP_CACHE_KEY : String := "chain:tip"
def PROTOCOL_PARAMS_TTL_MS : Nat := 6 * 24 * 60 * 60 * 1000
def PROTOCOL_PARAMS_KEYS : String := "chain:protocol-params:"

/-- The key of the parameters of an epoch. -/
def protocolParamsKey (epoch : Nat) : String := PROTOCOL_PARAMS_KEYS ++ toString epoch

/-- A value that belongs to an epoch. Tips and parameters are passed on otherwise
unread. -/
class HasEpoch (α : Type) where
  epoch : α → Nat

instance : HasEpoch Tip := ⟨Tip.epoch⟩
instance : HasEpoch ProtocolParams := ⟨ProtocolParams.epoch⟩

/-- What the cache holds here. -/
inductive Value (T P : Type) where
  | tip (tip : T)
  | params (params : P)
  deriving DecidableEq

inductive ReadError where
  /-- `ProtocolParamsEpochMismatchError`. -/
  | epochMismatch (tipEpoch paramsEpoch : Nat)
  | failure (failure : Failure)
  deriving DecidableEq

/-- The loaders that the two reads pass to the cache. -/
inductive Load where
  | tip
  | params (epoch : Nat)
  deriving DecidableEq

/-- How far a recovery has come. -/
inductive RecoveryPhase (T P : Type) where
  | awaitingTip
  | awaitingParams (freshTip : T)
  | paired (freshTip : T) (freshParams : P)
  | failed (error : ReadError)

structure Recovery (T P : Type) where
  tipGeneration : Nat
  paramsGeneration : Nat
  phase : RecoveryPhase T P

/-- How far a call of `getProtocolParams` has come. It keeps the tip it read. -/
inductive Call (T P : Type) where
  | awaitingTip (reading : Reading (Value T P))
  | awaitingParams (tip : Value T P) (reading : Reading (Value T P))
  | awaitingRecovery (tip : Value T P) (recovery : Nat)
  | done (tip : Value T P) (recovery : Option Nat) (params : Value T P)
  | failed (error : ReadError)

structure CachedProvider (T P : Type) where
  cache : MemoryCache (Value T P) ReadError Load
  protocolParamsRecovery : Option Nat
  recoveries : Nat → Option (Recovery T P)
  calls : Nat → Option (Call T P)
  /-- What `getTip` has returned, in the order in which its calls completed. All who wait
  for one promise complete together. -/
  served : List (Value T P)

variable {T P : Type} [HasEpoch T] [HasEpoch P]

/-- `value.epoch`, of whichever the cache returns. -/
def Value.epoch : Value T P → Nat
  | .tip known => HasEpoch.epoch known
  | .params known => HasEpoch.epoch known

def withCache (maxEntries now : Nat) : CachedProvider T P where
  cache := createMemoryCache maxEntries now
  protocolParamsRecovery := none
  recoveries := fun _ => none
  calls := fun _ => none
  served := []

/-- The outcome of the promise that a read returned, once it has settled. -/
def outcome (cache : MemoryCache (Value T P) ReadError Load) :
    Reading (Value T P) → Option (Except ReadError (Value T P))
  | .hit value => some (.ok value)
  | .attempt id =>
      match (cache.attempts id).map Attempt.phase with
      | some (.settled result) => some result
      | _ => none

namespace CachedProvider

variable (s : CachedProvider T P)

def withCall (call : Nat) (state : Call T P) : CachedProvider T P :=
  { s with calls := Function.update s.calls call (some state) }

def withRecovery (id : Nat) (recovery : Recovery T P) : CachedProvider T P :=
  { s with recoveries := Function.update s.recoveries id (some recovery) }

/-- `getTip`; a hit completes at once. -/
def getTip (id : Nat) : CachedProvider T P × Reading (Value T P) :=
  let read := s.cache.read TIP_CACHE_KEY (.ofTtl TIP_TTL_MS) .tip id
  let completed := match read.2 with
    | .hit value => [value]
    | .attempt _ => []
  ({ s with cache := read.1, served := s.served ++ completed }, read.2)

def readProtocolParamsForEpoch (epoch id : Nat) : CachedProvider T P × Reading (Value T P) :=
  let read := s.cache.read (protocolParamsKey epoch) (.ofTtl PROTOCOL_PARAMS_TTL_MS)
    (.params epoch) id
  ({ s with cache := read.1 }, read.2)

/-- The loader of the parameters accepts those of its epoch only. -/
def checkEpoch (epoch : Nat) (params : P) : Except ReadError (Value T P) :=
  if HasEpoch.epoch params ≠ epoch then .error (.epochMismatch epoch (HasEpoch.epoch params))
  else .ok (.params params)

/-- `recoverProtocolParams`: the recovery under way, or one begun as `id`. -/
def recoverProtocolParams (id : Nat) : CachedProvider T P × Nat :=
  match s.protocolParamsRecovery with
  | some pending => (s, pending)
  | none =>
      ({ s.withRecovery id
          { tipGeneration := s.cache.generation (some TIP_CACHE_KEY)
            paramsGeneration := s.cache.generation (some PROTOCOL_PARAMS_KEYS)
            phase := .awaitingTip } with protocolParamsRecovery := some id }, id)

/-- The continuation of a call of `getProtocolParams` whose promise has settled. A
promise or a recovery that it begins is named `id`. -/
def resume (call id : Nat) : CachedProvider T P :=
  match s.calls call with
  | some (.awaitingTip reading) =>
      match outcome s.cache reading with
      | some (.ok tip) =>
          let read := s.readProtocolParamsForEpoch tip.epoch id
          read.1.withCall call (.awaitingParams tip read.2)
      | some (.error error) => s.withCall call (.failed error)
      | none => s
  | some (.awaitingParams tip reading) =>
      match outcome s.cache reading with
      | some (.ok params) => s.withCall call (.done tip none params)
      | some (.error (.epochMismatch _ _)) =>
          let recovering := s.recoverProtocolParams id
          recovering.1.withCall call (.awaitingRecovery tip recovering.2)
      | some (.error error) => s.withCall call (.failed error)
      | none => s
  | some (.awaitingRecovery tip recovery) =>
      match (s.recoveries recovery).map Recovery.phase with
      | some (.paired _ params) => s.withCall call (.done tip (some recovery) (.params params))
      | some (.failed error) => s.withCall call (.failed error)
      | _ => s
  | _ => s

/-- The upstream answers the tip request of a load. -/
def answerTip (id : Nat) (answer : Except Failure T) : CachedProvider T P :=
  match (s.cache.attempts id).map Attempt.load with
  | some .tip =>
      let result := match answer with
        | .ok known => .ok (.tip known)
        | .error failure => .error (.failure failure)
      { s with cache := s.cache.answer id result }
  | _ => s

/-- The upstream answers the parameter request of a load. -/
def answerParams (id : Nat) (answer : Except Failure P) : CachedProvider T P :=
  match (s.cache.attempts id).map Attempt.load with
  | some (.params epoch) =>
      let result := match answer with
        | .ok params => checkEpoch epoch params
        | .error failure => .error (.failure failure)
      { s with cache := s.cache.answer id result }
  | _ => s

/-- The cleanup of a load; the readers of a tip load complete with it. -/
def finish (id : Nat) : CachedProvider T P :=
  let completed := match s.cache.attempts id with
    | some { load := .tip, phase := .handled (.ok value), .. } => [value]
    | _ => []
  { s with cache := s.cache.finish id, served := s.served ++ completed }

/-- The upstream answers the tip request of a recovery. -/
def answerRecoveryTip (id : Nat) (answer : Except Failure T) : CachedProvider T P :=
  match s.recoveries id with
  | some recovery =>
      match recovery.phase with
      | .awaitingTip =>
          match answer with
          | .ok freshTip => s.withRecovery id { recovery with phase := .awaitingParams freshTip }
          | .error failure => s.withRecovery id { recovery with phase := .failed (.failure failure) }
      | _ => s
  | none => s

/-- Publish a verified pair, each under the token taken when the recovery began. -/
def publish (recovery : Recovery T P) (freshTip : T) (freshParams : P) : CachedProvider T P :=
  let published := s.cache.setIfGeneration TIP_CACHE_KEY (.tip freshTip) TIP_TTL_MS
    recovery.tipGeneration
  let key := protocolParamsKey (HasEpoch.epoch freshTip)
  { s with
    cache := published.setIfGeneration key (.params freshParams) PROTOCOL_PARAMS_TTL_MS
      recovery.paramsGeneration }

/-- The error of a pair that does not match even when it is fresh. -/
def refreshMismatch (freshTip : T) (freshParams : P) : Failure :=
  .plain (s!"protocol parameters for epoch {HasEpoch.epoch freshParams} do not match " ++
    s!"refreshed tip epoch {HasEpoch.epoch freshTip}")

/-- The upstream answers the parameter request of a recovery. -/
def answerRecoveryParams (id : Nat) (answer : Except Failure P) : CachedProvider T P :=
  match s.recoveries id with
  | some recovery =>
      match recovery.phase with
      | .awaitingParams freshTip =>
          match answer with
          | .error failure => s.withRecovery id { recovery with phase := .failed (.failure failure) }
          | .ok freshParams =>
              if HasEpoch.epoch freshParams ≠ HasEpoch.epoch freshTip then
                s.withRecovery id { recovery with
                  phase := .failed (.failure (refreshMismatch freshTip freshParams)) }
              else
                (s.publish recovery freshTip freshParams).withRecovery id
                  { recovery with phase := .paired freshTip freshParams }
      | _ => s
  | none => s

/-- Once settled, a recovery makes way for the next one. -/
def clearRecovery (id : Nat) : CachedProvider T P :=
  match (s.recoveries id).map Recovery.phase with
  | some (.paired _ _) | some (.failed _) =>
      if s.protocolParamsRecovery = some id then { s with protocolParamsRecovery := none } else s
  | _ => s

end CachedProvider

/-- What can happen to the provider. New calls, promises and recoveries are named by
numbers not used before. -/
inductive Event (T P : Type) where
  | getTip (id : Nat)
  | getProtocolParams (call id : Nat)
  | resume (call id : Nat)
  | startLoad (id : Nat)
  | answerTip (id : Nat) (answer : Except Failure T)
  | answerParams (id : Nat) (answer : Except Failure P)
  | handle (id : Nat)
  | finish (id : Nat)
  | answerRecoveryTip (id : Nat) (answer : Except Failure T)
  | answerRecoveryParams (id : Nat) (answer : Except Failure P)
  | clearRecovery (id : Nat)
  | clear (start : Option String)
  | tick (now : Nat)

namespace CachedProvider

/-- The number names nothing yet. -/
def unused (s : CachedProvider T P) (id : Nat) : Bool :=
  (s.cache.attempts id).isNone && (s.recoveries id).isNone

def apply (s : CachedProvider T P) : Event T P → CachedProvider T P
  | .getTip id => if s.unused id then (s.getTip id).1 else s
  | .getProtocolParams call id =>
      if s.unused id && (s.calls call).isNone then
        let read := s.getTip id
        read.1.withCall call (.awaitingTip read.2)
      else s
  | .resume call id => if s.unused id then s.resume call id else s
  | .startLoad id => { s with cache := s.cache.startLoad id }
  | .answerTip id answer => s.answerTip id answer
  | .answerParams id answer => s.answerParams id answer
  | .handle id => { s with cache := s.cache.handle id }
  | .finish id => s.finish id
  | .answerRecoveryTip id answer => s.answerRecoveryTip id answer
  | .answerRecoveryParams id answer => s.answerRecoveryParams id answer
  | .clearRecovery id => s.clearRecovery id
  | .clear start => { s with cache := s.cache.clear start }
  | .tick now => { s with cache := { s.cache with now } }

def after (s : CachedProvider T P) (events : List (Event T P)) : CachedProvider T P :=
  Machine.run apply s events

/-- Some run of a new provider leads to the state. -/
def Reachable (s : CachedProvider T P) : Prop :=
  ∃ maxEntries now events, s = (withCache maxEntries now).after events

end CachedProvider

end WalletBackend.Cached
