import WalletBackend.Cached.Provider
import WalletBackend.Library.Numerals

/-! Protocol parameters stay paired with their epoch: in the cache by their key, in a
result by the tip that was read, or read afresh in the recovery. -/
namespace WalletBackend.Cached
open Cache Containers

variable {T P : Type} [HasEpoch P]

section Keys

theorem protocolParamsKey_injective {e e' : Nat} (same : protocolParamsKey e = protocolParamsKey e') :
    e = e' := by
  have digits := congrArg String.toList ((String.append_right_inj _).mp same)
  rw [Numerals.toList_toString, Numerals.toList_toString] at digits
  exact Numerals.toDigits_injective digits

theorem protocolParamsKey_ne_tip (e : Nat) : protocolParamsKey e ≠ TIP_CACHE_KEY := by
  intro same
  have inside : startsWith (protocolParamsKey e) PROTOCOL_PARAMS_KEYS = true := by
    rw [startsWith_iff, protocolParamsKey, String.toList_append]
    exact List.prefix_append ..
  rw [same] at inside
  exact absurd inside (by decide)

/-- The key that a loader is passed with. -/
def Load.key : Load → String
  | .tip => TIP_CACHE_KEY
  | .params epoch => protocolParamsKey epoch

def Meant (key : String) (_ : CachePolicy) (load : Load) : Prop := key = load.key

/-- A tip is kept under the key of the tip, and parameters under that of their epoch. -/
def Fits (key : String) (value : Value T P) : Prop :=
  (key = TIP_CACHE_KEY → ∃ known, value = .tip known) ∧
    ∀ e, key = protocolParamsKey e → ∃ known, value = .params known ∧ HasEpoch.epoch known = e

theorem fits_tip (known : T) : Fits TIP_CACHE_KEY (.tip known : Value T P) :=
  ⟨fun _ => ⟨known, rfl⟩, fun e same => absurd same.symm (protocolParamsKey_ne_tip e)⟩

theorem fits_params {known : P} {e : Nat} (matching : HasEpoch.epoch known = e) :
    Fits (protocolParamsKey e) (.params known : Value T P) := by
  refine ⟨fun same => absurd same (protocolParamsKey_ne_tip e), ?_⟩
  intro e' same
  exact ⟨known, rfl, matching.trans (protocolParamsKey_injective same)⟩

theorem checkEpoch_fits {e : Nat} {params : P} {value : Value T P}
    (accepted : CachedProvider.checkEpoch e params = .ok value) : Fits (protocolParamsKey e) value := by
  rw [CachedProvider.checkEpoch] at accepted
  split at accepted
  · cases accepted
  case isFalse matching =>
    cases accepted
    exact fits_params (Classical.not_not.mp matching)

end Keys

namespace CachedProvider

variable [HasEpoch T] {s s' : CachedProvider T P}

/-- The reading returns a value that fits the key. -/
def Returns (s : CachedProvider T P) (key : String) : Reading (Value T P) → Prop
  | .hit value => Fits key value
  | .attempt id => ∃ attempt, s.cache.attempts id = some attempt ∧ attempt.key = key

/-- What a call has read so far is what it takes it for, and what it returns is paired. -/
def Sound (s : CachedProvider T P) : Call T P → Prop
  | .awaitingTip reading => s.Returns TIP_CACHE_KEY reading
  | .awaitingParams tip reading =>
      (∃ known, tip = .tip known) ∧ s.Returns (protocolParamsKey tip.epoch) reading
  | .awaitingRecovery tip _ => ∃ known, tip = .tip known
  | .done tip none params =>
      ∃ known found, tip = .tip known ∧ params = .params found ∧
        HasEpoch.epoch found = HasEpoch.epoch known
  | .done tip (some id) params =>
      ∃ known found recovery freshTip, tip = .tip known ∧ params = .params found ∧
        s.recoveries id = some recovery ∧ recovery.phase = .paired freshTip found
  | .failed _ => True

structure Paired (s : CachedProvider T P) : Prop where
  consistent : s.cache.Consistent
  typed : s.cache.Typed Fits Meant
  calls : ∀ call state, s.calls call = some state → s.Sound state
  recoveries : ∀ id recovery freshTip freshParams, s.recoveries id = some recovery →
    recovery.phase = .paired freshTip freshParams →
      HasEpoch.epoch freshParams = HasEpoch.epoch freshTip

/-- Promises keep their keys and recoveries their pairs. -/
structure Keeps (s s' : CachedProvider T P) : Prop where
  attempts : ∀ id attempt, s.cache.attempts id = some attempt →
    ∃ attempt', s'.cache.attempts id = some attempt' ∧ attempt'.key = attempt.key
  recoveries : ∀ id recovery freshTip freshParams, s.recoveries id = some recovery →
    recovery.phase = .paired freshTip freshParams →
      ∃ recovery', s'.recoveries id = some recovery' ∧ recovery'.phase = .paired freshTip freshParams

omit [HasEpoch T] in
theorem Returns.mono (keeps : Keeps s s') {key : String} {reading : Reading (Value T P)}
    (returns : s.Returns key reading) : s'.Returns key reading := by
  cases reading with
  | hit value => exact returns
  | attempt id =>
    obtain ⟨attempt, there, same⟩ := returns
    obtain ⟨attempt', there', same'⟩ := keeps.attempts id attempt there
    exact ⟨attempt', there', same'.trans same⟩

theorem Sound.mono (keeps : Keeps s s') {state : Call T P} (sound : s.Sound state) :
    s'.Sound state := by
  cases state with
  | awaitingTip reading => exact Returns.mono keeps sound
  | awaitingParams tip reading => exact ⟨sound.1, Returns.mono keeps sound.2⟩
  | awaitingRecovery tip recovery => exact sound
  | done tip recovery params =>
    cases recovery with
    | none => exact sound
    | some id =>
      obtain ⟨known, found, recovery, freshTip, isTip, isParams, there, paired⟩ := sound
      obtain ⟨recovery', there', paired'⟩ := keeps.recoveries id recovery freshTip found there paired
      exact ⟨known, found, recovery', freshTip, isTip, isParams, there', paired'⟩
  | failed => trivial

/-- An event of the cache. -/
theorem Paired.cache (paired : s.Paired) {event : Cache.Event (Value T P) ReadError Load}
    {cache : MemoryCache (Value T P) ReadError Load}
    (effect : MemoryCache.Effect s.cache event cache) (brings : s.cache.Brings Fits Meant event) :
    ({ s with cache } : CachedProvider T P).Paired ∧
      Keeps s ({ s with cache } : CachedProvider T P) := by
  have keeps : Keeps s ({ s with cache } : CachedProvider T P) := by
    refine ⟨?_, fun id recovery _ _ there paired => ⟨recovery, there, paired⟩⟩
    intro id attempt there
    obtain ⟨phase, kept⟩ := effect.attempt_kept there
    exact ⟨_, kept, rfl⟩
  refine ⟨⟨paired.consistent.effect effect, paired.typed.effect effect brings, ?_,
    paired.recoveries⟩, keeps⟩
  intro call state there
  exact Sound.mono keeps (paired.calls call state there)

theorem Paired.withCall (paired : s.Paired) {call : Nat} {state : Call T P}
    (sound : s.Sound state) : (s.withCall call state).Paired := by
  refine ⟨paired.consistent, paired.typed, ?_, paired.recoveries⟩
  intro call' state' there
  change Function.update s.calls call (some state) call' = some state' at there
  rw [Function.update_apply] at there
  split at there
  · cases there
    exact Sound.mono ⟨fun _ attempt known => ⟨attempt, known, rfl⟩,
      fun _ recovery _ _ known same => ⟨recovery, known, same⟩⟩ sound
  · exact Sound.mono ⟨fun _ attempt known => ⟨attempt, known, rfl⟩,
      fun _ recovery _ _ known same => ⟨recovery, known, same⟩⟩ (paired.calls call' state' there)

/-- A recovery moves on to a pair only if its epochs match. -/
theorem Paired.withRecovery (paired : s.Paired) {id : Nat} {recovery : Recovery T P}
    (unpaired : ∀ old, s.recoveries id = some old → ∀ t p, old.phase ≠ .paired t p)
    (matching : ∀ t p, recovery.phase = .paired t p → HasEpoch.epoch p = HasEpoch.epoch t) :
    (s.withRecovery id recovery).Paired := by
  have keeps : Keeps s (s.withRecovery id recovery) := by
    refine ⟨fun _ attempt known => ⟨attempt, known, rfl⟩, ?_⟩
    intro id' old t p there phase
    refine ⟨old, ?_, phase⟩
    change Function.update s.recoveries id (some recovery) id' = some old
    rw [Function.update_of_ne]
    · exact there
    · rintro rfl
      exact unpaired old there t p phase
  refine ⟨paired.consistent, paired.typed, ?_, ?_⟩
  · intro call state there
    exact Sound.mono keeps (paired.calls call state there)
  · intro id' recovery' t p there phase
    change Function.update s.recoveries id (some recovery) id' = some recovery' at there
    rw [Function.update_apply] at there
    split at there
    · cases there
      exact matching t p phase
    · exact paired.recoveries id' recovery' t p there phase

/-- The pairing does not depend on what is being recovered or has been served. -/
theorem Paired.congr (paired : s.Paired) (cache : s'.cache = s.cache) (calls : s'.calls = s.calls)
    (recoveries : s'.recoveries = s.recoveries) : s'.Paired := by
  have keeps : Keeps s s' := by
    refine ⟨?_, ?_⟩
    · rw [cache]
      exact fun _ attempt known => ⟨attempt, known, rfl⟩
    · rw [recoveries]
      exact fun _ recovery _ _ known phase => ⟨recovery, known, phase⟩
  refine ⟨?_, ?_, ?_, ?_⟩
  · rw [cache]
    exact paired.consistent
  · rw [cache]
    exact paired.typed
  · intro call state there
    rw [calls] at there
    exact Sound.mono keeps (paired.calls call state there)
  · rw [recoveries]
    exact paired.recoveries

/-- A read that makes its promise under an unused number. -/
theorem Paired.read (paired : s.Paired) {key : String} {policy : CachePolicy} {load : Load} {id : Nat}
    (free : s.cache.attempts id = none) (meant : key = load.key) :
    ({ s with cache := (s.cache.read key policy load id).1 } : CachedProvider T P).Paired ∧
      ({ s with cache := (s.cache.read key policy load id).1 } : CachedProvider T P).Returns key
        (s.cache.read key policy load id).2 := by
  refine ⟨(paired.cache (MemoryCache.read_effect free) meant).1, ?_⟩
  cases reading : (s.cache.read key policy load id).2 with
  | hit value =>
    obtain ⟨served, -⟩ := MemoryCache.read_hit reading
    exact paired.typed.peek served
  | attempt pending => exact paired.consistent.read_attempt reading

omit [HasEpoch T] [HasEpoch P] in
theorem free_of_unused {id : Nat} (free : s.unused id = true) :
    s.cache.attempts id = none ∧ s.recoveries id = none := by
  simpa [unused] using free

theorem Paired.getTip (paired : s.Paired) {id : Nat} (free : s.unused id = true) :
    (s.getTip id).1.Paired ∧ (s.getTip id).1.Returns TIP_CACHE_KEY (s.getTip id).2 := by
  have meant : TIP_CACHE_KEY = Load.key .tip := rfl
  obtain ⟨read, returns⟩ := paired.read (free_of_unused free).1 meant
  exact ⟨read.congr rfl rfl rfl, returns⟩

/-- A promise that has settled with a value settled with one that fits. -/
theorem Paired.outcome_fits (paired : s.Paired) {key : String} {reading : Reading (Value T P)}
    {value : Value T P} (returns : s.Returns key reading)
    (settled : outcome s.cache reading = some (.ok value)) : Fits key value := by
  cases reading with
  | hit served =>
    cases settled
    exact returns
  | attempt id =>
    obtain ⟨attempt, there, rfl⟩ := returns
    rw [outcome, there, Option.map_some] at settled
    refine paired.typed.attempts id attempt value there ?_
    cases phase : attempt.phase with
    | settled result =>
      rw [phase] at settled
      cases settled
      rfl
    | _ =>
      rw [phase] at settled
      cases settled

/-- Beginning a recovery pairs nothing yet. -/
theorem Paired.recover (paired : s.Paired) {id : Nat} (free : s.unused id = true) :
    (s.recoverProtocolParams id).1.Paired := by
  rw [recoverProtocolParams]
  cases s.protocolParamsRecovery with
  | some pending => exact paired
  | none =>
    have begun : (s.withRecovery id ⟨s.cache.generation (some TIP_CACHE_KEY),
        s.cache.generation (some PROTOCOL_PARAMS_KEYS), .awaitingTip⟩).Paired := by
      refine paired.withRecovery ?_ nofun
      intro old there
      cases (free_of_unused free).2.symm.trans there
    exact begun.congr rfl rfl rfl

theorem Paired.resume (paired : s.Paired) {call id : Nat} (free : s.unused id = true) :
    (s.resume call id).Paired := by
  rw [CachedProvider.resume]
  cases known : s.calls call with
  | none => exact paired
  | some state =>
    have sound := paired.calls call state known
    cases state with
    | awaitingTip reading =>
      simp only
      cases settled : outcome s.cache reading with
      | none => exact paired
      | some result =>
        cases result with
        | error error => exact paired.withCall trivial
        | ok tip =>
          have meant : protocolParamsKey tip.epoch = Load.key (.params tip.epoch) := rfl
          obtain ⟨read, returns⟩ := paired.read (free_of_unused free).1 meant
          exact read.withCall ⟨(paired.outcome_fits sound settled).1 rfl, returns⟩
    | awaitingParams tip reading =>
      obtain ⟨⟨tipValue, isTip⟩, returns⟩ := sound
      simp only
      cases settled : outcome s.cache reading with
      | none => exact paired
      | some result =>
        cases result with
        | ok params =>
          obtain ⟨found, isParams, matching⟩ := (paired.outcome_fits returns settled).2 _ rfl
          refine paired.withCall ⟨tipValue, found, isTip, isParams, ?_⟩
          rw [matching, isTip]
          rfl
        | error error =>
          cases error with
          | failure => exact paired.withCall trivial
          | epochMismatch tipEpoch paramsEpoch =>
            exact (paired.recover free).withCall ⟨tipValue, isTip⟩
    | awaitingRecovery tip recovery =>
      obtain ⟨tipValue, isTip⟩ := sound
      simp only
      cases there : s.recoveries recovery with
      | none => exact paired
      | some state =>
        rw [Option.map_some]
        cases phase : state.phase with
        | paired freshTip freshParams =>
          exact paired.withCall ⟨tipValue, freshParams, state, freshTip, isTip, rfl, there, phase⟩
        | failed error => exact paired.withCall trivial
        | _ => exact paired
    | done => exact paired
    | failed => exact paired

theorem Paired.answerRecoveryTip (paired : s.Paired) {id : Nat} {answer : Except Failure T} :
    (s.answerRecoveryTip id answer).Paired := by
  rw [CachedProvider.answerRecoveryTip]
  cases there : s.recoveries id with
  | none => exact paired
  | some recovery =>
    simp only
    cases phase : recovery.phase with
    | awaitingTip =>
      have unpaired : ∀ old, s.recoveries id = some old → ∀ t p, old.phase ≠ .paired t p := by
        intro old there' t p same
        cases there.symm.trans there'
        cases phase.symm.trans same
      cases answer with
      | ok freshTip => exact paired.withRecovery unpaired nofun
      | error failure => exact paired.withRecovery unpaired nofun
    | _ => exact paired

theorem setIfGeneration_effect {V E L : Type} (c : MemoryCache V E L) (key : String) (value : V)
    (ttlMs generation : Nat) : MemoryCache.Effect c (.setIfGeneration key value ttlMs generation)
      (c.setIfGeneration key value ttlMs generation) :=
  MemoryCache.apply_effect c (.setIfGeneration key value ttlMs generation)

/-- A recovery publishes its tip and, under the epoch of that tip, its parameters. -/
theorem Paired.publish (paired : s.Paired) {recovery : Recovery T P} {freshTip : T} {freshParams : P}
    (matching : HasEpoch.epoch freshParams = HasEpoch.epoch freshTip) :
    (s.publish recovery freshTip freshParams).Paired := by
  have tipped := (paired.cache (setIfGeneration_effect s.cache TIP_CACHE_KEY (.tip freshTip) TIP_TTL_MS
    recovery.tipGeneration) (fits_tip freshTip)).1
  have fitting : Fits (protocolParamsKey (HasEpoch.epoch freshTip)) (.params freshParams : Value T P) :=
    fits_params matching
  exact (tipped.cache (setIfGeneration_effect _ _ _ PROTOCOL_PARAMS_TTL_MS
    recovery.paramsGeneration) fitting).1.congr rfl rfl rfl

theorem Paired.answerRecoveryParams (paired : s.Paired) {id : Nat} {answer : Except Failure P} :
    (s.answerRecoveryParams id answer).Paired := by
  rw [CachedProvider.answerRecoveryParams]
  cases there : s.recoveries id with
  | none => exact paired
  | some recovery =>
    simp only
    cases phase : recovery.phase with
    | awaitingParams freshTip =>
      have unpaired : ∀ old, s.recoveries id = some old → ∀ t p, old.phase ≠ .paired t p := by
        intro old there' t p same
        cases there.symm.trans there'
        cases phase.symm.trans same
      cases answer with
      | error failure => exact paired.withRecovery unpaired nofun
      | ok freshParams =>
        simp only
        split
        · exact paired.withRecovery unpaired nofun
        case isFalse matching =>
          refine Paired.withRecovery (paired.publish (Classical.not_not.mp matching)) unpaired ?_
          intro t p same
          cases same
          exact Classical.not_not.mp matching
    | _ => exact paired

theorem Paired.answerTip (paired : s.Paired) {id : Nat} {answer : Except Failure T} :
    (s.answerTip id answer).Paired := by
  unfold CachedProvider.answerTip
  cases there : s.cache.attempts id with
  | none => exact paired
  | some attempt =>
    have meant : attempt.key = attempt.load.key := paired.typed.made id attempt there
    rw [Option.map_some]
    cases load : attempt.load with
    | params => exact paired
    | tip =>
      refine (paired.cache (MemoryCache.apply_effect _ (.answer id _)) ?_).1
      cases answer with
      | error => trivial
      | ok known =>
        intro other there'
        cases there.symm.trans there'
        rw [meant, load]
        exact fits_tip known

theorem Paired.answerParams (paired : s.Paired) {id : Nat} {answer : Except Failure P} :
    (s.answerParams id answer).Paired := by
  unfold CachedProvider.answerParams
  cases there : s.cache.attempts id with
  | none => exact paired
  | some attempt =>
    have meant : attempt.key = attempt.load.key := paired.typed.made id attempt there
    rw [Option.map_some]
    cases load : attempt.load with
    | tip => exact paired
    | params e =>
      refine (paired.cache (MemoryCache.apply_effect _ (.answer id _)) ?_).1
      cases answer with
      | error => trivial
      | ok params =>
        simp only
        cases accepted : checkEpoch (T := T) e params with
        | error => trivial
        | ok value =>
          intro other there'
          cases there.symm.trans there'
          rw [meant, load]
          exact checkEpoch_fits accepted

theorem Paired.apply (paired : s.Paired) (event : Event T P) : (s.apply event).Paired := by
  cases event with
  | getTip id =>
    rw [CachedProvider.apply]
    split
    case isTrue free => exact (paired.getTip free).1
    case isFalse => exact paired
  | getProtocolParams call id =>
    rw [CachedProvider.apply]
    split
    case isTrue free =>
      rw [Bool.and_eq_true] at free
      obtain ⟨read, returns⟩ := paired.getTip free.1
      exact read.withCall returns
    case isFalse => exact paired
  | resume call id =>
    rw [CachedProvider.apply]
    split
    case isTrue free => exact paired.resume free
    case isFalse => exact paired
  | startLoad id => exact (paired.cache (MemoryCache.apply_effect _ (.startLoad id)) trivial).1
  | answerTip id answer => exact paired.answerTip
  | answerParams id answer => exact paired.answerParams
  | handle id => exact (paired.cache (MemoryCache.apply_effect _ (.handle id)) trivial).1
  | finish id =>
    have finished := (paired.cache (MemoryCache.apply_effect _ (.finish id)) trivial).1
    exact finished.congr rfl rfl rfl
  | answerRecoveryTip id answer => exact paired.answerRecoveryTip
  | answerRecoveryParams id answer => exact paired.answerRecoveryParams
  | clearRecovery id =>
    rw [CachedProvider.apply, CachedProvider.clearRecovery]
    split
    · split
      · exact paired.congr rfl rfl rfl
      · exact paired
    · split
      · exact paired.congr rfl rfl rfl
      · exact paired
    · exact paired
  | clear start => exact (paired.cache (MemoryCache.apply_effect _ (.clear start)) trivial).1
  | tick now => exact (paired.cache (MemoryCache.apply_effect _ (.tick now)) trivial).1

theorem Reachable.paired (reachable : s.Reachable) : s.Paired := by
  obtain ⟨maxEntries, now, events, rfl⟩ := reachable
  refine Machine.run_preserves (fun _ event kept => Paired.apply kept event) ?_
  exact ⟨MemoryCache.create_consistent maxEntries now, MemoryCache.create_typed maxEntries now,
    nofun, nofun⟩

/-- Protocol parameters stay paired with their epoch, in every state that calls,
recoveries, clears, expiries and upstream answers of any kind lead to: every entry
under the parameters key of an epoch holds parameters of that epoch; what a call
returns has the epoch of the tip it read or, where it recovered, of the fresh tip that
its recovery paired it with; and what a recovery publishes matches. -/
theorem params_stay_paired (reachable : s.Reachable) :
    (∀ e entry, s.cache.entries.get? (protocolParamsKey e) = some entry →
      ∃ params, entry.value = .params params ∧ HasEpoch.epoch params = e) ∧
    (∀ call tip params, s.calls call = some (.done tip none params) →
      ∃ known found, tip = .tip known ∧ params = .params found ∧
        HasEpoch.epoch found = HasEpoch.epoch known) ∧
    (∀ call tip id params, s.calls call = some (.done tip (some id) params) →
      ∃ known found recovery freshTip, tip = .tip known ∧ params = .params found ∧
        s.recoveries id = some recovery ∧ recovery.phase = .paired freshTip found ∧
        HasEpoch.epoch found = HasEpoch.epoch freshTip) ∧
    ∀ id recovery freshTip freshParams, s.recoveries id = some recovery →
      recovery.phase = .paired freshTip freshParams →
        HasEpoch.epoch freshParams = HasEpoch.epoch freshTip := by
  have paired := reachable.paired
  refine ⟨?_, ?_, ?_, paired.recoveries⟩
  · intro e entry found
    exact (paired.typed.entries _ entry found).2 e rfl
  · intro call tip params there
    exact paired.calls call _ there
  · intro call tip id params there
    obtain ⟨known, found, recovery, freshTip, isTip, isParams, there', phase⟩ :=
      paired.calls call _ there
    exact ⟨known, found, recovery, freshTip, isTip, isParams, there', phase,
      paired.recoveries id recovery freshTip found there' phase⟩

section Example

def tipOf (epoch : Nat) : Tip := ⟨100 * epoch, 0, epoch, "", 0⟩

/-- A call that reads a tip of epoch 199, finds parameters of epoch 200, and recovers. -/
def recoveringCall : CachedProvider Tip ProtocolParams :=
  (withCache 10 0).after
    [.getProtocolParams 0 0, .startLoad 0, .answerTip 0 (.ok (tipOf 199)), .handle 0, .finish 0,
      .resume 0 1, .startLoad 1, .answerParams 1 (.ok ⟨200⟩), .handle 1, .finish 1, .resume 0 2,
      .answerRecoveryTip 2 (.ok (tipOf 200)), .answerRecoveryParams 2 (.ok ⟨200⟩), .resume 0 3]

theorem recoveringCall_paired :
    ∃ known found recovery freshTip, (.tip (tipOf 199) : Value Tip ProtocolParams) = .tip known ∧
      (.params ⟨200⟩ : Value Tip ProtocolParams) = .params found ∧
      recoveringCall.recoveries 2 = some recovery ∧ recovery.phase = .paired freshTip found ∧
      HasEpoch.epoch found = HasEpoch.epoch freshTip :=
  have reachable : recoveringCall.Reachable := ⟨10, 0, _, rfl⟩
  (params_stay_paired reachable).2.2.1 0 (.tip (tipOf 199)) 2 (.params ⟨200⟩) (by rfl)

end Example

end CachedProvider
end WalletBackend.Cached
