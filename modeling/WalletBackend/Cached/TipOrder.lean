import WalletBackend.Cached.Pairing
import Mathlib.Order.Monotone.Basic

/-! The served tip goes backwards exactly where a tip is put to use after one that the
upstream computed later: a recovery that waits for its parameters overtaken by a load
of the tip, or a load overtaken by a recovery. -/
namespace WalletBackend.Cached
open Cache Containers

/-- A tip, by the moment at which the upstream computed it. -/
structure Observed (upstream : Nat → Tip) where
  moment : Nat
  deriving DecidableEq

variable {upstream : Nat → Tip} {P : Type} [HasEpoch P]

def Observed.tip (observed : Observed upstream) : Tip := upstream observed.moment

instance : HasEpoch (Observed upstream) := ⟨fun observed => observed.tip.epoch⟩

namespace CachedProvider

/-- The tip that an event puts to use: a load stores it or hands it to its readers, or a
recovery publishes it. -/
def usedBy (s : CachedProvider (Observed upstream) P) :
    Event (Observed upstream) P → Option (Observed upstream)
  | .handle id =>
      match (s.cache.attempts id).map Attempt.phase with
      | some (.loaded (.ok (.tip observed))) => some observed
      | _ => none
  | .finish id =>
      match (s.cache.attempts id).map Attempt.phase with
      | some (.handled (.ok (.tip observed))) => some observed
      | _ => none
  | .answerRecoveryParams id (.ok params) =>
      match (s.recoveries id).map Recovery.phase with
      | some (.awaitingParams observed) =>
          if HasEpoch.epoch params = HasEpoch.epoch observed then some observed else none
      | _ => none
  | _ => none

/-- The provider with the moment of the latest tip put to use. -/
structure Tracked (upstream : Nat → Tip) (P : Type) where
  provider : CachedProvider (Observed upstream) P
  latest : Nat

def Tracked.apply (t : Tracked upstream P) (event : Event (Observed upstream) P) :
    Tracked upstream P where
  provider := t.provider.apply event
  latest := match t.provider.usedBy event with
    | some observed => max t.latest observed.moment
    | none => t.latest

def clears : Event (Observed upstream) P → Bool
  | .clear _ => true
  | _ => false

/-- No clear, and no tip put to use after one that was computed later. -/
def InOrder (t : Tracked upstream P) (event : Event (Observed upstream) P) : Prop :=
  clears event = false ∧ ∀ observed ∈ t.provider.usedBy event, t.latest ≤ observed.moment

instance (t : Tracked upstream P) (event : Event (Observed upstream) P) :
    Decidable (InOrder t event) :=
  inferInstanceAs (Decidable (_ ∧ _))

/-- The tip under the key of the tip, if there is one. -/
def cachedTip (s : CachedProvider (Observed upstream) P) : Option (Value (Observed upstream) P) :=
  (s.cache.entries.get? TIP_CACHE_KEY).map Entry.value

/-- The cached tip is the latest put to use, and nothing handed out is later. -/
structure Ordered (t : Tracked upstream P) : Prop where
  paired : t.provider.Paired
  uncleared : t.provider.cache.clearGenerations = .empty
  tokens : ∀ id recovery, t.provider.recoveries id = some recovery → recovery.tipGeneration = 0
  entry : ∀ value, t.provider.cachedTip = some value → ∃ observed, value = .tip observed ∧
    observed.moment = t.latest
  handled : ∀ id attempt observed, t.provider.cache.attempts id = some attempt →
    attempt.phase = .handled (.ok (.tip observed)) → observed.moment ≤ t.latest
  served : ∀ value ∈ t.provider.served, ∃ observed, value = .tip observed ∧
    observed.moment ≤ t.latest
  sorted : t.provider.served.Pairwise fun a b => ∀ observed observed', a = .tip observed →
    b = .tip observed' → observed.moment ≤ observed'.moment

section Step

variable {t : Tracked upstream P} {s' : CachedProvider (Observed upstream) P}

/-- Nothing is served, or one tip that is the latest put to use. -/
def ServesLatest (t : Tracked upstream P) (s' : CachedProvider (Observed upstream) P) : Prop :=
  s'.served = t.provider.served ∨ ∃ observed, observed.moment = t.latest ∧
    s'.served = t.provider.served ++ [.tip observed]

/-- An event that puts no tip to use, and serves at most the latest one. -/
theorem Ordered.quiet (ordered : Ordered t) (paired : s'.Paired)
    (uncleared : s'.cache.clearGenerations = t.provider.cache.clearGenerations)
    (tokens : ∀ id recovery, s'.recoveries id = some recovery → recovery.tipGeneration = 0)
    (entry : ∀ value, s'.cachedTip = some value → t.provider.cachedTip = some value)
    (handled : ∀ id attempt observed, s'.cache.attempts id = some attempt →
      attempt.phase = .handled (.ok (.tip observed)) →
        t.provider.cache.attempts id = some attempt)
    (served : ServesLatest t s') : Ordered ⟨s', t.latest⟩ := by
  refine ⟨paired, uncleared.trans ordered.uncleared, tokens, ?_, ?_, ?_, ?_⟩
  · intro value there
    exact ordered.entry value (entry value there)
  · intro id attempt observed there phase
    exact ordered.handled id attempt observed (handled id attempt observed there phase) phase
  · rcases served with same | ⟨observed, latest, same⟩
    · rw [same]
      exact ordered.served
    · rw [same]
      intro other member
      rcases List.mem_append.mp member with earlier | now
      · exact ordered.served other earlier
      · exact ⟨observed, List.mem_singleton.mp now, Nat.le_of_eq latest⟩
  · rcases served with same | ⟨last, latest, same⟩
    · rw [same]
      exact ordered.sorted
    · rw [same]
      refine List.pairwise_append.mpr ⟨ordered.sorted, List.pairwise_singleton _ _, ?_⟩
      intro earlier member other now observed observed' isTip isTip'
      obtain ⟨known, same, before⟩ := ordered.served earlier member
      rw [List.mem_singleton.mp now] at isTip'
      rw [same] at isTip
      cases isTip
      cases isTip'
      exact Nat.le_trans before (Nat.le_of_eq latest.symm)

/-- A quiet event of the cache. -/
theorem Ordered.cache (ordered : Ordered t)
    {event : Cache.Event (Value (Observed upstream) P) ReadError Load}
    {cache : MemoryCache (Value (Observed upstream) P) ReadError Load}
    (effect : MemoryCache.Effect t.provider.cache event cache) (quiet : MemoryCache.Quiet event)
    (paired : s'.Paired) (same : s'.cache = cache)
    (tokens : ∀ id recovery, s'.recoveries id = some recovery → recovery.tipGeneration = 0)
    (served : ServesLatest t s') : Ordered ⟨s', t.latest⟩ := by
  obtain ⟨entries, clears, handled⟩ := effect.quiet quiet
  subst same
  refine ordered.quiet paired clears tokens ?_ (fun id attempt _ => handled id attempt _) served
  intro value there
  rw [cachedTip, entries] at there
  exact there

/-- An event that leaves the cache and what was served alone. -/
theorem Ordered.aside (ordered : Ordered t) (paired : s'.Paired) (cache : s'.cache = t.provider.cache)
    (tokens : ∀ id recovery, s'.recoveries id = some recovery → recovery.tipGeneration = 0)
    (served : s'.served = t.provider.served) : Ordered ⟨s', t.latest⟩ :=
  ordered.cache (.idle (.tick 0)) trivial paired cache tokens (.inl served)

theorem Ordered.token (ordered : Ordered t) (key : Option String) :
    t.provider.cache.generation key = 0 :=
  MemoryCache.generationFor_uncleared ordered.uncleared _

/-- A recovery that keeps its token keeps it zero. -/
theorem Ordered.tokens_withRecovery (ordered : Ordered t) {id : Nat}
    {recovery : Recovery (Observed upstream) P} (zero : recovery.tipGeneration = 0) :
    ∀ id' recovery', (t.provider.withRecovery id recovery).recoveries id' = some recovery' →
      recovery'.tipGeneration = 0 := by
  intro id' recovery' there
  change Function.update t.provider.recoveries id (some recovery) id' = some recovery' at there
  rw [Function.update_apply] at there
  split at there
  · cases there
    exact zero
  · exact ordered.tokens id' recovery' there

/-- What `getTip` serves at once is the cached tip. -/
theorem Ordered.getTip_served (ordered : Ordered t) (id : Nat) :
    ServesLatest t (t.provider.getTip id).1 := by
  rw [getTip]
  cases reading : (t.provider.cache.read TIP_CACHE_KEY (.ofTtl TIP_TTL_MS) .tip id).2 with
  | attempt pending => exact .inl (List.append_nil _)
  | hit value =>
    obtain ⟨found, -⟩ := MemoryCache.read_hit reading
    rw [MemoryCache.peek] at found
    obtain ⟨entry, there, fresh⟩ := Option.bind_eq_some_iff.mp found
    have cached : t.provider.cachedTip = some value := by
      split at fresh
      · cases fresh
        rw [cachedTip, there]
        rfl
      · cases fresh
    obtain ⟨observed, rfl, latest⟩ := ordered.entry value cached
    exact .inr ⟨observed, latest, rfl⟩

theorem Ordered.getTip (ordered : Ordered t) {id : Nat} (free : t.provider.unused id = true) :
    Ordered ⟨(t.provider.getTip id).1, t.latest⟩ :=
  ordered.cache (MemoryCache.read_effect (free_of_unused free).1) trivial
    (ordered.paired.getTip free).1 rfl ordered.tokens (ordered.getTip_served id)

/-- A tip is loaded only under the key of the tip. -/
theorem Paired.tip_key {s : CachedProvider (Observed upstream) P} (paired : s.Paired) {id : Nat}
    {attempt : Attempt (Value (Observed upstream) P) ReadError Load} {observed : Observed upstream}
    (there : s.cache.attempts id = some attempt)
    (fits : Fits attempt.key (.tip observed : Value (Observed upstream) P)) :
    attempt.key = TIP_CACHE_KEY ∧ attempt.load = .tip := by
  have meant : attempt.key = attempt.load.key := paired.typed.made id attempt there
  cases load : attempt.load with
  | tip =>
    rw [load] at meant
    exact ⟨meant, rfl⟩
  | params e =>
    rw [load] at meant
    obtain ⟨params, impossible, -⟩ := fits.2 e meant
    cases impossible

theorem Ordered.resume (ordered : Ordered t) {call id : Nat} (free : t.provider.unused id = true) :
    Ordered ⟨t.provider.resume call id, t.latest⟩ := by
  have paired : (t.provider.resume call id).Paired := ordered.paired.resume free
  have read : ∀ (e : Nat) (state : Call (Observed upstream) P),
      ((t.provider.readProtocolParamsForEpoch e id).1.withCall call state).Paired →
      Ordered ⟨(t.provider.readProtocolParamsForEpoch e id).1.withCall call state, t.latest⟩ := by
    intro e state paired
    exact ordered.cache (MemoryCache.read_effect (free_of_unused free).1) trivial paired rfl
      ordered.tokens (.inl rfl)
  have recovered : ∀ state : Call (Observed upstream) P,
      ((t.provider.recoverProtocolParams id).1.withCall call state).Paired →
      Ordered ⟨(t.provider.recoverProtocolParams id).1.withCall call state, t.latest⟩ := by
    intro state paired
    rw [recoverProtocolParams] at paired ⊢
    cases pending : t.provider.protocolParamsRecovery with
    | some recovery =>
      rw [pending] at paired
      exact ordered.aside paired rfl ordered.tokens rfl
    | none =>
      rw [pending] at paired
      exact ordered.aside paired rfl (ordered.tokens_withRecovery (ordered.token _)) rfl
  have settled : ∀ state : Call (Observed upstream) P, (t.provider.withCall call state).Paired →
      Ordered ⟨t.provider.withCall call state, t.latest⟩ := by
    intro state paired
    exact ordered.aside paired rfl ordered.tokens rfl
  unfold CachedProvider.resume at paired ⊢
  split at paired
  · split at paired
    · exact read _ _ paired
    · exact settled _ paired
    · exact ordered
  · split at paired
    · exact settled _ paired
    · exact recovered _ paired
    · exact settled _ paired
    · exact ordered
  · split at paired
    · exact settled _ paired
    · exact settled _ paired
    · exact ordered
  · exact ordered

omit [HasEpoch P] in
/-- Storing something else than a tip keeps or evicts the cached tip. -/
theorem cachedTip_store {s : CachedProvider (Observed upstream) P} {key : String}
    {stored value : Value (Observed upstream) P} {policy : CachePolicy} (other : key ≠ TIP_CACHE_KEY)
    (there : cachedTip { s with cache := s.cache.store key stored policy } = some value) :
    s.cachedTip = some value := by
  obtain ⟨entry, found, rfl⟩ := Option.map_eq_some_iff.mp there
  rcases MemoryCache.get?_store found with ⟨same, -⟩ | ⟨-, kept⟩
  · exact absurd same.symm other
  · exact Option.map_eq_some_iff.mpr ⟨entry, kept, rfl⟩

omit [HasEpoch P] in
theorem cachedTip_store_tip {s : CachedProvider (Observed upstream) P}
    {stored value : Value (Observed upstream) P} {policy : CachePolicy}
    (there : cachedTip { s with cache := s.cache.store TIP_CACHE_KEY stored policy } = some value) :
    value = stored := by
  obtain ⟨entry, found, rfl⟩ := Option.map_eq_some_iff.mp there
  rcases MemoryCache.get?_store found with ⟨-, rfl⟩ | ⟨other, -⟩
  · rfl
  · exact absurd rfl other

/-- A tip put to use in order becomes the latest; the cached tip, if any, is that tip. -/
theorem Ordered.used (ordered : Ordered t) {observed : Observed upstream} (paired : s'.Paired)
    (later : t.latest ≤ observed.moment)
    (uncleared : s'.cache.clearGenerations = t.provider.cache.clearGenerations)
    (tokens : ∀ id recovery, s'.recoveries id = some recovery → recovery.tipGeneration = 0)
    (entry : ∀ value, s'.cachedTip = some value → value = .tip observed)
    (handled : ∀ id attempt other, s'.cache.attempts id = some attempt →
      attempt.phase = .handled (.ok (.tip other)) → other = observed ∨
        t.provider.cache.attempts id = some attempt)
    (served : s'.served = t.provider.served) :
    Ordered ⟨s', max t.latest observed.moment⟩ := by
  rw [Nat.max_eq_right later]
  refine ⟨paired, uncleared.trans ordered.uncleared, tokens, ?_, ?_, ?_, ?_⟩
  · intro value there
    exact ⟨observed, entry value there, rfl⟩
  · intro id attempt other there phase
    rcases handled id attempt other there phase with rfl | before
    · exact Nat.le_refl _
    · exact Nat.le_trans (ordered.handled id attempt other before phase) later
  · rw [served]
    intro value member
    obtain ⟨known, isTip, before⟩ := ordered.served value member
    exact ⟨known, isTip, Nat.le_trans before later⟩
  · rw [served]
    exact ordered.sorted

/-- A step of a load that hands nothing out and stores nothing. -/
theorem Ordered.setPhase (ordered : Ordered t) {id : Nat}
    {attempt : Attempt (Value (Observed upstream) P) ReadError Load}
    {phase : Phase (Value (Observed upstream) P) ReadError}
    (paired : s'.Paired) (same : s' = { t.provider with
      cache := t.provider.cache.setPhase id attempt phase })
    (known : ∀ observed, phase = .handled (.ok (.tip observed)) → observed.moment ≤ t.latest) :
    Ordered ⟨s', t.latest⟩ := by
  subst same
  refine ⟨paired, ordered.uncleared, ordered.tokens, ordered.entry, ?_, ordered.served,
    ordered.sorted⟩
  intro id' attempt' observed there handled
  change (t.provider.cache.setPhase id attempt phase).attempts id' = some attempt' at there
  rw [MemoryCache.setPhase_attempts] at there
  split at there
  · cases there
    exact known observed handled
  · exact ordered.handled id' attempt' observed there handled

/-- A tip that stands in for a failed load is the cached one. -/
theorem Ordered.fallback (ordered : Ordered t) {id : Nat}
    {attempt : Attempt (Value (Observed upstream) P) ReadError Load} {observed : Observed upstream}
    (known : t.provider.cache.attempts id = some attempt)
    (stale : t.provider.cache.fallback attempt = some (.tip observed)) :
    observed.moment ≤ t.latest := by
  rw [MemoryCache.fallback] at stale
  obtain ⟨entry, there, usable⟩ := Option.bind_eq_some_iff.mp stale
  split at usable
  · have isTip : entry.value = .tip observed := Option.some.inj usable
    have fits := ordered.paired.typed.entries attempt.key entry there
    rw [isTip] at fits
    obtain ⟨key, -⟩ := ordered.paired.tip_key known fits
    have cached : t.provider.cachedTip = some (.tip observed) := by
      rw [cachedTip, ← key, there, Option.map_some, isTip]
    obtain ⟨other, same, latest⟩ := ordered.entry _ cached
    cases same
    exact Nat.le_of_eq latest
  · cases usable

/-- A load whose value is stored, as no clear came in between. -/
theorem Ordered.handle_loaded (ordered : Ordered t) {id : Nat}
    {attempt : Attempt (Value (Observed upstream) P) ReadError Load}
    {value : Value (Observed upstream) P} (known : t.provider.cache.attempts id = some attempt)
    (loaded : attempt.phase = .loaded (.ok value)) :
    t.provider.cache.handle id =
      (t.provider.cache.store attempt.key value attempt.policy).setPhase id attempt
        (.handled (.ok value)) := by
  have zero := MemoryCache.generationFor_uncleared ordered.uncleared attempt.key
  have current : attempt.generation = t.provider.cache.generationFor attempt.key := by
    have bound := ordered.paired.consistent.stamped id attempt known
    omega
  simp only [MemoryCache.handle, known, loaded, if_pos current]

theorem Ordered.handle (ordered : Ordered t) {id : Nat} (inOrder : InOrder t (.handle id)) :
    Ordered (t.apply (.handle id)) := by
  have paired : ({ t.provider with cache := t.provider.cache.handle id } :
      CachedProvider (Observed upstream) P).Paired := ordered.paired.apply (.handle id)
  have later := inOrder.2
  rw [usedBy] at later
  rw [Tracked.apply, usedBy]
  change Ordered ⟨{ t.provider with cache := t.provider.cache.handle id }, _⟩
  cases known : t.provider.cache.attempts id with
  | none =>
    simp only [MemoryCache.handle, known]
    exact ordered
  | some attempt =>
    rw [known, Option.map_some] at later
    rw [Option.map_some]
    cases phase : attempt.phase with
    | loaded result =>
      rw [phase] at later
      cases result with
      | error error =>
        simp only [MemoryCache.handle, known, phase] at paired ⊢
        refine ordered.setPhase paired rfl ?_
        intro observed handled
        cases stale : t.provider.cache.fallback attempt with
        | none =>
          rw [stale] at handled
          cases handled
        | some value =>
          rw [stale] at handled
          cases handled
          exact ordered.fallback known stale
      | ok value =>
        have fits := ordered.paired.typed.attempts id attempt value known (by rw [phase]; rfl)
        rw [ordered.handle_loaded known phase] at paired ⊢
        cases value with
        | params params =>
          have other : attempt.key ≠ TIP_CACHE_KEY := by
            intro same
            obtain ⟨tip, impossible⟩ := fits.1 same
            cases impossible
          refine ordered.quiet paired (MemoryCache.store_clearGenerations ..) ordered.tokens
            (fun value there => cachedTip_store other there) ?_ (.inl rfl)
          intro id' attempt' observed there handled
          change ((t.provider.cache.store _ _ _).setPhase id attempt _).attempts id' =
            some attempt' at there
          rw [MemoryCache.setPhase_attempts, MemoryCache.store_attempts] at there
          split at there
          · cases there
            cases handled
          · exact there
        | tip observed =>
          obtain ⟨key, -⟩ := ordered.paired.tip_key known fits
          refine ordered.used paired (later observed rfl) (MemoryCache.store_clearGenerations ..)
            ordered.tokens ?_ ?_ rfl
          · intro value there
            rw [key] at there
            exact cachedTip_store_tip there
          · intro id' attempt' other there handled
            change ((t.provider.cache.store _ _ _).setPhase id attempt _).attempts id' =
              some attempt' at there
            rw [MemoryCache.setPhase_attempts, MemoryCache.store_attempts] at there
            split at there
            · cases there
              cases handled
              exact .inl rfl
            · exact .inr there
    | _ =>
      simp only [MemoryCache.handle, known, phase]
      exact ordered

/-- The readers of a load get a tip that is the latest put to use. -/
theorem Ordered.finish (ordered : Ordered t) {id : Nat} (inOrder : InOrder t (.finish id)) :
    Ordered (t.apply (.finish id)) := by
  have paired : (t.provider.finish id).Paired := ordered.paired.apply (.finish id)
  have later := inOrder.2
  have effect := MemoryCache.apply_effect t.provider.cache (.finish id)
  rw [usedBy] at later
  rw [Tracked.apply, usedBy]
  change Ordered ⟨t.provider.finish id, _⟩
  have unserved : ServesLatest t (t.provider.finish id) →
      Ordered ⟨t.provider.finish id, t.latest⟩ :=
    ordered.cache effect trivial paired rfl ordered.tokens
  cases known : t.provider.cache.attempts id with
  | none =>
    refine unserved (.inl ?_)
    simp only [CachedProvider.finish, known, List.append_nil]
  | some attempt =>
    rw [known, Option.map_some] at later
    rw [Option.map_some]
    obtain ⟨key, policy, load, generation, phase⟩ := attempt
    cases phase with
    | handled outcome =>
      cases outcome with
      | error error =>
        refine unserved (.inl ?_)
        simp only [CachedProvider.finish, known]
        cases load <;> exact List.append_nil _
      | ok value =>
        have fits := ordered.paired.typed.attempts id _ value known rfl
        cases value with
        | params params =>
          refine unserved (.inl ?_)
          cases load with
          | tip =>
            have tipped := ordered.paired.typed.made id _ known
            obtain ⟨tip, impossible⟩ := fits.1 tipped
            cases impossible
          | params e =>
            simp only [CachedProvider.finish, known, List.append_nil]
        | tip observed =>
          obtain ⟨-, rfl⟩ := ordered.paired.tip_key known fits
          have latest : observed.moment = t.latest :=
            Nat.le_antisymm (ordered.handled id _ observed known rfl) (later observed rfl)
          simp only [latest, Nat.max_self]
          refine unserved (.inr ⟨observed, latest, ?_⟩)
          simp only [CachedProvider.finish, known]
    | _ =>
      refine unserved (.inl ?_)
      simp only [CachedProvider.finish, known]
      cases load <;> exact List.append_nil _

theorem Ordered.answerRecoveryTip (ordered : Ordered t) {id : Nat}
    {answer : Except Failure (Observed upstream)} :
    Ordered ⟨t.provider.answerRecoveryTip id answer, t.latest⟩ := by
  have paired : (t.provider.answerRecoveryTip id answer).Paired := ordered.paired.answerRecoveryTip
  rw [CachedProvider.answerRecoveryTip] at paired ⊢
  cases there : t.provider.recoveries id with
  | none => exact ordered
  | some recovery =>
    have zero := ordered.tokens id recovery there
    simp only [there] at paired ⊢
    cases phase : recovery.phase with
    | awaitingTip =>
      rw [phase] at paired
      cases answer with
      | ok freshTip => exact ordered.aside paired rfl (ordered.tokens_withRecovery zero) rfl
      | error failure => exact ordered.aside paired rfl (ordered.tokens_withRecovery zero) rfl
    | _ => exact ordered

/-- A recovery that publishes caches its own tip. -/
theorem Ordered.cachedTip_publish (ordered : Ordered t)
    {recovery : Recovery (Observed upstream) P} {observed : Observed upstream} {params : P}
    {value : Value (Observed upstream) P} (zero : recovery.tipGeneration = 0)
    (there : (t.provider.publish recovery observed params).cachedTip = some value) :
    value = .tip observed := by
  have current : recovery.tipGeneration = t.provider.cache.generationFor TIP_CACHE_KEY :=
    zero.trans (MemoryCache.generationFor_uncleared ordered.uncleared _).symm
  have published : t.provider.cache.setIfGeneration TIP_CACHE_KEY (.tip observed) TIP_TTL_MS
      recovery.tipGeneration = t.provider.cache.store TIP_CACHE_KEY (.tip observed)
        (.ofTtl TIP_TTL_MS) := by
    rw [MemoryCache.setIfGeneration, if_neg (not_not_intro current)]
  rw [publish, published, MemoryCache.setIfGeneration] at there
  apply cachedTip_store_tip (s := t.provider)
  split at there
  · exact there
  · exact cachedTip_store (s := { t.provider with
      cache := t.provider.cache.store TIP_CACHE_KEY (.tip observed) (.ofTtl TIP_TTL_MS) })
      (protocolParamsKey_ne_tip _) there

omit [HasEpoch P] in
theorem setIfGeneration_fields (c : MemoryCache (Value (Observed upstream) P) ReadError Load)
    (key : String) (value : Value (Observed upstream) P) (ttlMs generation : Nat) :
    (c.setIfGeneration key value ttlMs generation).clearGenerations = c.clearGenerations ∧
      (c.setIfGeneration key value ttlMs generation).attempts = c.attempts := by
  rw [MemoryCache.setIfGeneration]
  split
  · exact ⟨rfl, rfl⟩
  · exact ⟨MemoryCache.store_clearGenerations .., MemoryCache.store_attempts ..⟩

theorem Ordered.answerRecoveryParams (ordered : Ordered t) {id : Nat} {answer : Except Failure P}
    (inOrder : InOrder t (.answerRecoveryParams id answer)) :
    Ordered (t.apply (.answerRecoveryParams id answer)) := by
  have paired : (t.provider.answerRecoveryParams id answer).Paired := ordered.paired.answerRecoveryParams
  have later := inOrder.2
  rw [Tracked.apply]
  change Ordered ⟨t.provider.answerRecoveryParams id answer, _⟩
  rw [CachedProvider.answerRecoveryParams] at paired ⊢
  cases there : t.provider.recoveries id with
  | none =>
    cases answer with
    | error failure => exact ordered
    | ok params =>
      simp only [usedBy, there, Option.map_none]
      exact ordered
  | some recovery =>
    have zero := ordered.tokens id recovery there
    simp only [there] at paired ⊢
    cases answer with
    | error failure =>
      cases phase : recovery.phase with
      | awaitingParams observed =>
        rw [phase] at paired
        exact ordered.aside paired rfl (ordered.tokens_withRecovery zero) rfl
      | _ => exact ordered
    | ok params =>
      simp only [usedBy, there, Option.map_some] at later ⊢
      cases phase : recovery.phase with
      | awaitingParams observed =>
        simp only [phase] at later paired ⊢
        by_cases matching : HasEpoch.epoch params = HasEpoch.epoch observed
        · rw [if_pos matching] at later ⊢
          rw [if_neg (not_not_intro matching)] at paired ⊢
          have first := setIfGeneration_fields t.provider.cache TIP_CACHE_KEY (.tip observed)
            TIP_TTL_MS recovery.tipGeneration
          have second := setIfGeneration_fields (t.provider.cache.setIfGeneration TIP_CACHE_KEY
            (.tip observed) TIP_TTL_MS recovery.tipGeneration)
            (protocolParamsKey (HasEpoch.epoch observed)) (.params params) PROTOCOL_PARAMS_TTL_MS
            recovery.paramsGeneration
          refine ordered.used paired (later observed rfl) (second.1.trans first.1)
            (ordered.tokens_withRecovery zero)
            (fun value there => ordered.cachedTip_publish zero there) ?_ rfl
          intro id' attempt' other known handled
          exact .inr ((congrFun (second.2.trans first.2) id').symm.trans known)
        · rw [if_neg matching]
          rw [if_pos matching] at paired ⊢
          exact ordered.aside paired rfl (ordered.tokens_withRecovery zero) rfl
      | _ => exact ordered

theorem Ordered.answerTip (ordered : Ordered t) {id : Nat}
    {answer : Except Failure (Observed upstream)} :
    Ordered ⟨t.provider.answerTip id answer, t.latest⟩ := by
  have paired : (t.provider.answerTip id answer).Paired := ordered.paired.answerTip
  unfold CachedProvider.answerTip at paired ⊢
  split at paired
  · exact ordered.cache (MemoryCache.apply_effect _ (.answer id _)) trivial paired rfl
      ordered.tokens (.inl rfl)
  · exact ordered

theorem Ordered.answerParams (ordered : Ordered t) {id : Nat} {answer : Except Failure P} :
    Ordered ⟨t.provider.answerParams id answer, t.latest⟩ := by
  have paired : (t.provider.answerParams id answer).Paired := ordered.paired.answerParams
  unfold CachedProvider.answerParams at paired ⊢
  split at paired
  · exact ordered.cache (MemoryCache.apply_effect _ (.answer id _)) trivial paired rfl
      ordered.tokens (.inl rfl)
  · exact ordered

theorem Ordered.clearRecovery (ordered : Ordered t) {id : Nat} :
    Ordered ⟨t.provider.clearRecovery id, t.latest⟩ := by
  have paired : (t.provider.clearRecovery id).Paired := ordered.paired.apply (.clearRecovery id)
  have same : (t.provider.clearRecovery id).cache = t.provider.cache ∧
      (t.provider.clearRecovery id).recoveries = t.provider.recoveries ∧
      (t.provider.clearRecovery id).served = t.provider.served := by
    unfold CachedProvider.clearRecovery
    split
    · split <;> exact ⟨rfl, rfl, rfl⟩
    · split <;> exact ⟨rfl, rfl, rfl⟩
    · exact ⟨rfl, rfl, rfl⟩
  refine ordered.aside paired same.1 ?_ same.2.2
  rw [same.2.1]
  exact ordered.tokens

/-- What an event in order keeps. -/
theorem Ordered.apply (ordered : Ordered t) {event : Event (Observed upstream) P}
    (inOrder : InOrder t event) : Ordered (t.apply event) := by
  have paired := ordered.paired.apply event
  cases event with
  | getTip id =>
    rw [Tracked.apply, CachedProvider.apply]
    split
    case isTrue free => exact ordered.getTip free
    case isFalse => exact ordered
  | getProtocolParams call id =>
    rw [Tracked.apply, CachedProvider.apply]
    split
    case isTrue free =>
      rw [Bool.and_eq_true] at free
      obtain ⟨read, returns⟩ := ordered.paired.getTip free.1
      exact ordered.cache (MemoryCache.read_effect (free_of_unused free.1).1) trivial
        (read.withCall returns) rfl ordered.tokens (ordered.getTip_served id)
    case isFalse => exact ordered
  | resume call id =>
    rw [Tracked.apply, CachedProvider.apply]
    split
    case isTrue free => exact ordered.resume free
    case isFalse => exact ordered
  | startLoad id =>
    exact ordered.cache (MemoryCache.apply_effect _ (.startLoad id)) trivial paired rfl
      ordered.tokens (.inl rfl)
  | answerTip id answer => exact ordered.answerTip
  | answerParams id answer => exact ordered.answerParams
  | handle id => exact ordered.handle inOrder
  | finish id => exact ordered.finish inOrder
  | answerRecoveryTip id answer => exact ordered.answerRecoveryTip
  | answerRecoveryParams id answer => exact ordered.answerRecoveryParams inOrder
  | clearRecovery id => exact ordered.clearRecovery
  | clear start => cases inOrder.1
  | tick now =>
    exact ordered.cache (MemoryCache.apply_effect _ (.tick now)) trivial paired rfl
      ordered.tokens (.inl rfl)

end Step

section Run

theorem create_ordered (maxEntries now : Nat) :
    Ordered (⟨withCache maxEntries now, 0⟩ : Tracked upstream P) where
  paired := ⟨MemoryCache.create_consistent maxEntries now, MemoryCache.create_typed maxEntries now,
    nofun, nofun⟩
  uncleared := rfl
  tokens := nofun
  entry := nofun
  handled := nofun
  served := nofun
  sorted := List.Pairwise.nil

theorem Ordered.run {t : Tracked upstream P} (ordered : Ordered t)
    {events : List (Event (Observed upstream) P)}
    (inOrder : Machine.Along Tracked.apply InOrder t events) :
    Ordered (Machine.run Tracked.apply t events) :=
  Machine.run_invariant (fun _ _ inOrder ordered => Ordered.apply ordered inOrder) inOrder ordered

theorem Tracked.run_provider (t : Tracked upstream P) (events : List (Event (Observed upstream) P)) :
    (Machine.run Tracked.apply t events).provider = t.provider.after events := by
  induction events generalizing t with
  | nil => rfl
  | cons event events ih => exact ih (t.apply event)

theorem Tracked.latest_le_run (t : Tracked upstream P)
    (events : List (Event (Observed upstream) P)) :
    t.latest ≤ (Machine.run Tracked.apply t events).latest := by
  refine Machine.run_preserves (P := fun t' : Tracked upstream P => t.latest ≤ t'.latest) ?_
    (Nat.le_refl _)
  intro t' event risen
  refine Nat.le_trans risen ?_
  change t'.latest ≤ (match t'.provider.usedBy event with
    | some observed => max t'.latest observed.moment
    | none => t'.latest)
  split
  · exact Nat.le_max_left _ _
  · exact Nat.le_refl _

omit [HasEpoch P] in
/-- The value is a tip of the upstream, and one no lower than the other. -/
def NoLower (value next : Value (Observed upstream) P) : Prop :=
  ∃ observed observed', value = .tip observed ∧ next = .tip observed' ∧
    observed.tip.block ≤ observed'.tip.block

/-- Where no tip is put to use after one that the upstream computed later, the tips
served never go back in height, and at no two points of the run does the later cached
tip lie below the earlier one. -/
theorem served_tips_rise (rising : Monotone fun moment => (upstream moment).block)
    {maxEntries now : Nat} {events : List (Event (Observed upstream) P)}
    (inOrder : Machine.Along Tracked.apply InOrder ⟨withCache maxEntries now, 0⟩ events) :
    ((withCache maxEntries now).after events).served.Pairwise NoLower ∧
      ∀ first rest, events = first ++ rest → ∀ value next,
        ((withCache maxEntries now).after first).cachedTip = some value →
        ((withCache maxEntries now).after events).cachedTip = some next → NoLower value next := by
  have ordered := (create_ordered maxEntries now).run inOrder
  rw [← Tracked.run_provider ⟨withCache maxEntries now, 0⟩]
  refine ⟨?_, ?_⟩
  · refine List.Pairwise.imp_of_mem ?_ ordered.sorted
    intro value next there there' sorted
    obtain ⟨observed, isTip, -⟩ := ordered.served value there
    obtain ⟨observed', isTip', -⟩ := ordered.served next there'
    exact ⟨observed, observed', isTip, isTip', rising (sorted observed observed' isTip isTip')⟩
  · rintro first rest rfl value next cached cached'
    rw [← Tracked.run_provider ⟨withCache maxEntries now, 0⟩] at cached
    have before := (create_ordered maxEntries now).run (Machine.along_append.mp inOrder).1
    obtain ⟨observed, isTip, latest⟩ := before.entry value cached
    obtain ⟨observed', isTip', latest'⟩ := ordered.entry next cached'
    refine ⟨observed, observed', isTip, isTip', rising ?_⟩
    rw [latest, latest', Machine.run_append]
    exact Tracked.latest_le_run _ rest

end Run

section Example

/-- The upstream answers a request for the tip with its tip of that very moment. -/
def Prompt (s : CachedProvider (Observed upstream) P) : Event (Observed upstream) P → Prop
  | .answerTip _ (.ok observed) => observed.moment = s.cache.now
  | .answerRecoveryTip _ (.ok observed) => observed.moment = s.cache.now
  | _ => True

instance (s : CachedProvider (Observed upstream) P) : DecidablePred (Prompt s)
  | .answerTip _ (.ok observed) => decEq observed.moment s.cache.now
  | .answerRecoveryTip _ (.ok observed) => decEq observed.moment s.cache.now
  | .answerTip _ (.error _) | .answerRecoveryTip _ (.error _) => .isTrue trivial
  | .getTip _ | .getProtocolParams .. | .resume .. | .startLoad _ | .answerParams .. | .handle _
  | .finish _ | .answerRecoveryParams .. | .clearRecovery _ | .clear _ | .tick _ => .isTrue trivial

/-- One block a second; the epoch turns with the first of them. -/
def steadyUpstream (moment : Nat) : Tip where
  block := 100 + moment / 1000
  slot := moment
  epoch := if moment < 1000 then 199 else 200
  hash := ""
  blockTime := moment

theorem steadyUpstream_rising : Monotone fun moment => (steadyUpstream moment).block := by
  intro earlier later le
  exact Nat.add_le_add_left (Nat.div_le_div_right le) 100

abbrev SteadyProvider : Type := CachedProvider (Observed steadyUpstream) ProtocolParams

/-- The block of a tip. -/
def Value.block? : Value (Observed upstream) P → Option Nat
  | .tip observed => some observed.tip.block
  | .params _ => none

/-- A recovery and a load of the expired tip are under way at once. The recovery publishes its tip,
which is served, before the load comes back with a newer one. -/
def orderedRecovery : List (Event (Observed steadyUpstream) ProtocolParams) :=
  [.getProtocolParams 0 0, .startLoad 0, .answerTip 0 (.ok ⟨0⟩), .handle 0, .finish 0,
    .resume 0 1, .startLoad 1, .tick 5000, .answerParams 1 (.ok ⟨200⟩), .handle 1, .finish 1,
    .resume 0 2, .tick 12000, .getTip 3, .startLoad 3, .answerRecoveryTip 2 (.ok ⟨12000⟩),
    .answerRecoveryParams 2 (.ok ⟨200⟩), .getTip 4, .tick 13000, .answerTip 3 (.ok ⟨13000⟩),
    .handle 3, .finish 3, .getTip 5]

theorem orderedRecovery_rises :
    ((withCache 10 0 : SteadyProvider).after orderedRecovery).served.map Value.block? =
        [some 100, some 112, some 113, some 113] ∧
      ((withCache 10 0 : SteadyProvider).after orderedRecovery).served.Pairwise NoLower ∧
      ∀ first rest, orderedRecovery = first ++ rest → ∀ value next,
        ((withCache 10 0 : SteadyProvider).after first).cachedTip = some value →
        ((withCache 10 0 : SteadyProvider).after orderedRecovery).cachedTip = some next →
          NoLower value next :=
  ⟨by decide, served_tips_rise steadyUpstream_rising (by decide)⟩

/-- A recovery reads its tip and waits seven seconds for its parameters. Meanwhile the
cached tip expires, and a newer one is read and served. -/
def overtakenRecovery : List (Event (Observed steadyUpstream) ProtocolParams) :=
  [.getProtocolParams 0 0, .startLoad 0, .answerTip 0 (.ok ⟨0⟩), .handle 0, .finish 0,
    .resume 0 1, .startLoad 1, .tick 5000, .answerParams 1 (.ok ⟨200⟩), .handle 1, .finish 1,
    .resume 0 2, .answerRecoveryTip 2 (.ok ⟨5000⟩), .tick 12000,
    .getTip 3, .startLoad 3, .answerTip 3 (.ok ⟨12000⟩), .handle 3, .finish 3,
    .answerRecoveryParams 2 (.ok ⟨200⟩), .getTip 4]

/-- The recovery puts its older tip in the place of the newer one, and the next caller
is served it. -/
theorem served_tip_falls :
    Monotone (fun moment => (steadyUpstream moment).block) ∧
      Machine.Along CachedProvider.apply Prompt (withCache 10 0) overtakenRecovery ∧
      (∀ event ∈ overtakenRecovery, clears event = false) ∧
      ((withCache 10 0 : SteadyProvider).after overtakenRecovery).served.map Value.block? =
        [some 100, some 112, some 105] ∧
      ((withCache 10 0 : SteadyProvider).after (overtakenRecovery.take 18)).cachedTip.map
        Value.block? = some (some 112) ∧
      ((withCache 10 0 : SteadyProvider).after overtakenRecovery).cachedTip.map Value.block? =
        some (some 105) :=
  ⟨steadyUpstream_rising, by decide, by decide, by decide, by decide,
    by decide⟩

end Example

end CachedProvider
end WalletBackend.Cached
