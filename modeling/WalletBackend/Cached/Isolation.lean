import WalletBackend.Cached.Mirrors
import WalletBackend.Library.Runs

/-! Consumers of one cache, each through a view of its own. A view shows what a private
cache would as long as its clears carry no prefix and its tokens are not taken after a
clear by someone else: the token of a view is that of the whole cache. -/
namespace WalletBackend.Cached
open Cache Containers

variable {V E L : Type}

/-- The cache that the views share, and what each consumer holds and has seen. -/
structure SharedCache (V E L : Type) where
  cache : MemoryCache V E L
  consumers : AppConfig → Consumer V E

/-- A call through a view; or a call by others, a step of a load, or the time. -/
inductive SharedEvent (V E L : Type) where
  | operate (config : AppConfig) (operation : Operation V L)
  | cache (event : Cache.Event V E L)

/-- A cache with one consumer. -/
structure PrivateCache (V E L : Type) where
  cache : MemoryCache V E L
  consumer : Consumer V E

inductive PrivateEvent (V E L : Type) where
  | operate (operation : Operation V L)
  | cache (event : Cache.Event V E L)

namespace SharedCache

def create (maxEntries now : Nat) : SharedCache V E L where
  cache := createMemoryCache maxEntries now
  consumers := fun _ => .new

def apply (s : SharedCache V E L) : SharedEvent V E L → SharedCache V E L
  | .operate config operation =>
      let performed := (s.consumers config).perform (scopeProviderCache memoryCache config) s.cache
        operation
      { cache := performed.1, consumers := Function.update s.consumers config performed.2 }
  | .cache event =>
      { cache := s.cache.apply event
        consumers := fun config => (s.consumers config).watch config.start s.cache event }

def after (s : SharedCache V E L) (events : List (SharedEvent V E L)) : SharedCache V E L :=
  Machine.run apply s events

end SharedCache

namespace PrivateCache

def create (maxEntries now : Nat) : PrivateCache V E L where
  cache := createMemoryCache maxEntries now
  consumer := .new

def apply (p : PrivateCache V E L) : PrivateEvent V E L → PrivateCache V E L
  | .operate operation =>
      let performed := p.consumer.perform memoryCache p.cache operation
      { cache := performed.1, consumer := performed.2 }
  | .cache event =>
      { cache := p.cache.apply event, consumer := p.consumer.watch "" p.cache event }

def after (p : PrivateCache V E L) (events : List (PrivateEvent V E L)) : PrivateCache V E L :=
  Machine.run apply p events

end PrivateCache

/-- The part of a run that concerns one view: its own calls, the steps of the loads, the
time. The steps of the loads of others find no promise of theirs in a private cache. -/
def project (config : AppConfig) : SharedEvent V E L → Option (PrivateEvent V E L)
  | .operate config' operation => if config' = config then some (.operate operation) else none
  | .cache (.read ..) | .cache (.set ..) | .cache (.setIfGeneration ..) | .cache (.clear _) => none
  | .cache event => some (.cache event)

/-- A call that the view passes on as it is meant: a clear of everything, or a write
under a token that was not taken after a later clear by someone else. -/
def PassedOn (config : AppConfig) (s : SharedCache V E L) : Operation V L → Prop
  | .setIfGeneration _ _ _ token =>
      ∀ taken ∈ (s.consumers config).tokens token, taken ≤ clearedAt s.cache config.start
  | .clear other => other.getD "" = ""
  | _ => True

/-- Promises are made under new numbers. -/
def Numbered (s : SharedCache V E L) : Operation V L → Prop
  | .read _ _ _ id => s.cache.attempts id = none
  | _ => True

/-- What others do is on other keys. -/
def Unrelated (config : AppConfig) : Cache.Event V E L → Prop
  | .read key _ _ _ => startsWith key config.start = false
  | .set key _ _ => startsWith key config.start = false
  | .setIfGeneration key _ _ _ => startsWith key config.start = false
  | .clear other => related (other.getD "") config.start = false
  | _ => True

/-- The cache is below its capacity, and the event is as the view expects it. -/
def Isolated (config : AppConfig) (s : SharedCache V E L) (event : SharedEvent V E L) : Prop :=
  s.cache.entries.size < s.cache.maxEntries ∧
    match event with
    | .operate config' operation =>
        Numbered s operation ∧ (config' = config → PassedOn config s operation)
    | .cache event => Unrelated config event

section Decidable

variable (config : AppConfig) (s : SharedCache V E L)

instance : DecidablePred (PassedOn config s : Operation V L → Prop)
  | .setIfGeneration _ _ _ token =>
      inferInstanceAs (Decidable (∀ taken ∈ (s.consumers config).tokens token, _))
  | .clear other => decEq (other.getD "") ""
  | .read .. | .peek _ | .set .. | .generation .. => .isTrue trivial

instance : DecidablePred (Numbered s : Operation V L → Prop)
  | .read _ _ _ id => decidable_of_iff ((s.cache.attempts id).isNone = true) Option.isNone_iff_eq_none
  | .setIfGeneration .. | .clear _ | .peek _ | .set .. | .generation .. => .isTrue trivial

instance : DecidablePred (Unrelated config : Cache.Event V E L → Prop)
  | .read key _ _ _ | .set key _ _ | .setIfGeneration key _ _ _ =>
      decEq (startsWith key config.start) false
  | .clear other => decEq (related (other.getD "") config.start) false
  | .startLoad _ | .answer .. | .handle _ | .finish _ | .tick _ => .isTrue trivial

instance : DecidablePred (Isolated config s)
  | .operate _ _ => inferInstanceAs (Decidable (_ ∧ _ ∧ (_ → _)))
  | .cache _ => inferInstanceAs (Decidable (_ ∧ _))

end Decidable

section Tokens

variable {start : String} {c c' p p' : MemoryCache V E L}

/-- The tokens of a consumer and of its double are in step. -/
def TokensInStep (start : String) (c p : MemoryCache V E L) (tokens tokens' : Nat → Option Nat) :
    Prop :=
  ∀ token, tokens token = none ∧ tokens' token = none ∨
    ∃ t t', tokens token = some t ∧ tokens' token = some t' ∧
      InStep (clearedAt c start) t (clearedAt p "") t' ∧
      t ≤ c.clearGeneration ∧ t' ≤ p.clearGeneration

theorem TokensInStep.mono {tokens tokens' : Nat → Option Nat}
    (inStep : TokensInStep start c p tokens tokens') (cleared : clearedAt c' start = clearedAt c start)
    (cleared' : clearedAt p' "" = clearedAt p "") (risen : c.clearGeneration ≤ c'.clearGeneration)
    (risen' : p.clearGeneration ≤ p'.clearGeneration) : TokensInStep start c' p' tokens tokens' := by
  intro token
  rcases inStep token with unheld | ⟨t, t', held, held', together, bound, bound'⟩
  · exact .inl unheld
  · refine .inr ⟨t, t', held, held', ?_, Nat.le_trans bound risen, Nat.le_trans bound' risen'⟩
    rw [cleared, cleared']
    exact together

/-- Only clears of just this prefix change its latest clear. -/
theorem clearedAt_effect {event : Cache.Event V E L} (effect : MemoryCache.Effect c event c')
    (others : ∀ other, event = .clear other → other.getD "" ≠ start) :
    clearedAt c' start = clearedAt c start := by
  cases effect with
  | cleared other =>
    rw [clearedAt, clearedAt, MemoryCache.clear_clearGenerations, KeyedMap.get?_set_of_ne]
    exact Ne.symm (others other rfl)
  | stored =>
    change ((MemoryCache.store ..).clearGenerations.get? start).getD 0 = _
    rw [MemoryCache.store_clearGenerations, clearedAt]
  | set => rw [clearedAt, clearedAt, MemoryCache.store_clearGenerations]
  | guarded => rw [clearedAt, clearedAt, MemoryCache.store_clearGenerations]
  | _ => rfl

end Tokens

/-- A view and its double: caches that mirror one another, tokens in step, and the same
seen so far. -/
structure Follows (config : AppConfig) (s : SharedCache V E L) (p : PrivateCache V E L) : Prop where
  mirrors : Mirrors config.start s.cache p.cache
  tokens : TokensInStep config.start s.cache p.cache (s.consumers config).tokens p.consumer.tokens
  seen : (s.consumers config).seen = p.consumer.seen

section Step

variable {config config' : AppConfig} {s : SharedCache V E L} {p : PrivateCache V E L}

/-- Something happens to the rest of the shared cache. -/
theorem Follows.elsewhere (follows : Follows config s p) {event : Cache.Event V E L}
    {s' : SharedCache V E L} (room : s.cache.entries.size < s.cache.maxEntries)
    (effect : MemoryCache.Effect s.cache event s'.cache)
    (away : Mirrors.Away config.start s.cache event)
    (same : s'.consumers config = s.consumers config) : Follows config s' p := by
  have others : ∀ other, event = .clear other → other.getD "" ≠ config.start := by
    rintro other rfl clash
    rw [Mirrors.Away, clash, related, startsWith_self, Bool.true_or] at away
    cases away
  refine ⟨follows.mirrors.effect_elsewhere room effect away, ?_, ?_⟩
  · rw [same]
    exact follows.tokens.mono (clearedAt_effect effect others) rfl effect.clearGeneration_le
      (Nat.le_refl _)
  · rw [same]
    exact follows.seen

/-- Two views have no key in common. -/
theorem outside_view (different : config' ≠ config) (key : String) :
    startsWith (config'.start ++ key) config.start = false := by
  by_contra inside
  rw [Bool.not_eq_false] at inside
  exact different (start_related (related_of_startsWith (startsWith_append _ key) inside))

/-- What a call through another view does is elsewhere. -/
theorem perform_elsewhere (different : config' ≠ config) {operation : Operation V L}
    (numbered : Numbered s operation) (consumer : Consumer V E) :
    ∃ event, MemoryCache.Effect s.cache event
        (consumer.perform (scopeProviderCache memoryCache config') s.cache operation).1 ∧
      Mirrors.Away config.start s.cache event := by
  have apart : Mirrors.Away config.start s.cache (.clear (some config'.start)) := by
    rw [Mirrors.Away, Option.getD_some]
    by_contra near
    rw [Bool.not_eq_false] at near
    exact different (start_related near)
  have outside := outside_view different
  cases operation with
  | read key policy load id =>
    exact ⟨_, MemoryCache.read_effect numbered, outside key⟩
  | peek key => exact ⟨_, .idle _, apart⟩
  | set key value ttlMs => exact ⟨_, .set (config'.start ++ key) value ttlMs, outside key⟩
  | generation key token => exact ⟨_, .idle _, apart⟩
  | setIfGeneration key value ttlMs token =>
    rw [Consumer.perform]
    cases consumer.tokens token with
    | none => exact ⟨_, .idle _, apart⟩
    | some generation =>
      have effect : MemoryCache.Effect s.cache
          (.setIfGeneration (config'.start ++ key) value ttlMs generation) _ :=
        MemoryCache.apply_effect s.cache _
      exact ⟨_, effect, outside key⟩
  | clear other => exact ⟨_, .cleared (some config'.start), apart⟩

/-- A token taken through the view is that of the whole cache, and is in step with one
of the private cache. -/
theorem Follows.hold (follows : Follows config s p) (key : Option String) :
    InStep (clearedAt s.cache config.start) (s.cache.generation none) (clearedAt p.cache "")
        (p.cache.generation key) ∧
      s.cache.generation none ≤ s.cache.clearGeneration ∧
      p.cache.generation key ≤ p.cache.clearGeneration := by
  have mirrors := follows.mirrors
  refine ⟨.inl ⟨?_, mirrors.generationFor' _⟩, mirrors.consistent.generationFor_le _,
    mirrors.consistent'.generationFor_le _⟩
  rw [clearedAt]
  cases cleared : s.cache.clearGenerations.get? config.start with
  | none => exact Nat.zero_le _
  | some n =>
    have concerns : related config.start "" = true := by rw [related, startsWith_empty, Bool.or_true]
    exact MemoryCache.le_generationFor concerns cleared

/-- A call through the view, by what it comes to on both sides. -/
theorem follows_of_performed {operation : Operation V L}
    {c' p' : MemoryCache V E L}
    (performed : (s.consumers config).perform (scopeProviderCache memoryCache config) s.cache
      operation = (c', s.consumers config))
    (performed' : p.consumer.perform memoryCache p.cache operation = (p', p.consumer))
    (mirrors : Mirrors config.start c' p')
    (tokens : TokensInStep config.start c' p' (s.consumers config).tokens p.consumer.tokens)
    (seen : (s.consumers config).seen = p.consumer.seen) :
    Follows config (s.apply (.operate config operation)) (p.apply (.operate operation)) := by
  rw [SharedCache.apply, PrivateCache.apply, performed, performed']
  refine ⟨mirrors, ?_, ?_⟩
  · change TokensInStep config.start c' p'
      (Function.update s.consumers config (s.consumers config) config).tokens _
    rw [Function.update_self]
    exact tokens
  · change (Function.update s.consumers config (s.consumers config) config).seen = _
    rw [Function.update_self]
    exact seen

/-- A call through the view, and the same call on the private cache. -/
theorem Follows.operate (follows : Follows config s p) {operation : Operation V L}
    (room : s.cache.entries.size < s.cache.maxEntries) (numbered : Numbered s operation)
    (meant : PassedOn config s operation) :
    Follows config (s.apply (.operate config operation)) (p.apply (.operate operation)) := by
  have mirrors := follows.mirrors
  have seen := follows.seen
  have unchanged : ∀ {event event' : Cache.Event V E L} {c' p' : MemoryCache V E L},
      MemoryCache.Effect s.cache event c' → MemoryCache.Effect p.cache event' p' →
      (∀ other, event ≠ .clear other) → (∀ other, event' ≠ .clear other) →
      TokensInStep config.start c' p' (s.consumers config).tokens p.consumer.tokens := by
    intro event event' c' p' effect effect' none' none''
    exact follows.tokens.mono
      (clearedAt_effect effect fun other same => absurd same (none' other))
      (clearedAt_effect effect' fun other same => absurd same (none'' other))
      effect.clearGeneration_le effect'.clearGeneration_le
  have updated : (s.apply (.operate config operation)).consumers config =
      ((s.consumers config).perform (scopeProviderCache memoryCache config) s.cache operation).2 :=
    Function.update_self ..
  cases operation with
  | read key policy load id =>
    obtain ⟨reading, mirrors'⟩ := mirrors.read numbered key policy load
    refine ⟨mirrors', ?_, ?_⟩
    · rw [updated]
      exact unchanged (MemoryCache.read_effect numbered)
        (MemoryCache.read_effect (mirrors.unused' numbered)) nofun nofun
    · rw [updated]
      change (s.consumers config).seen ++ [.returned _] = p.consumer.seen ++ [.returned _]
      rw [seen]
      exact congrArg (fun reading => p.consumer.seen ++ [.returned reading]) reading
  | peek key =>
    refine ⟨mirrors, ?_, ?_⟩
    · rw [updated]
      exact follows.tokens
    · rw [updated]
      change (s.consumers config).seen ++ [.peeked _] = p.consumer.seen ++ [.peeked _]
      rw [seen]
      exact congrArg (fun value => p.consumer.seen ++ [.peeked value]) (mirrors.peek key)
  | set key value ttlMs =>
    refine ⟨mirrors.store room key value _, ?_, ?_⟩
    · rw [updated]
      exact unchanged (.set _ value ttlMs) (.set key value ttlMs) nofun nofun
    · rw [updated]
      exact seen
  | generation key token =>
    obtain ⟨inStep, bound, bound'⟩ := follows.hold key
    refine ⟨mirrors, ?_, ?_⟩
    · rw [updated]
      intro token'
      by_cases same : token' = token
      · subst same
        exact .inr ⟨_, _, Function.update_self .., Function.update_self .., inStep, bound, bound'⟩
      · rcases follows.tokens token' with ⟨unheld, unheld'⟩ | ⟨t, t', held, held', rest⟩
        · exact .inl ⟨(Function.update_of_ne same _ _).trans unheld,
            (Function.update_of_ne same _ _).trans unheld'⟩
        · exact .inr ⟨t, t', (Function.update_of_ne same _ _).trans held,
            (Function.update_of_ne same _ _).trans held', rest⟩
    · rw [updated]
      exact seen
  | setIfGeneration key value ttlMs token =>
    rcases follows.tokens token with ⟨unheld, unheld'⟩ | ⟨t, t', held, held', inStep, -, -⟩
    · have performed : (s.consumers config).perform (scopeProviderCache memoryCache config) s.cache
          (.setIfGeneration key value ttlMs token) = (s.cache, s.consumers config) := by
        rw [Consumer.perform, unheld]
      have performed' : p.consumer.perform memoryCache p.cache
          (.setIfGeneration key value ttlMs token) = (p.cache, p.consumer) := by
        rw [Consumer.perform, unheld']
      exact follows_of_performed performed performed' mirrors follows.tokens seen
    · have performed : (s.consumers config).perform (scopeProviderCache memoryCache config) s.cache
          (.setIfGeneration key value ttlMs token) =
            (s.cache.setIfGeneration (config.start ++ key) value ttlMs t, s.consumers config) := by
        rw [Consumer.perform, held]
        rfl
      have performed' : p.consumer.perform memoryCache p.cache
          (.setIfGeneration key value ttlMs token) =
            (p.cache.setIfGeneration key value ttlMs t', p.consumer) := by
        rw [Consumer.perform, held']
        rfl
      have effect := MemoryCache.apply_effect s.cache
        (.setIfGeneration (config.start ++ key) value ttlMs t)
      have effect' := MemoryCache.apply_effect p.cache (.setIfGeneration key value ttlMs t')
      exact follows_of_performed performed performed'
        (mirrors.setIfGeneration room inStep (meant t held)) (unchanged effect effect' nofun nofun) seen
  | clear other =>
    refine ⟨mirrors.clear meant, ?_, ?_⟩
    · rw [updated]
      intro token
      rcases follows.tokens token with unheld | ⟨t, t', held, held', -, bound, bound'⟩
      · exact .inl unheld
      · have cleared := Mirrors.clearedAt_clear s.cache (some config.start)
        have cleared' := Mirrors.clearedAt_clear p.cache other
        rw [meant] at cleared'
        refine .inr ⟨t, t', held, held', .inr ⟨?_, ?_⟩, ?_, ?_⟩
        · exact cleared ▸ Nat.lt_succ_of_le bound
        · exact cleared' ▸ Nat.lt_succ_of_le bound'
        · exact Nat.le_succ_of_le bound
        · exact Nat.le_trans bound' (MemoryCache.Effect.cleared other).clearGeneration_le
    · rw [updated]
      exact seen

/-- Both consumers see the same settle. -/
theorem Follows.watch (follows : Follows config s p) (event : Cache.Event V E L) :
    ((s.consumers config).watch config.start s.cache event).tokens = (s.consumers config).tokens ∧
      (p.consumer.watch "" p.cache event).tokens = p.consumer.tokens ∧
      ((s.consumers config).watch config.start s.cache event).seen =
        (p.consumer.watch "" p.cache event).seen := by
  cases event with
  | finish id =>
    rw [Consumer.watch, Consumer.watch]
    cases known' : p.cache.attempts id with
    | none =>
      cases known : s.cache.attempts id with
      | none => exact ⟨rfl, rfl, follows.seen⟩
      | some a =>
        have outside := follows.mirrors.others id a known known'
        simp only [outside, if_neg Bool.false_ne_true]
        split
        · exact ⟨rfl, trivial, follows.seen⟩
        · exact ⟨rfl, trivial, follows.seen⟩
    | some a' =>
      obtain ⟨a, known, twins⟩ := follows.mirrors.attempts id a' known'
      have inside : startsWith a.key config.start = true := twins.key ▸ startsWith_append _ a'.key
      cases phase : a'.phase with
      | handled outcome =>
        simp only [known, twins.phase, phase, inside, startsWith_empty, if_true]
        refine ⟨rfl, rfl, ?_⟩
        exact congrArg (· ++ [Observation.settled id outcome]) follows.seen
      | _ =>
        simp only [known, twins.phase, phase, true_and]
        exact follows.seen
  | _ => exact ⟨rfl, rfl, follows.seen⟩

/-- An event of both caches. -/
theorem Follows.together (follows : Follows config s p) {event : Cache.Event V E L}
    (mirrors : Mirrors config.start (s.cache.apply event) (p.cache.apply event))
    (none' : ∀ other, event ≠ .clear other) :
    Follows config (s.apply (.cache event)) (p.apply (.cache event)) := by
  obtain ⟨tokens, tokens', seen⟩ := follows.watch event
  have effect := MemoryCache.apply_effect s.cache event
  have effect' := MemoryCache.apply_effect p.cache event
  refine ⟨mirrors, ?_, seen⟩
  have inStep := follows.tokens.mono
    (clearedAt_effect effect fun other same => absurd same (none' other))
    (clearedAt_effect effect' fun other same => absurd same (none' other))
    effect.clearGeneration_le effect'.clearGeneration_le
  rw [← tokens, ← tokens'] at inStep
  exact inStep

/-- What is not projected does not concern the view. -/
theorem Follows.apart (follows : Follows config s p) {event : Cache.Event V E L}
    (room : s.cache.entries.size < s.cache.maxEntries)
    (away : Mirrors.Away config.start s.cache event)
    (unseen : (s.consumers config).watch config.start s.cache event = s.consumers config) :
    Follows config (s.apply (.cache event)) p :=
  follows.elsewhere room (MemoryCache.apply_effect s.cache event) away unseen

/-- One step. -/
theorem Follows.apply (follows : Follows config s p) {event : SharedEvent V E L}
    (isolated : Isolated config s event) :
    Follows config (s.apply event) (((project config event).map p.apply).getD p) := by
  obtain ⟨room, expected⟩ := isolated
  cases event with
  | operate config' operation =>
    rw [project]
    by_cases same : config' = config
    · subst same
      rw [if_pos rfl]
      exact follows.operate room expected.1 (expected.2 rfl)
    · rw [if_neg same]
      obtain ⟨event, effect, away⟩ :=
        perform_elsewhere same expected.1 (s.consumers config')
      exact follows.elsewhere room effect away (Function.update_of_ne (Ne.symm same) _ _)
  | cache event =>
    have mirrors := follows.mirrors
    cases event with
    | read key policy load id => exact follows.apart room expected rfl
    | set key value ttlMs => exact follows.apart room expected rfl
    | setIfGeneration key value ttlMs token => exact follows.apart room expected rfl
    | clear other => exact follows.apart room expected rfl
    | startLoad id => exact follows.together (mirrors.load room rfl) nofun
    | answer id result => exact follows.together (mirrors.load room rfl) nofun
    | handle id => exact follows.together (mirrors.load room rfl) nofun
    | finish id => exact follows.together (mirrors.load room rfl) nofun
    | tick now => exact follows.together (mirrors.tick now) nofun

end Step

theorem create_follows (config : AppConfig) (maxEntries now : Nat) :
    Follows config (SharedCache.create maxEntries now : SharedCache V E L)
      (PrivateCache.create maxEntries now) :=
  ⟨create_mirrors config.start maxEntries now, fun _ => .inl ⟨rfl, rfl⟩, rfl⟩

/-- As long as the shared cache is below its capacity, the view is called as it expects,
and the others keep to their keys, its consumer sees just what it would see alone with a
private cache. -/
theorem views_are_isolated (config : AppConfig) {maxEntries now : Nat}
    {events : List (SharedEvent V E L)}
    (isolated : Machine.Along SharedCache.apply (Isolated config) (SharedCache.create maxEntries now)
      events) :
    (((SharedCache.create maxEntries now).after events).consumers config).seen =
      ((PrivateCache.create maxEntries now).after (events.filterMap (project config))).consumer.seen := by
  have followed : Follows config ((SharedCache.create maxEntries now).after events)
      ((PrivateCache.create maxEntries now).after (events.filterMap (project config))) :=
    Machine.run_follows (fun _ _ _ isolated follows => Follows.apply follows isolated) isolated
      (create_follows config maxEntries now)
  exact followed.seen

section Example

/-- The view of the tests, and its operations on small numbers. -/
def preprod : AppConfig := ⟨.koios, .preprod⟩

/-- A view is used next to the prices, and cleared. -/
def peacefulRun : List (SharedEvent Nat Unit Unit) :=
  [.cache (.set "price:ada" 7 100), .operate preprod (.generation (some "tip") 0),
    .operate preprod (.setIfGeneration "tip" 10 100 0), .operate preprod (.peek "tip"),
    .operate preprod (.clear none), .operate preprod (.peek "tip")]

theorem peacefulRun_is_isolated :
    (((SharedCache.create 10 0).after peacefulRun).consumers preprod).seen =
      ((PrivateCache.create 10 0).after (peacefulRun.filterMap (project preprod))).consumer.seen := by
  apply views_are_isolated
  decide

/-- The prices are cleared before the view takes its token. -/
def clearedPrices : List (SharedEvent Nat Unit Unit) :=
  [.cache (.clear (some "price:")), .operate preprod (.generation (some "tip") 0),
    .operate preprod (.setIfGeneration "tip" 10 100 0), .operate preprod (.peek "tip")]

/-- The view is cleared in part. -/
def clearedPart : List (SharedEvent Nat Unit Unit) :=
  [.operate preprod (.set "asset:meta:aa" 10 100), .operate preprod (.clear (some "chain:")),
    .operate preprod (.peek "asset:meta:aa")]

/-- After a clear of the prices nothing is stored through the view any more, and a clear of
one prefix drops the others with it; a private cache would serve both values. -/
theorem view_is_disturbed :
    (((SharedCache.create 10 0).after clearedPrices).consumers preprod).seen = [.peeked none] ∧
      ((PrivateCache.create 10 0).after (clearedPrices.filterMap (project preprod))).consumer.seen =
        [.peeked (some 10)] ∧
      (((SharedCache.create 10 0).after clearedPart).consumers preprod).seen = [.peeked none] ∧
      ((PrivateCache.create 10 0).after (clearedPart.filterMap (project preprod))).consumer.seen =
        [.peeked (some 10)] :=
  ⟨rfl, rfl, rfl, rfl⟩

end Example

end WalletBackend.Cached
