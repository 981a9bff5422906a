import WalletBackend.Blockfrost.PoolPages
import Mathlib.Logic.Relation

/-! Pages of the pool list by the epoch they rank. Those of a known epoch are of its
ranking. Where the epoch is not known a page is cut from a fresh scan, but the pages of
all epochs that are not known have one key, and the cache hands them out again. -/
namespace WalletBackend.Blockfrost.Pools
open Cache Containers Interaction

variable {O : Type} {toLowerCase : String → String}

namespace PoolList

variable {s s' : PoolList O}

section Answers

/-- The load of a page whose epoch was not known was begun by a call that waits for it. -/
def Asked (s : PoolList O) : Prop :=
  ∀ id attempt params, s.cache.attempts id = some attempt → attempt.load = .page params none →
    ∃ call, s.calls call = some (.asked params none (.attempt id))

/-- A page that goes to a request that did not know the epoch was built by the load that
the request began, or found under way. -/
def Fresh (s : PoolList O) : Prop :=
  ∀ call params reading page, s.calls call = some (.asked params none reading) →
    s.cache.Resolves (.page page) reading → reading = .attempt page.load

/-- The event hands out no value and begins no page whose epoch is not known. -/
def Silent (event : Cache.Event (Value O) Failure Load) : Prop :=
  (∀ id, event ≠ .handle id) ∧ ∀ key policy params id, event ≠ .read key policy (.page params none) id

/-- The calls stay as they are, and the cache takes silent steps. -/
structure Quiet (s s' : PoolList O) : Prop where
  calls : s'.calls = s.calls
  cache : Relation.ReflTransGen
    (fun c c' => ∃ event, Silent event ∧ MemoryCache.Effect c event c') s.cache s'.cache

theorem Quiet.of_effect {event : Cache.Event (Value O) Failure Load}
    (effect : MemoryCache.Effect s.cache event s'.cache) (calls : s'.calls = s.calls)
    (silent : Silent event) : Quiet s s' :=
  ⟨calls, .single ⟨event, silent, effect⟩⟩

theorem Quiet.trans {s'' : PoolList O} (first : Quiet s s') (second : Quiet s' s'') : Quiet s s'' :=
  ⟨second.calls.trans first.calls, first.cache.trans second.cache⟩

theorem Quiet.resolves (quiet : Quiet s s') {value : Value O} {reading : Reading (Value O)} :
    s'.cache.Resolves value reading ↔ s.cache.Resolves value reading := by
  have chain := quiet.cache
  generalize s'.cache = cache at chain ⊢
  induction chain with
  | refl => exact Iff.rfl
  | tail _ last ih =>
    obtain ⟨event, silent, effect⟩ := last
    exact (effect.resolves_iff silent.1).trans ih

theorem Quiet.fresh_iff (quiet : Quiet s s') : s'.Fresh ↔ s.Fresh := by
  simp only [Fresh, quiet.calls, quiet.resolves]

theorem Quiet.asked (quiet : Quiet s s') (asked : s.Asked) : s'.Asked := by
  have chain := quiet.cache
  rw [Asked, quiet.calls]
  generalize s'.cache = cache at chain ⊢
  induction chain with
  | refl => exact asked
  | tail _ last ih =>
    obtain ⟨event, silent, effect⟩ := last
    intro id attempt params there load
    rcases effect.origin there with ⟨before, known, same⟩ | ⟨-, made⟩
    · exact ih id before params known (same.trans load)
    · rw [load] at made
      exact absurd made (silent.2 _ _ _ _)

theorem quiet_answer (id : Nat) (result : Except Failure (Value O)) :
    Quiet s { s with cache := s.cache.answer id result } :=
  .of_effect (MemoryCache.apply_effect s.cache (.answer id result)) rfl
    ⟨fun _ => nofun, fun _ _ _ _ => nofun⟩

theorem quiet_refl : Quiet s s := ⟨rfl, .refl⟩

theorem quiet_withBuild (id : Nat) (build : Build O) : Quiet s (s.withBuild id build) :=
  ⟨rfl, .refl⟩

theorem quiet_startLoad {id scan : Nat} (unused : s.cache.attempts scan = none) :
    Quiet s (s.startLoad id scan) := by
  have effect := MemoryCache.apply_effect s.cache (.startLoad id)
  have started : Quiet s { s with cache := s.cache.startLoad id } :=
    .of_effect effect rfl ⟨fun _ => nofun, fun _ _ _ _ => nofun⟩
  unfold PoolList.startLoad
  split
  case h_1 key policy params epoch generation there =>
    apply started.trans
    cases epoch with
    | none => exact quiet_withBuild id .scanning
    | some e =>
      have unused' : (s.cache.startLoad id).attempts scan = none :=
        effect.unused_kept unused fun _ _ _ => nofun
      exact .of_effect (MemoryCache.read_effect unused') rfl
        ⟨fun _ => nofun, fun _ _ _ _ => nofun⟩
  case h_2 => exact started
  case h_3 => exact quiet_refl

theorem quiet_scanned (id : Nat) (outcome : Except Failure (List PoolExtendedRow)) :
    Quiet s (s.scanned id outcome) := by
  unfold PoolList.scanned
  split
  case h_1 => exact quiet_answer ..
  case h_2 =>
    cases outcome with
    | ok rows => exact quiet_withBuild ..
    | error failure => exact quiet_answer ..
  case h_3 => exact quiet_refl

theorem quiet_resumeBuild (id : Nat) : Quiet s (s.resumeBuild id) := by
  unfold PoolList.resumeBuild
  split
  · split
    · exact quiet_withBuild ..
    · exact quiet_answer ..
    · exact quiet_refl
  · exact quiet_refl

theorem quiet_hydrated (id : Nat) (hydration : Hydration toLowerCase) :
    Quiet s (s.hydrated id hydration) := by
  unfold PoolList.hydrated
  split
  · exact quiet_answer ..
  · exact quiet_refl

theorem getPoolList_asked (call : Nat) (params : PoolListParams) {call' : Nat}
    {params' : PoolListParams} {epoch : Option Nat} {reading : Reading (Value O)} :
    (s.getPoolList call params).calls call' = some (.asked params' epoch reading) ↔
      s.calls call' = some (.asked params' epoch reading) := by
  unfold PoolList.getPoolList
  split
  case h_1 unused =>
    change Function.update s.calls call _ call' = _ ↔ _
    rw [Function.update_apply]
    split
    case isTrue same =>
      subst same
      rw [unused]
      constructor
      · intro found
        split at found
        · cases found
        · cases found
      · nofun
    case isFalse => exact Iff.rfl
  case h_2 => exact Iff.rfl

theorem getPoolList_cache (call : Nat) (params : PoolListParams) :
    (s.getPoolList call params).cache = s.cache := by
  unfold PoolList.getPoolList
  split
  · rfl
  · rfl

/-- The load of a page whose epoch is not known is found by the key. -/
theorem Sound.unknown_load (sound : s.Sound) {id : Nat}
    {attempt : Attempt (Value O) Failure Load} {params : PoolListParams}
    (there : s.cache.attempts id = some attempt) (key : attempt.key = pageKey params none) :
    ∃ params', attempt.load = .page params' none := by
  have meant := sound.typed.made id attempt there
  rw [key] at meant
  cases load : attempt.load with
  | ranking epoch =>
    rw [load] at meant
    exact absurd meant.symm (rankingKey_ne_pageKey _ _ _)
  | page params' epoch =>
    rw [load] at meant
    cases pageKey_epoch meant
    exact ⟨params', rfl⟩
  | other =>
    rw [load] at meant
    cases (pageKey_inside params none).symm.trans meant

/-- What a reading under the key of a page resolves to is a page. -/
theorem Sound.page_of_resolves (sound : s.Sound) {params : PoolListParams} {epoch : Option Nat}
    {reading : Reading (Value O)} {value : Value O}
    (returns : Returns s.cache (pageKey params epoch) reading)
    (resolves : s.cache.Resolves value reading) :
    ∃ page, value = .page page ∧ Source s.cache page.load page.ranking epoch :=
  have ⟨page, isPage, source, _⟩ := (returns.resolved sound.typed resolves).2 params epoch rfl
  ⟨page, isPage, source⟩

section Resume

variable {call id : Nat} {epoch : Option Nat} {params : PoolListParams}

theorem resumeCall_eq (waiting : s.calls call = some (.awaitingEpoch params)) :
    s.resumeCall call epoch id =
      let read := s.cache.read (pageKey params epoch) pagePolicy (.page params epoch) id
      { s with cache := read.1 }.withCall call (.asked params epoch read.2) := by
  unfold PoolList.resumeCall
  rw [waiting]

theorem Asked.resumeCall (asked : s.Asked) (unused : s.cache.attempts id = none) :
    (s.resumeCall call epoch id).Asked := by
  unfold PoolList.resumeCall
  split
  case h_1 params waiting =>
    intro id' attempt params' there load
    change ∃ call', Function.update s.calls call _ call' = _
    have effect : MemoryCache.Effect s.cache
        (.read (pageKey params epoch) pagePolicy (.page params epoch) id) _ :=
      MemoryCache.read_effect unused
    rcases effect.origin there with ⟨before, known, same⟩ | ⟨unmade, made⟩
    · obtain ⟨call', waits⟩ := asked id' before params' known (same.trans load)
      refine ⟨call', ?_⟩
      rw [Function.update_of_ne]
      · exact waits
      · rintro rfl
        cases waiting.symm.trans waits
    · obtain ⟨-, -, sameLoad, rfl⟩ := Cache.Event.read.inj made
      cases sameLoad.trans load
      refine ⟨call, ?_⟩
      rw [Function.update_self, MemoryCache.read_made unused]
      intro absent
      cases absent.symm.trans there
  case h_2 => exact asked

theorem resumeCall_idle (still : ∀ params, s.calls call ≠ some (.awaitingEpoch params)) :
    s.resumeCall call epoch id = s := by
  unfold PoolList.resumeCall
  split
  case h_1 params waiting => exact absurd waiting (still params)
  case h_2 => rfl

/-- A call that waits for the epoch has not asked for a page. -/
theorem asked_withCall (waiting : s.calls call = some (.awaitingEpoch params)) {state : Call O}
    {call' : Nat} {params' : PoolListParams} {epoch' : Option Nat} {reading : Reading (Value O)}
    (there : s.calls call' = some (.asked params' epoch' reading)) :
    (s.withCall call state).calls call' = some (.asked params' epoch' reading) := by
  change Function.update s.calls call (some state) call' = _
  rw [Function.update_of_ne]
  · exact there
  · rintro rfl
    cases waiting.symm.trans there

/-- A request that finds no live page is given its own load, or one that is under way. -/
theorem Sound.fresh_read (sound : s.Sound) (asked : s.Asked) (fresh : s.Fresh)
    (unused : s.cache.attempts id = none) (missed : s.cache.peek (pageKey params none) = none)
    {reading : Reading (Value O)} {page : Page}
    (result : (s.cache.read (pageKey params none) pagePolicy (.page params none) id).2 = reading)
    (resolved : s.cache.Resolves (.page page) reading) : reading = .attempt page.load := by
  cases reading with
  | hit value => cases missed.symm.trans (MemoryCache.read_hit result).1
  | attempt pending =>
    have effect : MemoryCache.Effect s.cache
        (.read (pageKey params none) pagePolicy (.page params none) id) _ :=
      MemoryCache.read_effect unused
    obtain ⟨after, known, key⟩ := sound.consistent.read_attempt result
    have ⟨before, there, _⟩ := resolved
    obtain ⟨phase, kept⟩ := effect.attempt_kept there
    obtain rfl := Option.some.inj (known.symm.trans kept)
    obtain ⟨params', load⟩ := sound.unknown_load there key
    obtain ⟨call, waits⟩ := asked pending before params' there load
    exact fresh call params' _ page waits resolved

/-- A request that does not know the epoch gets a page of its own or one under way,
unless the cache has one for it. -/
theorem Sound.fresh_resumeCall (sound : s.Sound) (asked : s.Asked)
    (unused : s.cache.attempts id = none) (waiting : s.calls call = some (.awaitingEpoch params)) :
    (s.resumeCall call epoch id).Fresh ↔
      s.Fresh ∧ (epoch = none → s.cache.peek (pageKey params none) = none) := by
  rw [resumeCall_eq waiting]
  constructor
  · intro fresh
    constructor
    · intro call' params' reading page there resolved
      exact fresh call' params' reading page (asked_withCall waiting there)
        ((MemoryCache.resolves_read unused).mpr resolved)
    · rintro rfl
      cases found : s.cache.peek (pageKey params none) with
      | none => rfl
      | some value =>
        obtain ⟨page, rfl, -⟩ := (sound.typed.peek found).2 params none rfl
        have hit : (s.cache.read (pageKey params none) pagePolicy (.page params none) id).2 =
            .hit (.page page) := by
          rw [MemoryCache.read, found]
        have own := fresh call params _ page (Function.update_self ..) (by rw [hit]; rfl)
        cases hit.symm.trans own
  · rintro ⟨fresh, missing⟩ call' params' reading page there resolved
    have before := (MemoryCache.resolves_read unused).mp resolved
    change Function.update s.calls call _ call' = _ at there
    rw [Function.update_apply] at there
    split at there
    case isTrue =>
      obtain ⟨rfl, rfl, result⟩ := Call.asked.inj (Option.some.inj there)
      exact sound.fresh_read asked fresh unused (missing rfl) result before
    case isFalse => exact fresh call' params' reading page there before

end Resume

theorem Asked.cache (asked : s.Asked) {event : Cache.Event (Value O) Failure Load}
    {cache : MemoryCache (Value O) Failure Load} (effect : MemoryCache.Effect s.cache event cache)
    (other : ∀ key policy params id, event ≠ .read key policy (.page params none) id) :
    ({ s with cache } : PoolList O).Asked := by
  intro id attempt params there load
  rcases effect.origin there with ⟨before, known, same⟩ | ⟨-, made⟩
  · exact asked id before params known (same.trans load)
  · rw [load] at made
    exact absurd made (other _ _ _ _)

/-- The outcome of a load is handed out: the page it has built, or after a failure one
that the cache has kept. -/
theorem Sound.fresh_handle (sound : s.Sound) (asked : s.Asked) (id : Nat) :
    ({ s with cache := s.cache.handle id } : PoolList O).Fresh ↔ s.Fresh ∧
      ∀ attempt params failure, s.cache.attempts id = some attempt →
        attempt.load = .page params none → attempt.phase = .loaded (.error failure) →
          s.cache.fallback attempt = none := by
  have effect := MemoryCache.apply_effect s.cache (.handle id)
  constructor
  · intro fresh
    constructor
    · intro call params reading page there resolved
      exact fresh call params reading page there (effect.resolves_kept resolved)
    · intro attempt params failure there load failed
      cases stale : s.cache.fallback attempt with
      | none => rfl
      | some value =>
        have key : attempt.key = pageKey params none := by
          have meant := sound.typed.made id attempt there
          rwa [load] at meant
        obtain ⟨page, rfl, -, built, known, loaded⟩ :=
          (sound.typed.fallback stale).2 params none key
        obtain ⟨call, waits⟩ := asked id attempt params there load
        have resolved : (s.cache.handle id).Resolves (.page page) (.attempt id) := by
          refine ⟨{ attempt with phase := .handled (.ok (.page page)) }, ?_, rfl⟩
          simp only [MemoryCache.handle, there, failed, stale, MemoryCache.setPhase_attempts, if_true]
        -- The load has failed, so the page is another one's.
        obtain rfl := Reading.attempt.inj (fresh call params _ page waits resolved)
        obtain rfl : built = attempt := Option.some.inj (known.symm.trans there)
        rw [failed] at loaded
        cases loaded
  · rintro ⟨fresh, nothing⟩ call params reading page there resolved
    cases reading with
    | hit value => exact fresh call params _ page there resolved
    | attempt pending =>
      rcases effect.resolves_new resolved with before | ⟨same, attempt, known, outcome⟩
      · exact fresh call params _ page there before
      · cases same
        obtain ⟨attempt', known', key⟩ := sound.calls call params none _ there
        obtain rfl : attempt' = attempt := Option.some.inj (known'.symm.trans known)
        obtain ⟨params', load⟩ := sound.unknown_load known key
        rcases outcome with loaded | ⟨failure, failed, stale⟩
        · rw [sound.own id attempt' params' none page known load loaded]
        · cases (nothing attempt' params' failure known load failed).symm.trans stale

/-- The page that a request gets which does not know the epoch is not one that the cache
has kept: the request finds none, and if its load fails there is none to fall back on. -/
def Uncached (s : PoolList O) : Event O toLowerCase → Prop
  | .cacheEpoch call currentEpoch id =>
      ∀ params, s.calls call = some (.awaitingEpoch params) → s.cache.attempts id = none →
        Pools.cacheEpoch currentEpoch = none → s.cache.peek (pageKey params none) = none
  | .cache (.handle id) =>
      ∀ attempt params failure, s.cache.attempts id = some attempt →
        attempt.load = .page params none → attempt.phase = .loaded (.error failure) →
          s.cache.fallback attempt = none
  | _ => True

theorem quiet_elsewhere {event : Cache.Event (Value O) Failure Load}
    (away : Pools.elsewhere s.cache event = true) (other : ∀ id, event ≠ .handle id) :
    Quiet s { s with cache := s.cache.apply event } := by
  refine .of_effect (MemoryCache.apply_effect s.cache event) rfl ⟨other, ?_⟩
  rintro key policy params id rfl
  simp [Pools.elsewhere] at away

theorem Asked.apply (asked : s.Asked) (event : Event O toLowerCase) : (s.apply event).Asked := by
  cases event with
  | getPoolList call params =>
    intro id attempt params' there load
    rw [PoolList.apply, getPoolList_cache] at there
    obtain ⟨call', waits⟩ := asked id attempt params' there load
    exact ⟨call', (getPoolList_asked call params).mpr waits⟩
  | cacheEpoch call currentEpoch id =>
    rw [PoolList.apply]
    split
    case isTrue => exact asked
    case isFalse free => exact asked.resumeCall (Option.not_isSome_iff_eq_none.mp free)
  | startLoad id scan =>
    rw [PoolList.apply]
    split
    case isTrue => exact asked
    case isFalse free => exact (quiet_startLoad (Option.not_isSome_iff_eq_none.mp free)).asked asked
  | scanned id outcome => exact (quiet_scanned id outcome.val).asked asked
  | resumeBuild id => exact (quiet_resumeBuild id).asked asked
  | hydrated id hydration => exact (quiet_hydrated id hydration).asked asked
  | cache event =>
    rw [PoolList.apply]
    split
    case isTrue away =>
      apply asked.cache (MemoryCache.apply_effect s.cache event)
      rintro key policy params id rfl
      simp [Pools.elsewhere] at away
    case isFalse => exact asked

/-- A step keeps the pages fresh if and only if it hands out none that the cache kept. -/
theorem Sound.fresh_apply (sound : s.Sound) (asked : s.Asked) (event : Event O toLowerCase) :
    (s.apply event).Fresh ↔ s.Fresh ∧ s.Uncached event := by
  cases event with
  | getPoolList call params =>
    simp only [Fresh, PoolList.apply, getPoolList_cache, getPoolList_asked, Uncached, and_true]
  | cacheEpoch call currentEpoch id =>
    rw [PoolList.apply]
    cases used : s.cache.attempts id with
    | some attempt => simp [Uncached, used]
    | none =>
      simp only [Option.isSome_none, Bool.false_eq_true, if_false, Uncached, used, true_imp_iff]
      by_cases waits : ∃ params, s.calls call = some (.awaitingEpoch params)
      · obtain ⟨params, waiting⟩ := waits
        rw [sound.fresh_resumeCall asked used waiting]
        simp only [waiting, Option.some.injEq, Call.awaitingEpoch.injEq, forall_eq']
      · have still : ∀ params, s.calls call ≠ some (.awaitingEpoch params) :=
          fun params waiting => waits ⟨params, waiting⟩
        rw [resumeCall_idle still]
        exact ⟨fun fresh => ⟨fresh, fun params waiting => absurd waiting (still params)⟩, And.left⟩
  | startLoad id scan =>
    rw [PoolList.apply]
    split
    case isTrue => exact (and_iff_left trivial).symm
    case isFalse free =>
      rw [(quiet_startLoad (Option.not_isSome_iff_eq_none.mp free)).fresh_iff]
      exact (and_iff_left trivial).symm
  | scanned id outcome =>
    exact (quiet_scanned id outcome.val).fresh_iff.trans (and_iff_left trivial).symm
  | resumeBuild id => exact (quiet_resumeBuild id).fresh_iff.trans (and_iff_left trivial).symm
  | hydrated id hydration =>
    exact (quiet_hydrated id hydration).fresh_iff.trans (and_iff_left trivial).symm
  | cache event =>
    rw [PoolList.apply]
    split
    case isTrue away =>
      cases event with
      | handle id => exact sound.fresh_handle asked id
      | _ =>
        refine (quiet_elsewhere away ?_).fresh_iff.trans (and_iff_left trivial).symm
        intro id same
        cases same
    case isFalse near =>
      cases event with
      | handle id => exact absurd rfl near
      | _ => exact (and_iff_left trivial).symm

end Answers

/-- What is to hold of the pages that the calls are given. -/
structure KeyedByEpoch (s : PoolList O) : Prop where
  /-- A page of a known epoch is cut from a ranking that was loaded under that epoch. -/
  known : ∀ call params epoch reading value, s.calls call = some (.asked params (some epoch) reading) →
    s.cache.Resolves value reading → ∃ page, value = .page page ∧ HeldUnder s.cache epoch page.ranking
  /-- Without an epoch, the page is the one that the load built which the request began or
  found under way, and from a scan by that load. -/
  unknown : ∀ call params reading value, s.calls call = some (.asked params none reading) →
    s.cache.Resolves value reading →
      ∃ page, value = .page page ∧ reading = .attempt page.load ∧ page.ranking.scan = page.load

theorem Sound.keyedByEpoch_iff (sound : s.Sound) : s.KeyedByEpoch ↔ s.Fresh := by
  constructor
  · intro keyed call params reading page there resolved
    obtain ⟨_, same, own, -⟩ := keyed.unknown call params reading _ there resolved
    cases same
    exact own
  · intro fresh
    constructor
    · intro call params epoch reading value there resolved
      exact sound.page_of_resolves (sound.calls call params _ reading there) resolved
    · intro call params reading value there resolved
      obtain ⟨page, rfl, source⟩ :=
        sound.page_of_resolves (sound.calls call params none reading there) resolved
      exact ⟨page, rfl, fresh call params reading page there resolved, source⟩

structure Invariant (s : PoolList O) : Prop where
  sound : s.Sound
  asked : s.Asked

theorem Invariant.apply (invariant : s.Invariant) (event : Event O toLowerCase) :
    (s.apply event).Invariant :=
  ⟨invariant.sound.apply event, invariant.asked.apply event⟩

/-- The pages of a run are keyed by their epochs if and only if no step of it hands out a
page that the cache has kept for requests that do not know the epoch. Those that know it
never get a page of another one. -/
theorem pages_keyed_iff (maxEntries now : Nat) (events : List (Event O toLowerCase)) :
    ((create maxEntries now : PoolList O).after events).KeyedByEpoch ↔
      Machine.Along apply Uncached (create maxEntries now) events := by
  have initial : (create maxEntries now : PoolList O).Invariant :=
    ⟨create_sound maxEntries now, fun _ _ _ held => nomatch held⟩
  have fresh : (create maxEntries now : PoolList O).Fresh := fun _ _ _ _ held => nomatch held
  have kept : ((create maxEntries now : PoolList O).after events).Invariant :=
    Machine.run_preserves (fun s event invariant => invariant.apply event) initial
  have step : ∀ (s : PoolList O) (event : Event O toLowerCase), s.Invariant →
      ((s.apply event).Fresh ↔ s.Fresh ∧ s.Uncached event) :=
    fun s event invariant => invariant.sound.fresh_apply invariant.asked event
  calc
    _ ↔ ((create maxEntries now : PoolList O).after events).Fresh := kept.sound.keyedByEpoch_iff
    _ ↔ (create maxEntries now : PoolList O).Fresh ∧
          Machine.Along apply Uncached (create maxEntries now) events :=
      Machine.run_iff (fun s event invariant => invariant.apply event) step initial
    _ ↔ Machine.Along apply Uncached (create maxEntries now) events := and_iff_right fresh

section Example

/-- A scan that finds no pool. -/
def emptyScan : Outcome scan where
  val := .ok []
  property := by
    have walked : (collectPages extendedList none).Runs [⟨(), .poolsExtended 1, .ok (some [])⟩]
        (.ok []) := runs_collectPages (runs_extended () 1 _ []) (by decide)
    have sorted : ranked [] = [] := List.mergeSort_nil
    exact ⟨_, Async.runs_bind_ok.mpr
      ⟨_, [], [], (List.append_nil _).symm, walked, rfl, congrArg Except.ok sorted⟩⟩

/-- There is nothing to hydrate. -/
def emptyPage (params : PoolListParams) : Outcome (hydratePage toLowerCase params []) where
  val := .ok []
  property := by
    have nothing : window toLowerCase [] params = [] := by
      cases ticker : params.ticker with
      | none => simp [window, filtered, ticker]
      | some t => simp [window, filtered, ticker]
    have walked : (collectPages retiringList none).Runs [⟨(), .poolsRetiring 1, .ok (some [])⟩]
        (.ok []) := runs_collectPages (runs_retiring () 1 _ []) (by decide)
    have retiring : retiringPools.Runs [⟨(), .poolsRetiring 1, .ok (some [])⟩] (.ok .empty) :=
      Async.runs_tryCatch.mpr (.inl ⟨_, Async.runs_bind_ok.mpr
        ⟨_, [], [], (List.append_nil _).symm, walked, rfl, rfl⟩, rfl⟩)
    rw [hydratePage, nothing]
    exact ⟨_, Async.runs_bind_ok.mpr
      ⟨_, [], .empty, (List.append_nil _).symm, retiring, rfl, rfl⟩⟩

theorem exists_outcome {α : Type} (x : Read α) : Nonempty (Outcome x) := by
  have run : ∃ (trace : List (Exchange Unit Endpoint.Answer)) (outcome : _),
      Async.Static (fun _ => .ok none) trace ∧ x.Runs trace outcome := Async.exists_run _ x
  obtain ⟨trace, outcome, -, runs⟩ := run
  exact ⟨outcome, trace, runs⟩

noncomputable def hydration : Hydration toLowerCase
  | params, [] => emptyPage params
  | _, _ :: _ => Classical.choice (exists_outcome _)

/-- Two requests for the first page, one after the other, while the tip cannot be read. -/
noncomputable def twoRequests : List (Event Unit String.toLower) :=
  let failed : Option (Except Failure Nat) := some (.error (.plain "blockfrost is down"))
  [.getPoolList 0 ⟨50, 0, none⟩, .cacheEpoch 0 failed 0, .startLoad 0 1, .scanned 0 emptyScan,
    .hydrated 0 hydration, .cache (.handle 0), .cache (.finish 0),
    .getPoolList 1 ⟨50, 0, none⟩, .cacheEpoch 1 failed 2]

/-- The second is served the page that the cache has kept from the first. -/
theorem second_request_is_served_kept_page :
    ¬ ((create 10 0 : PoolList Unit).after twoRequests).KeyedByEpoch := by
  intro keyed
  have asked : ((create 10 0 : PoolList Unit).after twoRequests).calls 1 =
      some (.asked ⟨50, 0, none⟩ none (.hit (.page ⟨[], 0, ⟨[], 0⟩⟩))) := by decide
  obtain ⟨page, same, own, -⟩ := keyed.unknown 1 _ _ _ asked rfl
  cases own

end Example

end PoolList
end WalletBackend.Blockfrost.Pools
