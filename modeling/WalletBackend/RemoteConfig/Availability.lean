import WalletBackend.RemoteConfig.Service

/-! When `get` fails and how old the documents are that it returns, over every order of calls,
fetches and whatever the other consumers of the cache do. -/
namespace WalletBackend.RemoteConfig
open Cache

variable {O : Type}

/-- A fetch: that of a load under the cache, or of a call without one. -/
inductive Fetch where
  | shared (id : Nat)
  | alone (call : Nat)

/-- The event ends the fetch, with what `load` came to. -/
inductive Fetches (s : Service O) : Event O → Fetch → Except Failure Document → Prop where
  | shared {id attempt response} (known : s.cache.attempts id = some attempt)
      (own : attempt.load = .config) (loading : attempt.phase = .loading) :
      Fetches s (.fetchedShared id response) (.shared id) (load response)
  | alone {call response} (waiting : s.calls call = some .fetching) :
      Fetches s (.fetchedAlone call response) (.alone call) (load response)

/-- The clock does not go back. -/
def Forward (s : Service O) : Event O → Prop
  | .cache (.tick now) => s.cache.now ≤ now
  | _ => True

namespace Service

/-- What the event does to the cache. -/
def cacheEvent (s : Service O) : Event O → Option (Cache.Event (Value O) Failure Load)
  | .get call id =>
      if (s.calls call).isSome || (s.cache.attempts id).isSome || !s.caching then none
      else some (.read CACHE_KEY (.ofTtl TTL_MS) .config id)
  | .startLoad id =>
      if (s.cache.attempts id).any fun attempt => attempt.load == .config then some (.startLoad id)
      else none
  | .fetchedShared id response =>
      if s.fetching id then some (.answer id ((load response).map .config)) else none
  | .cache event => if elsewhere s.cache event then some event else none
  | _ => none

variable {s : Service O} {events : List (Event O)} {event : Event O}

theorem fetching_iff {id : Nat} : s.fetching id = true ↔
    ∃ attempt, s.cache.attempts id = some attempt ∧ attempt.load = .config ∧
      attempt.phase = .loading := by
  unfold fetching
  split
  case h_1 known => exact iff_of_true rfl ⟨_, known, rfl, rfl⟩
  case h_2 other =>
    refine iff_of_false Bool.false_ne_true ?_
    rintro ⟨⟨key, policy, _, generation, _⟩, known, rfl, rfl⟩
    exact other _ _ _ known

@[simp] theorem remember_cache (result : Except Failure Document) :
    (s.remember result).cache = s.cache := by
  cases result <;> rfl

@[simp] theorem remember_calls (result : Except Failure Document) :
    (s.remember result).calls = s.calls := by
  cases result <;> rfl

theorem resume_eq (call : Nat) :
    s.resume call = s ∨ ∃ outcome, s.resume call = s.withCall call (.returned outcome) := by
  unfold resume
  split
  case h_1 outcome _ => exact .inr ⟨outcome, rfl⟩
  case h_2 => exact .inl rfl

/-- The cache runs through what the events do to it. -/
theorem apply_cache (s : Service O) (event : Event O) :
    (s.apply event).cache = Machine.run MemoryCache.apply s.cache (s.cacheEvent event).toList := by
  cases event with
  | get call id =>
    rw [apply, cacheEvent]
    cases used : (s.calls call).isSome || (s.cache.attempts id).isSome with
    | true => rfl
    | false =>
      rw [if_neg Bool.false_ne_true, get, Bool.false_or]
      cases s.caching with
      | true =>
        have unused := ne_true_of_eq_false (Bool.or_eq_false_iff.mp used).2
        exact (if_neg unused).symm
      | false => rfl
  | startLoad id =>
    rw [apply, cacheEvent]
    split
    · rfl
    · rfl
  | fetchedShared id response =>
    rw [apply, fetchedShared, cacheEvent]
    split
    · rfl
    · rfl
  | fetchedAlone call response =>
    rw [apply, fetchedAlone]
    split
    · exact remember_cache _
    · rfl
  | resume call =>
    rw [apply]
    obtain idle | ⟨outcome, returned⟩ := s.resume_eq call
    · rw [idle]
      rfl
    · rw [returned]
      rfl
  | cache event =>
    rw [apply, cacheEvent]
    split
    · rfl
    · rfl

/-- What the run does to the cache. -/
def cacheEvents (s : Service O) (events : List (Event O)) :
    List (Cache.Event (Value O) Failure Load) :=
  Machine.emitted apply cacheEvent s events

theorem after_cache (s : Service O) (events : List (Event O)) :
    (s.after events).cache = s.cache.after (s.cacheEvents events) :=
  Machine.run_emitted apply_cache

/-- The fetch ends in the run, with the result, at the time. -/
def FetchedAt (s : Service O) (events : List (Event O)) (fetch : Fetch)
    (result : Except Failure Document) (time : Nat) : Prop :=
  Machine.Occurs apply (fun s event => Fetches s event fetch result ∧ s.cache.now = time) s events

/-- The document that the load brought is written to the cache in the run, at the time. -/
def WrittenAt (s : Service O) (events : List (Event O)) (id : Nat) (document : Document) (time : Nat) :
    Prop :=
  Machine.Occurs apply (fun s event => event = .cache (.handle id) ∧ s.cache.now = time ∧
    ∃ policy, s.cache.Stores (.handle id) CACHE_KEY (.config document) policy) s events

theorem after_concat (s : Service O) (events : List (Event O)) (event : Event O) :
    s.after (events ++ [event]) = (s.after events).apply event :=
  Machine.run_append events [event]

theorem FetchedAt.concat {fetch : Fetch} {result : Except Failure Document} {time : Nat}
    (fetched : FetchedAt s events fetch result time) (event : Event O) :
    FetchedAt s (events ++ [event]) fetch result time :=
  Machine.occurs_append.mpr (.inl fetched)

section Cache

/-- Loads of the document are under its key, and no others are. -/
def Meant (key : String) (_ : CachePolicy) (load : Load) : Prop :=
  load = .config ↔ key = CACHE_KEY

def Own (s : Service O) : Prop :=
  s.cache.Typed (fun _ _ => True) Meant

theorem cacheEvent_meets {passedOn : Cache.Event (Value O) Failure Load}
    (forward : Forward s event) (passed : s.cacheEvent event = some passedOn) :
    s.cache.Follows CACHE_KEY (.ofTtl TTL_MS) passedOn ∧
      s.cache.Brings (fun _ _ => True) Meant passedOn := by
  cases event with
  | get call id =>
    obtain ⟨-, same⟩ := Option.ite_none_left_eq_some.mp passed
    cases same
    exact ⟨fun _ => rfl, iff_of_true rfl rfl⟩
  | startLoad id =>
    rw [cacheEvent] at passed
    split at passed
    · cases passed
      exact ⟨trivial, trivial⟩
    · cases passed
  | fetchedShared id response =>
    rw [cacheEvent] at passed
    split at passed
    · cases passed
      cases load response with
      | ok => exact ⟨trivial, fun _ _ => trivial⟩
      | error => exact ⟨trivial, trivial⟩
    · cases passed
  | fetchedAlone call response => cases passed
  | resume call => cases passed
  | cache event =>
    rw [cacheEvent] at passed
    split at passed
    case isFalse => cases passed
    case isTrue away =>
      cases passed
      cases passedOn with
      | read key policy load id =>
        simp only [elsewhere, Bool.and_eq_true, bne_iff_ne, ne_eq, beq_iff_eq] at away
        exact ⟨fun same => absurd same away.1, iff_of_false (by simp [away.2]) away.1⟩
      | set key value ttlMs => exact ⟨bne_iff_ne.mp away, trivial⟩
      | setIfGeneration key value ttlMs generation => exact ⟨bne_iff_ne.mp away, trivial⟩
      | answer id result =>
        cases result with
        | ok => exact ⟨trivial, fun _ _ => trivial⟩
        | error => exact ⟨trivial, trivial⟩
      | tick now => exact ⟨forward, trivial⟩
      | _ => exact ⟨trivial, trivial⟩

theorem Own.apply (own : s.Own) (event : Event O) (forward : Forward s event) :
    (s.apply event).Own := by
  rw [Own, apply_cache]
  cases passed : s.cacheEvent event with
  | none => exact own
  | some passedOn =>
    exact MemoryCache.Typed.effect own (MemoryCache.apply_effect ..) (cacheEvent_meets forward passed).2

theorem now_le (forward : Forward s event) : s.cache.now ≤ (s.apply event).cache.now := by
  rw [apply_cache]
  cases passed : s.cacheEvent event with
  | none => exact Nat.le_refl _
  | some passedOn => exact (cacheEvent_meets forward passed).1.now_le

end Cache

section Steps

/-- An event that ends a fetch with a document keeps it, and no other event touches what is kept. -/
theorem apply_lastGood (s : Service O) (event : Event O) :
    (∃ fetch document, Fetches s event fetch (.ok document) ∧
      (s.apply event).lastGood = some ⟨document, s.cache.now⟩) ∨
    (∀ fetch document, ¬ Fetches s event fetch (.ok document)) ∧
      (s.apply event).lastGood = s.lastGood := by
  cases event with
  | get call id =>
    refine .inr ⟨nofun, ?_⟩
    rw [apply]
    split
    · rfl
    · rw [get]
      split
      · rfl
      · rfl
  | startLoad id =>
    refine .inr ⟨nofun, ?_⟩
    rw [apply]
    split
    · rfl
    · rfl
  | fetchedShared id response =>
    rw [apply, fetchedShared]
    split
    case isTrue busy =>
      obtain ⟨attempt, known, own, loading⟩ := fetching_iff.mp busy
      have fetches : Fetches s (.fetchedShared id response) (.shared id) (load response) :=
        .shared known own loading
      cases came : load response with
      | ok document => exact .inl ⟨_, document, came ▸ fetches, rfl⟩
      | error failure =>
        refine .inr ⟨?_, rfl⟩
        intro fetch document ended
        generalize outcome : Except.ok document = result at ended
        cases ended with
        | shared => cases outcome.trans came
    case isFalse idle =>
      refine .inr ⟨?_, rfl⟩
      intro fetch document ended
      generalize Except.ok document = result at ended
      cases ended with
      | shared known own loading => exact idle (fetching_iff.mpr ⟨_, known, own, loading⟩)
  | fetchedAlone call response =>
    rw [apply, fetchedAlone]
    split
    case h_1 waiting =>
      have fetches : Fetches s (.fetchedAlone call response) (.alone call) (load response) :=
        .alone waiting
      cases came : load response with
      | ok document => exact .inl ⟨_, document, came ▸ fetches, rfl⟩
      | error failure =>
        refine .inr ⟨?_, rfl⟩
        intro fetch document ended
        generalize outcome : Except.ok document = result at ended
        cases ended with
        | alone => cases outcome.trans came
    case h_2 idle =>
      refine .inr ⟨?_, rfl⟩
      intro fetch document ended
      generalize Except.ok document = result at ended
      cases ended with
      | alone waiting => exact idle waiting
  | resume call =>
    refine .inr ⟨nofun, ?_⟩
    rw [apply]
    obtain idle | ⟨outcome, returned⟩ := s.resume_eq call
    · rw [idle]
    · rw [returned]
      rfl
  | cache event =>
    refine .inr ⟨nofun, ?_⟩
    rw [apply]
    split
    · rfl
    · rfl

/-- How a call has come to be as it is after the event. -/
inductive Progress (s : Service O) (call : Nat) : Event O → Call O → Prop where
  | kept (event : Event O) {state} (there : s.calls call = some state) : Progress s call event state
  | reads (id : Nat) (free : s.calls call = none) (unused : s.cache.attempts id = none)
      (cached : s.caching = true) :
      Progress s call (.get call id)
        (.reading (s.cache.read CACHE_KEY (.ofTtl TTL_MS) .config id).2)
  | fetches (id : Nat) : Progress s call (.get call id) .fetching
  | fetched {event result} (ended : Fetches s event (.alone call) result) :
      Progress s call event (.fetched result)
  | returned (event : Event O) (outcome) : Progress s call event (.returned outcome)

theorem get_cache {call id : Nat} (free : s.calls call = none) (unused : s.cache.attempts id = none)
    (cached : s.caching = true) : (s.apply (.get call id)).cache =
      (s.cache.read CACHE_KEY (.ofTtl TTL_MS) .config id).1 := by
  rw [apply, free, unused, get, cached]
  rfl

theorem withCall_progress {call call' : Nat} {state state' : Call O}
    (there : (s.withCall call state).calls call' = some state')
    (progress : Progress s call event state) : Progress s call' event state' := by
  change Function.update s.calls call _ call' = _ at there
  rw [Function.update_apply] at there
  split at there
  case isTrue same =>
    subst same
    cases there
    exact progress
  case isFalse => exact .kept event there

theorem apply_progress {call : Nat} {state : Call O}
    (there : (s.apply event).calls call = some state) : Progress s call event state := by
  cases event with
  | get call' id =>
    rw [apply] at there
    split at there
    · exact .kept _ there
    case isFalse free =>
      simp only [Bool.or_eq_true, not_or, Option.not_isSome_iff_eq_none] at free
      rw [get] at there
      split at there
      case isTrue cached =>
        change Function.update s.calls call' _ call = _ at there
        rw [Function.update_apply] at there
        split at there
        case isTrue same =>
          subst same
          cases there
          exact .reads id free.1 free.2 cached
        case isFalse => exact .kept _ there
      case isFalse => exact withCall_progress there (.fetches id)
  | startLoad id =>
    rw [apply] at there
    split at there
    · exact .kept _ there
    · exact .kept _ there
  | fetchedShared id response =>
    rw [apply, fetchedShared] at there
    split at there
    · exact .kept _ ((congrFun (remember_calls _) call).symm.trans there)
    · exact .kept _ there
  | fetchedAlone call' response =>
    rw [apply, fetchedAlone] at there
    split at there
    case h_1 waiting =>
      refine withCall_progress ?_ (.fetched (.alone waiting))
      rwa [withCall, remember_calls] at there
    · exact .kept _ there
  | resume call' =>
    rw [apply] at there
    obtain idle | ⟨outcome, returned⟩ := s.resume_eq call'
    · rw [idle] at there
      exact .kept _ there
    · rw [returned] at there
      exact withCall_progress there (.returned _ outcome)
  | cache event =>
    rw [apply] at there
    split at there
    · exact .kept _ there
    · exact .kept _ there

end Steps

section Runs

variable {caching : Bool} {maxEntries start : Nat}

/-- The events of a run of a new service in which the clock does not go back. -/
abbrev Run (O : Type) (caching : Bool) (maxEntries start : Nat) (events : List (Event O)) : Prop :=
  Machine.Along apply Forward (createRemoteConfig caching maxEntries start) events

theorem Run.own (run : Run O caching maxEntries start events) :
    ((createRemoteConfig caching maxEntries start).after events).Own :=
  Machine.run_invariant (fun _ event forward own => Own.apply own event forward) run
    (MemoryCache.create_typed maxEntries start)

theorem Run.delivered (run : Run O caching maxEntries start events) :
    MemoryCache.Delivered (createMemoryCache maxEntries start) CACHE_KEY TTL_MS
      ((createRemoteConfig caching maxEntries start).cacheEvents events) := by
  apply MemoryCache.delivered_run (MemoryCache.create_delivered maxEntries start)
  refine Machine.along_emitted apply_cache (Machine.along_imp ?_ run)
  intro s event forward passedOn passed
  exact (cacheEvent_meets forward passed).1

/-- What a load of the document comes to under the cache is what its fetch came to. -/
theorem Run.fetched_of_answered (run : Run O caching maxEntries start events) {id time : Nat}
    {result : Except Failure (Value O)}
    (answered : MemoryCache.AnsweredAt (createMemoryCache maxEntries start)
      ((createRemoteConfig caching maxEntries start).cacheEvents events) CACHE_KEY id result time) :
    ∃ fetched : Except Failure Document, result = fetched.map .config ∧
      FetchedAt (createRemoteConfig caching maxEntries start) events (.shared id) fetched time := by
  have occurs := Machine.occurs_of_emitted apply_cache
    (s := (createRemoteConfig caching maxEntries start : Service O)) answered
  obtain ⟨first, event, rest, rfl, _, passed, rfl, now, attempt, known, loading, wanted⟩ :=
    Machine.occurs_iff.mp occurs
  have own := (Run.own (Machine.along_append.mp run).1).made id attempt known
  have config : attempt.load = .config := own.mpr wanted
  cases event with
  | fetchedShared id' response =>
    obtain ⟨-, same⟩ := Option.ite_none_right_eq_some.mp passed
    cases same
    refine ⟨load response, rfl, Machine.occurs_iff.mpr ?_⟩
    exact ⟨first, _, rest, rfl, .shared known config loading, now⟩
  | cache event =>
    obtain ⟨away, same⟩ := Option.ite_none_right_eq_some.mp passed
    cases same
    rw [elsewhere, known, Option.all_some, config] at away
    cases away
  | get call id' => cases (Option.ite_none_left_eq_some.mp passed).2
  | startLoad id' => cases (Option.ite_none_right_eq_some.mp passed).2
  | fetchedAlone call response => cases passed
  | resume call => cases passed

/-- What a write of the document to the cache is in the run. -/
theorem Run.stored (run : Run O caching maxEntries start events) {id time : Nat} {document : Document}
    (stored : MemoryCache.WrittenAt (createMemoryCache maxEntries start)
      ((createRemoteConfig caching maxEntries start).cacheEvents events) CACHE_KEY id
      (.config document) time) :
    WrittenAt (createRemoteConfig caching maxEntries start) events id document time := by
  have occurs := Machine.occurs_of_emitted apply_cache
    (s := (createRemoteConfig caching maxEntries start : Service O)) stored
  obtain ⟨first, event, rest, rfl, _, passed, rfl, now, writes⟩ := Machine.occurs_iff.mp occurs
  cases event with
  | cache event =>
    obtain ⟨-, same⟩ := Option.ite_none_right_eq_some.mp passed
    cases same
    exact Machine.occurs_iff.mpr ⟨first, _, rest, rfl, rfl, now, writes⟩
  | get call id' => cases (Option.ite_none_left_eq_some.mp passed).2
  | startLoad id' => cases (Option.ite_none_right_eq_some.mp passed).2
  | fetchedShared id' response => cases (Option.ite_none_right_eq_some.mp passed).2
  | fetchedAlone call response => cases passed
  | resume call => cases passed

/-- The call began when the document was in the cache: a load had fetched it and it had been
written there, less than the lifetime before. -/
def Hit (s : Service O) (events : List (Event O)) (call : Nat) (document : Document) : Prop :=
  ∃ before id rest load fetched stored, events = before ++ .get call id :: rest ∧
    (s.after before).cache.peek CACHE_KEY = some (.config document) ∧
    FetchedAt s before (.shared load) (.ok document) fetched ∧ WrittenAt s before load document stored ∧
    fetched ≤ stored ∧ stored ≤ (s.after before).cache.now ∧
    (s.after before).cache.now < stored + TTL_MS

/-- What the run says of the calls, and of the document that is kept. -/
structure Known (s : Service O) (events : List (Event O)) : Prop where
  kept : ∀ good, (s.after events).lastGood = some good →
    (∃ fetch, FetchedAt s events fetch (.ok good.value) good.fetchedAt) ∧
      good.fetchedAt ≤ (s.after events).cache.now
  latest : ∀ fetch document time, FetchedAt s events fetch (.ok document) time →
    ∃ good, (s.after events).lastGood = some good ∧ time ≤ good.fetchedAt
  hit : ∀ call value, (s.after events).calls call = some (.reading (.hit value)) →
    ∃ document, value = .config document ∧ Hit s events call document
  attempt : ∀ call id, (s.after events).calls call = some (.reading (.attempt id)) →
    ∃ attempt, (s.after events).cache.attempts id = some attempt ∧ attempt.key = CACHE_KEY
  alone : ∀ call result, (s.after events).calls call = some (.fetched result) →
    ∃ time, FetchedAt s events (.alone call) result time

theorem Hit.concat {call : Nat} {document : Document} (hit : Hit s events call document)
    (event : Event O) : Hit s (events ++ [event]) call document := by
  obtain ⟨before, id, rest, load, fetched, stored, rfl, held⟩ := hit
  exact ⟨before, id, rest ++ [event], load, fetched, stored, by simp, held⟩

/-- The value that a call of `get` finds in the cache. -/
theorem Run.hit (run : Run O caching maxEntries start events) {call id : Nat} {value : Value O}
    (hit : (((createRemoteConfig caching maxEntries start).after events).cache.read CACHE_KEY
      (.ofTtl TTL_MS) .config id).2 = .hit value) :
    ∃ document, value = .config document ∧ Hit (createRemoteConfig caching maxEntries start)
      (events ++ [.get call id]) call document := by
  have found := (MemoryCache.read_hit hit).1
  have there := found
  rw [after_cache] at found
  obtain ⟨load, fetched, stored, answered, writes, first, past, fresh⟩ := run.delivered.hit found
  obtain ⟨result, same, ended⟩ := run.fetched_of_answered answered
  have now : (createMemoryCache maxEntries start).after
      ((createRemoteConfig caching maxEntries start).cacheEvents events) =
        ((createRemoteConfig caching maxEntries start).after events).cache :=
    (after_cache (createRemoteConfig caching maxEntries start) events).symm
  rw [now] at past fresh
  cases result with
  | error failure => cases same
  | ok document =>
    cases same
    exact ⟨document, rfl, events, id, [], load, fetched, stored, rfl, there, ended,
      run.stored writes, first, past, fresh⟩

theorem Known.concat (run : Run O caching maxEntries start events) (forward :
      Forward ((createRemoteConfig caching maxEntries start).after events) event)
    (known : Known (createRemoteConfig caching maxEntries start) events) :
    Known (createRemoteConfig caching maxEntries start) (events ++ [event]) := by
  have step := after_concat (createRemoteConfig caching maxEntries start) events event
  have later := now_le forward
  refine ⟨?_, ?_, ?_, ?_, ?_⟩
  · intro good there
    rw [step] at there ⊢
    obtain ⟨fetch, document, ended, kept⟩ | ⟨-, kept⟩ := apply_lastGood _ event
    · obtain rfl := Option.some.inj (there.symm.trans kept)
      exact ⟨⟨fetch, Machine.occurs_append.mpr (.inr (.inl ⟨ended, rfl⟩))⟩, later⟩
    · obtain ⟨⟨fetch, fetched⟩, past⟩ := known.kept good (kept.symm.trans there)
      exact ⟨⟨fetch, fetched.concat event⟩, Nat.le_trans past later⟩
  · intro fetch document time fetched
    rw [step]
    obtain before | ⟨ended, now⟩ | none := Machine.occurs_append.mp fetched
    · obtain ⟨good, there, past⟩ := known.latest fetch document time before
      obtain ⟨-, document', -, kept⟩ | ⟨-, kept⟩ := apply_lastGood _ event
      · exact ⟨_, kept, Nat.le_trans past (known.kept good there).2⟩
      · exact ⟨good, kept.trans there, past⟩
    · obtain ⟨-, document', -, kept⟩ | ⟨idle, -⟩ := apply_lastGood _ event
      · exact ⟨_, kept, Nat.le_of_eq now.symm⟩
      · exact absurd ended (idle fetch document)
    · exact none.elim
  · intro call value there
    rw [step] at there
    generalize reached : Call.reading (Reading.hit value) = state at there
    cases apply_progress there with
    | kept _ before =>
      obtain ⟨document, same, hit⟩ := known.hit call value (reached ▸ before)
      exact ⟨document, same, hit.concat event⟩
    | reads id => exact run.hit (Call.reading.inj reached).symm
    | _ => cases reached
  · intro call id there
    rw [step] at there ⊢
    generalize reached : Call.reading (Reading.attempt id) = state at there
    cases apply_progress there with
    | kept _ before =>
      obtain ⟨attempt, made, wanted⟩ := known.attempt call id (reached ▸ before)
      rw [apply_cache]
      cases Service.cacheEvent _ event with
      | none => exact ⟨attempt, made, wanted⟩
      | some passedOn =>
        obtain ⟨phase, made'⟩ := (MemoryCache.apply_effect _ passedOn).attempt_kept made
        exact ⟨_, made', wanted⟩
    | reads id' free unused cached =>
      have consistent := run.delivered.consistent
      rw [show (createMemoryCache maxEntries start).after _ = _ from
        (after_cache (createRemoteConfig caching maxEntries start) events).symm] at consistent
      rw [get_cache free unused cached]
      exact consistent.read_attempt (Call.reading.inj reached).symm
    | _ => cases reached
  · intro call result there
    rw [step] at there
    generalize reached : Call.fetched result = state at there
    cases apply_progress there with
    | kept _ before =>
      obtain ⟨time, fetched⟩ := known.alone call result (reached ▸ before)
      exact ⟨time, fetched.concat event⟩
    | fetched ended =>
      cases reached
      exact ⟨_, Machine.occurs_append.mpr (.inr (.inl ⟨ended, rfl⟩))⟩
    | _ => cases reached

theorem Run.known (run : Run O caching maxEntries start events) :
    Known (createRemoteConfig caching maxEntries start) events := by
  induction events using List.reverseRecOn with
  | nil => exact ⟨nofun, nofun, nofun, nofun, nofun⟩
  | append_singleton events event ih =>
    obtain ⟨earlier, forward, -⟩ := Machine.along_append.mp run
    exact (ih earlier).concat earlier forward

/-- The call waits for the fetch, or has just seen it end. -/
def Awaits (s : Service O) (call : Nat) : Fetch → Prop
  | .shared id => s.calls call = some (.reading (.attempt id))
  | .alone own => own = call ∧ ∃ result, s.calls call = some (.fetched result)

/-- What a call awaits is a hit, or what some fetch came to. -/
theorem Run.awaited (run : Run O caching maxEntries start events) {call : Nat} {state : Call O}
    {result : Except Failure Document}
    (there : ((createRemoteConfig caching maxEntries start).after events).calls call = some state)
    (settled : ((createRemoteConfig caching maxEntries start).after events).awaited state =
      some result) :
    (∃ document, result = .ok document ∧
      Hit (createRemoteConfig caching maxEntries start) events call document) ∨
    ∃ fetch time, Awaits ((createRemoteConfig caching maxEntries start).after events) call fetch ∧
      FetchedAt (createRemoteConfig caching maxEntries start) events fetch result time := by
  have known := run.known
  cases state with
  | reading reading =>
    cases reading with
    | hit value =>
      obtain ⟨document, rfl, hit⟩ := known.hit call value there
      cases settled
      exact .inl ⟨document, rfl, hit⟩
    | attempt id =>
      obtain ⟨attempt, made, wanted⟩ := known.attempt call id there
      cases came : ((createRemoteConfig caching maxEntries start).after events).cache.settlement
          (.attempt id) with
      | none => simp [Service.awaited, came] at settled
      | some outcome =>
        simp only [Service.awaited, came] at settled
        rw [after_cache] at made came
        obtain ⟨time, answered, -⟩ := run.delivered.settled made wanted came
        obtain ⟨fetched, rfl, ended⟩ := run.fetched_of_answered answered
        refine .inr ⟨.shared id, time, there, ?_⟩
        cases fetched with
        | ok document =>
          cases settled
          exact ended
        | error failure =>
          cases settled
          exact ended
  | fetching => cases settled
  | fetched result' =>
    cases settled
    obtain ⟨time, ended⟩ := known.alone call result there
    exact .inr ⟨.alone call, time, ⟨rfl, result, there⟩, ended⟩
  | returned outcome => cases settled

/-- How a call comes by what it returns or throws. -/
inductive Served (s : Service O) (events : List (Event O)) (call : Nat) :
    Except Failure Document → Prop where
  /-- The document was in the cache. -/
  | cached {document} (hit : Hit s events call document) : Served s events call (.ok document)
  /-- The fetch that it waited for brought the document. -/
  | fetched {fetch document time} (awaits : Awaits (s.after events) call fetch)
      (ended : FetchedAt s events fetch (.ok document) time) : Served s events call (.ok document)
  /-- The fetch failed, and the document is the one that was fetched last, within the day. -/
  | stale {fetch failure time source document fetched} (awaits : Awaits (s.after events) call fetch)
      (ended : FetchedAt s events fetch (.error failure) time)
      (kept : FetchedAt s events source (.ok document) fetched)
      (young : (s.after events).cache.now < fetched + STALE_IF_ERROR_MS)
      (latest : ∀ source' document' time', FetchedAt s events source' (.ok document') time' →
        time' ≤ fetched) : Served s events call (.ok document)
  /-- The fetch failed, and whatever had been fetched was a day ago. -/
  | failed {fetch failure time} (awaits : Awaits (s.after events) call fetch)
      (ended : FetchedAt s events fetch (.error failure) time)
      (old : ∀ source document fetched, FetchedAt s events source (.ok document) fetched →
        fetched + STALE_IF_ERROR_MS ≤ (s.after events).cache.now) :
      Served s events call (.error failure)

theorem Known.rescue (known : Known s events) {call time : Nat} {fetch : Fetch} {failure : Failure}
    (awaits : Awaits (s.after events) call fetch)
    (ended : FetchedAt s events fetch (.error failure) time) :
    Served s events call ((s.after events).rescue failure) := by
  cases there : (s.after events).lastGood with
  | none =>
    rw [Service.rescue, there]
    refine .failed awaits ended ?_
    intro source document fetched brought
    obtain ⟨good, some, -⟩ := known.latest source document fetched brought
    cases there.symm.trans some
  | some good =>
    obtain ⟨⟨source, kept⟩, past⟩ := known.kept good there
    have latest : ∀ source' document' time', FetchedAt s events source' (.ok document') time' →
        time' ≤ good.fetchedAt := by
      intro source' document' time' brought
      obtain ⟨good', there', newest⟩ := known.latest source' document' time' brought
      rwa [Option.some.inj (there'.symm.trans there)] at newest
    simp only [Service.rescue, there]
    split
    case isTrue young => exact .stale awaits ended kept (by omega) latest
    case isFalse old =>
      refine .failed awaits ended ?_
      intro source' document' fetched brought
      have newest := latest source' document' fetched brought
      omega

/-- Whenever a call of `get` goes on, it returns a document that it found in the cache, younger there
than its lifetime, or the one it waited for, or, if that fetch failed, the one fetched last if that
is less than a day ago; and it throws what the fetch failed with only if none was fetched within
the day. -/
theorem get_served (caching : Bool) (maxEntries start : Nat) (events : List (Event O))
    (forward : Machine.Along apply Forward (createRemoteConfig caching maxEntries start) events)
    (call : Nat) (outcome : Except Failure Document)
    (goesOn : ((createRemoteConfig caching maxEntries start).after events).outcome? call =
      some outcome) :
    Served (createRemoteConfig caching maxEntries start) events call outcome := by
  have run : Run O caching maxEntries start events := forward
  have known := run.known
  rw [outcome?] at goesOn
  cases awaited : (((createRemoteConfig caching maxEntries start).after events).calls call).bind
      ((createRemoteConfig caching maxEntries start).after events).awaited with
  | none =>
    rw [awaited] at goesOn
    cases goesOn
  | some result =>
    obtain ⟨state, there, settled⟩ := Option.bind_eq_some_iff.mp awaited
    rw [awaited] at goesOn
    obtain ⟨document, rfl, hit⟩ | ⟨fetch, time, awaits, ended⟩ := run.awaited there settled
    · cases goesOn
      exact .cached hit
    · cases result with
      | ok document =>
        cases goesOn
        exact .fetched awaits ended
      | error failure =>
        cases goesOn
        exact known.rescue awaits ended

end Runs

section Outage

/-- A document is fetched, and asked for again a minute later. -/
def refreshed : List (Event Unit) :=
  [.get 0 0, .startLoad 0, .fetchedShared 0 (.answered true 200 (some (.object []))),
    .cache (.handle 0), .cache (.finish 0), .resume 0, .cache (.tick 60000), .get 1 1]

/-- Ten minutes later its host does not answer. -/
def outage : List (Event Unit) :=
  refreshed ++ [.resume 1, .cache (.tick 660000), .get 2 2, .startLoad 2,
    .fetchedShared 2 (.rejected true), .cache (.handle 2), .cache (.finish 2)]

/-- The document is served from the cache, and then in place of the one that cannot be fetched. -/
theorem day_outlasted : Served (createRemoteConfig true 10 0) refreshed 1 (.ok []) ∧
    Served (createRemoteConfig true 10 0) outage 2 (.ok []) := by
  constructor
  · exact get_served true 10 0 refreshed
      ⟨trivial, trivial, trivial, trivial, trivial, trivial, Nat.zero_le 60000, trivial, trivial⟩
      1 (.ok []) rfl
  · exact get_served true 10 0 outage
      ⟨trivial, trivial, trivial, trivial, trivial, trivial, Nat.zero_le 60000, trivial, trivial,
        (by decide : 60000 ≤ 660000), trivial, trivial, trivial, trivial, trivial, trivial⟩ 2 (.ok []) rfl

end Outage

end Service
end WalletBackend.RemoteConfig
