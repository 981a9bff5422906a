import WalletBackend.Cache.Promises
import WalletBackend.Cached.ProcessKeys

/-! The one cache of the process. Whoever reads through it, the value that comes back was made for a
request like the one that reads. -/
namespace WalletBackend.Cached
open Cache

variable {P E : Type}

/-- A value, with the request it was made for. -/
structure Produced (P : Type) where
  request : ProcessRequest
  payload : P

/-- A load is that of the request that made it. -/
abbrev ProcessCache (P E : Type) := MemoryCache (Produced P) E ProcessRequest

/-- What can happen: a read, a step of its load, a value that is written without a load (the tip that
comes with other reads, the batches of metadata and of pools), a clear, the passing of time. -/
inductive ProcessEvent (P E : Type) where
  | read (request : ProcessRequest) (policy : CachePolicy) (id : Nat)
  | startLoad (id : Nat)
  | answer (id : Nat) (result : Except E P)
  | handle (id : Nat)
  | finish (id : Nat)
  | set (request : ProcessRequest) (payload : P) (ttlMs : Nat)
  | setIfGeneration (request : ProcessRequest) (payload : P) (ttlMs generation : Nat)
  | clear (start : Option String)
  | tick (now : Nat)

/-- What the event does to the cache. Only a load that is under way comes to something. -/
def cacheEvent (c : ProcessCache P E) :
    ProcessEvent P E → Option (Cache.Event (Produced P) E ProcessRequest)
  | .read request policy id => some (.read request.key policy request id)
  | .startLoad id => some (.startLoad id)
  | .answer id result =>
      match c.attempts id with
      | some ⟨_, _, request, _, .loading⟩ => some (.answer id (result.map (Produced.mk request)))
      | _ => none
  | .handle id => some (.handle id)
  | .finish id => some (.finish id)
  | .set request payload ttlMs => some (.set request.key ⟨request, payload⟩ ttlMs)
  | .setIfGeneration request payload ttlMs generation =>
      some (.setIfGeneration request.key ⟨request, payload⟩ ttlMs generation)
  | .clear start => some (.clear start)
  | .tick now => some (.tick now)

namespace ProcessCache

def apply (c : ProcessCache P E) (event : ProcessEvent P E) : ProcessCache P E :=
  Machine.run MemoryCache.apply c (cacheEvent c event).toList

def after (c : ProcessCache P E) (events : List (ProcessEvent P E)) : ProcessCache P E :=
  Machine.run apply c events

/-- The event brings the value: a load of its request comes to it, or it is written for its request. -/
inductive Brings (c : ProcessCache P E) (produced : Produced P) : ProcessEvent P E → Prop where
  | loaded {id attempt} (known : c.attempts id = some attempt) (loading : attempt.phase = .loading)
      (own : attempt.load = produced.request) : Brings c produced (.answer id (.ok produced.payload))
  | set (ttlMs : Nat) : Brings c produced (.set produced.request produced.payload ttlMs)
  | setIfGeneration (ttlMs generation : Nat) :
      Brings c produced (.setIfGeneration produced.request produced.payload ttlMs generation)

/-- The value was brought in the run. -/
def Brought (c : ProcessCache P E) (events : List (ProcessEvent P E)) (produced : Produced P) : Prop :=
  Machine.Occurs apply (fun c event => Brings c produced event) c events

/-- A reader of the request is given the value by the end of the run: it finds it with `peek`, or its
`read`, which made a promise of its own or joined one, has come to it. -/
inductive Given (c : ProcessCache P E) (request : ProcessRequest) (produced : Produced P) :
    List (ProcessEvent P E) → Prop where
  | peeked {events} (found : (after c events).peek request.key = some produced) :
      Given c request produced events
  | read {events policy id later} (unused : (after c events).attempts id = none)
      (settled : (after c (events ++ .read request policy id :: later)).settlement
        ((after c events).read request.key policy request id).2 = some (.ok produced)) :
      Given c request produced (events ++ .read request policy id :: later)

section Provenance

variable {c c' : ProcessCache P E} {events : List (ProcessEvent P E)} {event : ProcessEvent P E}

/-- What is held under a key was brought for a request of the key. -/
def Fits (c : ProcessCache P E) (events : List (ProcessEvent P E)) (key : String)
    (produced : Produced P) : Prop :=
  produced.request.key = key ∧ Brought c events produced

/-- A load is made under the key of its request. -/
def Meant (key : String) (_ : CachePolicy) (request : ProcessRequest) : Prop :=
  request.key = key

theorem after_concat : after c (events ++ [event]) = apply (after c events) event :=
  Machine.run_append events [event]

theorem Fits.concat {key : String} {produced : Produced P} (fits : Fits c events key produced) :
    Fits c (events ++ [event]) key produced :=
  ⟨fits.1, Machine.occurs_append.mpr (.inl fits.2)⟩

theorem brings_concat {produced : Produced P} (brings : Brings (after c events) produced event) :
    Fits c (events ++ [event]) produced.request.key produced :=
  ⟨rfl, Machine.occurs_append.mpr (.inr (.inl brings))⟩

/-- What is passed on to the cache brings what fits. -/
theorem brings_fits {passed : Cache.Event (Produced P) E ProcessRequest}
    (typed : (after c events).Typed (Fits c (events ++ [event])) Meant)
    (passes : cacheEvent (after c events) event = some passed) :
    MemoryCache.Brings (Fits c (events ++ [event])) Meant (after c events) passed := by
  cases event with
  | read request policy id =>
    cases passes
    rfl
  | answer id result =>
    rw [cacheEvent] at passes
    split at passes
    case h_1 key policy request generation known =>
      cases passes
      cases result with
      | error => trivial
      | ok payload =>
        intro attempt there
        have same := known.symm.trans there
        cases same
        have own : request.key = key := typed.made id _ known
        exact own ▸ brings_concat (.loaded known rfl rfl)
    case h_2 => cases passes
  | set request payload ttlMs =>
    cases passes
    exact brings_concat (.set ttlMs)
  | setIfGeneration request payload ttlMs generation =>
    cases passes
    exact brings_concat (.setIfGeneration ttlMs generation)
  | _ =>
    cases passes
    trivial

theorem typed_concat (typed : (after c events).Typed (Fits c events) Meant) (event : ProcessEvent P E) :
    (after c (events ++ [event])).Typed (Fits c (events ++ [event])) Meant := by
  have weaker : (after c events).Typed (Fits c (events ++ [event])) Meant :=
    ⟨fun key entry found => (typed.entries key entry found).concat,
      fun id attempt value known found => (typed.attempts id attempt value known found).concat,
      typed.made⟩
  rw [after_concat, apply]
  cases passes : cacheEvent (after c events) event with
  | none => exact weaker
  | some passed => exact weaker.effect (MemoryCache.apply_effect _ passed) (brings_fits weaker passes)

theorem typed_after (maxEntries now : Nat) (events : List (ProcessEvent P E)) :
    (after (createMemoryCache maxEntries now) events).Typed
      (Fits (createMemoryCache maxEntries now) events) Meant := by
  induction events using List.reverseRecOn with
  | nil => exact MemoryCache.create_typed maxEntries now
  | append_singleton events event ih => exact typed_concat ih event

theorem consistent_after (maxEntries now : Nat) (events : List (ProcessEvent P E)) :
    (after (createMemoryCache maxEntries now : ProcessCache P E) events).Consistent := by
  refine Machine.run_preserves (P := MemoryCache.Consistent) ?_
    (MemoryCache.create_consistent maxEntries now)
  intro c event consistent
  exact Machine.run_preserves (fun _ passed kept => kept.effect (MemoryCache.apply_effect _ passed))
    consistent

theorem peek_fits (typed : c.Typed (Fits c' events) Meant) {request : ProcessRequest}
    {produced : Produced P} (found : c.peek request.key = some produced) :
    Alike produced.request request ∧ Brought c' events produced :=
  have fits := typed.peek found
  ⟨alike_of_key fits.1, fits.2⟩

/-- A promise keeps its key. -/
theorem attempt_kept_after (events : List (ProcessEvent P E)) {id : Nat}
    {attempt : Attempt (Produced P) E ProcessRequest} (there : c.attempts id = some attempt) :
    ∃ phase, (after c events).attempts id = some { attempt with phase } := by
  refine Machine.run_preserves (P := fun s : ProcessCache P E =>
    ∃ phase, s.attempts id = some { attempt with phase }) ?_ ⟨attempt.phase, there⟩
  rintro s event ⟨phase, known⟩
  obtain ⟨last, kept⟩ := MemoryCache.attempt_kept_after (cacheEvent s event).toList known
  exact ⟨last, kept⟩

theorem after_read {request : ProcessRequest} {policy : CachePolicy} {id : Nat}
    (unused : (after c events).attempts id = none) (later : List (ProcessEvent P E)) :
    after c (events ++ .read request policy id :: later) =
      after ((after c events).read request.key policy request id).1 later := by
  have made : apply (after c events) (.read request policy id) =
      ((after c events).read request.key policy request id).1 :=
    if_neg (by rw [unused]; exact Bool.false_ne_true)
  rw [after, Machine.run_append, Machine.run]
  exact congrArg (Machine.run apply · later) made

end Provenance

/-- Whatever a reader is given was brought in the run, by a load or a write for a request like the
reader's own. -/
theorem given_alike {maxEntries now : Nat} {events : List (ProcessEvent P E)} {request : ProcessRequest}
    {produced : Produced P}
    (given : Given (createMemoryCache maxEntries now) request produced events) :
    Alike produced.request request ∧ Brought (createMemoryCache maxEntries now) events produced := by
  cases given with
  | peeked found => exact peek_fits (typed_after maxEntries now events) found
  | @read events policy id later unused settled =>
    have typed := typed_after maxEntries now (events ++ .read request policy id :: later)
    cases reading : ((after (createMemoryCache maxEntries now) events).read request.key policy
        request id).2 with
    | hit value =>
      rw [reading] at settled
      cases settled
      have found := (MemoryCache.read_hit reading).1
      obtain ⟨alike, brought⟩ := peek_fits (typed_after maxEntries now events) found
      exact ⟨alike, Machine.occurs_append.mpr (.inl brought)⟩
    | attempt pending =>
      obtain ⟨attempt, made, own⟩ := (consistent_after maxEntries now events).read_attempt reading
      obtain ⟨phase, kept⟩ := attempt_kept_after later made
      rw [← after_read unused later] at kept
      rw [reading] at settled
      obtain ⟨last, there, resolved⟩ := MemoryCache.resolves_of_settlement settled
      cases kept.symm.trans there
      have fits := typed.attempts pending _ produced there (Phase.value?_of_resolved? resolved)
      exact ⟨alike_of_key (fits.1.trans own), fits.2⟩

def mainnetTip : ProcessRequest := .provider ⟨.koios, .mainnet⟩ .tip

/-- A read of the tip, and its load on the way. -/
def firstRead : List (ProcessEvent Nat Unit) := [.read mainnetTip (.ofTtl 20) 0, .startLoad 0]

/-- The load ends. -/
def loadEnds : List (ProcessEvent Nat Unit) := [.answer 0 (.ok 7), .handle 0, .finish 0]

/-- A second read, during the load of the first, is given what that comes to. -/
theorem joinedRead_alike : Alike mainnetTip mainnetTip ∧
    Brought (createMemoryCache 10 0) (firstRead ++ .read mainnetTip (.ofTtl 20) 1 :: loadEnds)
      ⟨mainnetTip, 7⟩ :=
  have second : Given (createMemoryCache 10 0) mainnetTip ⟨mainnetTip, 7⟩
      (firstRead ++ .read mainnetTip (.ofTtl 20) 1 :: loadEnds) := .read rfl rfl
  given_alike second

end ProcessCache
end WalletBackend.Cached
