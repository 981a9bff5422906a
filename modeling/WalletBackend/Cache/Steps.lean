import WalletBackend.Cache.Generations

/-! What one event does to the cache, and what every event keeps: the generations are
in order, and a load that is still current is the one registered for its key. -/
namespace WalletBackend.Cache
open Containers

variable {V E L : Type}

namespace MemoryCache

variable {c : MemoryCache V E L}

section Fields

theorem evict_fields (c : MemoryCache V E L) : c.evict = { c with entries := c.evict.entries } := by
  rw [evict]
  split <;> rfl

theorem store_fields (c : MemoryCache V E L) (key : String) (value : V) (policy : CachePolicy) :
    c.store key value policy = { c with entries := (c.store key value policy).entries } := by
  rw [store, evict_fields]

@[simp] theorem store_now (key : String) (value : V) (policy : CachePolicy) :
    (c.store key value policy).now = c.now := by rw [store_fields]

@[simp] theorem store_inFlight (key : String) (value : V) (policy : CachePolicy) :
    (c.store key value policy).inFlight = c.inFlight := by rw [store_fields]

@[simp] theorem store_clearGeneration (key : String) (value : V) (policy : CachePolicy) :
    (c.store key value policy).clearGeneration = c.clearGeneration := by rw [store_fields]

@[simp] theorem store_clearGenerations (key : String) (value : V) (policy : CachePolicy) :
    (c.store key value policy).clearGenerations = c.clearGenerations := by rw [store_fields]

@[simp] theorem store_attempts (key : String) (value : V) (policy : CachePolicy) :
    (c.store key value policy).attempts = c.attempts := by rw [store_fields]

@[simp] theorem store_generationFor (key key' : String) (value : V) (policy : CachePolicy) :
    (c.store key value policy).generationFor key' = c.generationFor key' :=
  generationFor_congr fun _ _ => by rw [store_clearGenerations]

/-- What a store makes of `key`. -/
def stored (c : MemoryCache V E L) (value : V) (policy : CachePolicy) : Entry V where
  value := value
  expiresAt := c.now + policy.ttlMs
  usableUntil := c.now + policy.ttlMs + policy.staleIfErrorMs

/-- Eviction only removes entries. -/
theorem get?_evict {key : String} {entry : Entry V} (found : c.evict.entries.get? key = some entry) :
    c.entries.get? key = some entry := by
  rw [evict] at found
  split at found
  · exact found
  · exact (KeyedMap.get?_filter_eq_some.mp (KeyedMap.get?_dropOldest found)).1

/-- A store makes one entry and keeps or evicts the others. -/
theorem get?_store {key key' : String} {value : V} {policy : CachePolicy} {entry : Entry V}
    (found : (c.store key value policy).entries.get? key' = some entry) :
    key' = key ∧ entry = c.stored value policy ∨
      key' ≠ key ∧ c.entries.get? key' = some entry := by
  have unevicted := get?_evict found
  rw [KeyedMap.get?_set] at unevicted
  split at unevicted
  case isTrue same =>
    exact .inl ⟨same, (Option.some.inj unevicted).symm⟩
  case isFalse other => exact .inr ⟨other, unevicted⟩

/-- With room for one more, nothing is evicted. -/
theorem store_of_room (room : c.entries.size < c.maxEntries) (key : String) (value : V)
    (policy : CachePolicy) :
    c.store key value policy = { c with entries := c.entries.set key (c.stored value policy) } := by
  have fits : (c.entries.set key (c.stored value policy)).size ≤ c.maxEntries :=
    Nat.le_trans (c.entries.size_set_le key _) room
  exact if_pos fits

theorem register_attempts (key : String) (policy : CachePolicy) (load : L) (id id' : Nat) :
    (c.register key policy load id).attempts id' =
      if id' = id then some ⟨key, policy, load, c.generationFor key, .queued⟩
      else c.attempts id' :=
  Function.update_apply ..

theorem register_inFlight (key : String) (policy : CachePolicy) (load : L) (id : Nat)
    (key' : String) :
    (c.register key policy load id).inFlight.get? key' =
      if key' = key then some id else c.inFlight.get? key' :=
  KeyedMap.get?_set ..

@[simp] theorem setPhase_generationFor (id : Nat) (attempt : Attempt V E L) (phase : Phase V E)
    (key : String) : (c.setPhase id attempt phase).generationFor key = c.generationFor key := rfl

theorem setPhase_attempts (id : Nat) (attempt : Attempt V E L) (phase : Phase V E) (id' : Nat) :
    (c.setPhase id attempt phase).attempts id' =
      if id' = id then some { attempt with phase } else c.attempts id' :=
  Function.update_apply ..

@[simp] theorem clear_clearGeneration (start : Option String) :
    (c.clear start).clearGeneration = c.clearGeneration + 1 := by
  cases start <;> rfl

@[simp] theorem clear_attempts (start : Option String) : (c.clear start).attempts = c.attempts := by
  cases start <;> rfl

@[simp] theorem clear_now (start : Option String) : (c.clear start).now = c.now := by
  cases start <;> rfl

theorem clear_clearGenerations (start : Option String) :
    (c.clear start).clearGenerations =
      c.clearGenerations.set (start.getD "") (c.clearGeneration + 1) := by
  cases start <;> rfl

/-- A clear removes exactly the entries whose keys start with its prefix. -/
theorem clear_entries (start : Option String) (key : String) :
    (c.clear start).entries.get? key =
      if startsWith key (start.getD "") then none else c.entries.get? key := by
  cases start with
  | none => rfl
  | some start =>
    refine (KeyedMap.get?_filter_key _ (fun k => !startsWith k start) key).trans ?_
    rw [Option.getD_some]
    cases startsWith key start <;> rfl

theorem clear_inFlight (start : Option String) (key : String) :
    (c.clear start).inFlight.get? key =
      if startsWith key (start.getD "") then none else c.inFlight.get? key := by
  cases start with
  | none => rfl
  | some start =>
    refine (KeyedMap.get?_filter_key _ (fun k => !startsWith k start) key).trans ?_
    rw [Option.getD_some]
    cases startsWith key start <;> rfl

end Fields

@[simp] theorem startLoad_clearGeneration (id : Nat) :
    (c.startLoad id).clearGeneration = c.clearGeneration := by
  unfold startLoad
  split
  · rfl
  · split <;> rfl

/-- What an event does, with the guard under which it does it. -/
inductive Effect (c : MemoryCache V E L) : Event V E L → MemoryCache V E L → Prop where
  | idle (event : Event V E L) : Effect c event c
  | made {key policy load id} (unused : c.attempts id = none) (missing : c.peek key = none)
      (alone : c.inFlight.get? key = none) :
      Effect c (.read key policy load id) (c.register key policy load id)
  | started {id attempt} (known : c.attempts id = some attempt) (queued : attempt.phase = .queued) :
      Effect c (.startLoad id) (c.setPhase id attempt .loading)
  | answered {id attempt result} (known : c.attempts id = some attempt)
      (loading : attempt.phase = .loading) :
      Effect c (.answer id result) (c.setPhase id attempt (.loaded result))
  | stored {id attempt value} (known : c.attempts id = some attempt)
      (loaded : attempt.phase = .loaded (.ok value))
      (current : attempt.generation = c.generationFor attempt.key) :
      Effect c (.handle id)
        ((c.store attempt.key value attempt.policy).setPhase id attempt (.handled (.ok value)))
  | dropped {id attempt value} (known : c.attempts id = some attempt)
      (loaded : attempt.phase = .loaded (.ok value))
      (cleared : attempt.generation ≠ c.generationFor attempt.key) :
      Effect c (.handle id) (c.setPhase id attempt (.handled (.ok value)))
  | fellBack {id attempt error value} (known : c.attempts id = some attempt)
      (loaded : attempt.phase = .loaded (.error error)) (stale : c.fallback attempt = some value) :
      Effect c (.handle id) (c.setPhase id attempt (.handled (.ok value)))
  | failed {id attempt error} (known : c.attempts id = some attempt)
      (loaded : attempt.phase = .loaded (.error error)) (nothing : c.fallback attempt = none) :
      Effect c (.handle id) (c.setPhase id attempt (.handled (.error error)))
  | cleaned {id attempt outcome} (known : c.attempts id = some attempt)
      (handled : attempt.phase = .handled outcome)
      (registered : c.inFlight.get? attempt.key = some id) :
      Effect c (.finish id) ({ c with inFlight := c.inFlight.delete attempt.key }.setPhase id attempt
        (.settled outcome))
  | finished {id attempt outcome} (known : c.attempts id = some attempt)
      (handled : attempt.phase = .handled outcome)
      (replaced : c.inFlight.get? attempt.key ≠ some id) :
      Effect c (.finish id) (c.setPhase id attempt (.settled outcome))
  | set (key value ttlMs) : Effect c (.set key value ttlMs) (c.store key value (.ofTtl ttlMs))
  | guarded {key value ttlMs generation} (current : generation = c.generationFor key) :
      Effect c (.setIfGeneration key value ttlMs generation) (c.store key value (.ofTtl ttlMs))
  | cleared (start) : Effect c (.clear start) (c.clear start)
  | ticked (now) : Effect c (.tick now) { c with now }

theorem Effect.clearGeneration_le {event : Event V E L} {c' : MemoryCache V E L}
    (effect : Effect c event c') : c.clearGeneration ≤ c'.clearGeneration := by
  cases effect with
  | cleared start =>
    rw [clear_clearGeneration]
    exact Nat.le_succ _
  | stored => exact Nat.le_of_eq (store_clearGeneration ..).symm
  | set => exact Nat.le_of_eq (store_clearGeneration ..).symm
  | guarded => exact Nat.le_of_eq (store_clearGeneration ..).symm
  | _ => exact Nat.le_refl _

theorem apply_effect (c : MemoryCache V E L) (event : Event V E L) :
    Effect c event (c.apply event) := by
  cases event with
  | read key policy load id =>
    rw [apply]
    split
    case isTrue => exact .idle _
    case isFalse unused =>
      rw [Option.not_isSome_iff_eq_none] at unused
      rw [read]
      cases missing : c.peek key with
      | some value => exact .idle _
      | none =>
        cases alone : c.inFlight.get? key with
        | some pending => exact .idle _
        | none => exact .made unused missing alone
  | startLoad id =>
    rw [apply, startLoad]
    cases known : c.attempts id with
    | none => exact .idle _
    | some attempt =>
      cases phase : attempt.phase with
      | queued => simpa only [phase] using Effect.started known phase
      | _ => simpa only [phase] using Effect.idle _
  | answer id result =>
    rw [apply, answer]
    cases known : c.attempts id with
    | none => exact .idle _
    | some attempt =>
      cases phase : attempt.phase with
      | loading => simpa only [phase] using Effect.answered known phase
      | _ => simpa only [phase] using Effect.idle _
  | handle id =>
    rw [apply, handle]
    cases known : c.attempts id with
    | none => exact .idle _
    | some attempt =>
      cases phase : attempt.phase with
      | loaded result =>
        cases result with
        | ok value =>
          simp only [phase]
          split
          case isTrue current => exact .stored known phase current
          case isFalse cleared => exact .dropped known phase cleared
        | error error =>
          simp only [phase]
          cases stale : c.fallback attempt with
          | none => exact .failed known phase stale
          | some value => exact .fellBack known phase stale
      | _ => simpa only [phase] using Effect.idle _
  | finish id =>
    rw [apply, finish]
    cases known : c.attempts id with
    | none => exact .idle _
    | some attempt =>
      cases phase : attempt.phase with
      | handled outcome =>
        simp only [phase]
        split
        case isTrue registered => exact .cleaned known phase registered
        case isFalse replaced => exact .finished known phase replaced
      | _ => simpa only [phase] using Effect.idle _
  | set key value ttlMs => exact .set key value ttlMs
  | setIfGeneration key value ttlMs generation =>
    rw [apply, setIfGeneration]
    split
    case isTrue => exact .idle _
    case isFalse current => exact .guarded (Classical.not_not.mp current)
  | clear start => exact .cleared start
  | tick now => exact .ticked now

/-- A read under a number that names no promise yet. -/
theorem read_effect {key : String} {policy : CachePolicy} {load : L} {id : Nat}
    (unused : c.attempts id = none) :
    Effect c (.read key policy load id) (c.read key policy load id).1 := by
  have effect := apply_effect c (.read key policy load id)
  rw [apply, if_neg (by rw [unused]; exact Bool.false_ne_true)] at effect
  exact effect

theorem read_hit {key : String} {policy : CachePolicy} {load : L} {id : Nat} {value : V}
    (hit : (c.read key policy load id).2 = .hit value) :
    c.peek key = some value ∧ (c.read key policy load id).1 = c := by
  rw [read] at hit ⊢
  cases found : c.peek key with
  | some served =>
    rw [found] at hit
    cases hit
    exact ⟨rfl, rfl⟩
  | none =>
    rw [found] at hit
    cases flying : c.inFlight.get? key with
    | some pending =>
      simp only [flying] at hit
      cases hit
    | none =>
      simp only [flying] at hit
      cases hit

section Kept

variable {c' : MemoryCache V E L} {event : Event V E L}

theorem setPhase_kept {id id' : Nat} {attempt attempt' : Attempt V E L} {phase : Phase V E}
    (known : c.attempts id = some attempt) (there : c.attempts id' = some attempt') :
    ∃ phase', (c.setPhase id attempt phase).attempts id' = some { attempt' with phase := phase' } := by
  rw [setPhase_attempts]
  split
  case isTrue same =>
    subst same
    obtain rfl : attempt' = attempt := Option.some.inj (there.symm.trans known)
    exact ⟨phase, rfl⟩
  case isFalse => exact ⟨attempt'.phase, there⟩

/-- An attempt keeps all but its phase. -/
theorem Effect.attempt_kept (effect : Effect c event c') {id : Nat} {attempt : Attempt V E L}
    (there : c.attempts id = some attempt) :
    ∃ phase, c'.attempts id = some { attempt with phase } := by
  cases effect with
  | @made key policy load id' unused =>
    refine ⟨attempt.phase, ?_⟩
    rw [register_attempts, if_neg]
    · exact there
    · rintro rfl
      cases unused.symm.trans there
  | started known => exact setPhase_kept known there
  | answered known => exact setPhase_kept known there
  | stored known =>
    refine setPhase_kept ?_ ?_
    · rw [store_attempts]
      exact known
    · rw [store_attempts]
      exact there
  | dropped known => exact setPhase_kept known there
  | fellBack known => exact setPhase_kept known there
  | failed known => exact setPhase_kept known there
  | cleaned known => exact setPhase_kept known there
  | finished known => exact setPhase_kept known there
  | set => exact ⟨attempt.phase, (congrFun (store_attempts ..) id).trans there⟩
  | guarded => exact ⟨attempt.phase, (congrFun (store_attempts ..) id).trans there⟩
  | cleared => exact ⟨attempt.phase, (congrFun (clear_attempts ..) id).trans there⟩
  | _ => exact ⟨attempt.phase, there⟩

/-- No attempt vanishes. -/
theorem Effect.unmade (effect : Effect c event c') {id : Nat} (absent : c'.attempts id = none) :
    c.attempts id = none := by
  cases there : c.attempts id with
  | none => rfl
  | some attempt =>
    obtain ⟨phase, kept⟩ := effect.attempt_kept there
    cases absent.symm.trans kept

theorem attempt_kept_after (events : List (Event V E L)) {id : Nat} {attempt : Attempt V E L}
    (there : c.attempts id = some attempt) :
    ∃ phase, (c.after events).attempts id = some { attempt with phase } := by
  refine Machine.run_preserves (P := fun s : MemoryCache V E L =>
    ∃ phase, s.attempts id = some { attempt with phase }) ?_ ⟨attempt.phase, there⟩
  rintro s event ⟨phase, kept⟩
  obtain ⟨phase', kept'⟩ := (apply_effect s event).attempt_kept kept
  exact ⟨phase', kept'⟩

theorem setPhase_settled {id id' : Nat} {attempt attempt' : Attempt V E L} {phase : Phase V E}
    {outcome : Except E V} (known : c.attempts id = some attempt)
    (going : ∀ outcome, attempt.phase ≠ .settled outcome)
    (there : c.attempts id' = some attempt') (settled : attempt'.phase = .settled outcome) :
    (c.setPhase id attempt phase).attempts id' = some attempt' := by
  rw [setPhase_attempts, if_neg]
  · exact there
  · rintro rfl
    obtain rfl : attempt' = attempt := Option.some.inj (there.symm.trans known)
    exact going outcome settled

/-- The events that neither write nor clear nor handle the outcome of a load. -/
def Quiet : Event V E L → Prop
  | .read .. | .startLoad _ | .answer .. | .finish _ | .tick _ => True
  | _ => False

theorem setPhase_origin {id id' : Nat} {attempt attempt' : Attempt V E L} {phase : Phase V E}
    {outcome : Except E V} (there : (c.setPhase id attempt phase).attempts id' = some attempt')
    (handled : attempt'.phase = .handled outcome) (other : phase ≠ .handled outcome) :
    c.attempts id' = some attempt' := by
  rw [setPhase_attempts] at there
  split at there
  · cases there
    exact absurd handled other
  · exact there

theorem Effect.quiet (effect : Effect c event c') (quiet : Quiet event) :
    c'.entries = c.entries ∧ c'.clearGenerations = c.clearGenerations ∧
      ∀ id attempt outcome, c'.attempts id = some attempt → attempt.phase = .handled outcome →
        c.attempts id = some attempt := by
  cases effect with
  | idle => exact ⟨rfl, rfl, fun _ _ _ there _ => there⟩
  | made unused =>
    refine ⟨rfl, rfl, ?_⟩
    intro id attempt outcome there handled
    rw [register_attempts] at there
    split at there
    · cases there
      cases handled
    · exact there
  | started known => exact ⟨rfl, rfl, fun _ _ _ there handled => setPhase_origin there handled nofun⟩
  | answered known => exact ⟨rfl, rfl, fun _ _ _ there handled => setPhase_origin there handled nofun⟩
  | cleaned known => exact ⟨rfl, rfl, fun _ _ _ there handled => setPhase_origin there handled nofun⟩
  | finished known => exact ⟨rfl, rfl, fun _ _ _ there handled => setPhase_origin there handled nofun⟩
  | ticked => exact ⟨rfl, rfl, fun _ _ _ there _ => there⟩
  | _ => exact quiet.elim

/-- A settled attempt does not change any more. -/
theorem Effect.settled_kept (effect : Effect c event c') {id : Nat} {attempt : Attempt V E L}
    {outcome : Except E V} (there : c.attempts id = some attempt)
    (settled : attempt.phase = .settled outcome) : c'.attempts id = some attempt := by
  have going : ∀ {attempt' : Attempt V E L} {phase : Phase V E}, attempt'.phase = phase →
      (∀ outcome, phase ≠ .settled outcome) → ∀ outcome, attempt'.phase ≠ .settled outcome := by
    rintro attempt' _ rfl going
    exact going
  cases effect with
  | @made key policy load id' unused =>
    rw [register_attempts, if_neg]
    · exact there
    · rintro rfl
      cases unused.symm.trans there
  | started known phase => exact setPhase_settled known (going phase nofun) there settled
  | answered known phase => exact setPhase_settled known (going phase nofun) there settled
  | stored known phase =>
    refine setPhase_settled ?_ (going phase nofun) ?_ settled
    · rw [store_attempts]
      exact known
    · rw [store_attempts]
      exact there
  | dropped known phase => exact setPhase_settled known (going phase nofun) there settled
  | fellBack known phase => exact setPhase_settled known (going phase nofun) there settled
  | failed known phase => exact setPhase_settled known (going phase nofun) there settled
  | cleaned known phase => exact setPhase_settled known (going phase nofun) there settled
  | finished known phase => exact setPhase_settled known (going phase nofun) there settled
  | set => exact (congrFun (store_attempts ..) id).trans there
  | guarded => exact (congrFun (store_attempts ..) id).trans there
  | cleared => exact (congrFun (clear_attempts ..) id).trans there
  | _ => exact there

theorem settled_kept_after (events : List (Event V E L)) {id : Nat} {attempt : Attempt V E L}
    {outcome : Except E V} (there : c.attempts id = some attempt)
    (settled : attempt.phase = .settled outcome) : (c.after events).attempts id = some attempt :=
  Machine.run_preserves (P := fun s : MemoryCache V E L => s.attempts id = some attempt)
    (fun s event kept => (apply_effect s event).settled_kept kept settled) there

end Kept

section Consistent

/-- The load of an attempt has not been cleaned up yet. -/
def Outstanding (c : MemoryCache V E L) (id : Nat) (attempt : Attempt V E L) : Prop :=
  c.attempts id = some attempt ∧ ∀ outcome, attempt.phase ≠ .settled outcome

/-- No clear that concerns its key came after the attempt. -/
def Current (c : MemoryCache V E L) (attempt : Attempt V E L) : Prop :=
  attempt.generation = c.generationFor attempt.key

/-- What holds in every state: no clear is later than the count of clears, no attempt
later than the clears of its key, a registration is that of an outstanding attempt of
its key, and an outstanding attempt that is current is registered. -/
structure Consistent (c : MemoryCache V E L) : Prop where
  clears : ∀ start clearedAt, c.clearGenerations.get? start = some clearedAt →
    clearedAt ≤ c.clearGeneration
  stamped : ∀ id attempt, c.attempts id = some attempt →
    attempt.generation ≤ c.generationFor attempt.key
  registered : ∀ key id, c.inFlight.get? key = some id →
    ∃ attempt, c.Outstanding id attempt ∧ attempt.key = key
  live : ∀ id attempt, c.Outstanding id attempt → c.Current attempt →
    c.inFlight.get? attempt.key = some id

theorem create_consistent (maxEntries now : Nat) :
    (createMemoryCache maxEntries now : MemoryCache V E L).Consistent where
  clears _ _ found := by cases found
  stamped _ _ found := by cases found
  registered _ _ found := by cases found
  live _ _ outstanding := by cases outstanding.1

theorem Consistent.generationFor_le (consistent : c.Consistent) (key : String) :
    c.generationFor key ≤ c.clearGeneration := by
  rcases c.generationFor_attained key with zero | ⟨start, -, cleared⟩
  · rw [zero]
    exact Nat.zero_le _
  · exact consistent.clears start _ cleared

/-- A clear raises the generation of the keys it concerns to itself. -/
theorem Consistent.generationFor_clear (consistent : c.Consistent) {start : Option String}
    {key : String} (concerns : related (start.getD "") key = true) :
    (c.clear start).generationFor key = c.clearGeneration + 1 := by
  apply Nat.le_antisymm
  · rcases (c.clear start).generationFor_attained key with zero | ⟨other, -, cleared⟩
    · rw [zero]
      exact Nat.zero_le _
    · rw [clear_clearGenerations, KeyedMap.get?_set] at cleared
      split at cleared
      case isTrue => exact Nat.le_of_eq (Option.some.inj cleared).symm
      case isFalse => exact Nat.le_succ_of_le (consistent.clears other _ cleared)
  · apply le_generationFor concerns
    rw [clear_clearGenerations, KeyedMap.get?_set_self]

/-- A clear leaves the generations of all other keys alone. -/
theorem generationFor_clear_of_unrelated {start : Option String} {key : String}
    (apart : related (start.getD "") key = false) :
    (c.clear start).generationFor key = c.generationFor key := by
  refine generationFor_congr fun other concerns => ?_
  rw [clear_clearGenerations, KeyedMap.get?_set_of_ne]
  intro same
  rw [same, apart] at concerns
  cases concerns

theorem Consistent.generationFor_le_clear (consistent : c.Consistent) (start : Option String)
    (key : String) : c.generationFor key ≤ (c.clear start).generationFor key := by
  cases concerns : related (start.getD "") key with
  | true =>
    rw [consistent.generationFor_clear concerns]
    exact Nat.le_succ_of_le (consistent.generationFor_le key)
  | false => exact Nat.le_of_eq (generationFor_clear_of_unrelated concerns).symm

/-- Consistency does not look at the entries. -/
theorem Consistent.store (consistent : c.Consistent) (key : String) (value : V)
    (policy : CachePolicy) : (c.store key value policy).Consistent := by
  rw [store_fields]
  exact ⟨consistent.clears, consistent.stamped, consistent.registered, consistent.live⟩

/-- A step of a load that is not its last keeps consistency. -/
theorem Consistent.setPhase (consistent : c.Consistent) {id : Nat} {attempt : Attempt V E L}
    {phase : Phase V E} (outstanding : c.Outstanding id attempt)
    (going : ∀ outcome, phase ≠ .settled outcome) :
    (c.setPhase id attempt phase).Consistent where
  clears := consistent.clears
  stamped id' attempt' known := by
    rw [setPhase_attempts] at known
    split at known
    · cases known
      exact consistent.stamped id attempt outstanding.1
    · exact consistent.stamped id' attempt' known
  registered key id' flying := by
    obtain ⟨attempt', there, same⟩ := consistent.registered key id' flying
    by_cases this : id' = id
    · subst this
      obtain rfl : attempt' = attempt := Option.some.inj (there.1.symm.trans outstanding.1)
      refine ⟨{ attempt' with phase }, ⟨?_, going⟩, same⟩
      rw [setPhase_attempts, if_pos rfl]
    · refine ⟨attempt', ⟨?_, there.2⟩, same⟩
      rw [setPhase_attempts, if_neg this]
      exact there.1
  live id' attempt' there current := by
    obtain ⟨known, unsettled⟩ := there
    rw [setPhase_attempts] at known
    split at known
    case isTrue this =>
      cases known
      subst this
      exact consistent.live id' attempt outstanding current
    case isFalse => exact consistent.live id' attempt' ⟨known, unsettled⟩ current

theorem Consistent.finish (consistent : c.Consistent) {id : Nat} {attempt : Attempt V E L}
    {outcome : Except E V} {inFlight : KeyedMap String Nat} (known : c.attempts id = some attempt)
    (removed : ∀ key, inFlight.get? key =
      if c.inFlight.get? key = some id then none else c.inFlight.get? key) :
    ({ c with inFlight }.setPhase id attempt (.settled outcome)).Consistent where
  clears := consistent.clears
  stamped id' attempt' there := by
    rw [setPhase_attempts] at there
    split at there
    · cases there
      exact consistent.stamped id attempt known
    · exact consistent.stamped id' attempt' there
  registered key id' flying := by
    change inFlight.get? key = some id' at flying
    rw [removed] at flying
    split at flying
    · cases flying
    case isFalse other =>
      obtain ⟨attempt', there, same⟩ := consistent.registered key id' flying
      have this : id' ≠ id := fun this => other (this ▸ flying)
      refine ⟨attempt', ⟨?_, there.2⟩, same⟩
      rw [setPhase_attempts, if_neg this]
      exact there.1
  live id' attempt' there current := by
    obtain ⟨there, unsettled⟩ := there
    rw [setPhase_attempts] at there
    split at there
    case isTrue =>
      cases there
      exact absurd rfl (unsettled outcome)
    case isFalse this =>
      have flying := consistent.live id' attempt' ⟨there, unsettled⟩ current
      change inFlight.get? attempt'.key = some id'
      rw [removed, flying, if_neg fun same => this (Option.some.inj same)]

theorem Consistent.clear (consistent : c.Consistent) (start : Option String) :
    (c.clear start).Consistent where
  clears other clearedAt cleared := by
    rw [clear_clearGenerations, KeyedMap.get?_set] at cleared
    rw [clear_clearGeneration]
    split at cleared
    case isTrue => exact Nat.le_of_eq (Option.some.inj cleared).symm
    case isFalse => exact Nat.le_succ_of_le (consistent.clears other clearedAt cleared)
  stamped id attempt known := by
    rw [clear_attempts] at known
    exact Nat.le_trans (consistent.stamped id attempt known)
      (consistent.generationFor_le_clear start attempt.key)
  registered key id flying := by
    rw [clear_inFlight] at flying
    split at flying
    · cases flying
    · obtain ⟨attempt, there, same⟩ := consistent.registered key id flying
      exact ⟨attempt, ⟨by rw [clear_attempts]; exact there.1, there.2⟩, same⟩
  live id attempt there current := by
    obtain ⟨known, unsettled⟩ := there
    rw [clear_attempts] at known
    cases concerns : related (start.getD "") attempt.key with
    | true =>
      have bound := Nat.le_trans (consistent.stamped id attempt known)
        (consistent.generationFor_le attempt.key)
      rw [Current, consistent.generationFor_clear concerns] at current
      omega
    | false =>
      rw [Current, generationFor_clear_of_unrelated concerns] at current
      rw [related, Bool.or_eq_false_iff] at concerns
      rw [clear_inFlight, concerns.1, if_neg Bool.false_ne_true]
      exact consistent.live id attempt ⟨known, unsettled⟩ current

theorem Consistent.register (consistent : c.Consistent) {key : String} {policy : CachePolicy}
    {load : L} {id : Nat} (unused : c.attempts id = none) (alone : c.inFlight.get? key = none) :
    (c.register key policy load id).Consistent where
  clears := consistent.clears
  stamped id' attempt known := by
    rw [register_attempts] at known
    split at known
    · cases known
      exact Nat.le_refl _
    · exact consistent.stamped id' attempt known
  registered key' id' flying := by
    rw [register_inFlight] at flying
    split at flying
    case isTrue same =>
      cases flying
      refine ⟨⟨key, policy, load, c.generationFor key, .queued⟩, ⟨?_, by simp⟩, same.symm⟩
      rw [register_attempts, if_pos rfl]
    case isFalse =>
      obtain ⟨attempt, there, same⟩ := consistent.registered key' id' flying
      have this : id' ≠ id := by
        rintro rfl
        cases unused.symm.trans there.1
      refine ⟨attempt, ⟨?_, there.2⟩, same⟩
      rw [register_attempts, if_neg this]
      exact there.1
  live id' attempt there current := by
    obtain ⟨known, unsettled⟩ := there
    rw [register_attempts] at known
    rw [register_inFlight]
    split at known
    case isTrue this =>
      cases known
      rw [this, if_pos rfl]
    case isFalse =>
      have flying := consistent.live id' attempt ⟨known, unsettled⟩ current
      rw [if_neg, flying]
      intro same
      rw [same, alone] at flying
      cases flying

theorem Consistent.effect (consistent : c.Consistent) {event : Event V E L}
    {c' : MemoryCache V E L} (effect : Effect c event c') : c'.Consistent := by
  have outstanding : ∀ {id attempt phase}, c.attempts id = some attempt → attempt.phase = phase →
      (∀ outcome, phase ≠ .settled outcome) → c.Outstanding id attempt := by
    rintro id attempt _ known rfl going
    exact ⟨known, going⟩
  cases effect with
  | idle => exact consistent
  | made unused missing alone => exact consistent.register unused alone
  | started known queued => exact consistent.setPhase (outstanding known queued nofun) nofun
  | answered known loading => exact consistent.setPhase (outstanding known loading nofun) nofun
  | @stored id attempt value known loaded current =>
    have kept := consistent.store attempt.key value attempt.policy
    refine kept.setPhase ⟨?_, (outstanding known loaded nofun).2⟩ nofun
    rw [store_attempts]
    exact known
  | dropped known loaded => exact consistent.setPhase (outstanding known loaded nofun) nofun
  | fellBack known loaded => exact consistent.setPhase (outstanding known loaded nofun) nofun
  | failed known loaded => exact consistent.setPhase (outstanding known loaded nofun) nofun
  | @cleaned id attempt outcome known handled registered =>
    refine consistent.finish known fun key => ?_
    rw [KeyedMap.get?_delete]
    by_cases same : key = attempt.key
    · rw [if_pos same, same, if_pos registered]
    · have other : c.inFlight.get? key ≠ some id := by
        intro flying
        obtain ⟨attempt', there, key'⟩ := consistent.registered key id flying
        obtain rfl : attempt' = attempt := Option.some.inj (there.1.symm.trans known)
        exact same key'.symm
      rw [if_neg same, if_neg other]
  | @finished id attempt outcome known handled replaced =>
    change ({ c with inFlight := c.inFlight }.setPhase id attempt (.settled outcome)).Consistent
    refine consistent.finish known fun key => ?_
    have other : c.inFlight.get? key ≠ some id := by
      intro flying
      obtain ⟨attempt', there, key'⟩ := consistent.registered key id flying
      obtain rfl : attempt' = attempt := Option.some.inj (there.1.symm.trans known)
      exact replaced (key' ▸ flying)
    rw [if_neg other]
  | set => exact consistent.store _ _ _
  | guarded => exact consistent.store _ _ _
  | cleared start => exact consistent.clear start
  | ticked =>
    exact ⟨consistent.clears, consistent.stamped, consistent.registered, consistent.live⟩

theorem Consistent.after (consistent : c.Consistent) (events : List (Event V E L)) :
    (c.after events).Consistent :=
  Machine.run_preserves (fun _ event kept => Consistent.effect kept (apply_effect _ event)) consistent

theorem Reachable.consistent (reachable : c.Reachable) : c.Consistent := by
  obtain ⟨maxEntries, now, events, rfl⟩ := reachable
  exact (create_consistent maxEntries now).after events

/-- The promise that a read returns is one of its key. -/
theorem Consistent.read_attempt (consistent : c.Consistent) {key : String} {policy : CachePolicy}
    {load : L} {id pending : Nat}
    (reading : (c.read key policy load id).2 = .attempt pending) :
    ∃ attempt, (c.read key policy load id).1.attempts pending = some attempt ∧
      attempt.key = key := by
  rw [read] at reading ⊢
  cases found : c.peek key with
  | some value =>
    rw [found] at reading
    cases reading
  | none =>
    rw [found] at reading
    cases flying : c.inFlight.get? key with
    | some other =>
      simp only [flying] at reading
      cases reading
      obtain ⟨attempt, outstanding, same⟩ := consistent.registered key pending flying
      exact ⟨attempt, outstanding.1, same⟩
    | none =>
      simp only [flying] at reading
      cases reading
      refine ⟨⟨key, policy, load, c.generationFor key, .queued⟩, ?_, rfl⟩
      simp only [register_attempts, if_true]

/-- The count of clears never falls. -/
theorem clearGeneration_le_after (c : MemoryCache V E L) (events : List (Event V E L)) :
    c.clearGeneration ≤ (c.after events).clearGeneration := by
  refine Machine.run_preserves (P := fun s : MemoryCache V E L => c.clearGeneration ≤ s.clearGeneration) ?_
    (Nat.le_refl _)
  intro s event risen
  exact Nat.le_trans risen (apply_effect s event).clearGeneration_le

end Consistent

end MemoryCache
end WalletBackend.Cache
