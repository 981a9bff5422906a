import WalletBackend.Cache.Typed

/-! What an event makes of one promise, and what those get who hold it. -/
namespace WalletBackend.Cache
open Containers

variable {V E L : Type}

/-- The value that a promise is going to resolve to, once that is decided. -/
def Phase.resolved? : Phase V E → Option V
  | .handled (.ok value) => some value
  | .settled (.ok value) => some value
  | _ => none

theorem Phase.value?_of_resolved? {phase : Phase V E} {value : V}
    (resolved : phase.resolved? = some value) : phase.value? = some value := by
  cases phase with
  | handled outcome =>
    cases outcome with
    | ok => exact resolved
    | error => cases resolved
  | settled outcome =>
    cases outcome with
    | ok => exact resolved
    | error => cases resolved
  | _ => cases resolved

namespace MemoryCache

variable {c c' : MemoryCache V E L} {event : Event V E L} {id : Nat} {value : V}

/-- The outcome of the promise that a read returned, once it has settled. -/
def settlement (c : MemoryCache V E L) : Reading V → Option (Except E V)
  | .hit value => some (.ok value)
  | .attempt id =>
      match (c.attempts id).map Attempt.phase with
      | some (.settled outcome) => some outcome
      | _ => none

/-- The reading has, or is going to have, this value. -/
def Resolves (c : MemoryCache V E L) (value : V) : Reading V → Prop
  | .hit held => held = value
  | .attempt id => ∃ attempt, c.attempts id = some attempt ∧ attempt.phase.resolved? = some value

theorem resolves_of_settlement {reading : Reading V}
    (settled : c.settlement reading = some (.ok value)) : c.Resolves value reading := by
  cases reading with
  | hit held =>
    cases settled
    rfl
  | attempt id =>
    rw [settlement] at settled
    cases there : c.attempts id with
    | none => simp [there] at settled
    | some attempt =>
      refine ⟨attempt, there, ?_⟩
      rw [there, Option.map_some] at settled
      split at settled
      case h_1 outcome phase =>
        cases settled
        rw [Option.some.inj phase]
        rfl
      case h_2 => cases settled

/-- How the promise `id`, which is `after` when the event is over, has come to be so. -/
inductive Advance (c : MemoryCache V E L) (id : Nat) (after : Attempt V E L) :
    Event V E L → Prop where
  | kept (event : Event V E L) (there : c.attempts id = some after) : Advance c id after event
  | made (unused : c.attempts id = none) (queued : after.phase = .queued) :
      Advance c id after (.read after.key after.policy after.load id)
  | started {before} (there : c.attempts id = some before) (queued : before.phase = .queued)
      (same : after = { before with phase := .loading }) : Advance c id after (.startLoad id)
  | answered {before result} (there : c.attempts id = some before)
      (loading : before.phase = .loading) (same : after = { before with phase := .loaded result }) :
      Advance c id after (.answer id result)
  | loaded {before value} (there : c.attempts id = some before)
      (loaded : before.phase = .loaded (.ok value))
      (same : after = { before with phase := .handled (.ok value) }) :
      Advance c id after (.handle id)
  | fellBack {before error value} (there : c.attempts id = some before)
      (failed : before.phase = .loaded (.error error)) (stale : c.fallback before = some value)
      (same : after = { before with phase := .handled (.ok value) }) :
      Advance c id after (.handle id)
  | failed {before error} (there : c.attempts id = some before)
      (failed : before.phase = .loaded (.error error)) (nothing : c.fallback before = none)
      (same : after = { before with phase := .handled (.error error) }) :
      Advance c id after (.handle id)
  | finished {before outcome} (there : c.attempts id = some before)
      (handled : before.phase = .handled outcome)
      (same : after = { before with phase := .settled outcome }) :
      Advance c id after (.finish id)

theorem advance_setPhase {id' : Nat} {attempt after : Attempt V E L} {phase : Phase V E}
    (there : (c.setPhase id attempt phase).attempts id' = some after)
    (advance : Advance c id { attempt with phase } event) : Advance c id' after event := by
  rw [setPhase_attempts] at there
  split at there
  case isTrue same =>
    subst same
    cases there
    exact advance
  case isFalse => exact .kept event there

theorem Effect.advance (effect : Effect c event c') {after : Attempt V E L}
    (there : c'.attempts id = some after) : Advance c id after event := by
  cases effect with
  | @made key policy load id' unused =>
    rw [register_attempts] at there
    split at there
    case isTrue same =>
      subst same
      cases there
      exact .made unused rfl
    case isFalse => exact .kept _ there
  | started known queued => exact advance_setPhase there (.started known queued rfl)
  | answered known loading => exact advance_setPhase there (.answered known loading rfl)
  | @stored id' attempt value known loaded =>
    rw [setPhase_attempts, store_attempts, ← setPhase_attempts] at there
    exact advance_setPhase there (.loaded known loaded rfl)
  | dropped known loaded => exact advance_setPhase there (.loaded known loaded rfl)
  | fellBack known failed stale => exact advance_setPhase there (.fellBack known failed stale rfl)
  | failed known failed nothing => exact advance_setPhase there (.failed known failed nothing rfl)
  | cleaned known handled => exact advance_setPhase there (.finished known handled rfl)
  | finished known handled => exact advance_setPhase there (.finished known handled rfl)
  | set => exact .kept _ ((congrFun (store_attempts ..) id).symm.trans there)
  | guarded => exact .kept _ ((congrFun (store_attempts ..) id).symm.trans there)
  | cleared => exact .kept _ ((congrFun (clear_attempts ..) id).symm.trans there)
  | _ => exact .kept _ there

theorem Effect.unused_kept (effect : Effect c event c') (unused : c.attempts id = none)
    (other : ∀ key policy load, event ≠ .read key policy load id) : c'.attempts id = none := by
  cases there : c'.attempts id with
  | none => rfl
  | some after =>
    cases effect.advance there with
    | kept _ known => cases unused.symm.trans known
    | made => exact absurd rfl (other _ _ _)
    | started known => cases unused.symm.trans known
    | answered known => cases unused.symm.trans known
    | loaded known => cases unused.symm.trans known
    | fellBack known => cases unused.symm.trans known
    | failed known => cases unused.symm.trans known
    | finished known => cases unused.symm.trans known

/-- Only a load that is under way can be answered. -/
theorem answer_idle {result : Except E V}
    (idle : ¬ ∃ attempt, c.attempts id = some attempt ∧ attempt.phase = .loading) :
    c.answer id result = c := by
  unfold answer
  cases there : c.attempts id with
  | none => rfl
  | some attempt =>
    cases phase : attempt.phase with
    | loading => exact absurd ⟨attempt, there, phase⟩ idle
    | _ => simp only [phase]

theorem answer_attempt {attempt : Attempt V E L} {result : Except E V}
    (there : c.attempts id = some attempt) (loading : attempt.phase = .loading) :
    (c.answer id result).attempts id = some { attempt with phase := .loaded result } := by
  simp only [answer, there, loading, setPhase_attempts, if_true]

/-- What the steps after it keep of a phase stays true of the promise. -/
theorem Effect.phase_kept (effect : Effect c event c') {found : Phase V E → Prop}
    (queued : ¬ found .queued) (loading : ¬ found .loading)
    (refused : ∀ error, ¬ found (.loaded (.error error)))
    (loaded : ∀ value, found (.loaded (.ok value)) → found (.handled (.ok value)))
    (handled : ∀ outcome, found (.handled outcome) → found (.settled outcome))
    {attempt : Attempt V E L} (there : c.attempts id = some attempt) (holds : found attempt.phase) :
    ∃ phase, c'.attempts id = some { attempt with phase } ∧ found phase := by
  obtain ⟨phase, kept⟩ := effect.attempt_kept there
  refine ⟨phase, kept, ?_⟩
  have same : ∀ {before : Attempt V E L} {earlier : Phase V E}, c.attempts id = some before →
      before.phase = earlier → found earlier := by
    rintro before _ known rfl
    obtain rfl : before = attempt := Option.some.inj (known.symm.trans there)
    exact holds
  have advance := effect.advance kept
  generalize after_eq : ({ attempt with phase } : Attempt V E L) = after at advance
  rw [show phase = after.phase by rw [← after_eq]]
  cases advance with
  | kept _ known => exact same known rfl
  | made unused => cases unused.symm.trans there
  | started known phase => exact absurd (same known phase) queued
  | answered known phase => exact absurd (same known phase) loading
  | loaded known phase now =>
    rw [now]
    exact loaded _ (same known phase)
  | fellBack known phase => exact absurd (same known phase) (refused _)
  | failed known phase => exact absurd (same known phase) (refused _)
  | finished known phase now =>
    rw [now]
    exact handled _ (same known phase)

/-- A value once loaded stays that of its promise. -/
theorem Effect.value_kept (effect : Effect c event c') {attempt : Attempt V E L}
    (there : c.attempts id = some attempt) (loaded : attempt.phase.value? = some value) :
    ∃ phase, c'.attempts id = some { attempt with phase } ∧ phase.value? = some value := by
  refine effect.phase_kept nofun nofun (fun _ => nofun) (fun _ found => found) ?_ there loaded
  intro outcome found
  cases outcome with
  | ok => exact found
  | error => cases found

theorem Effect.resolves_kept (effect : Effect c event c') {reading : Reading V}
    (resolves : c.Resolves value reading) : c'.Resolves value reading := by
  cases reading with
  | hit => exact resolves
  | attempt id =>
    obtain ⟨attempt, there, resolved⟩ := resolves
    have kept : ∃ phase, c'.attempts id = some { attempt with phase } ∧
        phase.resolved? = some value := by
      refine effect.phase_kept nofun nofun (fun _ => nofun) (fun _ => nofun) ?_ there resolved
      intro outcome found
      cases outcome with
      | ok => exact found
      | error => cases found
    obtain ⟨phase, there', resolved'⟩ := kept
    exact ⟨_, there', resolved'⟩

/-- A promise comes to have a value when the value that it loaded is handled, or when
its error is and there is a stale value. -/
theorem Effect.resolves_new (effect : Effect c event c')
    (resolves : c'.Resolves value (.attempt id)) :
    c.Resolves value (.attempt id) ∨ event = .handle id ∧ ∃ attempt, c.attempts id = some attempt ∧
      (attempt.phase = .loaded (.ok value) ∨
        ∃ error, attempt.phase = .loaded (.error error) ∧ c.fallback attempt = some value) := by
  obtain ⟨after, there, resolved⟩ := resolves
  cases effect.advance there with
  | kept _ known => exact .inl ⟨after, known, resolved⟩
  | made _ queued =>
    rw [queued] at resolved
    cases resolved
  | started _ _ same =>
    cases same
    cases resolved
  | answered _ _ same =>
    cases same
    cases resolved
  | loaded known loaded same =>
    cases same
    cases resolved
    exact .inr ⟨rfl, _, known, .inl loaded⟩
  | fellBack known failed stale same =>
    cases same
    cases resolved
    exact .inr ⟨rfl, _, known, .inr ⟨_, failed, stale⟩⟩
  | failed _ _ _ same =>
    cases same
    cases resolved
  | @finished before outcome known handled same =>
    cases same
    refine .inl ⟨before, known, ?_⟩
    rw [handled]
    cases outcome with
    | ok => exact resolved
    | error => cases resolved

theorem Effect.resolves_iff (effect : Effect c event c') (other : ∀ id, event ≠ .handle id)
    {reading : Reading V} : c'.Resolves value reading ↔ c.Resolves value reading := by
  constructor
  · intro resolves
    cases reading with
    | hit => exact resolves
    | attempt id =>
      rcases effect.resolves_new resolves with before | ⟨handled, -⟩
      · exact before
      · exact absurd handled (other id)
  · exact effect.resolves_kept

theorem resolves_read {key : String} {policy : CachePolicy} {load : L} (unused : c.attempts id = none)
    {reading : Reading V} :
    (c.read key policy load id).1.Resolves value reading ↔ c.Resolves value reading :=
  (read_effect unused).resolves_iff fun _ => nofun

/-- An attempt was there before with its load, or has been made by this very read. -/
theorem Effect.origin (effect : Effect c event c') {after : Attempt V E L}
    (there : c'.attempts id = some after) :
    (∃ before, c.attempts id = some before ∧ before.load = after.load) ∨
      c.attempts id = none ∧ event = .read after.key after.policy after.load id := by
  cases effect.advance there with
  | kept _ known => exact .inl ⟨after, known, rfl⟩
  | made unused => exact .inr ⟨unused, rfl⟩
  | started known _ same => exact .inl ⟨_, known, same ▸ rfl⟩
  | answered known _ same => exact .inl ⟨_, known, same ▸ rfl⟩
  | loaded known _ same => exact .inl ⟨_, known, same ▸ rfl⟩
  | fellBack known _ _ same => exact .inl ⟨_, known, same ▸ rfl⟩
  | failed known _ _ same => exact .inl ⟨_, known, same ▸ rfl⟩
  | finished known _ same => exact .inl ⟨_, known, same ▸ rfl⟩

/-- A read that makes a promise returns it. -/
theorem read_made {key : String} {policy : CachePolicy} {load : L} (unused : c.attempts id = none)
    (made : (c.read key policy load id).1.attempts id ≠ none) :
    (c.read key policy load id).2 = .attempt id := by
  rw [read] at made ⊢
  cases found : c.peek key with
  | some value =>
    rw [found] at made
    exact absurd unused made
  | none =>
    cases flying : c.inFlight.get? key with
    | some pending =>
      simp only [found, flying] at made
      exact absurd unused made
    | none => rfl

end MemoryCache
end WalletBackend.Cache
