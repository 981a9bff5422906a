import WalletBackend.Cache.Staleness

/-! Reads under a policy without a stale window. Their promises settle with what their own loads
came to, whether that is a value or an error, and a hit is on a value that a load of the key came
to and that was stored less than the lifetime ago. -/
namespace WalletBackend.Cache
open Containers

variable {V E L : Type}

/-- What the load of a promise came to, and what was made of it. -/
def Phase.result? : Phase V E → Option (Except E V)
  | .loaded result => some result
  | .handled outcome => some outcome
  | .settled outcome => some outcome
  | _ => none

/-- The outcome of the load has still to be handled. -/
def Phase.Pending : Phase V E → Prop
  | .queued | .loading | .loaded _ => True
  | _ => False

namespace MemoryCache

section Vacancy

variable {c c' : MemoryCache V E L} {key : String} {policy : CachePolicy} {event : Event V E L}

/-- While a load of the key is pending that no clear has superseded, no value of the key is fresh. -/
def Vacant (c : MemoryCache V E L) (key : String) : Prop :=
  ∀ id attempt, c.attempts id = some attempt → attempt.key = key → attempt.phase.Pending →
    c.Current attempt → c.peek key = none

theorem peek_eq_none_iff :
    c.peek key = none ↔ ∀ entry, c.entries.get? key = some entry → entry.expiresAt ≤ c.now := by
  simp only [peek, Option.bind_eq_none_iff, ite_eq_right_iff, reduceCtorEq, imp_false, Nat.not_lt]

/-- A value that is not fresh does not become so with time, and an entry may go. -/
theorem peek_none_kept (missing : c.peek key = none) (later : c.now ≤ c'.now)
    (kept : ∀ entry, c'.entries.get? key = some entry → c.entries.get? key = some entry) :
    c'.peek key = none := by
  rw [peek_eq_none_iff] at missing ⊢
  exact fun entry found => Nat.le_trans (missing entry (kept entry found)) later

theorem Vacant.of_kept (vacant : c.Vacant key) (attempts : c'.attempts = c.attempts)
    (current : ∀ id attempt, c.attempts id = some attempt → c'.Current attempt → c.Current attempt)
    (later : c.now ≤ c'.now)
    (kept : ∀ entry, c'.entries.get? key = some entry → c.entries.get? key = some entry) :
    c'.Vacant key := by
  intro id attempt there wanted pending now
  rw [attempts] at there
  exact peek_none_kept (vacant id attempt there wanted pending (current id attempt there now)) later kept

theorem Vacant.setPhase (vacant : c.Vacant key) {id : Nat} {attempt : Attempt V E L}
    {phase : Phase V E} {inFlight : KeyedMap String Nat} (known : c.attempts id = some attempt)
    (before : phase.Pending → attempt.phase.Pending) :
    ({ c with inFlight }.setPhase id attempt phase).Vacant key := by
  intro id' attempt' there wanted pending current
  rw [setPhase_attempts] at there
  split at there
  · cases there
    exact vacant id attempt known wanted (before pending) current
  · exact vacant id' attempt' there wanted pending current

theorem Vacant.store (vacant : c.Vacant key) {written : String} {value : V}
    (other : written ≠ key) : (c.store written value policy).Vacant key := by
  refine vacant.of_kept (store_attempts ..) ?_ (Nat.le_of_eq (store_now ..).symm) ?_
  · intro id attempt there current
    rwa [Current, store_generationFor] at current
  · intro entry found
    obtain ⟨same, -⟩ | ⟨-, kept⟩ := get?_store found
    · exact absurd same.symm other
    · exact kept

/-- A clear supersedes the loads of the keys it concerns. -/
theorem Consistent.current_of_clear (consistent : c.Consistent) {start : Option String} {id : Nat}
    {attempt : Attempt V E L} (there : c.attempts id = some attempt)
    (current : (c.clear start).Current attempt) : c.Current attempt := by
  have before := consistent.stamped id attempt there
  have after := consistent.generationFor_le_clear start attempt.key
  rw [Current] at current ⊢
  omega

theorem Vacant.effect (vacant : c.Vacant key) (consistent : c.Consistent)
    (effect : Effect c event c') (follows : Follows key policy c event) : c'.Vacant key := by
  have ended : ∀ {phase : Phase V E} {outcome : Except E V}, (Phase.handled outcome).Pending →
      phase.Pending := False.elim
  cases effect with
  | idle => exact vacant
  | made unused missing =>
    intro id attempt there wanted pending current
    rw [register_attempts] at there
    split at there
    · cases there
      exact wanted ▸ missing
    · exact vacant id attempt there wanted pending current
  | started known queued => exact vacant.setPhase known fun _ => queued ▸ trivial
  | answered known loading => exact vacant.setPhase known fun _ => loading ▸ trivial
  | @stored id attempt value known loaded current =>
    by_cases same : attempt.key = key
    · intro id' attempt' there wanted pending current'
      rw [setPhase_attempts, store_attempts] at there
      split at there
      · cases there
        exact pending.elim
      case isFalse other =>
        -- Both loads are current, so it is the same.
        rw [Current, setPhase_generationFor, store_generationFor] at current'
        have flying := consistent.live id attempt ⟨known, by simp [loaded]⟩ current
        have unsettled : ∀ outcome, attempt'.phase ≠ .settled outcome := by
          intro outcome settled
          rw [settled] at pending
          exact pending
        have flying' := consistent.live id' attempt' ⟨there, unsettled⟩ current'
        rw [wanted, ← same] at flying'
        exact absurd (Option.some.inj (flying'.symm.trans flying)) other
    · refine (vacant.store same).setPhase ?_ ended
      rw [store_attempts]
      exact known
  | dropped known => exact vacant.setPhase known ended
  | fellBack known => exact vacant.setPhase known ended
  | failed known => exact vacant.setPhase known ended
  | cleaned known => exact vacant.setPhase known False.elim
  | finished known => exact vacant.setPhase known False.elim
  | set => exact vacant.store follows
  | guarded => exact vacant.store follows
  | cleared start =>
    refine vacant.of_kept (clear_attempts start) (fun _ _ => consistent.current_of_clear)
      (Nat.le_of_eq (clear_now start).symm) ?_
    intro entry found
    rw [clear_entries] at found
    split at found
    · cases found
    · exact found
  | ticked => exact vacant.of_kept rfl (fun _ _ _ current => current) follows fun _ found => found

/-- What could not be served fresh is not served stale without a window. -/
theorem fallback_eq_none {attempt : Attempt V E L}
    (windowless : ∀ entry, c.entries.get? attempt.key = some entry → entry.usableUntil = entry.expiresAt)
    (missing : c.Current attempt → c.peek attempt.key = none) : c.fallback attempt = none := by
  cases stale : c.fallback attempt with
  | none => rfl
  | some value =>
    rw [fallback] at stale
    obtain ⟨entry, found, served⟩ := Option.bind_eq_some_iff.mp stale
    simp only [Bool.and_eq_true, decide_eq_true_eq, Option.ite_none_right_eq_some] at served
    have expired := peek_eq_none_iff.mp (missing served.1.1) entry found
    rw [windowless entry found] at served
    exact absurd served.1.2 (Nat.not_lt.mpr expired)

end Vacancy

variable {s : MemoryCache V E L} {key : String} {ttlMs : Nat} {events : List (Event V E L)}
  {event : Event V E L} {id time : Nat} {result : Except E V}

/-- The load of the promise, which is one of the key, comes to the result at the time. -/
def AnsweredAt (s : MemoryCache V E L) (events : List (Event V E L)) (key : String) (id : Nat)
    (result : Except E V) (time : Nat) : Prop :=
  Machine.Occurs apply (fun c event => event = .answer id result ∧ c.now = time ∧
    ∃ attempt, c.attempts id = some attempt ∧ attempt.phase = .loading ∧ attempt.key = key) s events

theorem AnsweredAt.concat (answered : AnsweredAt s events key id result time) (event : Event V E L) :
    AnsweredAt s (events ++ [event]) key id result time :=
  Machine.occurs_append.mpr (.inl answered)

/-- What the load of the promise came to is written under the key at the time. -/
def WrittenAt (s : MemoryCache V E L) (events : List (Event V E L)) (key : String) (id : Nat)
    (value : V) (time : Nat) : Prop :=
  Machine.Occurs apply (fun c event => event = .handle id ∧ c.now = time ∧
    ∃ policy, Stores c event key value policy) s events

theorem WrittenAt.concat {value : V} (stored : WrittenAt s events key id value time)
    (event : Event V E L) : WrittenAt s (events ++ [event]) key id value time :=
  Machine.occurs_append.mpr (.inl stored)

/-- What the run says of a key that is read under a plain lifetime. -/
structure Delivered (s : MemoryCache V E L) (key : String) (ttlMs : Nat)
    (events : List (Event V E L)) : Prop where
  consistent : (s.after events).Consistent
  vacant : (s.after events).Vacant key
  made : ∀ id attempt, (s.after events).attempts id = some attempt → attempt.key = key →
    attempt.policy = .ofTtl ttlMs
  /-- A load came to its result in the run. -/
  results : ∀ id attempt result, (s.after events).attempts id = some attempt → attempt.key = key →
    attempt.phase.result? = some result →
      ∃ time, AnsweredAt s events key id result time ∧ time ≤ (s.after events).now
  /-- The value of the entry is what a load came to, and its lifetime began when it was stored. -/
  entry : ∀ entry, (s.after events).entries.get? key = some entry →
    ∃ id loaded stored, AnsweredAt s events key id (.ok entry.value) loaded ∧
      WrittenAt s events key id entry.value stored ∧ loaded ≤ stored ∧
      stored ≤ (s.after events).now ∧ entry.expiresAt = stored + ttlMs ∧
      entry.usableUntil = entry.expiresAt

theorem create_delivered (maxEntries now : Nat) :
    Delivered (createMemoryCache maxEntries now : MemoryCache V E L) key ttlMs [] :=
  ⟨create_consistent maxEntries now, nofun, nofun, nofun, nofun⟩

theorem Delivered.fallback (delivered : Delivered s key ttlMs events) {attempt : Attempt V E L}
    (there : (s.after events).attempts id = some attempt) (wanted : attempt.key = key)
    (pending : attempt.phase.Pending) : (s.after events).fallback attempt = none := by
  subst wanted
  refine fallback_eq_none ?_ (delivered.vacant id attempt there rfl pending)
  intro entry found
  obtain ⟨-, -, -, -, -, -, -, -, windowless⟩ := delivered.entry entry found
  exact windowless

theorem Delivered.results_concat (delivered : Delivered s key ttlMs events)
    (follows : Follows key (.ofTtl ttlMs) (s.after events) event) {attempt : Attempt V E L}
    (there : ((s.after events).apply event).attempts id = some attempt) (wanted : attempt.key = key)
    (came : attempt.phase.result? = some result) :
    ∃ time, AnsweredAt s (events ++ [event]) key id result time ∧
      time ≤ ((s.after events).apply event).now := by
  have later := follows.now_le
  have earlier {before : Attempt V E L} (known : (s.after events).attempts id = some before)
      (same : before.key = key) (had : before.phase.result? = some result) :
      ∃ time, AnsweredAt s (events ++ [event]) key id result time ∧
        time ≤ ((s.after events).apply event).now := by
    obtain ⟨time, answered, past⟩ := delivered.results id before result known same had
    exact ⟨time, answered.concat event, Nat.le_trans past later⟩
  cases (apply_effect (s.after events) event).advance there with
  | kept _ known => exact earlier known wanted came
  | made _ queued =>
    rw [queued] at came
    cases came
  | started _ _ same =>
    subst same
    cases came
  | @answered before answer known loading same =>
    subst same
    cases came
    exact ⟨(s.after events).now,
      Machine.occurs_append.mpr (.inr (.inl ⟨rfl, rfl, before, known, loading, wanted⟩)), later⟩
  | loaded known phase same =>
    subst same
    exact earlier known wanted (phase ▸ came)
  | @fellBack before error value known phase stale same =>
    subst same
    cases (delivered.fallback known wanted (phase ▸ trivial)).symm.trans stale
  | failed known phase _ same =>
    subst same
    exact earlier known wanted (phase ▸ came)
  | finished known phase same =>
    subst same
    exact earlier known wanted (phase ▸ came)

theorem Delivered.entry_concat (delivered : Delivered s key ttlMs events)
    (follows : Follows key (.ofTtl ttlMs) (s.after events) event) {entry : Entry V}
    (found : ((s.after events).apply event).entries.get? key = some entry) :
    ∃ id loaded stored, AnsweredAt s (events ++ [event]) key id (.ok entry.value) loaded ∧
      WrittenAt s (events ++ [event]) key id entry.value stored ∧ loaded ≤ stored ∧
      stored ≤ ((s.after events).apply event).now ∧
      entry.expiresAt = stored + ttlMs ∧ entry.usableUntil = entry.expiresAt := by
  have later := follows.now_le
  have before (there : (s.after events).entries.get? key = some entry) :
      ∃ id loaded stored, AnsweredAt s (events ++ [event]) key id (.ok entry.value) loaded ∧
        WrittenAt s (events ++ [event]) key id entry.value stored ∧ loaded ≤ stored ∧
        stored ≤ ((s.after events).apply event).now ∧
        entry.expiresAt = stored + ttlMs ∧ entry.usableUntil = entry.expiresAt := by
    obtain ⟨id, loaded, stored, answered, writes, first, past, deadlines⟩ :=
      delivered.entry entry there
    exact ⟨id, loaded, stored, answered.concat event, writes.concat event, first,
      Nat.le_trans past later, deadlines⟩
  obtain ⟨written, value, under, stores⟩ | ⟨start, rfl⟩ | kept :=
    (apply_effect (s.after events) event).stores_or_kept
  · rw [stores.apply_eq.1] at found
    obtain ⟨rfl, rfl⟩ | ⟨-, there⟩ := get?_store found
    · have plain := stores.under follows delivered.made
      cases stores with
      | @loaded id attempt value known loaded current =>
        obtain ⟨time, answered, past⟩ :=
          delivered.results id attempt (.ok value) known rfl (by rw [loaded]; rfl)
        rw [stored, plain]
        refine ⟨id, time, _, answered.concat _, ?_, past, later, rfl, rfl⟩
        exact Machine.occurs_append.mpr (.inr (.inl ⟨rfl, rfl, _, .loaded known loaded current⟩))
      | set => exact absurd rfl follows
      | guarded => exact absurd rfl follows
    · exact before there
  · change ((s.after events).clear start).entries.get? key = some entry at found
    rw [clear_entries] at found
    split at found
    · cases found
    · exact before found
  · exact before (kept ▸ found)

theorem Delivered.concat (delivered : Delivered s key ttlMs events)
    (follows : Follows key (.ofTtl ttlMs) (s.after events) event) :
    Delivered s key ttlMs (events ++ [event]) := by
  have effect := apply_effect (s.after events) event
  have step := after_concat s events event
  refine ⟨?_, ?_, ?_, ?_, ?_⟩
  · exact step ▸ delivered.consistent.effect effect
  · exact step ▸ delivered.vacant.effect delivered.consistent effect follows
  · intro id attempt there wanted
    rw [step] at there
    obtain ⟨before, known, sameKey, samePolicy⟩ | rfl := (effect.advance there).under
    · exact samePolicy ▸ delivered.made id before known (sameKey.trans wanted)
    · exact follows wanted
  · intro id attempt result there wanted came
    rw [step] at there ⊢
    exact delivered.results_concat follows there wanted came
  · intro entry found
    rw [step] at found ⊢
    exact delivered.entry_concat follows found

theorem delivered_run (initial : Delivered s key ttlMs [])
    (follows : Machine.Along apply (Follows key (.ofTtl ttlMs)) s events) :
    Delivered s key ttlMs events := by
  induction events using List.reverseRecOn with
  | nil => exact initial
  | append_singleton events event ih =>
    obtain ⟨earlier, last, -⟩ := Machine.along_append.mp follows
    exact (ih earlier).concat last

/-- A hit is on a value that a load came to, stored less than the lifetime ago. -/
theorem Delivered.hit (delivered : Delivered s key ttlMs events) {value : V}
    (hit : (s.after events).peek key = some value) :
    ∃ id loaded stored, AnsweredAt s events key id (.ok value) loaded ∧
      WrittenAt s events key id value stored ∧ loaded ≤ stored ∧
      stored ≤ (s.after events).now ∧ (s.after events).now < stored + ttlMs := by
  obtain ⟨entry, found, served⟩ := Option.bind_eq_some_iff.mp hit
  split at served
  case isFalse => cases served
  case isTrue fresh =>
    cases served
    obtain ⟨id, loaded, stored, answered, writes, first, past, expires, -⟩ :=
      delivered.entry entry found
    exact ⟨id, loaded, stored, answered, writes, first, past, expires ▸ fresh⟩

/-- A promise settles with what its load came to. -/
theorem Delivered.settled (delivered : Delivered s key ttlMs events) {attempt : Attempt V E L}
    (there : (s.after events).attempts id = some attempt) (wanted : attempt.key = key)
    (settled : (s.after events).settlement (.attempt id) = some result) :
    ∃ time, AnsweredAt s events key id result time ∧ time ≤ (s.after events).now := by
  rw [settlement, there, Option.map_some] at settled
  split at settled
  case h_1 outcome phase =>
    cases settled
    exact delivered.results id attempt result there wanted (by rw [Option.some.inj phase]; rfl)
  case h_2 => cases settled

end MemoryCache
end WalletBackend.Cache
