import Mathlib.Data.Rat.Floor
import WalletBackend.Library.Runs
import WalletBackend.Library.TokenBucket

/-! The two rate limiters, of the Blockfrost client and of the price client. They are one
piece of code with two ways to say how fast it is: lazy refill, a token a grant, and waiters
that check the live bucket again whenever they wake. -/
namespace WalletBackend.RateLimits
open TokenBucket

/-- The bucket as it was last refilled, and the callers that sleep, each with the instant it
has asked to be woken at. -/
structure Limiter where
  tokens : ℚ
  last : ℚ
  waiting : List ℚ
  deriving DecidableEq

/-- A caller comes, or the `k`-th sleeping caller wakes, early or late; with what the clock
reads then. -/
inductive Event where
  | acquire (now : ℚ)
  | wake (k : Nat) (now : ℚ)

def Event.now : Event → ℚ
  | .acquire now => now
  | .wake _ now => now

section Code

variable (bucket : Bucket ℚ)

def Limiter.start (now : ℚ) : Limiter where
  tokens := bucket.capacity
  last := now
  waiting := []

def refill (limiter : Limiter) (now : ℚ) : Limiter :=
  let elapsed := now - limiter.last
  if elapsed ≤ 0 then limiter
  else
    { limiter with
      tokens := min bucket.capacity (limiter.tokens + elapsed * bucket.rate)
      last := now }

/-- `Math.max(1, Math.ceil((1 - tokens) / refillPerMs))`. -/
def waitMs (tokens : ℚ) : ℤ := max 1 ⌈(1 - tokens) / bucket.rate⌉

/-- One pass through the loop of `acquire`: the caller is cleared, or sleeps. -/
def pass (limiter : Limiter) (now : ℚ) : Limiter :=
  let limiter := refill bucket limiter now
  if 1 ≤ limiter.tokens then { limiter with tokens := limiter.tokens - 1 }
  else { limiter with waiting := limiter.waiting ++ [now + waitMs bucket limiter.tokens] }

/-- Whether the pass clears the caller. -/
def clears (limiter : Limiter) (now : ℚ) : Bool := 1 ≤ (refill bucket limiter now).tokens

/-- The limiter that a pass starts from, unless nobody is there to wake. -/
def Limiter.entering (limiter : Limiter) : Event → Option Limiter
  | .acquire _ => some limiter
  | .wake k _ =>
      if k < limiter.waiting.length then some { limiter with waiting := limiter.waiting.eraseIdx k }
      else none

def apply (limiter : Limiter) (event : Event) : Limiter :=
  match limiter.entering event with
  | none => limiter
  | some entered => pass bucket entered event.now

/-- The instants at which callers are cleared. -/
def grants (limiter : Limiter) : List Event → List ℚ
  | [] => []
  | event :: events =>
      match limiter.entering event with
      | none => grants limiter events
      | some entered =>
          if clears bucket entered event.now then
            event.now :: grants (pass bucket entered event.now) events
          else grants (pass bucket entered event.now) events

end Code

/-- The clock never goes back. -/
def Clocked (start : ℚ) (events : List Event) : Prop :=
  (start :: events.map Event.now).Pairwise (· ≤ ·)

section Refines

variable {bucket : Bucket ℚ} {limiter : Limiter} {event : Event} {events : List Event} {now : ℚ}

def Limiter.level (limiter : Limiter) : Level ℚ := ⟨limiter.tokens, limiter.last⟩

/-- Refilling lazily comes to the level of that instant. -/
theorem refill_level (within : bucket.Within limiter.level) (later : limiter.last ≤ now) :
    (refill bucket limiter now).level = ⟨bucket.levelAt limiter.level now, now⟩ := by
  unfold refill
  dsimp only
  split
  case isTrue still =>
    have same : now = limiter.last := le_antisymm (sub_nonpos.mp still) later
    have full : bucket.levelAt limiter.level now = limiter.tokens := by
      rw [same, Bucket.levelAt]
      simpa [Limiter.level] using within.le_capacity
    rw [full, same]
    rfl
  case isFalse => rfl

theorem clears_iff (within : bucket.Within limiter.level) (later : limiter.last ≤ now) :
    clears bucket limiter now = true ↔ 1 ≤ bucket.levelAt limiter.level now := by
  have tokens := congrArg Level.tokens (refill_level within later)
  rw [clears, decide_eq_true_iff]
  exact iff_of_eq (congrArg (1 ≤ ·) tokens)

/-- A pass is an attempt on the bucket. -/
theorem pass_level (within : bucket.Within limiter.level) (later : limiter.last ≤ now) :
    (pass bucket limiter now).level = bucket.attempt limiter.level now := by
  have refilled := refill_level within later
  have tokens : (refill bucket limiter now).tokens = bucket.levelAt limiter.level now :=
    congrArg Level.tokens refilled
  have last : (refill bucket limiter now).last = now := congrArg Level.last refilled
  unfold pass Bucket.attempt
  dsimp only
  rw [tokens]
  split
  all_goals simp [Limiter.level, last]

/-- Who enters finds the bucket as it was. -/
theorem entering_level {entered : Limiter} (enters : limiter.entering event = some entered) :
    entered.level = limiter.level := by
  cases event with
  | acquire now =>
    cases enters
    rfl
  | wake k now =>
    simp only [Limiter.entering, Option.ite_none_right_eq_some, Option.some.injEq] at enters
    rw [← enters.2]
    rfl

/-- The instants at which some caller tries. -/
def attempts (bucket : Bucket ℚ) (limiter : Limiter) : List Event → List ℚ
  | [] => []
  | event :: events =>
      match limiter.entering event with
      | none => attempts bucket limiter events
      | some entered => event.now :: attempts bucket (pass bucket entered event.now) events

theorem attempts_sublist : (attempts bucket limiter events).Sublist (events.map Event.now) := by
  induction events generalizing limiter with
  | nil => exact .slnil
  | cons event events ih =>
    unfold attempts
    split
    · exact ih.cons _
    · exact ih.cons_cons _

/-- The bucket is between empty and full and was not refilled later than any event to come. -/
structure Sound (bucket : Bucket ℚ) (limiter : Limiter) (events : List Event) : Prop where
  within : bucket.Within limiter.level
  clocked : Clocked limiter.last events

theorem start_sound {start : ℚ} (clocked : Clocked start events) :
    Sound bucket (Limiter.start bucket start) events :=
  ⟨⟨bucket.capacity_nonneg, le_refl _⟩, clocked⟩

theorem Sound.later (sound : Sound bucket limiter (event :: events)) : limiter.last ≤ event.now :=
  (List.pairwise_cons.mp sound.clocked).1 _ List.mem_cons_self

theorem Sound.skip (sound : Sound bucket limiter (event :: events)) : Sound bucket limiter events :=
  ⟨sound.within, sound.clocked.sublist ((List.sublist_cons_self _ _).cons_cons _)⟩

/-- Who enters a sound limiter leaves it sound, after one attempt on the bucket. -/
theorem Sound.pass {entered : Limiter} (sound : Sound bucket limiter (event :: events))
    (enters : limiter.entering event = some entered) :
    (pass bucket entered event.now).level = bucket.attempt limiter.level event.now ∧
      Sound bucket (pass bucket entered event.now) events ∧
      (clears bucket entered event.now = true ↔ 1 ≤ bucket.levelAt limiter.level event.now) := by
  have same := entering_level enters
  have last : entered.last = limiter.last := congrArg Level.last same
  have within : bucket.Within entered.level := same ▸ sound.within
  have later : entered.last ≤ event.now := last ▸ sound.later
  have level := pass_level within later
  have cleared := clears_iff within later
  rw [same] at level cleared
  have now : (RateLimits.pass bucket entered event.now).last = event.now :=
    (congrArg Level.last level).trans Bucket.attempt_last
  refine ⟨level, ⟨level ▸ sound.within.attempt sound.later, ?_⟩, cleared⟩
  rw [now]
  exact (List.pairwise_cons.mp sound.clocked).2

theorem Sound.apply (sound : Sound bucket limiter (event :: events)) :
    Sound bucket (apply bucket limiter event) events := by
  unfold RateLimits.apply
  split
  · exact sound.skip
  · rename_i entered enters
    exact (sound.pass enters).2.1

/-- A run leaves the bucket between empty and full. -/
theorem Sound.run (sound : Sound bucket limiter events) :
    Sound bucket (Machine.run (RateLimits.apply bucket) limiter events) [] := by
  induction events generalizing limiter with
  | nil => exact sound
  | cons event events ih => exact ih sound.apply

/-- What is granted is what the bucket grants to the attempts made. -/
theorem Sound.grants_eq (sound : Sound bucket limiter events) :
    grants bucket limiter events = bucket.grants limiter.level (attempts bucket limiter events) := by
  induction events generalizing limiter with
  | nil => rfl
  | cons event events ih =>
    unfold grants attempts
    cases enters : limiter.entering event with
    | none => exact ih sound.skip
    | some entered =>
      obtain ⟨level, next, cleared⟩ := sound.pass enters
      rw [Bucket.grants, ← level]
      simp only [cleared, ih next]

end Refines

/-- In every run of the limiter under a clock that never goes back, whoever comes and whoever
wakes when, the bucket holds between nothing and its capacity, and in no window of time are
more callers cleared than a full bucket and what the window refills. -/
def NeverOvergrants (bucket : Bucket ℚ) : Prop :=
  ∀ (start : ℚ) (events : List Event), Clocked start events →
    (0 ≤ (Machine.run (apply bucket) (.start bucket start) events).tokens ∧
      (Machine.run (apply bucket) (.start bucket start) events).tokens ≤ bucket.capacity) ∧
    ∀ s t, s ≤ t →
      (((grants bucket (.start bucket start) events).filter fun g => s ≤ g ∧ g ≤ t).length : ℚ) ≤
        bucket.capacity + (t - s) * bucket.rate

theorem bucket_never_overgrants (bucket : Bucket ℚ) : NeverOvergrants bucket := by
  intro start events clocked
  have sound : Sound bucket (.start bucket start) events := start_sound clocked
  refine ⟨⟨sound.run.within.nonneg, sound.run.within.le_capacity⟩, fun s t window => ?_⟩
  rw [sound.grants_eq]
  exact Bucket.grants_window sound.within (sound.clocked.sublist (attempts_sublist.cons_cons _))
    window

/-- What the Blockfrost client has checked. -/
structure RateLimiterOptions where
  requestsPerSecond : ℚ
  burst : ℚ
  paced : 0 < requestsPerSecond
  nonneg : 0 ≤ burst

def createRateLimiter (options : RateLimiterOptions) : Bucket ℚ where
  capacity := options.burst
  rate := options.requestsPerSecond / 1000
  capacity_nonneg := options.nonneg
  rate_nonneg := div_nonneg options.paced.le (by norm_num)

/-- The options of the price client. -/
structure TokenBucketOptions where
  capacity : ℚ
  refillIntervalMs : ℚ
  nonneg : 0 ≤ capacity
  paced : 0 < refillIntervalMs

def createTokenBucket (options : TokenBucketOptions) : Bucket ℚ where
  capacity := options.capacity
  rate := 1 / options.refillIntervalMs
  capacity_nonneg := options.nonneg
  rate_nonneg := div_nonneg zero_le_one options.paced.le

/-- Neither limiter ever grants more than its capacity and its rate allow. -/
theorem rate_limiters_never_overgrant :
    (∀ options, NeverOvergrants (createRateLimiter options)) ∧
      ∀ options, NeverOvergrants (createTokenBucket options) :=
  ⟨fun _ => bucket_never_overgrants _, fun _ => bucket_never_overgrants _⟩

def geckoterminalPace : TokenBucketOptions := ⟨4, 2500, by decide +kernel, by decide +kernel⟩

/-- Five callers at once; the last is woken too early, and then when its interval is over. -/
def fiveCallers : List Event := List.replicate 5 (.acquire 0) ++ [.wake 0 2400, .wake 0 2500]

example : grants (createTokenBucket geckoterminalPace)
    (.start (createTokenBucket geckoterminalPace) 0) fiveCallers = [0, 0, 0, 0, 2500] := by
  decide +kernel

/-- Five grants within one interval are the most that four tokens and a refill allow. -/
theorem fiveCallers_paced :
    (((grants (createTokenBucket geckoterminalPace) (.start (createTokenBucket geckoterminalPace) 0)
      fiveCallers).filter fun g => 0 ≤ g ∧ g ≤ 2500).length : ℚ) ≤
        4 + (2500 - 0) * (1 / 2500) := by
  have clocked : Clocked 0 fiveCallers := by
    unfold Clocked
    decide
  exact (rate_limiters_never_overgrant.2 geckoterminalPace 0 fiveCallers clocked).2 0 2500
    (by decide)

end WalletBackend.RateLimits
