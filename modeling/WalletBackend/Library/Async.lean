/-! Asynchronous programs as trees of upstream requests. A run records every
exchange with the instant at which the other side computed its answer, so
whatever happens between two requests is left to the reader of the trace. -/
namespace Interaction

variable {Req : Type} {Resp : Req → Type} {ε ε' α β T : Type}

/-- A program has settled, awaits the answer to a request, or leaves open which
of several pending continuations the event loop resumes next. -/
inductive Async (Resp : Req → Type) (ε α : Type) where
  | settled (outcome : Except ε α)
  | request (q : Req) (resume : Resp q → Async Resp ε α)
  | schedule (n : Nat) (resume : Fin (n + 1) → Async Resp ε α)

/-- One request and the answer computed for it at `instant`. -/
structure Exchange (T : Type) (Resp : Req → Type) where
  instant : T
  request : Req
  response : Resp request

/-- Requests are answered in the order in which they are made. -/
def Chronological [LE T] (trace : List (Exchange T Resp)) : Prop :=
  trace.Pairwise fun x y => x.instant ≤ y.instant

namespace Async

/-- Continue with the outcome, whether the program returned or threw. -/
def handle : Async Resp ε α → (Except ε α → Async Resp ε' β) → Async Resp ε' β
  | .settled outcome, next => next outcome
  | .request q resume, next => .request q fun r => (resume r).handle next
  | .schedule n resume, next => .schedule n fun i => (resume i).handle next

instance : Monad (Async Resp ε) where
  pure a := .settled (.ok a)
  bind x next := x.handle fun
    | .ok a => next a
    | .error e => .settled (.error e)

instance : MonadExceptOf ε (Async Resp ε) where
  throw e := .settled (.error e)
  tryCatch x recover := x.handle fun
    | .ok a => .settled (.ok a)
    | .error e => recover e

/-- Await one answer. -/
def ask (q : Req) : Async Resp ε (Resp q) := .request q fun r => .settled (.ok r)

/-- Lift a computation that asks nothing. -/
def ofExcept (outcome : Except ε α) : Async Resp ε α := .settled outcome

/-- `Runs x trace outcome`: some order of resumptions and the recorded answers
drive `x` to `outcome`. -/
def Runs : Async Resp ε α → List (Exchange T Resp) → Except ε α → Prop
  | .settled result, trace, outcome => trace = [] ∧ result = outcome
  | .request q resume, trace, outcome =>
      ∃ t r rest, trace = ⟨t, q, r⟩ :: rest ∧ (resume r).Runs rest outcome
  | .schedule _ resume, trace, outcome => ∃ i, (resume i).Runs trace outcome

theorem runs_handle {x : Async Resp ε α} {next : Except ε α → Async Resp ε' β}
    {trace : List (Exchange T Resp)} {outcome : Except ε' β} :
    (x.handle next).Runs trace outcome ↔ ∃ first rest result,
      trace = first ++ rest ∧ x.Runs first result ∧ (next result).Runs rest outcome := by
  induction x generalizing trace with
  | settled result =>
    constructor
    · exact fun tail => ⟨[], trace, result, rfl, ⟨rfl, rfl⟩, tail⟩
    · rintro ⟨_, rest, _, rfl, ⟨rfl, rfl⟩, tail⟩
      exact tail
  | request q resume ih =>
    simp only [handle, Runs, ih]
    constructor
    · rintro ⟨t, r, _, rfl, first, rest, result, rfl, head, tail⟩
      exact ⟨⟨t, q, r⟩ :: first, rest, result, rfl, ⟨t, r, first, rfl, head⟩, tail⟩
    · rintro ⟨_, rest, result, rfl, ⟨t, r, first, rfl, head⟩, tail⟩
      exact ⟨t, r, first ++ rest, rfl, first, rest, result, rfl, head, tail⟩
  | schedule n resume ih =>
    simp only [handle, Runs, ih]
    constructor
    · rintro ⟨i, first, rest, result, split, head, tail⟩
      exact ⟨first, rest, result, split, ⟨i, head⟩, tail⟩
    · rintro ⟨first, rest, result, split, ⟨i, head⟩, tail⟩
      exact ⟨i, first, rest, result, split, head, tail⟩

@[simp] theorem runs_settled {result outcome : Except ε α} {trace : List (Exchange T Resp)} :
    (Async.settled result : Async Resp ε α).Runs trace outcome ↔ trace = [] ∧ result = outcome :=
  Iff.rfl

@[simp] theorem runs_pure {a : α} {trace : List (Exchange T Resp)} {outcome : Except ε α} :
    (pure a : Async Resp ε α).Runs trace outcome ↔ trace = [] ∧ .ok a = outcome :=
  Iff.rfl

@[simp] theorem runs_throw {e : ε} {trace : List (Exchange T Resp)} {outcome : Except ε α} :
    (throw e : Async Resp ε α).Runs trace outcome ↔ trace = [] ∧ .error e = outcome :=
  Iff.rfl

@[simp] theorem runs_ofExcept {result outcome : Except ε α} {trace : List (Exchange T Resp)} :
    (ofExcept result : Async Resp ε α).Runs trace outcome ↔ trace = [] ∧ result = outcome :=
  Iff.rfl

@[simp] theorem runs_ask {q : Req} {trace : List (Exchange T Resp)} {outcome : Except ε (Resp q)} :
    (ask q : Async Resp ε (Resp q)).Runs trace outcome ↔
      ∃ t r, trace = [⟨t, q, r⟩] ∧ outcome = .ok r := by
  simp only [ask, Runs]
  constructor
  · rintro ⟨t, r, _, rfl, rfl, rfl⟩
    exact ⟨t, r, rfl, rfl⟩
  · rintro ⟨t, r, rfl, rfl⟩
    exact ⟨t, r, [], rfl, rfl, rfl⟩

theorem runs_bind {x : Async Resp ε α} {next : α → Async Resp ε β}
    {trace : List (Exchange T Resp)} {outcome : Except ε β} :
    (x >>= next).Runs trace outcome ↔
      (∃ first rest a, trace = first ++ rest ∧ x.Runs first (.ok a) ∧ (next a).Runs rest outcome) ∨
      ∃ e, x.Runs trace (.error e) ∧ .error e = outcome := by
  change (x.handle _).Runs _ _ ↔ _
  rw [runs_handle]
  constructor
  · rintro ⟨first, rest, result, rfl, head, tail⟩
    cases result with
    | ok a => exact .inl ⟨first, rest, a, rfl, head, tail⟩
    | error e =>
      obtain ⟨rfl, rfl⟩ := tail
      exact .inr ⟨e, by simpa using head, rfl⟩
  · rintro (⟨first, rest, a, rfl, head, tail⟩ | ⟨e, head, rfl⟩)
    · exact ⟨first, rest, .ok a, rfl, head, tail⟩
    · exact ⟨trace, [], .error e, (List.append_nil _).symm, head, rfl, rfl⟩

/-- A bind that returns has run both halves, one after the other. -/
theorem runs_bind_ok {x : Async Resp ε α} {next : α → Async Resp ε β}
    {trace : List (Exchange T Resp)} {b : β} :
    (x >>= next).Runs trace (.ok b) ↔
      ∃ first rest a, trace = first ++ rest ∧ x.Runs first (.ok a) ∧ (next a).Runs rest (.ok b) := by
  rw [runs_bind]
  simp

theorem runs_tryCatch {x : Async Resp ε α} {recover : ε → Async Resp ε α}
    {trace : List (Exchange T Resp)} {outcome : Except ε α} :
    (tryCatch x recover).Runs trace outcome ↔
      (∃ a, x.Runs trace (.ok a) ∧ .ok a = outcome) ∨
      ∃ first rest e, trace = first ++ rest ∧ x.Runs first (.error e) ∧
        (recover e).Runs rest outcome := by
  change (x.handle _).Runs _ _ ↔ _
  rw [runs_handle]
  constructor
  · rintro ⟨first, rest, result, rfl, head, tail⟩
    cases result with
    | ok a =>
      obtain ⟨rfl, rfl⟩ := tail
      exact .inl ⟨a, by simpa using head, rfl⟩
    | error e => exact .inr ⟨first, rest, e, rfl, head, tail⟩
  · rintro (⟨a, head, rfl⟩ | ⟨first, rest, e, rfl, head, tail⟩)
    · exact ⟨trace, [], .ok a, (List.append_nil _).symm, head, rfl, rfl⟩
    · exact ⟨first, rest, .error e, rfl, head, tail⟩

section Retry

variable {again : ε → Prop} [DecidablePred again]

/-- Run a program, and anew on the errors that call for it, at most `further` more times. -/
def retrying (x : Async Resp ε α) (again : ε → Prop) [DecidablePred again] : Nat → Async Resp ε α
  | 0 => x
  | further + 1 => tryCatch x fun e => if again e then retrying x again further else throw e

/-- A retried program ends as its last run does. -/
theorem retrying_runs {x : Async Resp ε α} {further : Nat} {trace : List (Exchange T Resp)}
    {outcome : Except ε α} (runs : (x.retrying again further).Runs trace outcome) :
    ∃ before last, trace = before ++ last ∧ x.Runs last outcome := by
  induction further generalizing trace with
  | zero => exact ⟨[], trace, rfl, runs⟩
  | succ further ih =>
    rw [retrying, runs_tryCatch] at runs
    obtain ⟨a, returned, rfl⟩ | ⟨first, rest, e, rfl, failed, anew⟩ := runs
    · exact ⟨[], trace, rfl, returned⟩
    · split at anew
      · obtain ⟨before, last, rfl, ran⟩ := ih anew
        exact ⟨first ++ before, last, by rw [List.append_assoc], ran⟩
      · obtain ⟨rfl, rfl⟩ := anew
        exact ⟨[], first, List.append_nil _, failed⟩

end Retry

/-- Run the call on the right, letting `left` go on instead at any point. -/
def alongside (left : Async Resp ε β → Async Resp ε α) : Async Resp ε β → Async Resp ε α
  | .settled (.error e) => .settled (.error e)
  | .settled (.ok b) => left (.settled (.ok b))
  | .request q resume => .schedule 1 fun i =>
      if i = 0 then left (.request q resume) else .request q fun r => alongside left (resume r)
  | .schedule n resume => .schedule 1 fun i =>
      if i = 0 then left (.schedule n resume) else .schedule n fun i => alongside left (resume i)

/-- Two calls under way at once, both awaited: `Promise.all([x, y])`. -/
def both : Async Resp ε α → Async Resp ε β → Async Resp ε (α × β)
  | .settled (.error e), _ => .settled (.error e)
  | .settled (.ok a), y => do pure (a, ← y)
  | .request q resume, y => alongside (fun y => .request q fun r => both (resume r) y) y
  | .schedule n resume, y => alongside (fun y => .schedule n fun i => both (resume i) y) y

/-- `outcome` is what the two calls have come to, each in its own part of the trace. -/
def Joined (x : Async Resp ε α) (y : Async Resp ε β) (trace : List (Exchange T Resp)) :
    Except ε (α × β) → Prop
  | .ok (a, b) => (∃ part, part.Sublist trace ∧ x.Runs part (.ok a)) ∧
      ∃ part, part.Sublist trace ∧ y.Runs part (.ok b)
  | .error e => (∃ part, part.Sublist trace ∧ x.Runs part (.error e)) ∨
      ∃ part, part.Sublist trace ∧ y.Runs part (.error e)

/-- What holds of a step on the right holds before it. -/
theorem Joined.right {x : Async Resp ε α} {y y' : Async Resp ε β}
    (first : List (Exchange T Resp)) {rest : List (Exchange T Resp)} {outcome : Except ε (α × β)}
    (step : ∀ part result, y'.Runs part result → y.Runs (first ++ part) result)
    (joined : Joined x y' rest outcome) : Joined x y (first ++ rest) outcome := by
  have later := List.sublist_append_right first rest
  cases outcome with
  | ok pair =>
    obtain ⟨⟨px, sx, rx⟩, py, sy, ry⟩ := joined
    exact ⟨⟨px, sx.trans later, rx⟩, first ++ py, sy.append_left first, step py _ ry⟩
  | error e =>
    obtain ⟨px, sx, rx⟩ | ⟨py, sy, ry⟩ := joined
    · exact .inl ⟨px, sx.trans later, rx⟩
    · exact .inr ⟨first ++ py, sy.append_left first, step py _ ry⟩

theorem Joined.left {x x' : Async Resp ε α} {y : Async Resp ε β}
    (first : List (Exchange T Resp)) {rest : List (Exchange T Resp)} {outcome : Except ε (α × β)}
    (step : ∀ part result, x'.Runs part result → x.Runs (first ++ part) result)
    (joined : Joined x' y rest outcome) : Joined x y (first ++ rest) outcome := by
  have later := List.sublist_append_right first rest
  cases outcome with
  | ok pair =>
    obtain ⟨⟨px, sx, rx⟩, py, sy, ry⟩ := joined
    exact ⟨⟨first ++ px, sx.append_left first, step px _ rx⟩, py, sy.trans later, ry⟩
  | error e =>
    obtain ⟨px, sx, rx⟩ | ⟨py, sy, ry⟩ := joined
    · exact .inl ⟨first ++ px, sx.append_left first, step px _ rx⟩
    · exact .inr ⟨py, sy.trans later, ry⟩

theorem alongside_joined {x : Async Resp ε α} {left : Async Resp ε β → Async Resp ε (α × β)}
    (joins : ∀ y trace (outcome : Except ε (α × β)), (left y).Runs trace outcome →
      Joined (T := T) x y trace outcome)
    {y : Async Resp ε β} {trace : List (Exchange T Resp)} {outcome : Except ε (α × β)}
    (runs : (alongside left y).Runs trace outcome) : Joined x y trace outcome := by
  induction y generalizing trace with
  | settled result =>
    cases result with
    | ok b => exact joins _ _ _ runs
    | error e =>
      obtain ⟨rfl, rfl⟩ := runs
      exact .inr ⟨[], .slnil, rfl, rfl⟩
  | request q resume ih =>
    obtain ⟨i, runs⟩ := runs
    simp only at runs
    split at runs
    · exact joins _ _ _ runs
    · obtain ⟨t, r, rest, rfl, runs⟩ := runs
      exact Joined.right [⟨t, q, r⟩] (fun part _ ran => ⟨t, r, part, rfl, ran⟩) (ih r runs)
  | schedule n resume ih =>
    obtain ⟨i, runs⟩ := runs
    simp only at runs
    split at runs
    · exact joins _ _ _ runs
    · obtain ⟨j, runs⟩ := runs
      exact Joined.right [] (fun part _ ran => ⟨j, ran⟩) (ih j runs)

/-- A pair of calls that returns has run both, one that fails has run one of them to
that failure. -/
theorem both_joined {x : Async Resp ε α} {y : Async Resp ε β} {trace : List (Exchange T Resp)}
    {outcome : Except ε (α × β)} (runs : (both x y).Runs trace outcome) :
    Joined x y trace outcome := by
  induction x generalizing y trace outcome with
  | settled result =>
    cases result with
    | error e =>
      obtain ⟨rfl, rfl⟩ := runs
      exact .inl ⟨[], .slnil, rfl, rfl⟩
    | ok a =>
      obtain ⟨first, _, b, rfl, ran, rfl, rfl⟩ | ⟨e, ran, rfl⟩ := runs_bind.mp runs
      · exact ⟨⟨[], List.nil_sublist _, rfl, rfl⟩, first, List.sublist_append_left _ _, ran⟩
      · exact .inr ⟨trace, .refl _, ran⟩
  | request q resume ih =>
    refine alongside_joined (fun y trace outcome runs => ?_) runs
    obtain ⟨t, r, rest, rfl, runs⟩ := runs
    exact Joined.left [⟨t, q, r⟩] (fun part _ ran => ⟨t, r, part, rfl, ran⟩) (ih r runs)
  | schedule n resume ih =>
    refine alongside_joined (fun y trace outcome runs => ?_) runs
    obtain ⟨i, runs⟩ := runs
    exact Joined.left [] (fun part _ ran => ⟨i, ran⟩) (ih i runs)

theorem runs_alongside {left : Async Resp ε β → Async Resp ε α} {y : Async Resp ε β} {b : β}
    {part trace : List (Exchange T Resp)} {outcome : Except ε α} (returns : y.Runs part (.ok b))
    (runs : (left y).Runs trace outcome) : (alongside left y).Runs trace outcome := by
  cases y with
  | settled result =>
    obtain ⟨rfl, rfl⟩ := returns
    exact runs
  | request q resume => exact ⟨0, runs⟩
  | schedule n resume => exact ⟨0, runs⟩

/-- Two calls that return can run one after the other. -/
theorem runs_both {x : Async Resp ε α} {y : Async Resp ε β} {first later : List (Exchange T Resp)}
    {a : α} {b : β} (left : x.Runs first (.ok a)) (right : y.Runs later (.ok b)) :
    (both x y).Runs (first ++ later) (.ok (a, b)) := by
  induction x generalizing first with
  | settled result =>
    obtain ⟨rfl, rfl⟩ := left
    exact runs_bind_ok.mpr ⟨later, [], b, (List.append_nil _).symm, right, rfl, rfl⟩
  | request q resume ih =>
    obtain ⟨t, r, rest, rfl, tail⟩ := left
    exact runs_alongside right ⟨t, r, rest ++ later, rfl, ih r tail⟩
  | schedule n resume ih =>
    obtain ⟨i, tail⟩ := left
    exact runs_alongside right ⟨i, ih i tail⟩

/-- Whenever `x` runs within the trace, it comes to `outcome`. -/
def Settles (trace : List (Exchange T Resp)) (x : Async Resp ε α) (outcome : Except ε α) : Prop :=
  ∀ part result, part.Sublist trace → x.Runs part result → result = outcome

section Settles

variable {trace : List (Exchange T Resp)} {x : Async Resp ε α}

theorem settles_ofExcept (outcome : Except ε α) :
    Settles trace (ofExcept outcome : Async Resp ε α) outcome := by
  rintro part result - ⟨-, rfl⟩
  rfl

theorem settles_pure (a : α) : Settles trace (pure a : Async Resp ε α) (.ok a) :=
  settles_ofExcept (.ok a)

theorem Settles.bind {next : α → Async Resp ε β} {a : α} {outcome : Except ε β}
    (first : Settles trace x (.ok a)) (rest : Settles trace (next a) outcome) :
    Settles trace (x >>= next) outcome := by
  intro part result sub runs
  obtain ⟨front, back, a', rfl, ran, tail⟩ | ⟨e, ran, rfl⟩ := runs_bind.mp runs
  · obtain same := first front _ ((List.sublist_append_left front back).trans sub) ran
    cases same
    exact rest back _ ((List.sublist_append_right front back).trans sub) tail
  · cases first part _ sub ran

theorem Settles.both {y : Async Resp ε β} {a : α} {b : β} (left : Settles trace x (.ok a))
    (right : Settles trace y (.ok b)) : Settles trace (both x y) (.ok (a, b)) := by
  intro part result sub runs
  have joined := both_joined runs
  cases result with
  | ok pair =>
    obtain ⟨⟨px, sx, rx⟩, py, sy, ry⟩ := joined
    cases left px _ (sx.trans sub) rx
    cases right py _ (sy.trans sub) ry
    rfl
  | error e =>
    obtain ⟨px, sx, rx⟩ | ⟨py, sy, ry⟩ := joined
    · cases left px _ (sx.trans sub) rx
    · cases right py _ (sy.trans sub) ry

end Settles

/-- The answers of an upstream that does not change while it is being read. -/
def Static (up : (q : Req) → Resp q) (trace : List (Exchange T Resp)) : Prop :=
  ∀ x ∈ trace, x.response = up x.request

/-- Every program can be run to an outcome against any static upstream: the
trees are well founded, so no order of resumptions goes on forever. -/
theorem exists_run [Inhabited T] (up : (q : Req) → Resp q) (x : Async Resp ε α) :
    ∃ (trace : List (Exchange T Resp)) (outcome : Except ε α),
      Static up trace ∧ x.Runs trace outcome := by
  induction x with
  | settled result => exact ⟨[], result, by simp [Static], rfl, rfl⟩
  | request q resume ih =>
    obtain ⟨trace, outcome, answered, runs⟩ := ih (up q)
    refine ⟨⟨default, q, up q⟩ :: trace, outcome, ?_, default, up q, trace, rfl, runs⟩
    intro x member
    obtain rfl | member := List.mem_cons.mp member
    · rfl
    · exact answered x member
  | schedule n resume ih =>
    obtain ⟨trace, outcome, answered, runs⟩ := ih 0
    exact ⟨trace, outcome, answered, 0, runs⟩

end Async
end Interaction
