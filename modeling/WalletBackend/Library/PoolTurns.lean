import WalletBackend.Library.PoolRuns

/-! A fan-out turn by turn, past the failure its caller has been told of: which calls are
started, which are in flight, and what each has come to. -/
namespace Interaction

variable {Req : Type} {Resp : Req → Type} {ε R Item Instant : Type}

/-- One turn of the event loop. The call for `index` goes on, or its runner is resumed with
what the call has come to, and may then start the call for another entry. -/
inductive Turn (Instant : Type) (Resp : Req → Type) (ε R : Type) where
  | answered (index : Nat) (exchange : Exchange Instant Resp)
  | scheduled (index : Nat)
  | observed (index : Nat) (outcome : Except ε R) (next : Option Nat)

namespace Turn

/-- The entry whose call is started. -/
@[simp] def started? : Turn Instant Resp ε R → Option Nat
  | .answered .. | .scheduled _ => none
  | .observed _ _ next => next

@[simp] def observed? : Turn Instant Resp ε R → Option Nat
  | .answered .. | .scheduled _ => none
  | .observed index _ _ => some index

@[simp] def failure? : Turn Instant Resp ε R → Option ε
  | .answered .. | .scheduled _ => none
  | .observed _ (.ok _) _ => none
  | .observed _ (.error e) _ => some e

@[simp] def exchange? : Turn Instant Resp ε R → Option (Exchange Instant Resp)
  | .answered _ exchange => some exchange
  | .scheduled _ | .observed .. => none

/-- The exchange of the call for `index`. -/
@[simp] def exchangeOf (index : Nat) : Turn Instant Resp ε R → Option (Exchange Instant Resp)
  | .answered i exchange => if i = index then some exchange else none
  | .scheduled _ | .observed .. => none

end Turn

namespace Pool

variable (worker : Item → Nat → Async Resp ε R)

/-- The entry whose call the runner starts once it has seen this outcome. -/
def next (pool : Pool Resp ε Item R) : Except ε R → Option Nat
  | .error _ => none
  | .ok _ => if pool.aborted then none else pool.entries.head?.map Prod.fst

@[simp] theorem without_entries (pool : Pool Resp ε Item R) (k : Nat) :
    (pool.without k).entries = pool.entries := rfl

@[simp] theorem without_results (pool : Pool Resp ε Item R) (k : Nat) :
    (pool.without k).results = pool.results := rfl

@[simp] theorem requeue_entries (pool : Pool Resp ε Item R) (index : Nat)
    (call : Async Resp ε R) : (pool.requeue index call).entries = pool.entries := rfl

@[simp] theorem requeue_inFlight (pool : Pool Resp ε Item R) (index : Nat)
    (call : Async Resp ε R) : (pool.requeue index call).inFlight = (index, call) :: pool.inFlight :=
  rfl

@[simp] theorem requeue_results (pool : Pool Resp ε Item R) (index : Nat)
    (call : Async Resp ε R) : (pool.requeue index call).results = pool.results := rfl

@[simp] theorem settle_error (pool : Pool Resp ε Item R) (index : Nat) (e : ε) :
    pool.settle worker index (.error e) =
      { pool with aborted := true, rejection := pool.rejection <|> some e } := rfl

@[simp] theorem next_error (pool : Pool Resp ε Item R) (e : ε) : pool.next (.error e) = none := rfl

inductive Step (pool : Pool Resp ε Item R) : Turn Instant Resp ε R → Pool Resp ε Item R → Prop where
  | answered {k index : Nat} {q : Req} {resume : Resp q → Async Resp ε R}
      (here : pool.inFlight[k]? = some (index, .request q resume)) (t : Instant) (r : Resp q) :
      Step pool (.answered index ⟨t, q, r⟩) ((pool.without k).requeue index (resume r))
  | scheduled {k index n : Nat} {resume : Fin (n + 1) → Async Resp ε R}
      (here : pool.inFlight[k]? = some (index, .schedule n resume)) (i : Fin (n + 1)) :
      Step pool (.scheduled index) ((pool.without k).requeue index (resume i))
  | observed {k index : Nat} {outcome : Except ε R}
      (here : pool.inFlight[k]? = some (index, .settled outcome)) :
      Step pool (.observed index outcome (pool.next outcome))
        ((pool.without k).settle worker index outcome)

/-- Turn after turn, in whatever order the calls go on and the runners are resumed. -/
inductive Course : Pool Resp ε Item R → List (Turn Instant Resp ε R) → Pool Resp ε Item R → Prop
  | nil (pool : Pool Resp ε Item R) : Course pool [] pool
  | cons {pool mid last : Pool Resp ε Item R} {turn : Turn Instant Resp ε R}
      {turns : List (Turn Instant Resp ε R)} (step : Step worker pool turn mid)
      (rest : Course mid turns last) : Course pool (turn :: turns) last

/-- What `Promise.all` has settled with, if it has. -/
def outcome (pool : Pool Resp ε Item R) : Option (Except ε (List R)) :=
  match pool.rejection with
  | some e => some (.error e)
  | none => if pool.inFlight.length = 0 then some (.ok pool.results.reduceOption) else none

section Course

variable {worker} {pool mid last : Pool Resp ε Item R} {turn : Turn Instant Resp ε R}
  {turns before after : List (Turn Instant Resp ε R)}

theorem filterMap_cons_toList {α β : Type} (f : α → Option β) (a : α) (rest : List α) :
    (a :: rest).filterMap f = (f a).toList ++ rest.filterMap f := by
  rw [List.filterMap_cons]
  cases f a <;> rfl

/-- What each turn keeps of the history and the pool, a course keeps. -/
theorem Course.invariant {P : List (Turn Instant Resp ε R) → Pool Resp ε Item R → Prop}
    (step : ∀ {history pool turn next}, P history pool → Step worker pool turn next →
      P (history ++ [turn]) next)
    (course : Course worker pool turns last) {history : List (Turn Instant Resp ε R)}
    (initial : P history pool) : P (history ++ turns) last := by
  induction course generalizing history with
  | nil pool => rwa [List.append_nil]
  | cons first rest ih =>
    have continued := ih (step initial first)
    rwa [List.append_assoc] at continued

theorem course_append :
    Course worker pool (before ++ after) last ↔
      ∃ mid, Course worker pool before mid ∧ Course worker mid after last := by
  induction before generalizing pool with
  | nil =>
    constructor
    · exact fun course => ⟨pool, .nil pool, course⟩
    · rintro ⟨_, ⟨⟩, course⟩
      exact course
  | cons turn before ih =>
    constructor
    · rintro (_ | ⟨step, rest⟩)
      obtain ⟨mid, first, second⟩ := ih.mp rest
      exact ⟨mid, .cons step first, second⟩
    · rintro ⟨mid, _ | ⟨step, first⟩, second⟩
      exact .cons step (ih.mpr ⟨mid, first, second⟩)

/-- The call resumed, and the others. -/
theorem inFlight_without {k : Nat} {flight : Nat × Async Resp ε R}
    (here : pool.inFlight[k]? = some flight) :
    (flight :: (pool.without k).inFlight).Perm pool.inFlight := by
  obtain ⟨bound, rfl⟩ := List.getElem?_eq_some_iff.mp here
  exact List.getElem_cons_eraseIdx_perm bound

/-- What a runner does with a result: it stores it and starts the next call, unless a
peer has failed or there is none. -/
theorem settle_ok_cases (worker : Item → Nat → Async Resp ε R) (pool : Pool Resp ε Item R) (index : Nat) (r : R) :
    (pool.next (.ok r) = none ∧ ∃ entries, entries.Sublist pool.entries ∧
      pool.settle worker index (.ok r) =
        { pool with entries, results := pool.results.set index (some r) }) ∨
    ∃ i item rest, pool.aborted = false ∧ pool.entries = (i, item) :: rest ∧
      pool.next (.ok r) = some i ∧
      pool.settle worker index (.ok r) =
        { pool with
          entries := rest
          inFlight := (i, worker item i) :: pool.inFlight
          results := pool.results.set index (some r) } := by
  cases entries : pool.entries with
  | nil =>
    refine .inl ⟨by simp [next, entries], [], .refl _, ?_⟩
    simp [settle, claim, entries]
  | cons entry rest =>
    cases aborted : pool.aborted with
    | true =>
      refine .inl ⟨by simp [next, aborted], rest, List.sublist_cons_self _ _, ?_⟩
      simp [settle, claim, entries, aborted]
    | false =>
      refine .inr ⟨entry.1, entry.2, rest, rfl, rfl, by simp [next, aborted, entries], ?_⟩
      simp [settle, claim, entries, aborted]

/-- At a call's turn no other call leaves the pool, and at most one joins it. -/
theorem Step.inFlight_le (step : Step worker pool turn mid) :
    mid.inFlight.length ≤ pool.inFlight.length := by
  cases step with
  | answered here t r => exact (inFlight_without here).length_eq.le
  | scheduled here i => exact (inFlight_without here).length_eq.le
  | @observed k index outcome here =>
    have length := (inFlight_without here).length_eq
    rw [List.length_cons] at length
    cases outcome with
    | error e => exact length ▸ Nat.le_succ _
    | ok r =>
      obtain ⟨-, entries, -, same⟩ | ⟨i, item, rest, -, -, -, same⟩ :=
        settle_ok_cases worker (pool.without k) index r
      · rw [same]
        exact length ▸ Nat.le_succ _
      · rw [same]
        exact length.le

/-- The first failure that a runner has seen, and whether its peers know of it. -/
structure Rejects (turns : List (Turn Instant Resp ε R)) (pool : Pool Resp ε Item R) : Prop where
  rejection : pool.rejection = (turns.filterMap Turn.failure?).head?
  aborted : pool.aborted = pool.rejection.isSome

theorem Rejects.step (rejects : Rejects turns pool) (step : Step worker pool turn mid) :
    Rejects (turns ++ [turn]) mid := by
  obtain ⟨rejection, aborted⟩ := rejects
  cases step with
  | answered here t r => exact ⟨by simpa [requeue, without] using rejection, aborted⟩
  | scheduled here i => exact ⟨by simpa [requeue, without] using rejection, aborted⟩
  | @observed k index outcome here =>
    cases outcome with
    | error e =>
      constructor
      · simp [without, rejection, List.head?_append]
      · simp
    | ok r =>
      constructor
      · simpa [settle, without] using rejection
      · simpa [settle, without] using aborted

/-- Which calls have been started: each has been seen by its runner or is in flight, and
none is among the entries still to come. -/
structure Ledger (length : Nat) (started : List Nat) (turns : List (Turn Instant Resp ε R))
    (pool : Pool Resp ε Item R) : Prop where
  accounted : started.Perm (turns.filterMap Turn.observed? ++ pool.inFlight.map Prod.fst)
  distinct : (started ++ pool.entries.map Prod.fst).Nodup
  indexed : ∀ i ∈ started ++ pool.entries.map Prod.fst, i < length

/-- The indices of the calls started up to now. -/
def startedBy (initial : Pool Resp ε Item R) (turns : List (Turn Instant Resp ε R)) : List Nat :=
  initial.inFlight.map Prod.fst ++ turns.filterMap Turn.started?

theorem Ledger.step {length : Nat} {started : List Nat} (ledger : Ledger length started turns pool)
    (step : Step worker pool turn mid) :
    Ledger length (started ++ turn.started?.toList) (turns ++ [turn]) mid := by
  obtain ⟨accounted, distinct, indexed⟩ := ledger
  cases step with
  | answered here t r =>
    have flights := (inFlight_without here).map Prod.fst
    refine ⟨?_, by simpa using distinct, by simpa using indexed⟩
    simpa [List.filterMap_cons] using accounted.trans (flights.symm.append_left _)
  | scheduled here i =>
    have flights := (inFlight_without here).map Prod.fst
    refine ⟨?_, by simpa using distinct, by simpa using indexed⟩
    simpa [List.filterMap_cons] using accounted.trans (flights.symm.append_left _)
  | @observed k index outcome here =>
    have flights := (inFlight_without here).map Prod.fst
    have seen : started.Perm (turns.filterMap Turn.observed? ++ [index] ++
        (pool.without k).inFlight.map Prod.fst) := by
      simpa using accounted.trans (flights.symm.append_left _)
    cases outcome with
    | error e => exact ⟨by simpa using seen, by simpa using distinct, by simpa using indexed⟩
    | ok r =>
      have asked : pool.next (.ok r) = (pool.without k).next (.ok r) := rfl
      rw [asked]
      obtain ⟨none, entries, fewer, same⟩ | ⟨i, item, rest, -, entries, some, same⟩ :=
        settle_ok_cases worker (pool.without k) index r
      · rw [same, none]
        have kept := (List.Sublist.refl started).append (fewer.map Prod.fst)
        refine ⟨by simpa using seen, by simpa using distinct.sublist kept, ?_⟩
        intro i member
        exact indexed i (kept.subset (by simpa using member))
      · rw [same, some]
        rw [without_entries] at entries
        rw [entries] at distinct indexed
        refine ⟨?_, by simpa using distinct, by simpa using indexed⟩
        have joined : (turns.filterMap Turn.observed? ++ [index] ++
            (pool.without k).inFlight.map Prod.fst ++ [i]).Perm
            (turns.filterMap Turn.observed? ++ [index] ++
              (i :: (pool.without k).inFlight.map Prod.fst)) := by
          rw [List.append_assoc _ _ [i]]
          exact (List.perm_append_singleton i _).append_left _
        simpa using (seen.append_right [i]).trans joined

/-- The results stored are those that the runners have seen. -/
structure Stored (length : Nat) (turns : List (Turn Instant Resp ε R))
    (pool : Pool Resp ε Item R) : Prop where
  length : pool.results.length = length
  stored : ∀ i r, pool.results[i]? = some (some r) ↔ ∃ next, .observed i (.ok r) next ∈ turns

theorem mem_observed {i : Nat} {outcome : Except ε R} {next : Option Nat}
    (member : .observed i outcome next ∈ turns) : i ∈ turns.filterMap Turn.observed? :=
  List.mem_filterMap.mpr ⟨_, member, rfl⟩

/-- A call in flight has not been seen. -/
theorem Ledger.unseen {length : Nat} {started : List Nat} (ledger : Ledger length started turns pool)
    {flight : Nat × Async Resp ε R} (member : flight ∈ pool.inFlight) :
    flight.1 ∉ turns.filterMap Turn.observed? ∧ flight.1 ∉ pool.entries.map Prod.fst ∧
      flight.1 < length := by
  have distinct := List.nodup_append.mp ledger.distinct
  have listed : flight.1 ∈ pool.inFlight.map Prod.fst := List.mem_map_of_mem member
  have started : flight.1 ∈ started :=
    ledger.accounted.mem_iff.mpr (List.mem_append_right _ listed)
  refine ⟨fun seen => ?_, fun entry => ?_, ledger.indexed _ (List.mem_append_left _ started)⟩
  · have nodup := List.nodup_append.mp (ledger.accounted.nodup_iff.mp distinct.1)
    exact nodup.2.2 _ seen _ listed rfl
  · exact distinct.2.2 _ started _ entry rfl

theorem Stored.step {length : Nat} {started : List Nat} (stored : Stored length turns pool)
    (ledger : Ledger length started turns pool) (step : Step worker pool turn mid) :
    Stored length (turns ++ [turn]) mid := by
  cases step with
  | answered here t r => exact ⟨stored.length, by simpa using stored.stored⟩
  | scheduled here i => exact ⟨stored.length, by simpa using stored.stored⟩
  | @observed k index outcome here =>
    have unseen := ledger.unseen (List.mem_of_getElem? here)
    cases outcome with
    | error e => exact ⟨stored.length, by simpa using stored.stored⟩
    | ok r =>
      have results : ((pool.without k).settle worker index (.ok r)).results =
          pool.results.set index (some r) := by simp [settle]
      constructor
      · rw [results, List.length_set, stored.length]
      · intro i r'
        rw [results]
        by_cases same : index = i
        · subst same
          rw [List.getElem?_set_self (stored.length ▸ unseen.2.2), Option.some.injEq,
            Option.some.injEq]
          constructor
          · rintro rfl
            exact ⟨_, List.mem_append_right _ List.mem_cons_self⟩
          · rintro ⟨next, member⟩
            obtain member | member := List.mem_append.mp member
            · exact absurd (mem_observed member) unseen.1
            · cases List.mem_singleton.mp member
              rfl
        · rw [List.getElem?_set_ne same, stored.stored]
          simp [Ne.symm same]

/-- Every call in flight is what has become of the call for its item, and every outcome
seen is what that call came to, by its own exchanges. -/
structure Own (worker : Item → Nat → Async Resp ε R) (items : List Item)
    (turns : List (Turn Instant Resp ε R)) (pool : Pool Resp ε Item R) : Prop where
  entries : ∀ entry ∈ pool.entries, items[entry.1]? = some entry.2 ∧
    turns.filterMap (Turn.exchangeOf entry.1) = []
  inFlight : ∀ flight ∈ pool.inFlight, ∃ item, items[flight.1]? = some item ∧
    ∀ part outcome, flight.2.Runs part outcome →
      (worker item flight.1).Runs (turns.filterMap (Turn.exchangeOf flight.1) ++ part) outcome
  observed : ∀ i outcome next, .observed i outcome next ∈ turns → ∃ item, items[i]? = some item ∧
    (worker item i).Runs (turns.filterMap (Turn.exchangeOf i)) outcome

/-- No two calls in flight are for the same entry. -/
theorem Ledger.apart {length k : Nat} {started : List Nat}
    (ledger : Ledger length started turns pool) {flight other : Nat × Async Resp ε R}
    (here : pool.inFlight[k]? = some flight) (member : other ∈ (pool.without k).inFlight) :
    flight.1 ≠ other.1 := by
  have distinct := (List.nodup_append.mp ledger.distinct).1
  have flights := (List.nodup_append.mp (ledger.accounted.nodup_iff.mp distinct)).2.1
  rw [← ((inFlight_without here).map Prod.fst).nodup_iff, List.map_cons, List.nodup_cons] at flights
  exact fun same => flights.1 (same ▸ List.mem_map_of_mem member)

theorem exchanges_other {index i : Nat} (apart : index ≠ i) (exchange : Exchange Instant Resp) :
    (turns ++ [Turn.answered index exchange]).filterMap (Turn.exchangeOf i) =
      turns.filterMap (Turn.exchangeOf i) := by
  simp [apart]

variable {items : List Item} {length : Nat} {started : List Nat}

theorem Own.answered (own : Own worker items turns pool)
    (ledger : Ledger length started turns pool) {k index : Nat} {q : Req}
    {resume : Resp q → Async Resp ε R}
    (here : pool.inFlight[k]? = some (index, .request q resume)) (t : Instant) (r : Resp q) :
    Own worker items (turns ++ [.answered index ⟨t, q, r⟩])
      ((pool.without k).requeue index (resume r)) := by
  have unseen := ledger.unseen (List.mem_of_getElem? here)
  constructor
  · intro entry member
    have apart : index ≠ entry.1 := fun same => unseen.2.1 (same ▸ List.mem_map_of_mem member)
    rw [exchanges_other apart]
    exact own.entries entry member
  · intro flight member
    obtain rfl | member := List.mem_cons.mp member
    · obtain ⟨item, listed, runs⟩ := own.inFlight _ (List.mem_of_getElem? here)
      refine ⟨item, listed, fun part outcome ran => ?_⟩
      have whole := runs (⟨t, q, r⟩ :: part) outcome ⟨t, r, part, rfl, ran⟩
      simpa using whole
    · rw [exchanges_other (ledger.apart here member)]
      exact own.inFlight flight ((inFlight_without here).subset (List.mem_cons_of_mem _ member))
  · intro i outcome next member
    have member := (List.mem_append.mp member).resolve_right (by simp)
    have apart : index ≠ i := fun same => unseen.1 (same ▸ mem_observed member)
    rw [exchanges_other apart]
    exact own.observed i outcome next member

theorem Own.scheduled (own : Own worker items turns pool) {k index n : Nat}
    {resume : Fin (n + 1) → Async Resp ε R}
    (here : pool.inFlight[k]? = some (index, .schedule n resume)) (i : Fin (n + 1)) :
    Own worker items (turns ++ [.scheduled index]) ((pool.without k).requeue index (resume i)) := by
  constructor
  · simpa [List.filterMap_cons] using own.entries
  · intro flight member
    obtain rfl | member := List.mem_cons.mp member
    · obtain ⟨item, listed, runs⟩ := own.inFlight _ (List.mem_of_getElem? here)
      refine ⟨item, listed, fun part outcome ran => ?_⟩
      simpa [List.filterMap_cons] using runs part outcome ⟨i, ran⟩
    · have others := (inFlight_without here).subset (List.mem_cons_of_mem _ member)
      simpa [List.filterMap_cons] using own.inFlight flight others
  · simpa [List.filterMap_cons] using own.observed

theorem Own.settled (own : Own worker items turns pool) {k index : Nat} {outcome : Except ε R}
    (here : pool.inFlight[k]? = some (index, .settled outcome)) {next : Option Nat} :
    Own worker items (turns ++ [.observed index outcome next])
      ((pool.without k).settle worker index outcome) := by
  have same (i : Nat) : (turns ++ [Turn.observed index outcome next]).filterMap
      (Turn.exchangeOf i) = turns.filterMap (Turn.exchangeOf i) := by simp [List.filterMap_cons]
  have others : ∀ flight ∈ (pool.without k).inFlight, flight ∈ pool.inFlight := fun flight member =>
    (inFlight_without here).subset (List.mem_cons_of_mem _ member)
  have observed : ∀ i outcome' next', .observed i outcome' next' ∈
      turns ++ [.observed index outcome next] → ∃ item, items[i]? = some item ∧
        (worker item i).Runs (turns.filterMap (Turn.exchangeOf i)) outcome' := by
    intro i outcome' next' member
    obtain member | member := List.mem_append.mp member
    · exact own.observed i outcome' next' member
    · cases List.mem_singleton.mp member
      obtain ⟨item, listed, runs⟩ := own.inFlight _ (List.mem_of_getElem? here)
      exact ⟨item, listed, by simpa using runs [] outcome ⟨rfl, rfl⟩⟩
  constructor
  · simp only [same]
    intro entry member
    apply own.entries
    cases outcome with
    | error e => exact member
    | ok r =>
      obtain ⟨-, entries, fewer, left⟩ | ⟨i, item, rest, -, entries, -, left⟩ :=
        settle_ok_cases worker (pool.without k) index r
      · rw [left] at member
        exact fewer.subset member
      · rw [left] at member
        rw [← without_entries pool k, entries]
        exact List.mem_cons_of_mem _ member
  · simp only [same]
    intro flight member
    cases outcome with
    | error e => exact own.inFlight flight (others flight member)
    | ok r =>
      obtain ⟨-, entries, -, left⟩ | ⟨i, item, rest, -, entries, -, left⟩ :=
        settle_ok_cases worker (pool.without k) index r
      · rw [left] at member
        exact own.inFlight flight (others flight member)
      · rw [left] at member
        obtain rfl | member := List.mem_cons.mp member
        · rw [without_entries] at entries
          obtain ⟨listed, quiet⟩ := own.entries (i, item) (entries ▸ List.mem_cons_self)
          exact ⟨item, listed, fun part outcome ran => by simpa [quiet] using ran⟩
        · exact own.inFlight flight (others flight member)
  · simpa only [same] using observed

theorem Own.step (own : Own worker items turns pool) (ledger : Ledger length started turns pool)
    (step : Step worker pool turn mid) : Own worker items (turns ++ [turn]) mid := by
  cases step with
  | answered here t r => exact own.answered ledger here t r
  | scheduled here i => exact own.scheduled here i
  | observed here => exact own.settled here

/-- Once a runner has failed, its peers start nothing. -/
theorem Step.aborted (step : Step worker pool turn mid) (aborted : pool.aborted = true) :
    turn.started? = none ∧ mid.aborted = true := by
  cases step with
  | answered here t r => exact ⟨rfl, aborted⟩
  | scheduled here i => exact ⟨rfl, aborted⟩
  | @observed k index outcome here =>
    cases outcome with
    | error e => exact ⟨rfl, rfl⟩
    | ok r => exact ⟨by simp [next, aborted], by simpa [settle, without] using aborted⟩

theorem Course.aborted (course : Course worker pool turns last) (aborted : pool.aborted = true) :
    ∀ turn ∈ turns, turn.started? = none := by
  induction course with
  | nil pool => simp
  | cons step rest ih =>
    obtain ⟨none, still⟩ := step.aborted aborted
    intro turn member
    obtain rfl | member := List.mem_cons.mp member
    · exact none
    · exact ih still turn member

/-- A failure is a turn that raises the flag. -/
theorem Step.fails (step : Step worker pool turn mid) {e : ε} (failed : turn.failure? = some e) :
    turn.started? = none ∧ mid.aborted = true := by
  cases step with
  | answered here t r => cases failed
  | scheduled here i => cases failed
  | @observed k index outcome here =>
    cases outcome with
    | error e => exact ⟨rfl, rfl⟩
    | ok r => cases failed

theorem Step.consistent (step : Step worker pool turn mid) (unfailing : turn.failure? = none)
    (ok : pool.Consistent) : mid.Consistent := by
  cases step with
  | answered here t r =>
    obtain ⟨bound, same⟩ := List.getElem?_eq_some_iff.mp here
    have kept := requeue_consistent ok bound
    rw [same] at kept
    exact kept _
  | scheduled here i =>
    obtain ⟨bound, same⟩ := List.getElem?_eq_some_iff.mp here
    have kept := requeue_consistent ok bound
    rw [same] at kept
    exact kept _
  | @observed k index outcome here =>
    obtain ⟨bound, same⟩ := List.getElem?_eq_some_iff.mp here
    cases outcome with
    | error e => cases unfailing
    | ok r =>
      have kept := settle_consistent worker ok bound r
      rw [same] at kept
      exact kept

theorem Course.consistent (course : Course worker pool turns last)
    (unfailing : ∀ turn ∈ turns, turn.failure? = none) (ok : pool.Consistent) :
    last.Consistent := by
  induction course with
  | nil pool => exact ok
  | cons step rest ih =>
    apply ih
    · exact fun turn member => unfailing turn (List.mem_cons_of_mem _ member)
    · exact step.consistent (unfailing _ List.mem_cons_self) ok

/-- A turn of the pool is a step of its program. -/
theorem runs_of_step (running : pool.rejection = none) (step : Step worker pool turn mid)
    {trace : List (Exchange Instant Resp)} {outcome : Except ε (List R)}
    (runs : (mid.drive worker).Runs trace outcome) :
    (pool.drive worker).Runs (turn.exchange?.toList ++ trace) outcome := by
  have resumes {k index : Nat} {call : Async Resp ε R} (here : pool.inFlight[k]? = some (index, call)) :
      ∃ bound : k < pool.inFlight.length, pool.inFlight[k] = (index, call) ∧
        pool.inFlight.length ≠ 0 ∧ k < pool.inFlight.length - 1 + 1 := by
    obtain ⟨bound, same⟩ := List.getElem?_eq_some_iff.mp here
    exact ⟨bound, same, by omega, by omega⟩
  rw [drive, running]
  cases step with
  | @answered k index q resume here t r =>
    obtain ⟨bound, same, busy, small⟩ := resumes here
    simp only [busy, dite_false]
    refine ⟨⟨k, small⟩, ?_⟩
    dsimp only
    split
    all_goals
      rename_i call
      rw [same] at call
      cases call
    rw [same]
    exact ⟨t, r, trace, rfl, runs⟩
  | @scheduled k index n resume here i =>
    obtain ⟨bound, same, busy, small⟩ := resumes here
    simp only [busy, dite_false]
    refine ⟨⟨k, small⟩, ?_⟩
    dsimp only
    split
    all_goals
      rename_i call
      rw [same] at call
      cases call
    rw [same]
    exact ⟨i, runs⟩
  | @observed k index result here =>
    obtain ⟨bound, same, busy, small⟩ := resumes here
    simp only [busy, dite_false]
    refine ⟨⟨k, small⟩, ?_⟩
    dsimp only
    split
    all_goals
      rename_i call
      rw [same] at call
      cases call
    rw [same]
    exact runs

/-- The turns of a course up to where `Promise.all` settles: none before the last fails. -/
def Unfailing (turns : List (Turn Instant Resp ε R)) : Prop :=
  ∀ turn ∈ turns.dropLast, turn.failure? = none

theorem course_of_runs {trace : List (Exchange Instant Resp)} {outcome : Except ε (List R)}
    (runs : (pool.drive worker).Runs trace outcome) :
    ∃ (turns : List (Turn Instant Resp ε R)) (last : Pool Resp ε Item R),
      Course worker pool turns last ∧ Unfailing turns ∧
        turns.filterMap Turn.exchange? = trace ∧ last.outcome = some outcome := by
  induction pool using Pool.drive.induct worker generalizing trace with
  | case1 pool e rejected =>
    rw [drive, rejected] at runs
    obtain ⟨rfl, rfl⟩ := runs
    exact ⟨[], pool, .nil pool, by simp [Unfailing], rfl, by rw [Pool.outcome, rejected]⟩
  | case2 pool unrejected idle =>
    rw [drive, unrejected] at runs
    simp only [idle, dite_true] at runs
    obtain ⟨rfl, rfl⟩ := runs
    exact ⟨[], pool, .nil pool, by simp [Unfailing], rfl, by simp [Pool.outcome, unrejected, idle]⟩
  | case3 pool unrejected busy settled requested scheduled =>
    obtain ⟨k, bound, step⟩ := drive_step worker unrejected busy runs
    clear runs
    have small : k < pool.inFlight.length - 1 + 1 := by omega
    have here {call : Async Resp ε R} (same : pool.inFlight[k].2 = call) :
        pool.inFlight[k]? = some (pool.inFlight[k].1, call) := by
      rw [← same]
      exact List.getElem?_eq_getElem bound
    -- a turn that does not fail comes before those of the pool it leaves
    have later {turn : Turn Instant Resp ε R} {mid : Pool Resp ε Item R}
        {rest : List (Exchange Instant Resp)} (first : Step worker pool turn mid)
        (unfailing : turn.failure? = none)
        (ih : ∃ (turns : List (Turn Instant Resp ε R)) (last : Pool Resp ε Item R),
          Course worker mid turns last ∧ Unfailing turns ∧
            turns.filterMap Turn.exchange? = rest ∧ last.outcome = some outcome) :
        ∃ (turns : List (Turn Instant Resp ε R)) (last : Pool Resp ε Item R),
          Course worker pool turns last ∧ Unfailing turns ∧
            turns.filterMap Turn.exchange? = turn.exchange?.toList ++ rest ∧
              last.outcome = some outcome := by
      obtain ⟨turns, last, course, before, rfl, final⟩ := ih
      refine ⟨turn :: turns, last, .cons first course, ?_, ?_, final⟩
      · cases turns with
        | nil => exact by simp [Unfailing]
        | cons second turns => exact List.forall_mem_cons.mpr ⟨unfailing, before⟩
      · exact filterMap_cons_toList _ turn turns
    obtain ⟨result, call, done⟩ | ⟨q, resume, t, r, rest, call, rfl, done⟩ |
      ⟨n, resume, i, call, done⟩ := step
    · cases result with
      | error e =>
        have rejected : ((pool.without k).settle worker pool.inFlight[k].1 (.error e)).rejection =
            some e := by simp [without, unrejected]
        rw [drive, rejected] at done
        obtain ⟨rfl, rfl⟩ := done
        refine ⟨_, _, .cons (.observed (here call)) (.nil _), by simp [Unfailing], rfl, ?_⟩
        rw [Pool.outcome, rejected]
      | ok r => exact later (.observed (here call)) rfl (settled ⟨k, small⟩ (.ok r) done)
    · exact later (.answered (here call) t r) rfl (requested ⟨k, small⟩ q resume call r done)
    · exact later (.scheduled (here call) i) rfl (scheduled ⟨k, small⟩ n resume call i done)

theorem Step.rejection (step : Step worker pool turn mid) (unfailing : turn.failure? = none) :
    mid.rejection = pool.rejection := by
  cases step with
  | answered here t r => rfl
  | scheduled here i => rfl
  | @observed k index outcome here =>
    cases outcome with
    | error e => cases unfailing
    | ok r => simp [settle, without]

theorem runs_of_outcome {outcome : Except ε (List R)} (final : pool.outcome = some outcome) :
    (pool.drive worker).Runs ([] : List (Exchange Instant Resp)) outcome := by
  cases rejected : pool.rejection with
  | some e =>
    rw [Pool.outcome, rejected] at final
    rw [drive, rejected]
    exact ⟨rfl, Option.some.inj final⟩
  | none =>
    rw [Pool.outcome, rejected] at final
    rw [drive, rejected]
    simp only at final ⊢
    split at final
    case isTrue idle =>
      simp only [idle, dite_true]
      exact ⟨rfl, Option.some.inj final⟩
    case isFalse => cases final

theorem runs_of_course (course : Course worker pool turns last) (unfailing : Unfailing turns)
    (running : pool.rejection = none) {outcome : Except ε (List R)}
    (final : last.outcome = some outcome) :
    (pool.drive worker).Runs (turns.filterMap Turn.exchange?) outcome := by
  induction course with
  | nil pool => exact runs_of_outcome final
  | @cons pool mid last turn turns step rest ih =>
    rw [filterMap_cons_toList]
    apply runs_of_step running step
    cases turns with
    | nil =>
      cases rest
      exact runs_of_outcome final
    | cons second turns =>
      obtain ⟨first, before⟩ := List.forall_mem_cons.mp unfailing
      exact ih before ((step.rejection first).trans running) final

end Course

section FanOut

variable (items : List Item) (limit : Nat)

theorem start_indices : (start worker items limit).inFlight.map Prod.fst ++
    (start worker items limit).entries.map Prod.fst = List.range items.length := by
  have indices : (items.zipIdx.map Prod.swap).map Prod.fst = List.range items.length := by
    simp [List.map_map, Function.comp_def, List.zipIdx_map_snd, List.range_eq_range']
  rw [← indices, ← List.take_append_drop (max 1 (min limit items.length))
    (items.zipIdx.map Prod.swap), List.map_append]
  simp [start, List.map_map, Function.comp_def]

theorem start_listed {entry : Nat × Item} (member : entry ∈ items.zipIdx.map Prod.swap) :
    items[entry.1]? = some entry.2 := by
  obtain ⟨⟨item, i⟩, indexed, rfl⟩ := List.mem_map.mp member
  exact List.mem_zipIdx_iff_getElem?.mp indexed

/-- What holds after any turns of a fan-out. -/
structure History (worker : Item → Nat → Async Resp ε R) (turns : List (Turn Instant Resp ε R))
    (pool : Pool Resp ε Item R) : Prop where
  ledger : Ledger items.length ((start worker items limit).startedBy turns) turns pool
  stored : Stored items.length turns pool
  own : Own worker items turns pool
  rejects : Rejects turns pool
  few : pool.inFlight.length ≤ max 1 (min limit items.length)

theorem start_history :
    History items limit worker ([] : List (Turn Instant Resp ε R)) (start worker items limit) := by
  have indices := start_indices worker items limit
  constructor
  · constructor
    · simp [startedBy]
    · simpa [startedBy, indices] using List.nodup_range
    · simp [startedBy, indices]
  · constructor
    · simp [start]
    · simp [start, List.getElem?_replicate]
  · constructor
    · exact fun entry member => ⟨start_listed items (List.mem_of_mem_drop member), rfl⟩
    · intro flight member
      obtain ⟨entry, claimed, rfl⟩ := List.mem_map.mp member
      exact ⟨entry.2, start_listed items (List.mem_of_mem_take claimed), fun _ _ ran => ran⟩
    · simp
  · exact ⟨rfl, rfl⟩
  · simp only [start, List.length_map, List.length_take, List.length_zipIdx]
    exact min_le_left _ _

variable {worker} {items limit}

theorem History.step {turns : List (Turn Instant Resp ε R)} {pool mid : Pool Resp ε Item R}
    {turn : Turn Instant Resp ε R} (history : History items limit worker turns pool)
    (step : Step worker pool turn mid) : History items limit worker (turns ++ [turn]) mid := by
  constructor
  · have ledger := history.ledger.step step
    have started : (start worker items limit).startedBy (turns ++ [turn]) =
        (start worker items limit).startedBy turns ++ turn.started?.toList := by
      rw [startedBy, startedBy, List.filterMap_append, filterMap_cons_toList, List.filterMap_nil,
        List.append_nil, List.append_assoc]
    rwa [started]
  · exact history.stored.step history.ledger step
  · exact history.own.step history.ledger step
  · exact history.rejects.step step
  · exact step.inFlight_le.trans history.few

theorem course_history {turns : List (Turn Instant Resp ε R)} {pool : Pool Resp ε Item R}
    (course : Course worker (start worker items limit) turns pool) :
    History items limit worker turns pool :=
  course.invariant (fun history step => history.step step) (start_history worker items limit)

end FanOut

end Pool
end Interaction
