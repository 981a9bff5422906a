import WalletBackend.Blockfrost.Concurrency
import WalletBackend.Library.PoolTurns

/-! What `mapWithConcurrency` keeps, in whatever order its calls complete or fail. -/
namespace WalletBackend.Blockfrost
open Interaction

variable {Req : Type} {Resp : Req → Type} {ε R Item Instant : Type} {items : List Item}
  {limit : Nat} {worker : Item → Nat → Async Resp ε R} {turns : List (Turn Instant Resp ε R)}
  {pool : Pool Resp ε Item R}

/-- The items started by these turns, those of the first turn of every runner included. -/
def startedItems (items : List Item) (limit : Nat) (worker : Item → Nat → Async Resp ε R)
    (turns : List (Turn Instant Resp ε R)) : List Nat :=
  (Pool.start worker items limit).startedBy turns

/-- A bounded map that keeps the order, after these turns. -/
structure BoundedMap (items : List Item) (limit : Nat) (worker : Item → Nat → Async Resp ε R)
    (turns : List (Turn Instant Resp ε R)) (pool : Pool Resp ε Item R) : Prop where
  once : (startedItems items limit worker turns).Nodup
  indexed : ∀ i ∈ startedItems items limit worker turns, i < items.length
  bounded : pool.inFlight.length ≤ limit
  /-- Where no call has failed and none is left, all have been made, and the whole comes to
  what each has come to by its own exchanges. -/
  complete : (∀ turn ∈ turns, turn.failure? = none) → pool.inFlight = [] →
    (startedItems items limit worker turns).Perm (List.range items.length) ∧
    ∃ results, pool.outcome = some (.ok results) ∧ results.length = items.length ∧
      ∀ i item, items[i]? = some item → ∃ r, results[i]? = some r ∧
        (worker item i).Runs (turns.filterMap (Turn.exchangeOf i)) (.ok r)
  /-- The whole comes to the first failure that a runner sees. Nothing is started then or
  later. -/
  rejects : ∀ before turn after e, turns = before ++ turn :: after →
    (∀ earlier ∈ before, earlier.failure? = none) → turn.failure? = some e →
    pool.outcome = some (.error e) ∧ ∀ later ∈ turn :: after, later.started? = none

theorem course_complete (course : Pool.Course worker (Pool.start worker items limit) turns pool)
    (unfailing : ∀ turn ∈ turns, turn.failure? = none) (idle : pool.inFlight = []) :
    (startedItems items limit worker turns).Perm (List.range items.length) ∧
    ∃ results, pool.outcome = some (.ok results) ∧ results.length = items.length ∧
      ∀ i item, items[i]? = some item → ∃ r, results[i]? = some r ∧
        (worker item i).Runs (turns.filterMap (Turn.exchangeOf i)) (.ok r) := by
  have history := Pool.course_history course
  have consistent := course.consistent unfailing (Pool.start_consistent worker items limit)
  have done : pool.Fulfilled worker ([] : List (Exchange Instant Resp)) pool.results.reduceOption :=
    Pool.fulfilled_idle worker consistent idle
  have unsettled : pool.unsettled = [] := by
    simp [Pool.unsettled, idle, consistent.drained idle]
  have seen : ∀ i < items.length, ∃ r next, pool.results[i]? = some (some r) ∧
      .observed i (.ok r) next ∈ turns := by
    intro i bound
    rw [← history.stored.length] at bound
    obtain left | ⟨r, stored⟩ := (consistent.slots i).mpr bound
    · rw [unsettled] at left
      cases left
    · obtain ⟨next, member⟩ := (history.stored.stored i r).mp stored
      exact ⟨r, next, stored, member⟩
  refine ⟨?_, pool.results.reduceOption, ?_, ?_, ?_⟩
  · have distinct := (List.nodup_append.mp history.ledger.distinct).1
    apply (List.perm_ext_iff_of_nodup distinct List.nodup_range).mpr
    intro i
    rw [List.mem_range]
    constructor
    · exact fun member => history.ledger.indexed i (List.mem_append_left _ member)
    · intro bound
      obtain ⟨r, next, -, member⟩ := seen i bound
      exact history.ledger.accounted.mem_iff.mpr
        (List.mem_append_left _ (Pool.mem_observed member))
  · simp [Pool.outcome, consistent.unrejected, idle]
  · rw [done.length, history.stored.length]
  · intro i item listed
    obtain ⟨bound, -⟩ := List.getElem?_eq_some_iff.mp listed
    obtain ⟨r, next, stored, member⟩ := seen i bound
    refine ⟨r, done.results i r (by simp [unsettled]) stored, ?_⟩
    obtain ⟨item', listed', ran⟩ := history.own.observed i (.ok r) next member
    rw [listed] at listed'
    cases listed'
    exact ran

theorem course_rejects (course : Pool.Course worker (Pool.start worker items limit) turns pool)
    {before after : List (Turn Instant Resp ε R)} {turn : Turn Instant Resp ε R} {e : ε}
    (split : turns = before ++ turn :: after)
    (first : ∀ earlier ∈ before, earlier.failure? = none) (failed : turn.failure? = some e) :
    pool.outcome = some (.error e) ∧ ∀ later ∈ turn :: after, later.started? = none := by
  have rejection := (Pool.course_history course).rejects.rejection
  have none : before.filterMap Turn.failure? = [] := List.filterMap_eq_nil_iff.mpr first
  rw [split, List.filterMap_append, none, List.filterMap_cons_some failed] at rejection
  constructor
  · rw [Pool.outcome, rejection]
    rfl
  · rw [split] at course
    obtain ⟨mid, -, course⟩ := Pool.course_append.mp course
    obtain _ | ⟨step, rest⟩ := course
    obtain ⟨unstarted, aborted⟩ := step.fails failed
    exact List.forall_mem_cons.mpr ⟨unstarted, rest.aborted aborted⟩

/-- For every limit there is, and in whatever order the calls go on and the runners are
resumed; the program comes to what some such course comes to, and to nothing else. -/
theorem mapWithConcurrency_bounded (items : List Item) (worker : Item → Nat → Async Resp ε R)
    (positive : 1 ≤ limit) :
    (∀ (turns : List (Turn Instant Resp ε R)) (pool : Pool Resp ε Item R),
      Pool.Course worker (Pool.start worker items limit) turns pool →
        BoundedMap items limit worker turns pool) ∧
    ∀ (trace : List (Exchange Instant Resp)) (outcome : Except ε (List R)),
      (mapWithConcurrency items limit worker).Runs trace outcome ↔
        ∃ turns pool, Pool.Course worker (Pool.start worker items limit) turns pool ∧
          Pool.Unfailing turns ∧ turns.filterMap Turn.exchange? = trace ∧
            pool.outcome = some outcome := by
  constructor
  · intro turns pool course
    have history := Pool.course_history course
    constructor
    · exact (List.nodup_append.mp history.ledger.distinct).1
    · exact fun i member => history.ledger.indexed i (List.mem_append_left _ member)
    · exact history.few.trans (max_le positive (min_le_left _ _))
    · exact course_complete course
    · exact fun before turn after e split first failed => course_rejects course split first failed
  · intro trace outcome
    constructor
    · exact Pool.course_of_runs
    · rintro ⟨turns, pool, course, unfailing, rfl, final⟩
      exact Pool.runs_of_course course unfailing rfl final

/-- The first of five items fails. -/
def boom (item : Nat) (_ : Nat) : Async (fun _ : Empty => Unit) String Nat :=
  if item = 0 then throw "boom" else pure item

/-- With a single runner no later item is ever claimed. -/
theorem boom_is_first :
    ∃ (turns : List (Turn Unit (fun _ : Empty => Unit) String Nat)) (pool : Pool _ String Nat Nat),
      Pool.Course boom (Pool.start boom [0, 1, 2, 3, 4] 1) turns pool ∧
        pool.outcome = some (.error "boom") ∧
          startedItems [0, 1, 2, 3, 4] 1 boom turns = [0] := by
  have failing : Pool.Course boom (Pool.start boom [0, 1, 2, 3, 4] 1)
      [(.observed 0 (.error "boom") none : Turn Unit _ _ _)] _ :=
    .cons (.observed (k := 0) rfl) (.nil _)
  have bounded := (mapWithConcurrency_bounded [0, 1, 2, 3, 4] boom le_rfl).1 _ _ failing
  exact ⟨_, _, failing, (bounded.rejects [] _ [] "boom" rfl nofun rfl).1, rfl⟩

end WalletBackend.Blockfrost
