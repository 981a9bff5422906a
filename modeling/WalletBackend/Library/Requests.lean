import WalletBackend.Library.PoolRuns

/-! Which requests a program can make, whatever it is answered, how many they are, and
which answers end it. -/
namespace Interaction

variable {Req : Type} {Resp : Req → Type} {ε α β T : Type} {P : Req → Prop}

namespace Async

/-- Every request the program can make satisfies `P`. -/
def Asks (P : Req → Prop) : Async Resp ε α → Prop
  | .settled _ => True
  | .request q resume => P q ∧ ∀ r, (resume r).Asks P
  | .schedule _ resume => ∀ i, (resume i).Asks P

theorem Asks.only {x : Async Resp ε α} {trace : List (Exchange T Resp)} {outcome : Except ε α}
    (asks : x.Asks P) (runs : x.Runs trace outcome) : ∀ y ∈ trace, P y.request := by
  induction x generalizing trace with
  | settled result =>
    obtain ⟨rfl, -⟩ := runs
    simp
  | request q resume ih =>
    obtain ⟨t, r, rest, rfl, runs⟩ := runs
    intro y member
    obtain rfl | member := List.mem_cons.mp member
    · exact asks.1
    · exact ih r (asks.2 r) runs y member
  | schedule n resume ih =>
    obtain ⟨i, runs⟩ := runs
    exact ih i (asks i) runs

/-- Whatever answers there are to be, the program comes to an end on them. -/
theorem exists_run_of_answers {Answer : Type} (answers : Nat → Answer)
    (x : Async (fun _ : Req => Answer) ε α) :
    ∃ (trace : List (Exchange Unit fun _ : Req => Answer)) (outcome : Except ε α),
      x.Runs trace outcome ∧
        trace.map (fun y => y.response) = (List.range trace.length).map answers := by
  induction x generalizing answers with
  | settled outcome => exact ⟨[], outcome, ⟨rfl, rfl⟩, rfl⟩
  | request q resume ih =>
    obtain ⟨trace, outcome, runs, answered⟩ := ih (answers 0) fun i => answers (i + 1)
    refine ⟨⟨(), q, answers 0⟩ :: trace, outcome, ⟨(), answers 0, trace, rfl, runs⟩, ?_⟩
    rw [List.map_cons, answered, List.length_cons, List.range_succ_eq_map, List.map_cons,
      List.map_map]
    rfl
  | schedule n resume ih =>
    obtain ⟨trace, outcome, runs, answered⟩ := ih 0 answers
    exact ⟨trace, outcome, ⟨0, runs⟩, answered⟩

theorem asks_settled (outcome : Except ε α) : (Async.settled outcome : Async Resp ε α).Asks P :=
  trivial

theorem asks_bind {x : Async Resp ε α} {next : α → Async Resp ε β} (first : x.Asks P)
    (rest : ∀ a, (next a).Asks P) : (x >>= next).Asks P := by
  induction x with
  | settled result =>
    cases result with
    | ok a => exact rest a
    | error e => trivial
  | request q resume ih => exact ⟨first.1, fun r => ih r (first.2 r)⟩
  | schedule n resume ih => exact fun i => ih i (first i)

theorem asks_tryCatch {x : Async Resp ε α} {recover : ε → Async Resp ε α} (first : x.Asks P)
    (rest : ∀ e, (recover e).Asks P) : (tryCatch x recover).Asks P := by
  induction x with
  | settled result =>
    cases result with
    | ok a => trivial
    | error e => exact rest e
  | request q resume ih => exact ⟨first.1, fun r => ih r (first.2 r)⟩
  | schedule n resume ih => exact fun i => ih i (first i)

theorem asks_relay {Req' : Type} {Resp' : Req' → Type} {P : Req' → Prop} {send : Req → Req'}
    {back : ∀ q, Resp' (send q) → Resp q} {x : Async Resp ε α} (asks : x.Asks fun q => P (send q)) :
    (relay send back x).Asks P := by
  induction x with
  | settled result => trivial
  | request q resume ih => exact ⟨asks.1, fun r => ih _ (asks.2 _)⟩
  | schedule n resume ih => exact fun i => ih i (asks i)

theorem asks_retrying {x : Async Resp ε α} {again : ε → Prop} [DecidablePred again] (asks : x.Asks P)
    (further : Nat) : (x.retrying again further).Asks P := by
  induction further with
  | zero => exact asks
  | succ further ih =>
    refine asks_tryCatch asks fun e => ?_
    split
    · exact ih
    · exact asks_settled _

theorem asks_alongside {left : Async Resp ε β → Async Resp ε α} {y : Async Resp ε β}
    (other : ∀ y : Async Resp ε β, y.Asks P → (left y).Asks P) (asks : y.Asks P) :
    (alongside left y).Asks P := by
  induction y with
  | settled result =>
    cases result with
    | ok b => exact other _ trivial
    | error e => trivial
  | request q resume ih =>
    intro i
    dsimp only
    split
    · exact other _ asks
    · exact ⟨asks.1, fun r => ih r (asks.2 r)⟩
  | schedule n resume ih =>
    intro i
    dsimp only
    split
    · exact other _ asks
    · exact fun j => ih j (asks j)

theorem asks_both {x : Async Resp ε α} {y : Async Resp ε β} (left : x.Asks P) (right : y.Asks P) :
    (both x y).Asks P := by
  induction x generalizing y with
  | settled result =>
    cases result with
    | ok a => exact asks_bind right fun _ => trivial
    | error e => trivial
  | request q resume ih =>
    exact asks_alongside (fun y right => ⟨left.1, fun r => ih r (left.2 r) right⟩) right
  | schedule n resume ih =>
    exact asks_alongside (fun y right i => ih i (left i) right) right

end Async

namespace Pool

variable {Item R : Type} (worker : Item → Nat → Async Resp ε R)

theorem asks_drive {pool : Pool Resp ε Item R}
    (calls : ∀ call ∈ pool.calls worker, call.Asks P) : (pool.drive worker).Asks P := by
  induction pool using Pool.drive.induct worker with
  | case1 pool e rejected =>
    rw [drive, rejected]
    trivial
  | case2 pool unrejected idle =>
    rw [drive, unrejected]
    simp only [idle, dite_true]
    trivial
  | case3 pool unrejected busy settled requested scheduled =>
    rw [drive, unrejected]
    simp only [busy, dite_false]
    intro k
    have bound : k.val < pool.inFlight.length := by omega
    have split := calls_without worker bound
    have head : pool.inFlight[k.val].2.Asks P :=
      calls _ (split ▸ Multiset.mem_add.mpr (.inr (Multiset.mem_singleton_self _)))
    have others : ∀ call ∈ (pool.without k.val).calls worker, call.Asks P := fun call member =>
      calls call (split ▸ Multiset.mem_add.mpr (.inl member))
    have requeued : ∀ resumed : Async Resp ε R, resumed.Asks P → ∀ call ∈
        ((pool.without k.val).requeue pool.inFlight[k.val].1 resumed).calls worker,
        call.Asks P := by
      intro resumed asks call member
      rw [calls_requeue, Multiset.mem_add, Multiset.mem_singleton] at member
      obtain member | rfl := member
      · exact others call member
      · exact asks
    dsimp only
    split
    · rename_i outcome call
      apply settled
      cases outcome with
      | error e => exact others
      | ok r => exact fun call member =>
          others call (Multiset.mem_of_le (settle_calls_le worker _ _ r) member)
    · rename_i q resume call
      rw [call] at head
      exact ⟨head.1, fun r => requested k q resume call r (requeued _ (head.2 r))⟩
    · rename_i n resume call
      rw [call] at head
      exact fun i => scheduled k n resume call i (requeued _ (head i))

end Pool

variable {Item R : Type}

/-- A fan-out asks what the calls for its items ask. -/
theorem asks_fanOut {items : List Item} {limit : Nat} {worker : Item → Nat → Async Resp ε R}
    (each : ∀ item ∈ items, ∀ i, (worker item i).Asks P) : (fanOut worker items limit).Asks P := by
  apply Pool.asks_drive
  intro call member
  obtain ⟨i, bound, rfl⟩ := Pool.mem_calls_start member
  exact each _ (List.getElem_mem bound) i

theorem asks_promiseAll {calls : List (Async Resp ε R)} (each : ∀ call ∈ calls, call.Asks P) :
    (promiseAll calls).Asks P :=
  asks_fanOut fun call member _ => each call member

namespace Async

/-- At most `n` requests are made while the exchanges satisfy `P`, in whatever order the
calls are resumed. -/
def AtMost (P : Exchange T Resp → Prop) : Async Resp ε α → Nat → Prop
  | .settled _, _ => True
  | .request q resume, n => ∃ m, n = m + 1 ∧ ∀ t r, P ⟨t, q, r⟩ → (resume r).AtMost P m
  | .schedule _ resume, n => ∀ i, (resume i).AtMost P n

variable {P : Exchange T Resp → Prop} {m n : Nat}

theorem AtMost.mono {x : Async Resp ε α} (few : x.AtMost P m) (upTo : m ≤ n) : x.AtMost P n := by
  induction x generalizing m n with
  | settled result => trivial
  | request q resume ih =>
    obtain ⟨m, rfl, few⟩ := few
    obtain ⟨n, rfl⟩ := Nat.exists_eq_add_of_lt upTo
    exact ⟨m + n, by omega, fun t r holds => ih r (few t r holds) (Nat.le_add_right m n)⟩
  | schedule k resume ih => exact fun i => ih i (few i) upTo

theorem AtMost.length {x : Async Resp ε α} {trace : List (Exchange T Resp)}
    {outcome : Except ε α} (few : x.AtMost P n) (holds : ∀ y ∈ trace, P y)
    (runs : x.Runs trace outcome) : trace.length ≤ n := by
  induction x generalizing trace n with
  | settled result =>
    obtain ⟨rfl, -⟩ := runs
    exact Nat.zero_le n
  | request q resume ih =>
    obtain ⟨t, r, rest, rfl, runs⟩ := runs
    obtain ⟨m, rfl, few⟩ := few
    have tail := ih r (few t r (holds _ List.mem_cons_self))
      (fun y member => holds y (List.mem_cons_of_mem _ member)) runs
    exact Nat.succ_le_succ tail
  | schedule k resume ih =>
    obtain ⟨i, runs⟩ := runs
    exact ih i (few i) holds runs

theorem atMost_bind {x : Async Resp ε α} {next : α → Async Resp ε β} (first : x.AtMost P m)
    (rest : ∀ a, (next a).AtMost P n) : (x >>= next).AtMost P (m + n) := by
  induction x generalizing m with
  | settled result =>
    cases result with
    | ok a => exact (rest a).mono (Nat.le_add_left n m)
    | error e => trivial
  | request q resume ih =>
    obtain ⟨m, rfl, first⟩ := first
    exact ⟨m + n, by omega, fun t r holds => ih r (first t r holds)⟩
  | schedule k resume ih => exact fun i => ih i (first i)

end Async

namespace Pool

variable {Item R : Type} (worker : Item → Nat → Async Resp ε R) {P : Exchange T Resp → Prop}

/-- The requests of a pool are those of its calls. -/
theorem drive_atMost {pool : Pool Resp ε Item R} {costs : Multiset Nat}
    (each : Multiset.Rel (fun call n => call.AtMost P n) (pool.calls worker) costs) :
    (pool.drive worker).AtMost P costs.sum := by
  induction pool using Pool.drive.induct worker generalizing costs with
  | case1 pool e rejected =>
    rw [drive, rejected]
    trivial
  | case2 pool unrejected idle =>
    rw [drive, unrejected]
    simp only [idle, dite_true]
    trivial
  | case3 pool unrejected busy settled requested scheduled =>
    rw [drive, unrejected]
    simp only [busy, dite_false]
    intro k
    have bound : k.val < pool.inFlight.length := by omega
    rw [← calls_without worker bound, add_comm, Multiset.singleton_add,
      Multiset.rel_cons_left] at each
    obtain ⟨cost, costs, resumed, others, rfl⟩ := each
    rw [Multiset.sum_cons]
    -- what is left of the resumed call, beside the others
    have requeued {call : Async Resp ε R} {n : Nat} (few : call.AtMost P n) :
        Multiset.Rel (fun call n => call.AtMost P n)
          (((pool.without k.val).requeue pool.inFlight[k.val].1 call).calls worker)
          (n ::ₘ costs) := by
      rw [calls_requeue, add_comm, Multiset.singleton_add]
      exact others.cons few
    dsimp only
    split
    · rename_i outcome call
      cases outcome with
      | error e => exact (settled k (.error e) others).mono (Nat.le_add_left _ _)
      | ok r =>
        obtain ⟨dropped, split⟩ := Multiset.le_iff_exists_add.mp
          (settle_calls_le worker (pool.without k.val) pool.inFlight[k.val].1 r)
        rw [split, Multiset.rel_add_left] at others
        obtain ⟨kept, spare, few, -, rfl⟩ := others
        refine (settled k (.ok r) few).mono ?_
        rw [Multiset.sum_add]
        omega
    · rename_i q resume call
      rw [call] at resumed
      obtain ⟨n, rfl, few⟩ := resumed
      refine ⟨n + costs.sum, by omega, fun t r holds => ?_⟩
      rw [← Multiset.sum_cons]
      exact requested k q resume call r (requeued (few t r holds))
    · rename_i n resume call
      rw [call] at resumed
      intro i
      rw [← Multiset.sum_cons]
      exact scheduled k n resume call i (requeued (resumed i))

end Pool

/-- A fan-out makes no more requests than the calls for its items together. -/
theorem fanOut_atMost {Item R : Type} {P : Exchange T Resp → Prop} {items : List Item}
    {limit : Nat} {worker : Item → Nat → Async Resp ε R} {cost : Item → Nat}
    (each : ∀ item ∈ items, ∀ i, (worker item i).AtMost P (cost item)) :
    (fanOut worker items limit).AtMost P (items.map cost).sum := by
  have costs : items.map cost = items.zipIdx.map (cost ∘ Prod.fst) := by
    rw [← List.map_map, List.zipIdx_map_fst]
  rw [← Multiset.sum_coe, costs, ← Multiset.map_coe]
  apply Pool.drive_atMost
  rw [Pool.calls_start, Multiset.rel_map]
  apply Multiset.rel_refl_of_refl_on
  rintro ⟨item, i⟩ indexed
  exact each item (List.fst_mem_of_mem_zipIdx indexed) i

namespace Async

/-- Once an exchange of this kind has been made, the program can only end with the error. -/
def Fatal (bad : Exchange T Resp → Prop) (e : ε) (x : Async Resp ε α) : Prop :=
  ∀ trace outcome, x.Runs trace outcome → ∀ y ∈ trace, bad y → outcome = .error e

variable {bad : Exchange T Resp → Prop} {e : ε}

theorem Asks.fatal {x : Async Resp ε α} (asks : x.Asks P)
    (none : ∀ y, P y.request → ¬ bad y) : Fatal bad e x := by
  intro trace outcome runs y member spoilt
  exact absurd spoilt (none y (asks.only runs y member))

theorem fatal_settled (outcome : Except ε α) :
    Fatal bad e (Async.settled outcome : Async Resp ε α) := by
  rintro trace _ ⟨rfl, -⟩ y member
  simp at member

theorem Fatal.bind {x : Async Resp ε α} {next : α → Async Resp ε β} (first : Fatal bad e x)
    (rest : ∀ a, Fatal bad e (next a)) : Fatal bad e (x >>= next) := by
  intro trace outcome runs y member spoilt
  obtain ⟨front, back, a, rfl, ran, tail⟩ | ⟨e', ran, rfl⟩ := runs_bind.mp runs
  · obtain member | member := List.mem_append.mp member
    · exact nomatch first front _ ran y member spoilt
    · exact rest a back _ tail y member spoilt
  · cases first trace _ ran y member spoilt
    rfl

theorem Fatal.tryCatch {x : Async Resp ε α} {recover : ε → Async Resp ε α} (first : Fatal bad e x)
    (rethrown : recover e = throw e) (rest : ∀ e', Fatal bad e (recover e')) :
    Fatal bad e (tryCatch x recover) := by
  intro trace outcome runs y member spoilt
  obtain ⟨a, ran, rfl⟩ | ⟨front, back, e', rfl, ran, tail⟩ := runs_tryCatch.mp runs
  · exact nomatch first trace _ ran y member spoilt
  · obtain member | member := List.mem_append.mp member
    · cases first front _ ran y member spoilt
      rw [rethrown] at tail
      exact tail.2.symm
    · exact rest e' back _ tail y member spoilt

theorem Fatal.retrying {x : Async Resp ε α} {again : ε → Prop} [DecidablePred again]
    (fatal : Fatal bad e x) (given : ¬ again e) (further : Nat) :
    Fatal bad e (x.retrying again further) := by
  induction further with
  | zero => exact fatal
  | succ further ih =>
    refine fatal.tryCatch (if_neg given) fun e' => ?_
    split
    · exact ih
    · exact fatal_settled _

end Async
end Interaction
