import WalletBackend.Library.Async
import Mathlib.Logic.Hydra
import Mathlib.Data.List.ReduceOption

/-! Bounded fan-out: a fixed pool of runners drains one shared iterator of
entries. The event loop decides which call in flight is resumed next, and a
runner whose call returns claims its next entry at once. -/
namespace Interaction
open Relation

variable {Req : Type} {Resp : Req → Type} {ε R Item Instant : Type}

/-- `Resumes y x`: `y` is what `x` becomes after one answer or one resumption. -/
inductive Resumes : Async Resp ε R → Async Resp ε R → Prop where
  | request {q : Req} {resume : Resp q → Async Resp ε R} (r : Resp q) :
      Resumes (resume r) (.request q resume)
  | schedule {n : Nat} {resume : Fin (n + 1) → Async Resp ε R} (i : Fin (n + 1)) :
      Resumes (resume i) (.schedule n resume)

theorem resumes_wellFounded : WellFounded (@Resumes Req Resp ε R) := by
  refine ⟨fun x => ?_⟩
  induction x with
  | settled outcome => exact ⟨_, nofun⟩
  | request q resume ih =>
    constructor
    rintro _ ⟨r⟩
    exact ih r
  | schedule n resume ih =>
    constructor
    rintro _ (_ | ⟨i⟩)
    exact ih i

/-- A pool makes progress when one of its calls is resumed or leaves it. -/
instance progress : WellFoundedRelation (Multiset (Async Resp ε R)) :=
  ⟨TransGen (CutExpand Resumes), resumes_wellFounded.cutExpand.transGen⟩

/-- State of one fan-out: what the shared iterator still holds, the
calls in flight with the index each will be stored at, the flag a failed runner
raises, the rejection `Promise.all` has observed and the result slots. -/
structure Pool (Resp : Req → Type) (ε Item R : Type) where
  entries : List (Nat × Item)
  inFlight : List (Nat × Async Resp ε R)
  aborted : Bool
  rejection : Option ε
  results : List (Option R)

namespace Pool

variable (worker : Item → Nat → Async Resp ε R)

/-- Every call the pool is still responsible for, claimed or not. -/
def calls (pool : Pool Resp ε Item R) : Multiset (Async Resp ε R) :=
  ↑(pool.entries.map fun entry => worker entry.2 entry.1) + ↑(pool.inFlight.map Prod.snd)

/-- Each of the `workerCount` runners claims one entry before any call settles. -/
def start (items : List Item) (limit : Nat) : Pool Resp ε Item R :=
  let entries := items.zipIdx.map Prod.swap
  let workerCount := max 1 (min limit items.length)
  { entries := entries.drop workerCount
    inFlight := (entries.take workerCount).map fun (index, item) => (index, worker item index)
    aborted := false
    rejection := none
    results := List.replicate items.length none }

/-- A runner comes for its next entry. Once a peer has failed the entry is still
taken off the iterator, but its call is never made. -/
def claim (pool : Pool Resp ε Item R) : Pool Resp ε Item R :=
  match pool.entries with
  | [] => pool
  | (index, item) :: rest =>
      { pool with
        entries := rest
        inFlight := if pool.aborted then pool.inFlight
          else (index, worker item index) :: pool.inFlight }

/-- A runner's call has settled: a returned one is stored and the runner moves
on, a thrown one raises the flag and rejects the whole, unless an earlier
failure already has. -/
def settle (pool : Pool Resp ε Item R) (index : Nat) : Except ε R → Pool Resp ε Item R
  | .error e => { pool with aborted := true, rejection := pool.rejection <|> some e }
  | .ok r => claim worker { pool with results := pool.results.set index (some r) }

@[simp] theorem claim_results (pool : Pool Resp ε Item R) :
    (pool.claim worker).results = pool.results := by
  unfold claim
  split <;> rfl

@[simp] theorem claim_rejection (pool : Pool Resp ε Item R) :
    (pool.claim worker).rejection = pool.rejection := by
  unfold claim
  split <;> rfl

@[simp] theorem claim_aborted (pool : Pool Resp ε Item R) :
    (pool.claim worker).aborted = pool.aborted := by
  unfold claim
  split <;> rfl

/-- The pool without its `k`-th call in flight. -/
def without (pool : Pool Resp ε Item R) (k : Nat) : Pool Resp ε Item R :=
  { pool with inFlight := pool.inFlight.eraseIdx k }

/-- Put a resumed call back in flight. -/
def requeue (pool : Pool Resp ε Item R) (index : Nat) (call : Async Resp ε R) :
    Pool Resp ε Item R :=
  { pool with inFlight := (index, call) :: pool.inFlight }

theorem calls_without {pool : Pool Resp ε Item R} {k : Nat} (bound : k < pool.inFlight.length) :
    (pool.without k).calls worker + {pool.inFlight[k].2} = pool.calls worker := by
  have perm := (List.getElem_cons_eraseIdx_perm bound).map Prod.snd
  have same : (↑(pool.inFlight.map Prod.snd) : Multiset (Async Resp ε R)) =
      pool.inFlight[k].2 ::ₘ ↑((pool.inFlight.eraseIdx k).map Prod.snd) := by
    simpa using (Multiset.coe_eq_coe.mpr perm).symm
  simp only [calls, without, same, add_assoc, ← Multiset.singleton_add]
  rw [add_comm {pool.inFlight[k].2}]

theorem calls_requeue (pool : Pool Resp ε Item R) (index : Nat) (call : Async Resp ε R) :
    (pool.requeue index call).calls worker = pool.calls worker + {call} := by
  simp only [calls, requeue, List.map_cons, ← Multiset.cons_coe, ← Multiset.singleton_add]
  rw [← add_assoc, add_right_comm]

theorem requeue_progress {pool : Pool Resp ε Item R} {k : Nat}
    (bound : k < pool.inFlight.length) (index : Nat) {call : Async Resp ε R}
    (resumed : Resumes call pool.inFlight[k].2) :
    WellFoundedRelation.rel (((pool.without k).requeue index call).calls worker)
      (pool.calls worker) := by
  rw [calls_requeue, ← calls_without worker bound]
  exact .single (cutExpand_add_single _ resumed)

theorem cut_head (x : Async Resp ε R) (rest : Multiset (Async Resp ε R)) :
    CutExpand Resumes rest (x ::ₘ rest) :=
  ⟨0, x, by simp, by rw [Multiset.add_zero, ← Multiset.singleton_add, add_comm]⟩

theorem claim_calls (pool : Pool Resp ε Item R) :
    (pool.claim worker).calls worker = pool.calls worker ∨
      ∃ x, pool.calls worker = x ::ₘ (pool.claim worker).calls worker := by
  cases entries : pool.entries with
  | nil => exact .inl (by simp [claim, entries])
  | cons entry rest =>
    cases aborted : pool.aborted with
    | true =>
      exact .inr ⟨worker entry.2 entry.1, by
        simp [claim, calls, entries, aborted, ← Multiset.cons_coe]⟩
    | false => exact .inl (by simp [claim, calls, entries, aborted, ← Multiset.cons_coe])

theorem settle_progress {pool : Pool Resp ε Item R} {k : Nat}
    (bound : k < pool.inFlight.length) (index : Nat) (outcome : Except ε R) :
    WellFoundedRelation.rel (((pool.without k).settle worker index outcome).calls worker)
      (pool.calls worker) := by
  have removed : CutExpand Resumes ((pool.without k).calls worker) (pool.calls worker) := by
    rw [← calls_without worker bound, add_comm, Multiset.singleton_add]
    exact cut_head _ _
  cases outcome with
  | error e => exact .single removed
  | ok r =>
    let stored := { pool.without k with results := pool.results.set index (some r) }
    obtain same | ⟨x, dropped⟩ := claim_calls worker stored
    · exact .single (same ▸ removed)
    · have cut : CutExpand Resumes ((stored.claim worker).calls worker) (stored.calls worker) :=
        dropped ▸ cut_head x _
      exact (TransGen.single cut).tail removed

/-- Run the pool until `Promise.all` settles. -/
def drive (pool : Pool Resp ε Item R) : Async Resp ε (List R) :=
  match pool.rejection with
  | some e => .settled (.error e)
  | none =>
    if idle : pool.inFlight.length = 0 then .settled (.ok pool.results.reduceOption)
    else .schedule (pool.inFlight.length - 1) fun k =>
      have bound : k.val < pool.inFlight.length := by omega
      match call : pool.inFlight[k.val].2 with
      | .settled outcome =>
          drive ((pool.without k).settle worker pool.inFlight[k.val].1 outcome)
      | .request q resume => .request q fun r =>
          drive ((pool.without k).requeue pool.inFlight[k.val].1 (resume r))
      | .schedule _ resume => .schedule _ fun i =>
          drive ((pool.without k).requeue pool.inFlight[k.val].1 (resume i))
termination_by pool.calls worker
decreasing_by
  · exact settle_progress worker bound _ _
  · exact requeue_progress worker bound _ (call ▸ .request r)
  · exact requeue_progress worker bound _ (call ▸ .schedule i)

/-- Indices the pool has not stored a result for. -/
def unsettled (pool : Pool Resp ε Item R) : List Nat :=
  pool.entries.map Prod.fst ++ pool.inFlight.map Prod.fst

theorem unsettled_without {pool : Pool Resp ε Item R} {k : Nat} (bound : k < pool.inFlight.length) :
    (pool.inFlight[k].1 :: (pool.without k).unsettled).Perm pool.unsettled := by
  have perm := (List.getElem_cons_eraseIdx_perm bound).map Prod.fst
  exact List.perm_middle.symm.trans (List.Perm.append_left _ perm)

theorem unsettled_requeue {pool : Pool Resp ε Item R} {k : Nat} (bound : k < pool.inFlight.length)
    (call : Async Resp ε R) :
    ((pool.without k).requeue pool.inFlight[k].1 call).unsettled.Perm pool.unsettled := by
  have perm := (List.getElem_cons_eraseIdx_perm bound).map Prod.fst
  exact List.Perm.append_left _ perm

theorem unsettled_claim {pool : Pool Resp ε Item R} (running : pool.aborted = false) :
    (pool.claim worker).unsettled.Perm pool.unsettled := by
  cases entries : pool.entries with
  | nil => simp [claim, unsettled, entries]
  | cons entry rest =>
    simp only [claim, unsettled, entries, running, Bool.false_eq_true, if_false, List.map_cons]
    exact List.perm_middle

/-- While no call has failed, no slot is claimed twice, every slot is stored or
still claimed, and a runner is left for every entry not yet claimed. -/
structure Consistent (pool : Pool Resp ε Item R) : Prop where
  running : pool.aborted = false
  unrejected : pool.rejection = none
  distinct : pool.unsettled.Nodup
  slots : ∀ i, i ∈ pool.unsettled ∨ (∃ r, pool.results[i]? = some (some r)) ↔
    i < pool.results.length
  drained : pool.inFlight = [] → pool.entries = []

theorem start_consistent (items : List Item) (limit : Nat) :
    (start worker items limit).Consistent := by
  have indices : (start worker items limit).unsettled.Perm (List.range items.length) := by
    simp only [start, unsettled, List.map_map, Function.comp_def]
    rw [← List.map_append]
    refine (List.Perm.map _ List.perm_append_comm).trans ?_
    rw [List.take_append_drop]
    simp [List.map_map, Function.comp_def, List.zipIdx_map_snd, List.range_eq_range']
  constructor
  · rfl
  · rfl
  · exact indices.nodup_iff.mpr List.nodup_range
  · intro i
    rw [indices.mem_iff, List.mem_range]
    simp [start, List.getElem?_replicate]
  · intro idle
    simp only [start, List.map_eq_nil_iff, List.take_eq_nil_iff] at idle ⊢
    simp_all

theorem requeue_consistent {pool : Pool Resp ε Item R} (ok : pool.Consistent) {k : Nat}
    (bound : k < pool.inFlight.length) (call : Async Resp ε R) :
    ((pool.without k).requeue pool.inFlight[k].1 call).Consistent := by
  have perm := unsettled_requeue bound call
  constructor
  · exact ok.running
  · exact ok.unrejected
  · exact perm.nodup_iff.mpr ok.distinct
  · intro i
    rw [perm.mem_iff]
    exact ok.slots i
  · intro idle
    exact absurd idle (List.cons_ne_nil _ _)

theorem settle_consistent {pool : Pool Resp ε Item R} (ok : pool.Consistent) {k : Nat}
    (bound : k < pool.inFlight.length) (r : R) :
    ((pool.without k).settle worker pool.inFlight[k].1 (.ok r)).Consistent := by
  have perm : ((pool.without k).settle worker pool.inFlight[k].1 (.ok r)).unsettled.Perm
      (pool.without k).unsettled := unsettled_claim worker ok.running
  have split := unsettled_without bound
  have distinct := split.nodup_iff.mpr ok.distinct
  constructor
  · simpa [settle, without] using ok.running
  · simpa [settle, without] using ok.unrejected
  · exact perm.nodup_iff.mpr (List.nodup_cons.mp distinct).2
  · intro i
    have slots := ok.slots i
    rw [← split.mem_iff, List.mem_cons] at slots
    rw [perm.mem_iff]
    simp only [settle, claim_results, without, List.length_set, ← slots]
    by_cases same : i = pool.inFlight[k].1
    · subst same
      have inside := (ok.slots _).mp (.inl (split.mem_iff.mp List.mem_cons_self))
      simp [inside]
    · simp [List.getElem?_set_ne (Ne.symm same), same]
  · intro idle
    cases entries : pool.entries with
    | nil => simp [settle, without, claim, entries]
    | cons entry rest => simp [settle, without, claim, entries, ok.running] at idle

end Pool

/-- Run `worker` over the items, at most `limit` calls at a time. -/
def fanOut (worker : Item → Nat → Async Resp ε R) (items : List Item) (limit : Nat) :
    Async Resp ε (List R) :=
  (Pool.start worker items limit).drive worker

/-- `Promise.all` over calls that are all under way at once. -/
def promiseAll (calls : List (Async Resp ε R)) : Async Resp ε (List R) :=
  fanOut (fun call _ => call) calls calls.length

end Interaction
