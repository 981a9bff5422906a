import WalletBackend.Library.Pool
import WalletBackend.Library.StaticRuns

/-! Runs of a fan-out. One that returns has run every call to its result, each in
its own part of the trace; one that fails has run some call to that failure. -/
namespace Interaction

variable {Req : Type} {Resp : Req → Type} {ε R Item Instant : Type}

namespace Pool

variable (worker : Item → Nat → Async Resp ε R)

/-- `call` ran to the result stored at `index`, in its own part of the trace. -/
def Delivered (trace : List (Exchange Instant Resp)) (rs : List R) (index : Nat)
    (call : Async Resp ε R) : Prop :=
  ∃ part r, part.Sublist trace ∧ call.Runs part (.ok r) ∧ rs[index]? = some r

theorem Delivered.weaken {trace longer : List (Exchange Instant Resp)} {rs : List R} {index : Nat}
    {call : Async Resp ε R} (delivered : Delivered trace rs index call)
    (inside : trace.Sublist longer) : Delivered longer rs index call := by
  obtain ⟨part, r, sub, runs, found⟩ := delivered
  exact ⟨part, r, sub.trans inside, runs, found⟩

/-- What one resumption of a running pool does. -/
theorem drive_step {pool : Pool Resp ε Item R} (running : pool.rejection = none)
    (busy : pool.inFlight.length ≠ 0) {trace : List (Exchange Instant Resp)}
    {outcome : Except ε (List R)} (runs : (pool.drive worker).Runs trace outcome) :
    ∃ k, ∃ bound : k < pool.inFlight.length,
      (∃ result, pool.inFlight[k].2 = .settled result ∧
        (((pool.without k).settle worker pool.inFlight[k].1 result).drive worker).Runs
          trace outcome) ∨
      (∃ q resume t r rest, pool.inFlight[k].2 = .request q resume ∧ trace = ⟨t, q, r⟩ :: rest ∧
        (((pool.without k).requeue pool.inFlight[k].1 (resume r)).drive worker).Runs
          rest outcome) ∨
      (∃ n resume i, pool.inFlight[k].2 = .schedule n resume ∧
        (((pool.without k).requeue pool.inFlight[k].1 (resume i)).drive worker).Runs
          trace outcome) := by
  rw [drive, running] at runs
  simp only [busy, dite_false, Async.Runs] at runs
  obtain ⟨⟨k, small⟩, runs⟩ := runs
  refine ⟨k, by omega, ?_⟩
  simp only at runs
  split at runs
  · rename_i result call
    exact .inl ⟨result, call, runs⟩
  · rename_i q resume call
    obtain ⟨t, r, rest, split, runs⟩ := runs
    exact .inr (.inl ⟨q, resume, t, r, rest, call, split, runs⟩)
  · rename_i n resume call
    obtain ⟨i, runs⟩ := runs
    exact .inr (.inr ⟨n, resume, i, call, runs⟩)

theorem mem_inFlight {pool : Pool Resp ε Item R} {k : Nat} (bound : k < pool.inFlight.length)
    {c : Nat × Async Resp ε R} :
    c ∈ pool.inFlight ↔ c = pool.inFlight[k] ∨ c ∈ (pool.without k).inFlight := by
  rw [← (List.getElem_cons_eraseIdx_perm bound).mem_iff, List.mem_cons]
  rfl

/-- Everything a pool still owes and everything it has stored is in the results
it returns: calls not yet settled run in parts of the remaining trace. -/
structure Fulfilled (pool : Pool Resp ε Item R) (trace : List (Exchange Instant Resp))
    (rs : List R) : Prop where
  length : rs.length = pool.results.length
  entries : ∀ entry ∈ pool.entries, Delivered trace rs entry.1 (worker entry.2 entry.1)
  inFlight : ∀ c ∈ pool.inFlight, Delivered trace rs c.1 c.2
  results : ∀ i r, i ∉ pool.unsettled → pool.results[i]? = some (some r) → rs[i]? = some r

theorem map_some_reduceOption {slots : List (Option R)} (full : ∀ x ∈ slots, x.isSome = true) :
    slots.reduceOption.map some = slots := by
  induction slots with
  | nil => rfl
  | cons x rest ih =>
    obtain ⟨r, rfl⟩ := Option.isSome_iff_exists.mp (full x List.mem_cons_self)
    rw [List.reduceOption_cons_of_some, List.map_cons,
      ih fun y member => full y (List.mem_cons_of_mem _ member)]

theorem fulfilled_idle {pool : Pool Resp ε Item R} (ok : pool.Consistent)
    (idle : pool.inFlight = []) {trace : List (Exchange Instant Resp)} :
    pool.Fulfilled worker trace pool.results.reduceOption := by
  have empty : pool.unsettled = [] := by simp [unsettled, idle, ok.drained idle]
  have full : ∀ x ∈ pool.results, x.isSome = true := by
    intro x member
    obtain ⟨i, bound, rfl⟩ := List.getElem_of_mem member
    obtain claimed | ⟨r, stored⟩ := (ok.slots i).mpr bound
    · rw [empty] at claimed
      contradiction
    · rw [List.getElem?_eq_getElem bound, Option.some.injEq] at stored
      simp [stored]
  have same := map_some_reduceOption full
  constructor
  · rw [← List.length_map (f := some), same]
  · simp [ok.drained idle]
  · simp [idle]
  · intro i r _ stored
    rw [← same, List.getElem?_map, Option.map_eq_some_iff] at stored
    obtain ⟨r', found, eq⟩ := stored
    rwa [Option.some.inj eq] at found

theorem fulfilled_requeue {pool : Pool Resp ε Item R} {k : Nat}
    (bound : k < pool.inFlight.length) {call : Async Resp ε R}
    {trace longer : List (Exchange Instant Resp)} {rs : List R}
    (done : ((pool.without k).requeue pool.inFlight[k].1 call).Fulfilled worker trace rs)
    (inside : trace.Sublist longer)
    (resumed : Delivered trace rs pool.inFlight[k].1 call →
      Delivered longer rs pool.inFlight[k].1 pool.inFlight[k].2) :
    pool.Fulfilled worker longer rs := by
  constructor
  · exact done.length
  · exact fun entry member => (done.entries entry member).weaken inside
  · intro c member
    obtain rfl | member := (mem_inFlight bound).mp member
    · exact resumed (done.inFlight _ List.mem_cons_self)
    · exact (done.inFlight c (List.mem_cons_of_mem _ member)).weaken inside
  · intro i r settled stored
    exact done.results i r (fun h => settled ((unsettled_requeue bound call).mem_iff.mp h)) stored

theorem fulfilled_settle {pool : Pool Resp ε Item R} (ok : pool.Consistent) {k : Nat}
    (bound : k < pool.inFlight.length) {r : R} (call : pool.inFlight[k].2 = .settled (.ok r))
    {trace : List (Exchange Instant Resp)} {rs : List R}
    (done : ((pool.without k).settle worker pool.inFlight[k].1 (.ok r)).Fulfilled worker trace rs) :
    pool.Fulfilled worker trace rs := by
  have perm : ((pool.without k).settle worker pool.inFlight[k].1 (.ok r)).unsettled.Perm
      (pool.without k).unsettled := unsettled_claim worker ok.running
  have split := unsettled_without bound
  have distinct := List.nodup_cons.mp (split.nodup_iff.mpr ok.distinct)
  have inside := (ok.slots _).mp (.inl (split.mem_iff.mp List.mem_cons_self))
  have stored : rs[pool.inFlight[k].1]? = some r := by
    refine done.results _ r (fun h => distinct.1 (perm.mem_iff.mp h)) ?_
    simp [settle, without, inside]
  have kept : ∀ c ∈ (pool.without k).inFlight,
      c ∈ ((pool.without k).settle worker pool.inFlight[k].1 (.ok r)).inFlight := by
    intro c member
    cases entries : pool.entries with
    | nil => simpa [settle, claim, without, entries] using member
    | cons entry rest =>
      simpa [settle, claim, without, entries, ok.running] using Or.inr member
  constructor
  · simpa [settle, without] using done.length
  · intro entry member
    cases entries : pool.entries with
    | nil => simp [entries] at member
    | cons first rest =>
      rw [entries] at member
      obtain rfl | member := List.mem_cons.mp member
      · exact done.inFlight (entry.1, worker entry.2 entry.1)
          (by simp [settle, claim, without, entries, ok.running])
      · exact done.entries entry (by simpa [settle, claim, without, entries] using member)
  · intro c member
    obtain rfl | member := (mem_inFlight bound).mp member
    · exact ⟨[], r, List.nil_sublist _, by rw [call]; exact ⟨rfl, rfl⟩, stored⟩
    · exact done.inFlight c (kept c member)
  · intro i r' settled found
    have apart : i ∉ (pool.without k).unsettled ∧ i ≠ pool.inFlight[k].1 := by
      rw [← split.mem_iff, List.mem_cons] at settled
      exact ⟨fun h => settled (.inr h), fun h => settled (.inl h)⟩
    refine done.results i r' (fun h => apart.1 (perm.mem_iff.mp h)) ?_
    simpa [settle, without, List.getElem?_set_ne (Ne.symm apart.2)] using found

/-- Every call of a pool that returns ran, within the pool's own trace, to the
result the pool returns at its index. -/
theorem drive_fulfills {pool : Pool Resp ε Item R} (ok : pool.Consistent)
    {trace : List (Exchange Instant Resp)} {rs : List R}
    (runs : (pool.drive worker).Runs trace (.ok rs)) : pool.Fulfilled worker trace rs := by
  induction pool using Pool.drive.induct worker generalizing trace with
  | case1 pool e rejected => simp [ok.unrejected] at rejected
  | case2 pool unrejected idle =>
    rw [drive, unrejected] at runs
    simp only [idle, dite_true, Async.runs_settled, Except.ok.injEq] at runs
    exact runs.2 ▸ fulfilled_idle worker ok (List.length_eq_zero_iff.mp idle)
  | case3 pool unrejected busy settled requested scheduled =>
    obtain ⟨k, bound, step⟩ := drive_step worker unrejected busy runs
    clear runs
    have small : k < pool.inFlight.length - 1 + 1 := by omega
    obtain ⟨result, call, runs⟩ | ⟨q, resume, t, r, rest, call, rfl, runs⟩ |
      ⟨n, resume, i, call, runs⟩ := step
    · cases result with
      | error e => simp [settle, without, drive, unrejected] at runs
      | ok r =>
        have done := settled ⟨k, small⟩ (.ok r) (settle_consistent worker ok bound r) runs
        exact fulfilled_settle worker ok bound call done
    · have done := requested ⟨k, small⟩ q resume call r
        (requeue_consistent ok bound _) runs
      refine fulfilled_requeue worker bound done (List.sublist_cons_self _ _) ?_
      rintro ⟨part, result, sub, ran, found⟩
      refine ⟨⟨t, q, r⟩ :: part, result, sub.cons_cons _, ?_, found⟩
      rw [call]
      exact ⟨t, r, part, rfl, ran⟩
    · have done := scheduled ⟨k, small⟩ n resume call i (requeue_consistent ok bound _) runs
      refine fulfilled_requeue worker bound done (List.Sublist.refl _) ?_
      rintro ⟨part, result, sub, ran, found⟩
      refine ⟨part, result, sub, ?_, found⟩
      rw [call]
      exact ⟨i, ran⟩

theorem settle_calls_le (pool : Pool Resp ε Item R) (index : Nat) (r : R) :
    (pool.settle worker index (.ok r)).calls worker ≤ pool.calls worker := by
  obtain same | ⟨x, dropped⟩ := claim_calls worker
    { pool with results := pool.results.set index (some r) }
  · exact same.le
  · exact (Multiset.le_cons_self _ x).trans dropped.ge

/-- The failure a pool rejects with is the failure of one of its calls. -/
theorem drive_fails {pool : Pool Resp ε Item R} (running : pool.rejection = none)
    {trace : List (Exchange Instant Resp)} {e : ε}
    (runs : (pool.drive worker).Runs trace (.error e)) :
    ∃ call part, call ∈ pool.calls worker ∧ part.Sublist trace ∧ call.Runs part (.error e) := by
  induction pool using Pool.drive.induct worker generalizing trace with
  | case1 pool e' rejected => simp [running] at rejected
  | case2 pool unrejected idle =>
    rw [drive, unrejected] at runs
    simp [idle] at runs
  | case3 pool unrejected busy settled requested scheduled =>
    obtain ⟨k, bound, step⟩ := drive_step worker unrejected busy runs
    clear runs
    have small : k < pool.inFlight.length - 1 + 1 := by omega
    have resumed : ∀ call, call ∈ pool.calls worker ↔
        call ∈ (pool.without k).calls worker ∨ call = pool.inFlight[k].2 := by
      intro call
      rw [← calls_without worker bound, Multiset.mem_add, Multiset.mem_singleton]
    obtain ⟨result, call, done⟩ | ⟨q, resume, t, r, rest, call, rfl, done⟩ |
      ⟨n, resume, i, call, done⟩ := step
    · cases result with
      | error e' =>
        have rejected : ((pool.without k).settle worker pool.inFlight[k].1 (.error e')).rejection =
            some e' := by simp [settle, without, unrejected]
        rw [drive, rejected] at done
        obtain ⟨rfl, same⟩ := done
        cases same
        exact ⟨_, [], (resumed _).mpr (.inr rfl), List.Sublist.refl _, by rw [call]; exact ⟨rfl, rfl⟩⟩
      | ok r =>
        obtain ⟨failed, part, member, sub, ran⟩ :=
          settled ⟨k, small⟩ (.ok r) (by simpa [settle, without] using unrejected) done
        have kept := Multiset.mem_of_le (settle_calls_le worker _ _ r) member
        exact ⟨failed, part, (resumed failed).mpr (.inl kept), sub, ran⟩
    · obtain ⟨failed, part, member, sub, ran⟩ := requested ⟨k, small⟩ q resume call r unrejected done
      rw [calls_requeue, Multiset.mem_add, Multiset.mem_singleton] at member
      obtain kept | rfl := member
      · exact ⟨failed, part, (resumed failed).mpr (.inl kept), sub.cons _, ran⟩
      · refine ⟨_, _, (resumed _).mpr (.inr rfl), sub.cons_cons ⟨t, q, r⟩, ?_⟩
        rw [call]
        exact ⟨t, r, part, rfl, ran⟩
    · obtain ⟨failed, part, member, sub, ran⟩ := scheduled ⟨k, small⟩ n resume call i unrejected done
      rw [calls_requeue, Multiset.mem_add, Multiset.mem_singleton] at member
      obtain kept | rfl := member
      · exact ⟨failed, part, (resumed failed).mpr (.inl kept), sub, ran⟩
      · refine ⟨_, part, (resumed _).mpr (.inr rfl), sub, ?_⟩
        rw [call]
        exact ⟨i, ran⟩

/-- The first call in flight can run to its end before any other is resumed. -/
theorem runs_drive_head {entries : List (Nat × Item)} {index : Nat} {call : Async Resp ε R}
    {others : List (Nat × Async Resp ε R)} {results : List (Option R)} {r : R}
    {part trace : List (Exchange Instant Resp)} {outcome : Except ε (List R)}
    (runs : call.Runs part (.ok r))
    (later : (drive worker (settle worker ⟨entries, others, false, none, results⟩ index (.ok r))).Runs
      trace outcome) :
    (drive worker ⟨entries, (index, call) :: others, false, none, results⟩).Runs (part ++ trace)
      outcome := by
  induction call generalizing part with
  | settled result =>
    obtain ⟨rfl, rfl⟩ := runs
    rw [drive]
    exact ⟨0, later⟩
  | request q resume ih =>
    obtain ⟨t, answer, rest, rfl, tail⟩ := runs
    rw [drive]
    exact ⟨0, t, answer, rest ++ trace, rfl, ih answer tail⟩
  | schedule n resume ih =>
    obtain ⟨i, tail⟩ := runs
    rw [drive]
    exact ⟨0, i, ih i tail⟩

/-- Calls that are all in flight can run one after the other. -/
theorem runs_drive {items : List Item} (done : List R) {parts : List (List (Exchange Instant Resp) × R)}
    (each : List.Forall₂ (fun entry part => (worker entry.1 entry.2).Runs part.1 (.ok part.2))
      (items.zipIdx done.length) parts) :
    (drive worker ⟨[], (items.zipIdx done.length).map fun entry => (entry.2, worker entry.1 entry.2),
      false, none, done.map some ++ List.replicate items.length none⟩).Runs
        (parts.flatMap Prod.fst) (.ok (done ++ parts.map Prod.snd)) := by
  induction items generalizing done parts with
  | nil =>
    obtain rfl := List.forall₂_nil_left_iff.mp each
    rw [drive]
    refine ⟨rfl, ?_⟩
    simp [List.reduceOption]
  | cons item items ih =>
    rw [List.zipIdx_cons, List.forall₂_cons_left_iff] at each
    obtain ⟨part, parts, here, each, rfl⟩ := each
    rw [List.zipIdx_cons, List.map_cons, List.flatMap_cons]
    refine runs_drive_head worker here ?_
    have stored : (done.map some ++ List.replicate (item :: items).length none).set done.length
        (some part.2) = (done ++ [part.2]).map some ++ List.replicate items.length none := by
      rw [List.set_append_right _ _ (by simp), List.length_map, Nat.sub_self, List.length_cons,
        List.replicate_succ, List.set_cons_zero]
      simp
    have size : done.length + 1 = (done ++ [part.2]).length := by simp
    change (drive worker ⟨[], _, false, none, List.set _ _ _⟩).Runs _ _
    rw [stored, size]
    rw [size] at each
    have later := ih _ each
    rw [List.append_assoc] at later
    exact later

end Pool

/-- A fan-out that returns has one result for each item, and the call for each
item ran to its result in its own part of the trace, whatever the interleaving. -/
theorem fanOut_runs {items : List Item} {limit : Nat}
    {worker : Item → Nat → Async Resp ε R} {trace : List (Exchange Instant Resp)} {rs : List R}
    (runs : (fanOut worker items limit).Runs trace (.ok rs)) :
    rs.length = items.length ∧ ∀ i (bound : i < items.length),
      ∃ part r, part.Sublist trace ∧ (worker items[i] i).Runs part (.ok r) ∧ rs[i]? = some r := by
  have done := Pool.drive_fulfills worker (Pool.start_consistent worker items limit) runs
  refine ⟨by simpa [Pool.start] using done.length, fun i bound => ?_⟩
  have member : (i, items[i]) ∈ items.zipIdx.map Prod.swap :=
    List.mem_map.mpr ⟨(items[i], i), List.mem_zipIdx_iff_getElem?.mpr (by simp [bound]), rfl⟩
  rw [← List.take_append_drop (max 1 (min limit items.length)) (items.zipIdx.map Prod.swap),
    List.mem_append] at member
  obtain claimed | waiting := member
  · exact done.inFlight (i, worker items[i] i) (List.mem_map.mpr ⟨_, claimed, rfl⟩)
  · exact done.entries (i, items[i]) waiting

theorem fanOut_each {items : List Item} {limit : Nat} {worker : Item → Nat → Async Resp ε R}
    {trace : List (Exchange Instant Resp)} {rs : List R}
    (runs : (fanOut worker items limit).Runs trace (.ok rs)) :
    List.Forall₂ (fun item r => item ∈ items ∧
      ∃ i part, part.Sublist trace ∧ (worker item i).Runs part (.ok r)) items rs := by
  obtain ⟨size, each⟩ := fanOut_runs runs
  refine List.forall₂_iff_get.mpr ⟨size.symm, fun i bound bound' => ⟨List.getElem_mem bound, i, ?_⟩⟩
  obtain ⟨part, r, sub, ran, found⟩ := each i bound
  obtain rfl : rs[i] = r := by simpa [bound'] using found
  exact ⟨part, sub, ran⟩

/-- Calls that are no more than the limit can run one after the other. -/
theorem runs_fanOut {items : List Item} {limit : Nat} {worker : Item → Nat → Async Resp ε R}
    {trace : List (Exchange Instant Resp)} {rs : List R}
    (parts : List (List (Exchange Instant Resp) × R)) (few : items.length ≤ limit)
    (each : List.Forall₂ (fun entry part => (worker entry.1 entry.2).Runs part.1 (.ok part.2))
      items.zipIdx parts)
    (whole : parts.flatMap Prod.fst = trace) (results : parts.map Prod.snd = rs) :
    (fanOut worker items limit).Runs trace (.ok rs) := by
  have all : (items.zipIdx.map Prod.swap).length ≤ max 1 (min limit items.length) := by
    rw [List.length_map, List.length_zipIdx]
    omega
  have start : Pool.start worker items limit =
      ⟨[], items.zipIdx.map fun entry => (entry.2, worker entry.1 entry.2), false, none,
        List.replicate items.length none⟩ := by
    rw [Pool.start, List.drop_of_length_le all, List.take_of_length_le all, List.map_map]
    rfl
  rw [fanOut, start, ← whole, ← results]
  exact Pool.runs_drive worker [] each

/-- A fan-out over a single item is the call for it. -/
theorem fanOut_lone {item : Item} {limit : Nat} {worker : Item → Nat → Async Resp ε R}
    {trace : List (Exchange Instant Resp)} {r : R} (positive : 0 < limit)
    (runs : (worker item 0).Runs trace (.ok r)) :
    (fanOut worker [item] limit).Runs trace (.ok [r]) :=
  runs_fanOut [(trace, r)] positive (.cons runs .nil) (List.flatMap_singleton ..) rfl

/-- The calls a pool starts with are those for its items. -/
theorem Pool.calls_start (items : List Item) (limit : Nat) (worker : Item → Nat → Async Resp ε R) :
    (Pool.start worker items limit).calls worker =
      (items.zipIdx : Multiset (Item × Nat)).map fun entry => worker entry.1 entry.2 := by
  let workerCount := max 1 (min limit items.length)
  have entries : (items.zipIdx.map fun entry => worker entry.1 entry.2) =
      (items.zipIdx.map Prod.swap).map fun entry => worker entry.2 entry.1 := by
    simp [List.map_map, Function.comp_def]
  rw [Multiset.map_coe, entries, ← List.take_append_drop workerCount (items.zipIdx.map Prod.swap),
    List.map_append, ← Multiset.coe_add, add_comm]
  simp [Pool.calls, Pool.start, List.map_map, Function.comp_def, workerCount]

theorem Pool.mem_calls_start {items : List Item} {limit : Nat}
    {worker : Item → Nat → Async Resp ε R} {call : Async Resp ε R}
    (member : call ∈ (Pool.start worker items limit).calls worker) :
    ∃ i, ∃ bound : i < items.length, worker items[i] i = call := by
  rw [Pool.calls_start] at member
  obtain ⟨⟨item, i⟩, indexed, rfl⟩ := Multiset.mem_map.mp member
  obtain ⟨bound, same⟩ := List.getElem?_eq_some_iff.mp (List.mem_zipIdx_iff_getElem?.mp indexed)
  exact ⟨i, bound, congrArg (worker · i) same⟩

/-- A fan-out that fails, fails as the call for one of its items does. -/
theorem fanOut_fails {items : List Item} {limit : Nat} {worker : Item → Nat → Async Resp ε R}
    {trace : List (Exchange Instant Resp)} {e : ε}
    (runs : (fanOut worker items limit).Runs trace (.error e)) :
    ∃ i, ∃ bound : i < items.length, ∃ part, part.Sublist trace ∧
      (worker items[i] i).Runs part (.error e) := by
  obtain ⟨call, part, member, sub, ran⟩ := Pool.drive_fails worker rfl runs
  obtain ⟨i, bound, rfl⟩ := Pool.mem_calls_start member
  exact ⟨i, bound, part, sub, ran⟩

/-- Calls made for each item return in the items' places. -/
theorem promiseAll_runs {items : List Item} {call : Item → Async Resp ε R}
    {trace : List (Exchange Instant Resp)} {rs : List R}
    (runs : (promiseAll (items.map call)).Runs trace (.ok rs)) :
    List.Forall₂ (fun item r => ∃ part, part.Sublist trace ∧ (call item).Runs part (.ok r))
      items rs := by
  refine (List.forall₂_map_left_iff.mp (fanOut_each runs)).imp ?_
  rintro item r ⟨-, -, part, sub, ran⟩
  exact ⟨part, sub, ran⟩

theorem promiseAll_fails {items : List Item} {call : Item → Async Resp ε R}
    {trace : List (Exchange Instant Resp)} {e : ε}
    (runs : (promiseAll (items.map call)).Runs trace (.error e)) :
    ∃ item ∈ items, ∃ part, part.Sublist trace ∧ (call item).Runs part (.error e) := by
  obtain ⟨i, bound, part, sub, ran⟩ := fanOut_fails runs
  rw [List.length_map] at bound
  exact ⟨items[i], List.getElem_mem bound, part, sub, by simpa using ran⟩

/-- Calls that each come to a result come to those results together, in order. -/
theorem settles_fanOut {items : List Item} {limit : Nat} {worker : Item → Nat → Async Resp ε R}
    {trace : List (Exchange Instant Resp)} {results : List R}
    (each : List.Forall₂ (fun item r => ∀ i, Async.Settles trace (worker item i) (.ok r))
      items results) : Async.Settles trace (fanOut worker items limit) (.ok results) := by
  obtain ⟨size, each⟩ := List.forall₂_iff_get.mp each
  intro part outcome sub runs
  cases outcome with
  | ok rs =>
    obtain ⟨length, all⟩ := fanOut_runs runs
    refine congrArg _ (List.ext_getElem (length.trans size) fun i bound bound' => ?_)
    obtain ⟨inside, r, within, ran, found⟩ := all i (size ▸ bound')
    obtain rfl : rs[i] = r := by simpa [bound] using found
    exact Except.ok.inj (each i (size ▸ bound') bound' i inside _ (within.trans sub) ran)
  | error e =>
    obtain ⟨i, bound, inside, within, ran⟩ := fanOut_fails runs
    exact nomatch each i bound (size ▸ bound) i inside _ (within.trans sub) ran

theorem settles_fanOut_map {items : List Item} {limit : Nat}
    {worker : Item → Nat → Async Resp ε R} {trace : List (Exchange Instant Resp)}
    {result : Item → R}
    (each : ∀ item ∈ items, ∀ i, Async.Settles trace (worker item i) (.ok (result item))) :
    Async.Settles trace (fanOut worker items limit) (.ok (items.map result)) :=
  settles_fanOut (List.forall₂_map_right_iff.mpr (List.forall₂_same.mpr each))

theorem settles_promiseAll {calls : List (Async Resp ε R)} {results : List R}
    {trace : List (Exchange Instant Resp)}
    (each : List.Forall₂ (fun call r => Async.Settles trace call (.ok r)) calls results) :
    Async.Settles trace (promiseAll calls) (.ok results) :=
  settles_fanOut (each.imp fun _ _ settles _ => settles)

section Static

variable {up : (q : Req) → Resp q} {items : List Item} {call : Item → Async Resp ε R}

/-- Where all calls return, each has returned. -/
theorem promiseAll_gives {rs : List R} (gives : Async.Gives up (promiseAll (items.map call)) (.ok rs))
    {item : Item} (member : item ∈ items) : ∃ r, Async.Gives up (call item) (.ok r) := by
  obtain ⟨trace, static, runs⟩ := gives
  obtain ⟨i, bound, rfl⟩ := List.getElem_of_mem member
  obtain ⟨size, each⟩ := List.forall₂_iff_get.mp (promiseAll_runs runs)
  obtain ⟨part, sub, ran⟩ := each i bound (size ▸ bound)
  exact ⟨_, part, static.sub sub, ran⟩

/-- Calls with one result each come to those results together. -/
theorem gives_promiseAll {value : Item → R}
    (each : ∀ item ∈ items, ∀ result,
      Async.Gives up (call item) result ↔ result = .ok (value item)) (outcome : Except ε (List R)) :
    Async.Gives up (promiseAll (items.map call)) outcome ↔ outcome = .ok (items.map value) := by
  have only (result : Except ε (List R))
      (gives : Async.Gives up (promiseAll (items.map call)) result) :
      result = .ok (items.map value) := by
    obtain ⟨trace, static, runs⟩ := gives
    refine settles_promiseAll ?_ trace result (List.Sublist.refl trace) runs
    rw [List.forall₂_map_left_iff, List.forall₂_map_right_iff, List.forall₂_same]
    exact fun item member part result sub ran =>
      (each item member result).mp ⟨part, static.sub sub, ran⟩
  exact Async.gives_iff_of_only only

/-- Workers with one result each come to those results together, however many run at a time. -/
theorem gives_fanOut {limit : Nat} {worker : Item → Nat → Async Resp ε R} {value : Item → R}
    (each : ∀ item ∈ items, ∀ i result,
      Async.Gives up (worker item i) result ↔ result = .ok (value item)) (outcome : Except ε (List R)) :
    Async.Gives up (fanOut worker items limit) outcome ↔ outcome = .ok (items.map value) := by
  have only (result : Except ε (List R)) (gives : Async.Gives up (fanOut worker items limit) result) :
      result = .ok (items.map value) := by
    obtain ⟨trace, static, runs⟩ := gives
    refine settles_fanOut_map (fun item member i => ?_) trace result (List.Sublist.refl trace) runs
    exact fun part result sub ran => (each item member i result).mp ⟨part, static.sub sub, ran⟩
  exact Async.gives_iff_of_only only

end Static

end Interaction
