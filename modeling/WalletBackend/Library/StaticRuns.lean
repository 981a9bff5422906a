import WalletBackend.Library.Async

/-! What programs come to against an upstream that answers as a function of the request. -/
namespace Interaction.Async

variable {Req : Type} {Resp : Req → Type} {ε ε' α β T : Type} {up : (q : Req) → Resp q}

/-- Some run of `x` in which `up` answers every request comes to `outcome`. -/
def Gives (up : (q : Req) → Resp q) (x : Async Resp ε α) (outcome : Except ε α) : Prop :=
  ∃ trace : List (Exchange Unit Resp), Static up trace ∧ x.Runs trace outcome

/-- Two programs that come to the same outcomes. -/
def SameAnswer (up : (q : Req) → Resp q) (x y : Async Resp ε α) : Prop :=
  ∀ outcome, Gives up x outcome ↔ Gives up y outcome

theorem Static.sub {part trace : List (Exchange T Resp)} (static : Static up trace)
    (sub : part.Sublist trace) : Static up part :=
  fun x member => static x (sub.subset member)

theorem static_append {first rest : List (Exchange T Resp)} :
    Static up (first ++ rest) ↔ Static up first ∧ Static up rest :=
  List.forall_mem_append

/-- There is always an outcome. -/
theorem exists_gives (up : (q : Req) → Resp q) (x : Async Resp ε α) :
    ∃ outcome, Gives up x outcome := by
  have run : ∃ (trace : List (Exchange Unit Resp)) (outcome : _), Static up trace ∧
      x.Runs trace outcome := exists_run up x
  obtain ⟨trace, outcome, static, runs⟩ := run
  exact ⟨outcome, trace, static, runs⟩

/-- A program with one outcome has it. -/
theorem gives_of_only {x : Async Resp ε α} {outcome : Except ε α}
    (only : ∀ result, Gives up x result → result = outcome) : Gives up x outcome := by
  obtain ⟨result, gives⟩ := exists_gives up x
  exact only result gives ▸ gives

theorem gives_iff_of_only {x : Async Resp ε α} {result : Except ε α}
    (only : ∀ outcome, Gives up x outcome → outcome = result) {outcome : Except ε α} :
    Gives up x outcome ↔ outcome = result := by
  constructor
  · exact only outcome
  · rintro rfl
    exact gives_of_only only

theorem gives_settled {result outcome : Except ε α} :
    Gives up (.settled result) outcome ↔ outcome = result := by
  constructor
  · rintro ⟨_, -, -, same⟩
    exact same.symm
  · rintro rfl
    exact ⟨[], nofun, rfl, rfl⟩

@[simp] theorem gives_pure {a : α} {outcome : Except ε α} :
    Gives up (pure a : Async Resp ε α) outcome ↔ outcome = .ok a := gives_settled

@[simp] theorem gives_ofExcept {result outcome : Except ε α} :
    Gives up (ofExcept result : Async Resp ε α) outcome ↔ outcome = result := gives_settled

@[simp] theorem gives_ask {q : Req} {outcome : Except ε (Resp q)} :
    Gives up (ask q : Async Resp ε (Resp q)) outcome ↔ outcome = .ok (up q) := by
  constructor
  · rintro ⟨trace, static, runs⟩
    obtain ⟨t, r, rfl, rfl⟩ := runs_ask.mp runs
    have answered : r = up q := static ⟨t, q, r⟩ List.mem_cons_self
    rw [answered]
  · rintro rfl
    refine ⟨[⟨(), q, up q⟩], ?_, runs_ask.mpr ⟨(), up q, rfl, rfl⟩⟩
    intro x member
    rw [List.mem_singleton.mp member]

theorem gives_bind {x : Async Resp ε α} {next : α → Async Resp ε β} {outcome : Except ε β} :
    Gives up (x >>= next) outcome ↔
      (∃ a, Gives up x (.ok a) ∧ Gives up (next a) outcome) ∨
      ∃ e, Gives up x (.error e) ∧ .error e = outcome := by
  constructor
  · rintro ⟨trace, static, runs⟩
    obtain ⟨first, rest, a, rfl, head, tail⟩ | ⟨e, head, same⟩ := runs_bind.mp runs
    · obtain ⟨before, after⟩ := static_append.mp static
      exact .inl ⟨a, ⟨first, before, head⟩, rest, after, tail⟩
    · exact .inr ⟨e, ⟨trace, static, head⟩, same⟩
  · rintro (⟨a, ⟨first, before, head⟩, rest, after, tail⟩ | ⟨e, ⟨trace, static, head⟩, same⟩)
    · exact ⟨first ++ rest, static_append.mpr ⟨before, after⟩,
        runs_bind.mpr (.inl ⟨first, rest, a, rfl, head, tail⟩)⟩
    · exact ⟨trace, static, runs_bind.mpr (.inr ⟨e, head, same⟩)⟩

/-- After a program with one result, the outcomes are those of the rest. -/
theorem gives_bind_of {x : Async Resp ε α} {a : α}
    (first : ∀ result, Gives up x result ↔ result = .ok a) {next : α → Async Resp ε β} {outcome : Except ε β} :
    Gives up (x >>= next) outcome ↔ Gives up (next a) outcome := by
  rw [gives_bind]
  constructor
  · rintro (⟨a', head, tail⟩ | ⟨e, head, -⟩)
    · cases (first _).mp head
      exact tail
    · cases (first _).mp head
  · exact fun tail => .inl ⟨a, (first _).mpr rfl, tail⟩

/-- Nothing follows a program that only fails. -/
theorem gives_bind_fails {x : Async Resp ε α} {e : ε}
    (first : ∀ result, Gives up x result ↔ result = .error e) {next : α → Async Resp ε β}
    {outcome : Except ε β} : Gives up (x >>= next) outcome ↔ outcome = .error e := by
  rw [gives_bind]
  constructor
  · rintro (⟨a, gives, -⟩ | ⟨e', gives, rfl⟩)
    · cases (first _).mp gives
    · cases (first _).mp gives
      rfl
  · rintro rfl
    exact .inr ⟨e, (first _).mpr rfl, rfl⟩

/-- After a program each of whose results goes on alike, the outcomes are those of the rest. -/
theorem gives_bind_alike {x : Async Resp ε α} {next : α → Async Resp ε β} {y : Async Resp ε β}
    (alike : ∀ result, Gives up x result → ∃ a, result = .ok a ∧ next a = y) {outcome : Except ε β} :
    Gives up (x >>= next) outcome ↔ Gives up y outcome := by
  rw [gives_bind]
  constructor
  · rintro (⟨a, head, tail⟩ | ⟨e, head, -⟩)
    · obtain ⟨a', same, rest⟩ := alike _ head
      cases same
      exact rest ▸ tail
    · obtain ⟨a', same, -⟩ := alike _ head
      cases same
  · intro tail
    obtain ⟨result, head⟩ := exists_gives up x
    obtain ⟨a, rfl, rest⟩ := alike _ head
    exact .inl ⟨a, head, rest.symm ▸ tail⟩

theorem gives_tryCatch {x : Async Resp ε α} {recover : ε → Async Resp ε α} {outcome : Except ε α} :
    Gives up (tryCatch x recover) outcome ↔
      (∃ a, Gives up x (.ok a) ∧ .ok a = outcome) ∨
      ∃ e, Gives up x (.error e) ∧ Gives up (recover e) outcome := by
  constructor
  · rintro ⟨trace, static, runs⟩
    obtain ⟨a, ran, same⟩ | ⟨first, rest, e, rfl, failed, recovered⟩ := runs_tryCatch.mp runs
    · exact .inl ⟨a, ⟨trace, static, ran⟩, same⟩
    · obtain ⟨before, after⟩ := static_append.mp static
      exact .inr ⟨e, ⟨first, before, failed⟩, rest, after, recovered⟩
  · rintro (⟨a, ⟨trace, static, ran⟩, same⟩ | ⟨e, ⟨first, before, failed⟩, rest, after, recovered⟩)
    · exact ⟨trace, static, runs_tryCatch.mpr (.inl ⟨a, ran, same⟩)⟩
    · exact ⟨first ++ rest, static_append.mpr ⟨before, after⟩,
        runs_tryCatch.mpr (.inr ⟨first, rest, e, rfl, failed, recovered⟩)⟩

/-- After a program that only fails, the outcomes are those of the recovery. -/
theorem gives_tryCatch_fails {x : Async Resp ε α} {recover : ε → Async Resp ε α} {e : ε}
    (first : ∀ result, Gives up x result ↔ result = .error e) {outcome : Except ε α} :
    Gives up (tryCatch x recover) outcome ↔ Gives up (recover e) outcome := by
  rw [gives_tryCatch]
  constructor
  · rintro (⟨a, gives, -⟩ | ⟨e', gives, recovered⟩)
    · cases (first _).mp gives
    · cases (first _).mp gives
      exact recovered
  · exact fun recovered => .inr ⟨e, (first _).mpr rfl, recovered⟩

/-- A program that does not fail has nothing caught. -/
theorem gives_tryCatch_of {x : Async Resp ε α} {a : α} {recover : ε → Async Resp ε α}
    (first : ∀ result, Gives up x result ↔ result = .ok a) {outcome : Except ε α} :
    Gives up (tryCatch x recover) outcome ↔ outcome = .ok a := by
  constructor
  · rintro ⟨trace, static, runs⟩
    obtain ⟨a', head, rfl⟩ | ⟨before, rest, e, rfl, head, -⟩ := runs_tryCatch.mp runs
    · exact (first _).mp ⟨trace, static, head⟩
    · cases (first _).mp ⟨before, (static_append.mp static).1, head⟩
  · rintro rfl
    obtain ⟨trace, static, runs⟩ := (first _).mpr rfl
    exact ⟨trace, static, runs_tryCatch.mpr (.inl ⟨a, runs, rfl⟩)⟩

theorem gives_tryCatch_quiet {x : Async Resp ε α} {recover : ε → Async Resp ε α} {outcome : Except ε α}
    (quiet : ∀ e, ¬ Gives up x (.error e)) (gives : Gives up (tryCatch x recover) outcome) :
    Gives up x outcome := by
  obtain ⟨trace, static, runs⟩ := gives
  obtain ⟨a, ran, rfl⟩ | ⟨first, rest, e, rfl, failed, -⟩ := runs_tryCatch.mp runs
  · exact ⟨trace, static, ran⟩
  · exact absurd ⟨first, (static_append.mp static).1, failed⟩ (quiet e)

/-- What is caught and made good does not fail. -/
theorem quiet_tryCatch {x : Async Resp ε α} {recover : ε → Async Resp ε α}
    (good : ∀ e e', ¬ Gives up (recover e) (.error e')) (e : ε) :
    ¬ Gives up (tryCatch x recover) (.error e) := by
  rintro ⟨trace, static, runs⟩
  obtain ⟨a, -, same⟩ | ⟨first, rest, e', rfl, -, failed⟩ := runs_tryCatch.mp runs
  · cases same
  · exact good e' e ⟨rest, (static_append.mp static).2, failed⟩

theorem SameAnswer.refl (x : Async Resp ε α) : SameAnswer up x x := fun _ => Iff.rfl

/-- Two calls awaited together that each come to one result. -/
theorem gives_both_of {x : Async Resp ε α} {y : Async Resp ε β} {a : α} {b : β}
    (left : ∀ result, Gives up x result → result = .ok a)
    (right : ∀ result, Gives up y result → result = .ok b) (outcome : Except ε (α × β)) :
    Gives up (both x y) outcome ↔ outcome = .ok (a, b) := by
  have only (result : Except ε (α × β)) (gives : Gives up (both x y) result) :
      result = .ok (a, b) := by
    obtain ⟨trace, static, runs⟩ := gives
    have joined := both_joined runs
    cases result with
    | ok pair =>
      obtain ⟨⟨px, sx, rx⟩, py, sy, ry⟩ := joined
      cases left _ ⟨px, static.sub sx, rx⟩
      cases right _ ⟨py, static.sub sy, ry⟩
      rfl
    | error e =>
      obtain ⟨px, sx, rx⟩ | ⟨py, sy, ry⟩ := joined
      · cases left _ ⟨px, static.sub sx, rx⟩
      · cases right _ ⟨py, static.sub sy, ry⟩
  exact gives_iff_of_only only

theorem gives_request {q : Req} {resume : Resp q → Async Resp ε α} {outcome : Except ε α} :
    Gives up (.request q resume) outcome ↔ Gives up (resume (up q)) outcome := by
  constructor
  · rintro ⟨trace, static, t, r, rest, rfl, runs⟩
    have answered : r = up q := static ⟨t, q, r⟩ List.mem_cons_self
    exact answered ▸ ⟨rest, fun x member => static x (List.mem_cons_of_mem _ member), runs⟩
  · rintro ⟨rest, static, runs⟩
    refine ⟨⟨(), q, up q⟩ :: rest, ?_, (), up q, rest, rfl, runs⟩
    intro x member
    obtain rfl | member := List.mem_cons.mp member
    · rfl
    · exact static x member

theorem gives_schedule {n : Nat} {resume : Fin (n + 1) → Async Resp ε α} {outcome : Except ε α} :
    Gives up (.schedule n resume) outcome ↔ ∃ i, Gives up (resume i) outcome := by
  constructor
  · rintro ⟨trace, static, i, runs⟩
    exact ⟨i, trace, static, runs⟩
  · rintro ⟨i, trace, static, runs⟩
    exact ⟨trace, static, i, runs⟩

/-- A call on the left may go on at once, unless the one on the right has failed. -/
theorem gives_alongside {left : Async Resp ε β → Async Resp ε α} {y : Async Resp ε β}
    {outcome : Except ε α} (quiet : ∀ e, ¬ Gives up y (.error e)) (gives : Gives up (left y) outcome) :
    Gives up (alongside left y) outcome := by
  cases y with
  | settled result =>
    cases result with
    | ok b => exact gives
    | error e => exact absurd (gives_settled.mpr rfl) (quiet e)
  | request q resume => exact gives_schedule.mpr ⟨0, gives⟩
  | schedule n resume => exact gives_schedule.mpr ⟨0, gives⟩

/-- Two calls awaited together, of which the second does not fail. -/
theorem gives_both_quiet {x : Async Resp ε α} {y : Async Resp ε β} {outcome : Except ε (α × β)}
    (quiet : ∀ e, ¬ Gives up y (.error e)) :
    Gives up (both x y) outcome ↔
      (∃ a b, Gives up x (.ok a) ∧ Gives up y (.ok b) ∧ outcome = .ok (a, b)) ∨
      ∃ e, Gives up x (.error e) ∧ outcome = .error e := by
  constructor
  · rintro ⟨trace, static, runs⟩
    have joined := both_joined runs
    cases outcome with
    | ok pair =>
      obtain ⟨⟨px, sx, rx⟩, py, sy, ry⟩ := joined
      exact .inl ⟨_, _, ⟨px, static.sub sx, rx⟩, ⟨py, static.sub sy, ry⟩, rfl⟩
    | error e =>
      obtain ⟨px, sx, rx⟩ | ⟨py, sy, ry⟩ := joined
      · exact .inr ⟨e, ⟨px, static.sub sx, rx⟩, rfl⟩
      · exact absurd ⟨py, static.sub sy, ry⟩ (quiet e)
  · intro given
    induction x with
    | settled result =>
      cases result with
      | ok a =>
        obtain ⟨a', b, left, right, rfl⟩ | ⟨e, left, -⟩ := given
        · cases gives_settled.mp left
          exact gives_bind.mpr (.inl ⟨b, right, gives_pure.mpr rfl⟩)
        · cases gives_settled.mp left
      | error e =>
        obtain ⟨a', b, left, -⟩ | ⟨e', left, rfl⟩ := given
        · cases gives_settled.mp left
        · cases gives_settled.mp left
          exact gives_settled.mpr rfl
    | request q resume ih =>
      refine gives_alongside quiet (gives_request.mpr (ih (up q) ?_))
      obtain ⟨a, b, left, right, same⟩ | ⟨e, left, same⟩ := given
      · exact .inl ⟨a, b, gives_request.mp left, right, same⟩
      · exact .inr ⟨e, gives_request.mp left, same⟩
    | schedule n resume ih =>
      refine gives_alongside quiet (gives_schedule.mpr ?_)
      obtain ⟨a, b, left, right, same⟩ | ⟨e, left, same⟩ := given
      · obtain ⟨i, left⟩ := gives_schedule.mp left
        exact ⟨i, ih i (.inl ⟨a, b, left, right, same⟩)⟩
      · obtain ⟨i, left⟩ := gives_schedule.mp left
        exact ⟨i, ih i (.inr ⟨e, left, same⟩)⟩

section Relay

variable {Req' : Type} {Resp' : Req' → Type} (send : Req → Req')
  (back : ∀ q, Resp' (send q) → Resp q)

/-- A program whose requests go through another interface. -/
def relay : Async Resp ε α → Async Resp' ε α
  | .settled outcome => .settled outcome
  | .request q resume => .request (send q) fun r => relay (resume (back q r))
  | .schedule n resume => .schedule n fun i => relay (resume i)

/-- Each answer that such a program takes came back through the interface. -/
theorem runs_relay {x : Async Resp ε α} {trace : List (Exchange T Resp')} {outcome : Except ε α}
    (runs : (relay send back x).Runs trace outcome) :
    ∃ own : List (Exchange T Resp), x.Runs own outcome ∧
      ∀ t q r, ⟨t, q, r⟩ ∈ own → ∃ r', ⟨t, send q, r'⟩ ∈ trace ∧ back q r' = r := by
  induction x generalizing trace with
  | settled result =>
    obtain ⟨-, same⟩ := runs
    exact ⟨[], ⟨rfl, same⟩, fun _ _ _ => nofun⟩
  | request q resume ih =>
    obtain ⟨t, r, rest, rfl, tail⟩ := runs
    obtain ⟨own, ran, through⟩ := ih _ tail
    refine ⟨⟨t, q, back q r⟩ :: own, ⟨t, _, own, rfl, ran⟩, ?_⟩
    intro t' q' r' member
    obtain same | later := List.mem_cons.mp member
    · cases same
      exact ⟨r, List.mem_cons_self, rfl⟩
    · obtain ⟨raw, there, same⟩ := through t' q' r' later
      exact ⟨raw, List.mem_cons_of_mem _ there, same⟩
  | schedule n resume ih =>
    obtain ⟨i, tail⟩ := runs
    obtain ⟨own, ran, through⟩ := ih i tail
    exact ⟨own, ⟨i, ran⟩, through⟩

theorem gives_relay {up' : (q : Req') → Resp' q} {x : Async Resp ε α} {outcome : Except ε α} :
    Gives up' (relay send back x) outcome ↔ Gives (fun q => back q (up' (send q))) x outcome := by
  induction x with
  | settled result => exact gives_settled.trans gives_settled.symm
  | request q resume ih => exact gives_request.trans ((ih _).trans gives_request.symm)
  | schedule n resume ih =>
    exact gives_schedule.trans ((exists_congr ih).trans gives_schedule.symm)

end Relay

/-- A program that comes to `outcome` alone agrees with another under the condition that
makes the other come to it alone. -/
theorem sameAnswer_iff {x y : Async Resp ε α} {outcome : Except ε α} {condition : Prop}
    (right : ∀ result, Gives up y result → result = outcome)
    (left : Gives up x outcome → condition)
    (only : condition → ∀ result, Gives up x result → result = outcome) :
    SameAnswer up x y ↔ condition := by
  constructor
  · exact fun same => left ((same outcome).mpr (gives_of_only right))
  · intro holds result
    constructor
    · intro gives
      exact only holds result gives ▸ gives_of_only right
    · intro gives
      exact right result gives ▸ gives_of_only (only holds)

end Interaction.Async
