import Mathlib.Data.Rat.Floor
import Mathlib.Data.List.TakeWhile
import WalletBackend.Koios.Client

/-! What the two upstream clients do with one request: fetch it, classify what comes back,
wait and fetch again. The clients hold one copy each of the loop and of its classification. -/
namespace WalletBackend.Upstream
open Interaction

/-- Why `parse` refuses a body that is JSON: its shape, or that `getFirst` finds no row. -/
inductive Rejection where
  | shape
  | noRows

def Rejection.text : Rejection → String
  | .shape => "response shape mismatch"
  | .noRows => "returned no rows"

/-- What `readBody` and `parse` make of the body of a response. -/
inductive Body (α : Type) where
  | parsed (value : α)
  | rejected (why : Rejection)
  | invalid
  | timedOut

/-- A response, and what the clock reads when it is looked at. -/
structure Response (α : Type) where
  status : Nat
  retryAfter : Option String
  now : ℚ
  text : String
  body : Body α

/-- What becomes of one fetch. -/
inductive Outcome (α : Type) where
  | timedOut
  | failed
  | response (res : Response α)

inductive Call where
  | acquire
  | fetch (method path : String)
  | wait (ms : ℚ)

abbrev Call.Reply (α : Type) : Call → Type
  | .acquire => Unit
  | .fetch .. => Outcome α
  | .wait _ => Unit

/-- A program that calls upstream. -/
abbrev Program (α β : Type) := Async (Call.Reply α) Failure β

variable {α β T : Type}

/-- `res.ok`. -/
def Response.ok (res : Response α) : Bool := 200 ≤ res.status && res.status ≤ 299

/-- The loop of `read`: load, and load again after a wait while the failure is transient. -/
def readFrom (backoffMs : ℚ) (load : Program α β) (attempt : Nat) : (further : Nat) → Program α β
  | 0 => load
  | further + 1 => tryCatch load fun error =>
      if Koios.isTransient error then do
        Async.ask (Call.wait (backoffMs * attempt))
        readFrom backoffMs load (attempt + 1) further
      else throw error

def read (backoffMs : ℚ) (readAttempts : Nat) (load : Program α β) : Program α β :=
  readFrom backoffMs load 1 (readAttempts - 1)

/-- An outcome that another instance might better, as it is thrown. -/
def Transient : Outcome α → Bool
  | .timedOut | .failed => true
  | .response res =>
      if res.ok then
        match res.body with
        | .parsed _ => false
        | _ => true
      else 500 ≤ res.status

/-- What a run does, in order: the outcomes fetched and the waits. -/
inductive Event (α : Type) where
  | fetched (outcome : Outcome α)
  | waited (ms : ℚ)

/-- The limiter is waited for besides. -/
def event? : Exchange T (Call.Reply α) → Option (Event α)
  | ⟨_, .acquire, _⟩ => none
  | ⟨_, .fetch .., outcome⟩ => some (.fetched outcome)
  | ⟨_, .wait ms, _⟩ => some (.waited ms)

def events (trace : List (Exchange T (Call.Reply α))) : List (Event α) := trace.filterMap event?

def Event.outcome? : Event α → Option (Outcome α)
  | .fetched outcome => some outcome
  | .waited _ => none

/-- The outcomes of the fetches, in order. -/
def outcomes (events : List (Event α)) : List (Outcome α) := events.filterMap Event.outcome?

/-- The ceiling on a wait that a 429 asks for. -/
def MAX_RETRY_AFTER_MS : ℚ := 30000

section Shape

/-- One load: outcomes that are `held` are fetched again after a wait, at most `retries`
times; the load goes by the last outcome. -/
inductive LoadEvents (held : Outcome α → Bool) : Nat → List (Event α) → Outcome α → Prop where
  | last {retries : Nat} {o : Outcome α} (settled : held o = true → retries = 0) :
      LoadEvents held retries [.fetched o] o
  | again {retries : Nat} {o final : Outcome α} {ms : ℚ} {rest : List (Event α)}
      (isHeld : held o = true) (short : ms ≤ MAX_RETRY_AFTER_MS)
      (load : LoadEvents held retries rest final) :
      LoadEvents held (retries + 1) (.fetched o :: .waited ms :: rest) final

/-- One read from attempt number `attempt` on: loads that end in a transient outcome, each
with a wait after it, and a last one that does not, or that spends the attempts. -/
inductive ReadEvents (held : Outcome α → Bool) (retries : Nat) (backoffMs : ℚ) :
    (attempt further : Nat) → List (Event α) → Outcome α → Prop where
  | last {attempt further : Nat} {es : List (Event α)} {o : Outcome α}
      (load : LoadEvents held retries es o) (settled : Transient o = true → further = 0) :
      ReadEvents held retries backoffMs attempt further es o
  | again {attempt further : Nat} {es rest : List (Event α)} {o final : Outcome α}
      (load : LoadEvents held retries es o) (transient : Transient o = true)
      (read : ReadEvents held retries backoffMs (attempt + 1) further rest final) :
      ReadEvents held retries backoffMs attempt (further + 1)
        (es ++ .waited (backoffMs * attempt) :: rest) final

variable {held : Outcome α → Bool} {retries attempt further : Nat} {backoffMs : ℚ}
  {es : List (Event α)} {final : Outcome α}

@[simp] theorem outcomes_append (first rest : List (Event α)) :
    outcomes (first ++ rest) = outcomes first ++ outcomes rest :=
  List.filterMap_append

@[simp] theorem outcomes_fetched (o : Outcome α) (rest : List (Event α)) :
    outcomes (.fetched o :: rest) = o :: outcomes rest := rfl

@[simp] theorem outcomes_waited (ms : ℚ) (rest : List (Event α)) :
    outcomes (.waited ms :: rest) = outcomes rest := rfl

/-- A load fetches held outcomes and then the one it goes by. -/
theorem LoadEvents.outcomes (load : LoadEvents held retries es final) :
    ∃ front, outcomes es = front ++ [final] ∧ front.length ≤ retries ∧
      (∀ o ∈ front, held o = true) ∧ (held final = true → front.length = retries) := by
  induction load with
  | last settled => exact ⟨[], rfl, Nat.zero_le _, by simp, fun isHeld => (settled isHeld).symm⟩
  | @again retries o final ms rest isHeld short load ih =>
    obtain ⟨front, same, few, all, full⟩ := ih
    refine ⟨o :: front, by simp [same], Nat.succ_le_succ few, ?_, fun last => by simp [full last]⟩
    simpa using ⟨isHeld, all⟩

/-- A read fetches held and transient outcomes and then the one it goes by. -/
theorem ReadEvents.outcomes (read : ReadEvents held retries backoffMs attempt further es final) :
    ∃ front, outcomes es = front ++ [final] ∧
      ∀ o ∈ front, (held o = true ∧ 0 < retries) ∨ Transient o = true := by
  induction read with
  | last load settled =>
    obtain ⟨front, same, few, all, -⟩ := load.outcomes
    refine ⟨front, same, fun o member => .inl ⟨all o member, ?_⟩⟩
    exact (List.length_pos_of_mem member).trans_le few
  | @again attempt further es rest o final load transient read ih =>
    obtain ⟨front, same, few, all, -⟩ := load.outcomes
    obtain ⟨later, same', others⟩ := ih
    refine ⟨front ++ o :: later, by simp [same, same'], fun x member => ?_⟩
    obtain member | member := List.mem_append.mp member
    · exact .inl ⟨all x member, (List.length_pos_of_mem member).trans_le few⟩
    · obtain rfl | member := List.mem_cons.mp member
      · exact .inr transient
      · exact others x member

theorem ReadEvents.fetches (read : ReadEvents held retries backoffMs attempt further es final) :
    (Upstream.outcomes es).length ≤ (further + 1) * (retries + 1) := by
  induction read with
  | @last attempt further es o load settled =>
    obtain ⟨front, same, few, -, -⟩ := load.outcomes
    rw [same, List.length_append, List.length_singleton, Nat.succ_mul]
    omega
  | @again attempt further es rest o final load transient read ih =>
    obtain ⟨front, same, few, -, -⟩ := load.outcomes
    rw [outcomes_append, outcomes_waited, same, List.length_append, List.length_append,
      List.length_singleton, Nat.succ_mul (further + 1)]
    omega

/-- Each wait follows a held outcome and is short, or follows a transient one and is the
backoff as often as loads have failed. -/
def Paced (held : Outcome α → Bool) (backoffMs : ℚ) (es : List (Event α)) (failed : Nat) : Prop :=
  ∀ front ms back, es = front ++ .waited ms :: back → ∃ o, (outcomes front).getLast? = some o ∧
    ((held o = true ∧ ms ≤ MAX_RETRY_AFTER_MS) ∨
      (Transient o = true ∧ ms = backoffMs * (failed + (outcomes front).countP Transient : ℕ)))

theorem LoadEvents.paced (load : LoadEvents held retries es final) {front back : List (Event α)}
    {ms : ℚ} (split : es = front ++ .waited ms :: back) :
    ∃ o, (Upstream.outcomes front).getLast? = some o ∧ held o = true ∧ ms ≤ MAX_RETRY_AFTER_MS := by
  induction load generalizing front with
  | last settled => cases front <;> simp at split
  | @again retries o final wait rest isHeld short load ih =>
    obtain _ | ⟨first, _ | ⟨second, front⟩⟩ := front
    · cases split
    · cases split
      exact ⟨o, rfl, isHeld, short⟩
    · simp only [List.cons_append, List.cons.injEq] at split
      obtain ⟨rfl, rfl, within⟩ := split
      obtain ⟨last, ends, paced⟩ := ih within
      exact ⟨last, by simp [List.getLast?_cons, ends], paced⟩

theorem ReadEvents.paced (exclusive : ∀ o, held o = true → Transient o = false)
    (read : ReadEvents held retries backoffMs attempt further es final) {failed : Nat}
    (number : attempt = failed + 1) : Paced held backoffMs es failed := by
  induction read generalizing failed with
  | last load settled =>
    intro front ms back split
    obtain ⟨o, ends, paced⟩ := load.paced split
    exact ⟨o, ends, .inl paced⟩
  | @again attempt further es rest o final load transient read ih =>
    intro front ms back split
    obtain ⟨held, same, few, all, -⟩ := load.outcomes
    have once : (Upstream.outcomes es).countP Transient = 1 := by
      have none : held.countP Transient = 0 :=
        List.countP_eq_zero.mpr fun x member => by simp [exclusive x (all x member)]
      simp [same, none, transient]
    have between : ∃ o, (Upstream.outcomes es).getLast? = some o ∧ Transient o = true ∧
        backoffMs * attempt = backoffMs * (failed + (Upstream.outcomes es).countP Transient : ℕ) :=
      ⟨o, by simp [same], transient, by rw [once, number]⟩
    -- The wait is the one between the loads, or one of a later load, or one of this load.
    obtain ⟨_ | ⟨wait, later⟩, rfl, tail⟩ | ⟨later, rfl, tail⟩ :=
      List.append_eq_append_iff.mp split
    · cases tail
      obtain ⟨o, ends, paced⟩ := between
      rw [List.append_nil]
      exact ⟨o, ends, .inr paced⟩
    · simp only [List.cons_append, List.cons.injEq] at tail
      obtain ⟨rfl, within⟩ := tail
      obtain ⟨last, ends, paced⟩ := ih (congrArg (· + 1) number) later ms back within
      refine ⟨last, by simp [ends], paced.imp id fun ⟨retried, same⟩ => ⟨retried, ?_⟩⟩
      rw [same, outcomes_append, outcomes_waited, List.countP_append, once, Nat.add_assoc]
    · obtain ⟨rfl, tail⟩ | ⟨inside, rfl, -⟩ := List.cons_eq_append_iff.mp tail
      · cases tail
        obtain ⟨o, ends, paced⟩ := between
        rw [List.append_nil] at ends paced
        exact ⟨o, ends, .inr paced⟩
      · obtain ⟨o, ends, paced⟩ := load.paced rfl
        exact ⟨o, ends, .inl paced⟩

/-- Whether no further load can follow the last outcome: it is one that no load follows, or
it spends the attempts, or the retries of its own load. -/
def Spent (held : Outcome α → Bool) (retries attempts : Nat) (os : List (Outcome α))
    (final : Outcome α) : Prop :=
  (Transient final = true → os.countP Transient = attempts) ∧
    (held final = true → (os.reverse.takeWhile held).length = retries + 1)

theorem ReadEvents.spent (exclusive : ∀ o, held o = true → Transient o = false)
    (read : ReadEvents held retries backoffMs attempt further es final) :
    Spent held retries (further + 1) (Upstream.outcomes es) final := by
  induction read with
  | @last attempt further es o load settled =>
    obtain ⟨front, same, few, all, full⟩ := load.outcomes
    have none : front.countP Transient = 0 :=
      List.countP_eq_zero.mpr fun x member => by simp [exclusive x (all x member)]
    rw [same]
    constructor
    · intro transient
      simp [none, transient, settled transient]
    · intro isHeld
      have every : ∀ x ∈ (front ++ [o]).reverse, held x = true := by
        simpa [or_imp, forall_and, isHeld] using all
      rw [List.takeWhile_eq_self_iff.mpr every]
      simp [full isHeld]
  | @again attempt further es rest o final load transient read ih =>
    obtain ⟨front, same, few, all, full⟩ := load.outcomes
    have none : front.countP Transient = 0 :=
      List.countP_eq_zero.mpr fun x member => by simp [exclusive x (all x member)]
    have other : held o = false := by
      cases isHeld : held o with
      | false => rfl
      | true => rw [exclusive o isHeld] at transient; cases transient
    rw [outcomes_append, outcomes_waited, same]
    constructor
    · intro last
      simp [none, transient, ih.1 last, Nat.add_comm]
    · intro last
      rw [← ih.2 last, List.reverse_append, List.takeWhile_append]
      split
      case isTrue whole => simp [other, whole]
      case isFalse => rfl

end Shape

section Runs

variable {held : Outcome α → Bool} {retries : Nat} {accepts : Outcome α → Option β}
  {backoffMs : ℚ} {trace : List (Exchange T (Call.Reply α))}

theorem events_append (first rest : List (Exchange T (Call.Reply α))) :
    events (first ++ rest) = events first ++ events rest :=
  List.filterMap_append

/-- The result of a load is what its last outcome says. -/
def Judged (accepts : Outcome α → Option β) (o : Outcome α) : Except Failure β → Prop
  | .ok b => accepts o = some b ∧ Transient o = false
  | .error e => accepts o = none ∧ Koios.isTransient e = Transient o

/-- Every run of the load is one load, and goes by its last outcome. -/
def Loads (held : Outcome α → Bool) (retries : Nat) (accepts : Outcome α → Option β)
    (load : Program α β) : Prop :=
  ∀ {T : Type} (trace : List (Exchange T (Call.Reply α))) (result : Except Failure β),
    load.Runs trace result → ∃ final, LoadEvents held retries (events trace) final ∧
      Judged accepts final result

theorem readFrom_events {load : Program α β} (loads : Loads held retries accepts load)
    {attempt further : Nat} {result : Except Failure β}
    (runs : (readFrom backoffMs load attempt further).Runs trace result) :
    ∃ final, ReadEvents held retries backoffMs attempt further (events trace) final ∧
      Judged accepts final result := by
  induction further generalizing attempt trace with
  | zero =>
    obtain ⟨final, ran, judged⟩ := loads trace result runs
    exact ⟨final, .last ran fun _ => rfl, judged⟩
  | succ further ih =>
    obtain ⟨b, loaded, rfl⟩ | ⟨first, rest, e, rfl, failed, tail⟩ := Async.runs_tryCatch.mp runs
    · obtain ⟨final, ran, judged⟩ := loads trace _ loaded
      refine ⟨final, .last ran fun transient => ?_, judged⟩
      rw [judged.2] at transient
      cases transient
    · obtain ⟨o, ran, judged⟩ := loads first _ failed
      by_cases transient : Koios.isTransient e = true
      · rw [if_pos transient] at tail
        obtain ⟨t, reply, rest, rfl, again⟩ := tail
        obtain ⟨final, later, judged'⟩ := ih again
        refine ⟨final, ?_, judged'⟩
        rw [events_append]
        exact .again ran (judged.2 ▸ transient) later
      · rw [if_neg transient] at tail
        obtain ⟨rfl, rfl⟩ := tail
        rw [List.append_nil]
        exact ⟨o, .last ran fun transient' => absurd (judged.2.trans transient') transient, judged⟩

/-- The budget of a read. A load may answer a held outcome by fetching again; otherwise only
a transient outcome is followed by another fetch, never one that refuses the request. Waits
keep to their caps. The read returns the first acceptable outcome, and fails when none came
before one that ends it or spends what is left. -/
structure Budgeted (held : Outcome α → Bool) (accepts : Outcome α → Option β)
    (attempts retries : Nat) (backoffMs : ℚ) (trace : List (Exchange T (Call.Reply α)))
    (result : Except Failure β) : Prop where
  fetches : (outcomes (events trace)).length ≤ attempts * (retries + 1)
  refused : ∀ front res o back, outcomes (events trace) = front ++ .response res :: o :: back →
    400 ≤ res.status → res.status < 500 → held (.response res) = true ∧ 0 < retries
  paced : Paced held backoffMs (events trace) 0
  first : ∀ b, result = .ok b ↔ ∃ front o, outcomes (events trace) = front ++ [o] ∧
    accepts o = some b ∧ ∀ x ∈ front, accepts x = none
  fails : ∀ e, result = .error e → (∀ x ∈ outcomes (events trace), accepts x = none) ∧
    ∃ front o, outcomes (events trace) = front ++ [o] ∧
      Spent held retries attempts (outcomes (events trace)) o

/-- A response with such a status is not transient. -/
theorem not_transient_refused {res : Response α} (low : 400 ≤ res.status)
    (high : res.status < 500) : Transient (.response res) = false := by
  have notOk : res.ok = false := by
    simp only [Response.ok, Bool.and_eq_false_iff, decide_eq_false_iff_not]
    omega
  simp only [Transient, notOk, Bool.false_eq_true, if_false, decide_eq_false_iff_not]
  omega

theorem read_budgeted {load : Program α β} (loads : Loads held retries accepts load)
    (exclusive : ∀ o, held o = true → Transient o = false)
    (unaccepted : ∀ o, held o = true ∨ Transient o = true → accepts o = none) {attempts : Nat}
    (positive : 1 ≤ attempts) {result : Except Failure β}
    (runs : (read backoffMs attempts load).Runs trace result) :
    Budgeted held accepts attempts retries backoffMs trace result := by
  obtain ⟨final, ran, judged⟩ := readFrom_events loads runs
  have spent := ran.spent exclusive
  have fetches := ran.fetches
  obtain ⟨front, same, others⟩ := ran.outcomes
  have all : attempts - 1 + 1 = attempts := by omega
  rw [all] at spent fetches
  have before : ∀ x ∈ front, accepts x = none := fun x member =>
    unaccepted x ((others x member).imp And.left id)
  have split {front' : List (Outcome α)} {o : Outcome α}
      (ends : outcomes (events trace) = front' ++ [o]) : front' = front ∧ o = final := by
    obtain ⟨rfl, last⟩ := List.append_inj' (ends.symm.trans same) rfl
    exact ⟨rfl, List.singleton_inj.mp last⟩
  refine ⟨fetches, ?_, ran.paced exclusive rfl, fun b => ⟨?_, ?_⟩, ?_⟩
  · intro front' res o back followed low high
    have member : Outcome.response res ∈ front := by
      rw [same] at followed
      have shorter := congrArg List.dropLast followed
      rw [List.dropLast_concat, List.dropLast_append_of_ne_nil (by simp)] at shorter
      rw [shorter]
      simp
    obtain isHeld | transient := others _ member
    · exact isHeld
    · rw [not_transient_refused low high] at transient
      cases transient
  · rintro rfl
    exact ⟨front, final, same, judged.1, before⟩
  · rintro ⟨front', o, ends, accepted, -⟩
    obtain ⟨rfl, rfl⟩ := split ends
    cases result with
    | ok b' => exact congrArg _ (Option.some.inj (judged.1.symm.trans accepted))
    | error e =>
      rw [judged.1] at accepted
      cases accepted
  · rintro e rfl
    refine ⟨fun x member => ?_, front, final, same, spent⟩
    rw [same] at member
    obtain member | last := List.mem_append.mp member
    · exact before x member
    · rw [List.mem_singleton.mp last]
      exact judged.1

end Runs

end WalletBackend.Upstream
