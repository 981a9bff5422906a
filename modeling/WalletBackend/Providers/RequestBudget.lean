import WalletBackend.Providers.Upstream

/-! The request budget of the two clients. Both read again past a transient failure; the
Blockfrost client besides waits out a 429 within each attempt. Neither sends a transaction
twice. -/
namespace WalletBackend.Upstream
open Interaction

variable {α T : Type}

/-- What comes of a fetch, where `doFetch` may reject. -/
def received (who path : String) : Outcome α → Except Failure (Response α)
  | .timedOut => .error (.timeout s!"{who} request timed out: {path}")
  | .failed => .error (.plain s!"{who} request failed: {path}")
  | .response res => .ok res

/-- `body.slice(0, 500)` is the cause. -/
def failure (who path : String) (res : Response α) : Failure :=
  .provider s!"{who} returned {res.status} for {path}" (some res.status)
    (some (String.ofList (res.text.toList.take 500)))

/-- `readBody` and `parse`. -/
def parse (who path : String) (res : Response α) : Except Failure α :=
  match res.body with
  | .parsed value => .ok value
  | .rejected why => .error (.malformed s!"{who} {why.text} for {path}")
  | .invalid => .error (.malformed s!"{who} returned invalid json for {path}")
  | .timedOut => .error (.timeout s!"{who} response timed out: {path}")

/-- What a response without further retries comes to. -/
def answer (who path : String) (res : Response α) : Except Failure α :=
  if res.ok then parse who path res else .error (failure who path res)

namespace KoiosClient

def request (method path : String) : Program α α := do
  let outcome ← Async.ask (Call.fetch method path)
  Async.ofExcept (received "koios" path outcome >>= answer "koios" path)

/-- `get`, `getFirst` and `batch`, which differ in the method and in what they parse. -/
def readOne (backoffMs : ℚ) (attempts : Koios.ReadAttempts) (method path : String) : Program α α :=
  read backoffMs attempts.count (request method path)

def submit (path : String) : Program α α := request "POST" path

end KoiosClient

namespace BlockfrostClient

/-- JavaScript's `Number` and `Date.parse`, where they come to a finite number. -/
structure HeaderParsing where
  number : String → Option ℚ
  date : String → Option ℚ

def retryAfterMs (parsing : HeaderParsing) (res : Response α) : Option ℤ :=
  match res.retryAfter with
  | none => none
  | some raw =>
      if raw = "" then none
      else
        match parsing.number raw with
        | some seconds => some (max 0 ⌊seconds * 1000⌋)
        | none => (parsing.date raw).map fun date => max 0 ⌊date - res.now⌋

/-- A token is taken before every attempt. -/
def fetchOnce (method path : String) : Program α (Response α) := do
  Async.ask Call.acquire
  let outcome ← Async.ask (Call.fetch method path)
  Async.ofExcept (received "blockfrost" path outcome)

/-- One round trip, and a bounded retry on a 429: `remaining` retries are left. -/
def request (parsing : HeaderParsing) (backoffMs : ℚ) (method path : String) (retryOn429 : Bool)
    (attempt : Nat) : (remaining : Nat) → Program α (Response α)
  | 0 => fetchOnce method path
  | remaining + 1 => do
      let res ← fetchOnce method path
      if res.status ≠ 429 || !retryOn429 then pure res
      else
        match retryAfterMs parsing res with
        | some serverDelay =>
            if MAX_RETRY_AFTER_MS < serverDelay then pure res
            else
              Async.ask (Call.wait serverDelay)
              request parsing backoffMs method path retryOn429 (attempt + 1) remaining
        | none =>
            Async.ask (Call.wait (min (backoffMs * (attempt + 1 : ℕ)) MAX_RETRY_AFTER_MS))
            request parsing backoffMs method path retryOn429 (attempt + 1) remaining

section Reads

variable (parsing : HeaderParsing) (backoffMs : ℚ) (attempts : Koios.ReadAttempts)
  (rateLimitRetries : Nat) (path : String)

def get : Program α α :=
  read backoffMs attempts.count do
    let res ← request parsing backoffMs "GET" path true 0 rateLimitRetries
    Async.ofExcept (answer "blockfrost" path res)

/-- A 404 is a routine answer. -/
def getOrUndefined : Program α (Option α) :=
  read backoffMs attempts.count do
    let res ← request parsing backoffMs "GET" path true 0 rateLimitRetries
    if res.status = 404 then pure none
    else Async.ofExcept (some <$> answer "blockfrost" path res)

def submit : Program α α := do
  let res ← request parsing backoffMs "POST" path false 0 rateLimitRetries
  Async.ofExcept (answer "blockfrost" path res)

end Reads

end BlockfrostClient

/-- A body that parses, in a response that is fine. -/
def accepted : Outcome α → Option α
  | .response res =>
      if res.ok then
        match res.body with
        | .parsed value => some value
        | _ => none
      else none
  | _ => none

/-- The same, or a 404. -/
def acceptedOrMissing : Outcome α → Option (Option α)
  | .response res =>
      if res.status = 404 then some none else (accepted (.response res)).map some
  | _ => none

/-- A 429 that does not ask for a longer wait than a request is held for. -/
def held (parsing : BlockfrostClient.HeaderParsing) : Outcome α → Bool
  | .response res =>
      res.status = 429 &&
        (BlockfrostClient.retryAfterMs parsing res).all fun ms => (ms : ℚ) ≤ MAX_RETRY_AFTER_MS
  | _ => false

theorem judged_answer (who path : String) (res : Response α) :
    Judged accepted (.response res) (answer who path res) := by
  cases ok : res.ok with
  | false => simp [answer, ok, Judged, accepted, Transient, failure, Koios.isTransient]
  | true =>
    cases body : res.body <;>
      simp [answer, ok, parse, body, Judged, accepted, Transient, Koios.isTransient]

/-- What `received` and a judgement of the response make of an outcome is judged. -/
theorem judged_received {β : Type} {accepts : Outcome α → Option β} (who path : String)
    {finish : Response α → Except Failure β} (unreceived : ∀ o, (∀ res, o ≠ .response res) →
      accepts o = none) (judged : ∀ res, Judged accepts (.response res) (finish res))
    (o : Outcome α) : Judged accepts o (received who path o >>= finish) := by
  cases o with
  | timedOut => exact ⟨unreceived _ (by simp), rfl⟩
  | failed => exact ⟨unreceived _ (by simp), rfl⟩
  | response res => exact judged res

theorem koios_loads (method path : String) :
    Loads (fun _ => false) 0 accepted (KoiosClient.request (α := α) method path) := by
  rintro T trace result ⟨t, o, rest, rfl, rfl, rfl⟩
  refine ⟨o, .last nofun, judged_received "koios" path ?_ (judged_answer "koios" path) o⟩
  rintro (_ | _ | res) other
  · rfl
  · rfl
  · exact absurd rfl (other res)

section Blockfrost

variable {parsing : BlockfrostClient.HeaderParsing} {backoffMs : ℚ} {method path : String}
  {trace : List (Exchange T (Call.Reply α))}

theorem fetchOnce_events {result : Except Failure (Response α)}
    (runs : (BlockfrostClient.fetchOnce method path).Runs trace result) :
    ∃ o, events trace = [.fetched o] ∧ result = received "blockfrost" path o := by
  obtain ⟨t, _, _, rfl, t', o, _, rfl, rfl, rfl⟩ := runs
  exact ⟨o, rfl, rfl⟩

theorem held_of_not_response {o : Outcome α} (other : ∀ res, o ≠ .response res) :
    held parsing o = false := by
  cases o with
  | response res => exact absurd rfl (other res)
  | _ => rfl

/-- A read's request fetches again while the outcome is held, up to its retries. -/
theorem request_events {attempt remaining : Nat} {result : Except Failure (Response α)}
    (runs : (BlockfrostClient.request parsing backoffMs method path true attempt remaining).Runs
      trace result) :
    ∃ o, LoadEvents (held parsing) remaining (events trace) o ∧
      result = received "blockfrost" path o := by
  induction remaining generalizing attempt trace with
  | zero =>
    obtain ⟨o, once, same⟩ := fetchOnce_events runs
    exact ⟨o, once ▸ .last fun _ => rfl, same⟩
  | succ remaining ih =>
    obtain ⟨first, rest, res, rfl, fetched, tail⟩ | ⟨e, fetched, rfl⟩ := Async.runs_bind.mp runs
    · obtain ⟨o, once, same⟩ := fetchOnce_events fetched
      obtain rfl : o = .response res := by
        cases o <;> cases same
        rfl
      have again (isHeld : held parsing (.response res) = true) {ms : ℚ}
          (short : ms ≤ MAX_RETRY_AFTER_MS) (waited : (do
            Async.ask (Call.wait ms)
            BlockfrostClient.request parsing backoffMs method path true (attempt + 1) remaining :
              Program α (Response α)).Runs rest result) :
          ∃ o, LoadEvents (held parsing) (remaining + 1) (events (first ++ rest)) o ∧
            result = received "blockfrost" path o := by
        obtain ⟨t, _, later, rfl, later⟩ := waited
        obtain ⟨o, load, same⟩ := ih later
        refine ⟨o, ?_, same⟩
        rw [events_append, once]
        exact .again isHeld short load
      have settled (other : held parsing (.response res) = false) (returned : rest = [] ∧
          (.ok res : Except Failure (Response α)) = result) :
          ∃ o, LoadEvents (held parsing) (remaining + 1) (events (first ++ rest)) o ∧
            result = received "blockfrost" path o := by
        obtain ⟨rfl, rfl⟩ := returned
        refine ⟨.response res, ?_, rfl⟩
        rw [List.append_nil, once]
        exact .last fun isHeld => absurd isHeld (by simp [other])
      by_cases limited : res.status = 429
      · simp only [limited, ne_eq, not_true_eq_false, decide_false, Bool.not_true, Bool.or_self,
          Bool.false_eq_true, if_false] at tail
        cases delay : BlockfrostClient.retryAfterMs parsing res with
        | none =>
          simp only [delay] at tail
          exact again (by simp [held, limited, delay]) (min_le_right _ _) tail
        | some serverDelay =>
          simp only [delay] at tail
          by_cases long : MAX_RETRY_AFTER_MS < (serverDelay : ℚ)
          · rw [if_pos long] at tail
            exact settled (by simp [held, limited, delay, long]) tail
          · rw [if_neg long] at tail
            exact again (by simp [held, limited, delay, not_lt.mp long]) (not_lt.mp long) tail
      · simp only [limited, ne_eq, not_false_eq_true, decide_true, Bool.true_or, if_true] at tail
        exact settled (by simp [held, limited]) tail
    · obtain ⟨o, once, same⟩ := fetchOnce_events fetched
      have other : ∀ res, o ≠ .response res := by
        rintro res rfl
        cases same
      exact ⟨o, once ▸ .last fun isHeld => absurd isHeld (by simp [held_of_not_response other]), same⟩

/-- A load that goes by what its request comes to. -/
theorem request_loads {β : Type} {accepts : Outcome α → Option β} {retries : Nat}
    (finish : Response α → Except Failure β) {next : Response α → Program α β}
    (settles : ∀ res, next res = Async.ofExcept (finish res))
    (unreceived : ∀ o, (∀ res, o ≠ .response res) → accepts o = none)
    (judged : ∀ res, Judged accepts (.response res) (finish res)) :
    Loads (held parsing) retries accepts
      (BlockfrostClient.request parsing backoffMs method path true 0 retries >>= next) := by
  intro T trace result runs
  obtain ⟨first, rest, res, rfl, requested, tail⟩ | ⟨e, requested, rfl⟩ := Async.runs_bind.mp runs
  · obtain ⟨o, load, same⟩ := request_events requested
    rw [settles] at tail
    obtain ⟨rfl, rfl⟩ := tail
    obtain rfl : o = .response res := by
      cases o <;> cases same
      rfl
    rw [List.append_nil]
    exact ⟨_, load, judged res⟩
  · obtain ⟨o, load, same⟩ := request_events requested
    refine ⟨o, load, ?_⟩
    have verdict := judged_received "blockfrost" path unreceived judged o
    rw [← same] at verdict
    exact verdict

theorem get_loads {retries : Nat} : Loads (held parsing) retries (accepted (α := α)) (do
    let res ← BlockfrostClient.request parsing backoffMs "GET" path true 0 retries
    Async.ofExcept (answer "blockfrost" path res)) := by
  refine request_loads (answer "blockfrost" path) (fun _ => rfl) ?_
    (judged_answer "blockfrost" path)
  rintro (_ | _ | res) other
  · rfl
  · rfl
  · exact absurd rfl (other res)

/-- What `getOrUndefined` makes of a response. -/
def answerOrMissing (path : String) (res : Response α) : Except Failure (Option α) :=
  if res.status = 404 then .ok none else some <$> answer "blockfrost" path res

theorem judged_missing (path : String) (res : Response α) :
    Judged acceptedOrMissing (.response res) (answerOrMissing path res) := by
  by_cases missing : res.status = 404
  · have refused : Transient (.response res) = false := by
      apply not_transient_refused <;> omega
    simp only [answerOrMissing, missing, if_true]
    exact ⟨by simp [acceptedOrMissing, missing], refused⟩
  · have verdict := judged_answer "blockfrost" path res
    simp only [answerOrMissing, missing, if_false]
    cases same : answer "blockfrost" path res with
    | ok value =>
      rw [same] at verdict
      exact ⟨by simp [acceptedOrMissing, missing, verdict.1], verdict.2⟩
    | error e =>
      rw [same] at verdict
      exact ⟨by simp [acceptedOrMissing, missing, verdict.1], verdict.2⟩

theorem getOrUndefined_loads {retries : Nat} :
    Loads (held parsing) retries (acceptedOrMissing (α := α)) (do
      let res ← BlockfrostClient.request parsing backoffMs "GET" path true 0 retries
      if res.status = 404 then pure none
      else Async.ofExcept (some <$> answer "blockfrost" path res)) := by
  refine request_loads (answerOrMissing path) (fun res => ?_) ?_ (judged_missing path)
  · unfold answerOrMissing
    split <;> rfl
  · rintro (_ | _ | res) other
    · rfl
    · rfl
    · exact absurd rfl (other res)

theorem held_exclusive (o : Outcome α) (isHeld : held parsing o = true) : Transient o = false := by
  cases o with
  | response res =>
    have limited : res.status = 429 := by simp_all [held]
    apply not_transient_refused <;> omega
  | _ => cases isHeld

theorem held_unaccepted (o : Outcome α) (isHeld : held parsing o = true) :
    accepted o = none ∧ acceptedOrMissing o = none := by
  cases o with
  | response res =>
    have limited : res.status = 429 := by simp_all [held]
    simp [accepted, acceptedOrMissing, Response.ok, limited]
  | _ => cases isHeld

/-- A request that is not a read fetches once, whatever comes back. -/
theorem request_once {attempt remaining : Nat} {result : Except Failure (Response α)}
    (runs : (BlockfrostClient.request parsing backoffMs method path false attempt remaining).Runs
      trace result) : ∃ o, events trace = [.fetched o] := by
  cases remaining with
  | zero =>
    obtain ⟨o, once, -⟩ := fetchOnce_events runs
    exact ⟨o, once⟩
  | succ remaining =>
    obtain ⟨first, rest, res, rfl, fetched, tail⟩ | ⟨e, fetched, rfl⟩ := Async.runs_bind.mp runs
    · obtain ⟨o, once, -⟩ := fetchOnce_events fetched
      simp only [Bool.not_false, Bool.or_true, if_true] at tail
      obtain ⟨rfl, -⟩ := tail
      exact ⟨o, by rw [List.append_nil, once]⟩
    · obtain ⟨o, once, -⟩ := fetchOnce_events fetched
      exact ⟨o, once⟩

end Blockfrost

theorem transient_unaccepted (o : Outcome α) (transient : Transient o = true) :
    accepted o = none ∧ acceptedOrMissing o = none := by
  cases o with
  | response res =>
    cases ok : res.ok with
    | false =>
      have other : res.status ≠ 404 := by
        intro missing
        rw [not_transient_refused (by omega) (by omega)] at transient
        cases transient
      simp [accepted, acceptedOrMissing, ok, other]
    | true =>
      have other : res.status ≠ 404 := by
        intro missing
        simp [Response.ok, missing] at ok
      cases body : res.body <;> simp_all [accepted, acceptedOrMissing, Transient]
  | _ => exact ⟨rfl, rfl⟩

/-- The budget of both clients. A Koios read makes at most `attempts` fetches, a Blockfrost
read at most that often one and its retries on 429; a submission makes exactly one. -/
theorem request_budget (backoffMs : ℚ) (attempts : Koios.ReadAttempts) (rateLimitRetries : Nat)
    (parsing : BlockfrostClient.HeaderParsing) (path : String)
    (trace : List (Exchange T (Call.Reply α))) :
    (∀ method result, (KoiosClient.readOne backoffMs attempts method path).Runs trace result →
      Budgeted (fun _ => false) accepted attempts.count 0 backoffMs trace result) ∧
    (∀ result, (BlockfrostClient.get parsing backoffMs attempts rateLimitRetries path).Runs trace
        result →
      Budgeted (held parsing) accepted attempts.count rateLimitRetries backoffMs trace result) ∧
    (∀ result, (BlockfrostClient.getOrUndefined parsing backoffMs attempts rateLimitRetries path).Runs
        trace result →
      Budgeted (held parsing) acceptedOrMissing attempts.count rateLimitRetries backoffMs trace
        result) ∧
    (∀ result, (KoiosClient.submit path).Runs trace result → ∃ o, events trace = [.fetched o]) ∧
    ∀ result, (BlockfrostClient.submit parsing backoffMs rateLimitRetries path).Runs trace result →
      ∃ o, events trace = [.fetched o] := by
  refine ⟨fun method result runs => ?_, fun result runs => ?_, fun result runs => ?_,
    fun result runs => ?_, fun result runs => ?_⟩
  · exact read_budgeted (koios_loads method path) nofun
      (fun o => Or.rec nofun fun transient => (transient_unaccepted o transient).1)
      attempts.positive runs
  · exact read_budgeted get_loads held_exclusive
      (fun o => Or.rec (fun isHeld => (held_unaccepted o isHeld).1) fun transient =>
        (transient_unaccepted o transient).1) attempts.positive runs
  · exact read_budgeted getOrUndefined_loads held_exclusive
      (fun o => Or.rec (fun isHeld => (held_unaccepted o isHeld).2) fun transient =>
        (transient_unaccepted o transient).2) attempts.positive runs
  · obtain ⟨t, o, rest, rfl, rfl, -⟩ := runs
    exact ⟨o, rfl⟩
  · obtain ⟨first, rest, res, rfl, requested, rfl, -⟩ | ⟨e, requested, -⟩ := Async.runs_bind.mp runs
    · rw [List.append_nil]
      exact request_once requested
    · exact request_once requested

def fine (value : Nat) : Response Nat := ⟨200, none, 0, "", .parsed value⟩

def unwell (status : Nat) : Response Nat := ⟨status, none, 0, "", .invalid⟩

/-- A 503, the backoff and an answer. -/
def recovered : List (Exchange Unit (Call.Reply Nat)) :=
  [⟨(), .fetch "GET" "/tip", .response (unwell 503)⟩, ⟨(), .wait (150 * (1 : ℕ)), ()⟩,
    ⟨(), .fetch "GET" "/tip", .response (fine 7)⟩]

/-- A 429 that names no wait, the backoff and an answer. -/
def throttled : List (Exchange Unit (Call.Reply Nat)) :=
  [⟨(), .acquire, ()⟩, ⟨(), .fetch "GET" "/tip", .response (unwell 429)⟩,
    ⟨(), .wait (min (150 * (0 + 1 : ℕ)) MAX_RETRY_AFTER_MS), ()⟩, ⟨(), .acquire, ()⟩,
    ⟨(), .fetch "GET" "/tip", .response (fine 7)⟩]

def missing : List (Exchange Unit (Call.Reply Nat)) :=
  [⟨(), .acquire, ()⟩, ⟨(), .fetch "GET" "/tip", .response (unwell 404)⟩]

def noHeaders : BlockfrostClient.HeaderParsing := ⟨fun _ => none, fun _ => none⟩

/-- Reads that recover, a read of nothing and two submissions that fail. -/
theorem recovered_within_budget :
    Budgeted (fun _ => false) accepted 2 0 150 recovered (.ok 7) ∧
      Budgeted (held noHeaders) accepted 2 1 150 throttled (.ok 7) ∧
      Budgeted (held noHeaders) acceptedOrMissing 2 1 150 missing (.ok none) ∧
      (∃ o, events [(⟨(), .fetch "POST" "/tip", .failed⟩ : Exchange Unit (Call.Reply Nat))] =
        [.fetched o]) ∧
      ∃ o, events [⟨(), .acquire, ()⟩,
        (⟨(), .fetch "POST" "/tip", .failed⟩ : Exchange Unit (Call.Reply Nat))] = [.fetched o] := by
  have budget := @request_budget Nat Unit 150 .twice 1 noHeaders "/tip"
  refine ⟨?_, ?_, ?_, ?_, ?_⟩
  · refine (budget recovered).1 "GET" _ (Async.runs_tryCatch.mpr (.inr ?_))
    exact ⟨[_], [_, _], .provider "koios returned 503 for /tip" (some 503) (some ""), rfl,
      ⟨(), _, [], rfl, rfl, by decide⟩, (), (), [_], rfl, (), _, [], rfl, rfl, rfl⟩
  · refine (budget throttled).2.1 _ (Async.runs_tryCatch.mpr (.inl ⟨7, ?_, rfl⟩))
    refine Async.runs_bind_ok.mpr ⟨throttled, [], fine 7, rfl, ?_, rfl, rfl⟩
    exact ⟨(), (), _, rfl, (), _, _, rfl, (), (), _, rfl, (), (), _, rfl, (), _, [], rfl, rfl, rfl⟩
  · refine (budget missing).2.2.1 _ (Async.runs_tryCatch.mpr (.inl ⟨none, ?_, rfl⟩))
    refine Async.runs_bind_ok.mpr ⟨missing, [], unwell 404, rfl, ?_, rfl, rfl⟩
    exact ⟨(), (), _, rfl, (), _, [], rfl, rfl, rfl⟩
  · exact (budget _).2.2.2.1 _ ⟨(), _, [], rfl, rfl, rfl⟩
  · exact (budget _).2.2.2.2 _ (Async.runs_bind.mpr (.inr ⟨_, ⟨(), (), _, rfl, (), _, [], rfl, rfl, rfl⟩, rfl⟩))

end WalletBackend.Upstream
