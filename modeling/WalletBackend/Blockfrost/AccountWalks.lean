import WalletBackend.Blockfrost.UtxoReads
import WalletBackend.Blockfrost.AccountLists
import WalletBackend.Library.Requests

/-! What the account walks make of a 404. The upstream answers 404 for an account it has
never seen, so on the first page; on a later page, after rows, it comes from a rollback or
from an instance that disagrees, and no walk may then pass what it has read off as the
whole, or as nothing. -/
namespace WalletBackend.Blockfrost.Account
open Interaction

variable {T : Type} {Row α : Type}

/-- How an exchange is read as one page of a list: its number, and its rows or a 404. -/
abbrev PageView (T Row : Type) := Exchange T Endpoint.Answer → Option (Nat × Option (List Row))

def addressPages (stakeAddress : String) : PageView T AccountAddressRow
  | ⟨_, .accountAddresses stake page, .ok answer⟩ =>
      if stake = stakeAddress then some (page, answer) else none
  | _ => none

def rewardPages (stakeAddress : String) : PageView T RewardRow
  | ⟨_, .accountRewards stake page, .ok answer⟩ =>
      if stake = stakeAddress then some (page, answer) else none
  | _ => none

def utxoPages (stakeAddress : String) : PageView T (UtxoRow String)
  | ⟨_, .utxos (.account stake) page, .ok answer⟩ =>
      if stake = stakeAddress then some (page, answer) else none
  | _ => none

/-- The rows of the list that were read, in order. -/
def rowsRead (view : PageView T Row) (trace : List (Exchange T Endpoint.Answer)) : List Row :=
  trace.flatMap fun y => ((view y).bind Prod.snd).getD []

/-- A page was missing after rows had been read. -/
def Interrupted (view : PageView T Row) (trace : List (Exchange T Endpoint.Answer)) : Prop :=
  ∃ front y back page, trace = front ++ y :: back ∧ rowsRead view front ≠ [] ∧
    view y = some (page, none)

/-- An interrupted walk fails or accounts for every row that was read. -/
def NeverTruncates (view : PageView T Row) (accounts : List Row → α → Prop)
    (trace : List (Exchange T Endpoint.Answer)) (outcome : Except Failure α) : Prop :=
  Interrupted view trace →
    (∃ e, outcome = .error e) ∨ ∃ result, outcome = .ok result ∧ accounts (rowsRead view trace) result

/-- Only the first page is missing, or the one asked for after the last permitted page. -/
def OnlyEnds (view : PageView T Row) (maxPages : Nat) (trace : List (Exchange T Endpoint.Answer)) :
    Prop :=
  ∀ y ∈ trace, ∀ page, view y = some (page, none) → page = 1 ∨ page = maxPages + 1

/-- `page` asks for one page, and the view reads the answer. -/
structure Views (view : PageView T Row) (page : Nat → Read (Option (List Row))) : Prop where
  ok : ∀ {number trace answer}, (page number).Runs trace (.ok answer) →
    ∃ y, trace = [y] ∧ view y = some (number, answer)
  error : ∀ {number trace e}, (page number).Runs trace (.error e) → ∃ y, trace = [y] ∧ view y = none

theorem getOrUndefined_error {endpoint : Endpoint} {trace : List (Exchange T Endpoint.Answer)}
    {e : Failure} (runs : (getOrUndefined endpoint).Runs trace (.error e)) :
    ∃ t, trace = [⟨t, endpoint, .error e⟩] := by
  obtain ⟨t, answer, rest, rfl, rfl, rfl⟩ := runs
  exact ⟨t, rfl⟩

theorem addressPages_views (stakeAddress : String) :
    Views (addressPages (T := T) stakeAddress)
      fun page => getOrUndefined (.accountAddresses stakeAddress page) := by
  constructor
  · intro number trace answer runs
    obtain ⟨t, rfl⟩ := runs_getOrUndefined.mp runs
    exact ⟨_, rfl, if_pos rfl⟩
  · intro number trace e runs
    obtain ⟨t, rfl⟩ := getOrUndefined_error runs
    exact ⟨_, rfl, rfl⟩

theorem rewardPages_views (stakeAddress : String) :
    Views (rewardPages (T := T) stakeAddress)
      fun page => getOrUndefined (.accountRewards stakeAddress page) := by
  constructor
  · intro number trace answer runs
    obtain ⟨t, rfl⟩ := runs_getOrUndefined.mp runs
    exact ⟨_, rfl, if_pos rfl⟩
  · intro number trace e runs
    obtain ⟨t, rfl⟩ := getOrUndefined_error runs
    exact ⟨_, rfl, rfl⟩

theorem utxoPages_views (stakeAddress : String) :
    Views (utxoPages (T := T) stakeAddress)
      fun page => getOrUndefined (.utxos (.account stakeAddress) page) := by
  constructor
  · intro number trace answer runs
    obtain ⟨t, rfl⟩ := runs_getOrUndefined.mp runs
    exact ⟨_, rfl, if_pos rfl⟩
  · intro number trace e runs
    obtain ⟨t, rfl⟩ := getOrUndefined_error runs
    exact ⟨_, rfl, rfl⟩

section Walk

variable {view : PageView T Row} {trace : List (Exchange T Endpoint.Answer)}

@[simp] theorem rowsRead_nil : rowsRead view [] = [] := rfl

@[simp] theorem rowsRead_append (first rest : List (Exchange T Endpoint.Answer)) :
    rowsRead view (first ++ rest) = rowsRead view first ++ rowsRead view rest :=
  List.flatMap_append

theorem rowsRead_cons {y : Exchange T Endpoint.Answer} {number : Nat} {rows : List Row}
    (read : view y = some (number, some rows)) (rest : List (Exchange T Endpoint.Answer)) :
    rowsRead view (y :: rest) = rows ++ rowsRead view rest := by
  simp [rowsRead, read]

theorem rowsRead_missing {y : Exchange T Endpoint.Answer} {number : Nat}
    (missing : view y = some (number, none)) (rest : List (Exchange T Endpoint.Answer)) :
    rowsRead view (y :: rest) = rowsRead view rest := by
  simp [rowsRead, missing]

theorem rowsRead_other (other : ∀ y ∈ trace, view y = none) : rowsRead view trace = [] := by
  simpa [rowsRead] using fun y member => by simp [other y member]

/-- How a walk from page `number` on ends, and what its trace then shows. -/
inductive WalkEnd (view : PageView T Row) (remaining number : Nat) (rows : List Row) :
    List (Exchange T Endpoint.Answer) → Except Failure (List Row) → Prop where
  | failed {trace : List (Exchange T Endpoint.Answer)} {e : Failure}
      (found : ∀ y ∈ trace, ∀ k, view y ≠ some (k, none)) :
      WalkEnd view remaining number rows trace (.error e)
  | complete {trace : List (Exchange T Endpoint.Answer)} {result : List Row}
      (all : result = rows ++ rowsRead view trace)
      (found : ∀ y ∈ trace, ∀ k, view y = some (k, none) → k = number + remaining) :
      WalkEnd view remaining number rows trace (.ok result)
  | missing {front : List (Exchange T Endpoint.Answer)} {y : Exchange T Endpoint.Answer}
      (missing : view y = some (number + front.length, none)) (within : front.length < remaining)
      (full : LIST_PAGE_SIZE * front.length ≤ (rowsRead view front).length) :
      WalkEnd view remaining number rows (front ++ [y]) (.ok [])

theorem WalkEnd.next {remaining number : Nat} {rows pageRows : List Row}
    {y : Exchange T Endpoint.Answer} {outcome : Except Failure (List Row)}
    (read : view y = some (number, some pageRows)) (full : LIST_PAGE_SIZE ≤ pageRows.length)
    (ends : WalkEnd view remaining (number + 1) (rows ++ pageRows) trace outcome) :
    WalkEnd view (remaining + 1) number rows (y :: trace) outcome := by
  cases ends with
  | failed found => exact .failed (by simpa [read] using found)
  | complete all found =>
    refine .complete (by rw [all, rowsRead_cons read, List.append_assoc]) fun z member k gone => ?_
    obtain rfl | member := List.mem_cons.mp member
    · simp [read] at gone
    · exact (found z member k gone).trans (by omega)
  | @missing front z missing within full' =>
    refine @WalkEnd.missing T Row view _ number rows (y :: front) z ?_ (Nat.succ_lt_succ within) ?_
    · rw [missing, List.length_cons]
      congr 2
      omega
    · rw [rowsRead_cons read, List.length_append, List.length_cons, Nat.mul_succ]
      omega

theorem walkPages_ends {page : Nat → Read (Option (List Row))} (views : Views view page)
    {exceeded : Failure} {remaining number : Nat} {rows : List Row}
    {outcome : Except Failure (List Row)}
    (runs : (walkPages page exceeded remaining number rows).Runs trace outcome) :
    WalkEnd view remaining number rows trace outcome := by
  induction remaining generalizing number rows trace with
  | zero =>
    obtain ⟨first, rest, answer, rfl, asked, tail⟩ | ⟨e, asked, rfl⟩ := Async.runs_bind.mp runs
    · obtain ⟨y, rfl, read⟩ := views.ok asked
      cases answer with
      | none =>
        obtain ⟨rfl, rfl⟩ := tail
        exact .complete (by simp [rowsRead_missing read]) (by simp [read])
      | some probe =>
        by_cases empty : probe.length = 0
        · simp only [empty, if_true] at tail
          obtain ⟨rfl, rfl⟩ := tail
          obtain rfl := List.length_eq_zero_iff.mp empty
          exact .complete (by simp [rowsRead_cons read]) (by simp [read])
        · simp only [empty, if_false] at tail
          obtain ⟨rfl, rfl⟩ := tail
          exact .failed (by simp [read])
    · obtain ⟨y, rfl, unread⟩ := views.error asked
      exact .failed (by simp [unread])
  | succ remaining ih =>
    obtain ⟨first, rest, answer, rfl, asked, tail⟩ | ⟨e, asked, rfl⟩ := Async.runs_bind.mp runs
    · obtain ⟨y, rfl, read⟩ := views.ok asked
      cases answer with
      | none =>
        obtain ⟨rfl, rfl⟩ := tail
        exact @WalkEnd.missing T Row view _ number rows [] y read (Nat.succ_pos _) (Nat.zero_le _)
      | some pageRows =>
        by_cases short : pageRows.length < LIST_PAGE_SIZE
        · simp only [short, if_true] at tail
          obtain ⟨rfl, rfl⟩ := tail
          exact .complete (by simp [rowsRead_cons read]) (by simp [read])
        · simp only [short, if_false] at tail
          exact (ih tail).next read (Nat.le_of_not_lt short)
    · obtain ⟨y, rfl, unread⟩ := views.error asked
      exact .failed (by simp [unread])

/-- A walk that ended on a missing page was interrupted unless that was the first. -/
theorem interrupted_missing {front : List (Exchange T Endpoint.Answer)}
    {y : Exchange T Endpoint.Answer} {number : Nat} (missing : view y = some (number, none))
    (full : LIST_PAGE_SIZE * front.length ≤ (rowsRead view front).length) :
    Interrupted view (front ++ [y]) ↔ front ≠ [] := by
  constructor
  · rintro ⟨before, z, back, k, split, some, -⟩ rfl
    obtain ⟨rfl, -⟩ := List.append_eq_singleton_iff.mp split.symm |>.resolve_right (by simp)
    exact some rfl
  · intro later
    refine ⟨front, y, [], number, rfl, ?_, missing⟩
    rw [← List.length_pos_iff] at later ⊢
    simp only [LIST_PAGE_SIZE] at full
    omega

/-- A walk in which only an end was missing fails or has all the rows read. -/
theorem WalkEnd.whole {maxPages : Nat} {outcome : Except Failure (List Row)}
    (ends : WalkEnd view maxPages 1 [] trace outcome) (only : OnlyEnds view maxPages trace) :
    (∃ e, outcome = .error e) ∨ outcome = .ok (rowsRead view trace) := by
  cases ends with
  | failed _ => exact .inl ⟨_, rfl⟩
  | complete all _ => exact .inr (congrArg _ all)
  | @missing front y missing within full =>
    have first : front = [] := by
      have page := only y (by simp) _ missing
      rw [← List.length_eq_zero_iff]
      omega
    subst first
    exact .inr (by simp [rowsRead_missing missing])

/-- A walk in which another page was missing was interrupted, and has nothing. -/
theorem WalkEnd.broken {maxPages : Nat} {outcome : Except Failure (List Row)}
    (ends : WalkEnd view maxPages 1 [] trace outcome) (other : ¬ OnlyEnds view maxPages trace) :
    Interrupted view trace ∧ outcome = .ok [] ∧ rowsRead view trace ≠ [] := by
  cases ends with
  | failed found => exact absurd (fun y member k gone => absurd gone (found y member k)) other
  | complete all found =>
    refine absurd (fun y member k gone => .inr ?_) other
    rw [found y member k gone, Nat.add_comm]
  | @missing front y missing within full =>
    have later : front ≠ [] := by
      rintro rfl
      refine other fun z member k gone => .inl ?_
      obtain rfl := List.mem_singleton.mp member
      rw [missing] at gone
      cases gone
      rfl
    have interrupted := (interrupted_missing missing full).mpr later
    refine ⟨interrupted, rfl, ?_⟩
    rw [← List.length_pos_iff] at later
    simp only [LIST_PAGE_SIZE] at full
    rw [rowsRead_append, Ne, List.append_eq_nil_iff, ← List.length_eq_zero_iff]
    omega

end Walk

/-- Every address read is there. -/
def AllAddresses (rows : List AccountAddressRow) (addresses : List String) : Prop :=
  addresses = rows.map AccountAddressRow.address

/-- The history is the one of every address read. -/
def WholeHistory (afterBlock : Option Nat) (trace : List (Exchange T Endpoint.Answer))
    (rows : List AccountAddressRow) (history : List WalletTransaction) : Prop :=
  ∃ walk rest, trace = walk ++ rest ∧
    (addressSetTxHistory (rows.map AccountAddressRow.address) afterBlock ADDRESS_FANOUT
      HYDRATE_FANOUT).Runs rest (.ok history)

/-- Every reward read that is past the cursor is there. -/
def AllRewards (afterEpoch : Option Nat) (rows : List RewardRow) (rewards : List AccountReward) :
    Prop :=
  rewards.Perm ((rows.filter (past afterEpoch)).map rewardOf)

variable {stakeAddress : String} {trace : List (Exchange T Endpoint.Answer)}

/-- The run of an operation that ends in a walk is the run of the walk. -/
theorem runs_walk_pure {walk : Read α} {β : Type} {finish : α → β} {outcome : Except Failure β}
    (runs : (walk >>= fun rows => pure (finish rows)).Runs trace outcome) :
    ∃ result, walk.Runs trace result ∧ outcome = finish <$> result := by
  obtain ⟨first, rest, a, rfl, ran, rfl, rfl⟩ | ⟨e, ran, rfl⟩ := Async.runs_bind.mp runs
  · exact ⟨.ok a, by simpa using ran, rfl⟩
  · exact ⟨.error e, ran, rfl⟩

theorem enumerateAccountAddresses_ends {outcome : Except Failure (List String)}
    (runs : (enumerateAccountAddresses stakeAddress).Runs trace outcome) :
    ∃ result, WalkEnd (addressPages stakeAddress) ADDRESS_MAX_PAGES 1 [] trace result ∧
      outcome = List.map AccountAddressRow.address <$> result := by
  obtain ⟨result, ran, same⟩ := runs_walk_pure runs
  exact ⟨result, walkPages_ends (addressPages_views stakeAddress) ran, same⟩

theorem enumerateAccountAddresses_iff {outcome : Except Failure (List String)}
    (runs : (enumerateAccountAddresses stakeAddress).Runs trace outcome) :
    NeverTruncates (addressPages stakeAddress) AllAddresses trace outcome ↔
      OnlyEnds (addressPages stakeAddress) ADDRESS_MAX_PAGES trace := by
  obtain ⟨result, ends, rfl⟩ := enumerateAccountAddresses_ends runs
  constructor
  · intro safe
    by_contra other
    obtain ⟨interrupted, rfl, some⟩ := ends.broken other
    obtain ⟨_, failed⟩ | ⟨_, same, all⟩ := safe interrupted
    · cases failed
    · cases same
      exact some (List.map_eq_nil_iff.mp all.symm)
  · intro only _
    obtain ⟨e, rfl⟩ | rfl := ends.whole only
    · exact .inl ⟨e, rfl⟩
    · exact .inr ⟨_, rfl, rfl⟩

theorem getRewardHistory_iff {afterEpoch : Option Nat} {outcome : Except Failure (List AccountReward)}
    (runs : (getRewardHistory stakeAddress afterEpoch).Runs trace outcome) :
    NeverTruncates (rewardPages stakeAddress) (AllRewards afterEpoch) trace outcome ↔
      OnlyEnds (rewardPages stakeAddress) REWARD_MAX_PAGES trace ∨
        ∀ row ∈ rowsRead (rewardPages stakeAddress) trace, past afterEpoch row = false := by
  obtain ⟨result, ran, rfl⟩ := runs_walk_pure runs
  have ends := walkPages_ends (rewardPages_views stakeAddress) ran
  have whole (only : OnlyEnds (rewardPages stakeAddress) REWARD_MAX_PAGES trace) :
      NeverTruncates (rewardPages stakeAddress) (AllRewards afterEpoch) trace
        (rewardsPast afterEpoch <$> result) := by
    intro _
    obtain ⟨e, rfl⟩ | rfl := ends.whole only
    · exact .inl ⟨e, rfl⟩
    · exact .inr ⟨_, rfl, (List.perm_insertionSort _ _).map _⟩
  constructor
  · intro safe
    by_contra other
    obtain ⟨other, later⟩ := not_or.mp other
    obtain ⟨interrupted, rfl, -⟩ := ends.broken other
    obtain ⟨_, failed⟩ | ⟨_, same, all⟩ := safe interrupted
    · cases failed
    · cases same
      have none := List.map_eq_nil_iff.mp (List.nil_perm.mp all)
      exact later (by simpa using List.filter_eq_nil_iff.mp none)
  · rintro (only | none)
    · exact whole only
    · by_cases only : OnlyEnds (rewardPages stakeAddress) REWARD_MAX_PAGES trace
      · exact whole only
      · intro _
        obtain ⟨-, rfl, -⟩ := ends.broken only
        refine .inr ⟨_, rfl, ?_⟩
        rw [AllRewards, List.filter_eq_nil_iff.mpr (by simpa using none)]
        exact .refl _

/-- A page of an account's addresses is not asked for. -/
def NoAddressPage : Endpoint → Prop
  | .accountAddresses .. => False
  | _ => True

/-- A page of an account's unspent outputs is not asked for. -/
def NoUtxoPage : Endpoint → Prop
  | .utxos .. => False
  | _ => True

theorem addressPages_other {y : Exchange T Endpoint.Answer} (none : NoAddressPage y.request) :
    addressPages stakeAddress y = Option.none := by
  obtain ⟨t, endpoint, answer⟩ := y
  cases endpoint <;> first | rfl | exact none.elim

theorem utxoPages_other {y : Exchange T Endpoint.Answer} (none : NoUtxoPage y.request) :
    utxoPages stakeAddress y = Option.none := by
  obtain ⟨t, endpoint, answer⟩ := y
  cases endpoint <;> first | rfl | exact none.elim

section Asks

variable {P : Endpoint → Prop}

theorem asks_getOrUndefined {endpoint : Endpoint} (asked : P endpoint) :
    (getOrUndefined endpoint).Asks P := ⟨asked, fun _ => trivial⟩

theorem asks_get {endpoint : Endpoint} {path : String} (asked : P endpoint) :
    (get endpoint path).Asks P := by
  refine Async.asks_bind (asks_getOrUndefined asked) fun row => ?_
  cases row <;> trivial

theorem asks_fetchCertificates {hash : String} {tx : TxContentRow} (stakes : P (.txStakes hash))
    (certs : ∀ resource, P (.txCerts hash resource)) : (fetchCertificates hash tx).Asks P := by
  have index (resource : CertResource) : (indexCerts hash resource).Asks P :=
    Async.asks_bind (asks_get (certs resource)) fun _ => trivial
  have stake : (stakeCerts hash).Asks P := Async.asks_bind (asks_get stakes) fun _ => trivial
  refine Async.asks_bind (asks_promiseAll fun call member => ?_) fun _ => trivial
  simp only [certRequests, List.mem_append] at member
  obtain (((member | member) | member) | member) | member := member <;> split at member
  all_goals simp only [List.mem_singleton, List.not_mem_nil] at member
  · exact member ▸ stake
  all_goals exact member ▸ index _

theorem asks_hydrateOne {hash : String} : (hydrateOne hash).Asks NoAddressPage := by
  refine Async.asks_bind (Async.asks_both (asks_get trivial)
    (Async.asks_both (asks_get trivial) (asks_get trivial))) fun ⟨tx, utxos, metadata⟩ => ?_
  have withdrawals : (fetchWithdrawals hash tx).Asks NoAddressPage := by
    unfold fetchWithdrawals
    split
    · exact Async.asks_bind (asks_get trivial) fun _ => trivial
    · trivial
  have epoch : (epochOf tx.block).Asks NoAddressPage :=
    Async.asks_bind (asks_get trivial) fun _ => trivial
  refine Async.asks_bind (Async.asks_both epoch (Async.asks_both withdrawals
    (asks_fetchCertificates trivial fun _ => trivial))) fun _ => ?_
  exact Async.asks_settled _

theorem asks_advanceCursor {afterBlock : Option Nat} {cursor : AddressCursor} :
    (advanceCursor afterBlock cursor).Asks NoAddressPage := by
  unfold advanceCursor
  split
  · trivial
  · exact Async.asks_bind (asks_getOrUndefined trivial) fun _ => trivial

theorem asks_settleCursors {afterBlock : Option Nat} {addressFanout rounds : Nat}
    {cursors : List AddressCursor} :
    (settleCursors afterBlock addressFanout rounds cursors).Asks NoAddressPage := by
  induction rounds generalizing cursors with
  | zero => trivial
  | succ rounds ih =>
    unfold settleCursors
    dsimp only
    split
    · trivial
    · exact Async.asks_bind (asks_fanOut fun _ _ _ => asks_advanceCursor) fun _ => ih

/-- A history is read from its addresses alone. -/
theorem asks_addressSetTxHistory {addresses : List String} {afterBlock : Option Nat}
    {addressFanout hydrateFanout : Nat} :
    (addressSetTxHistory addresses afterBlock addressFanout hydrateFanout).Asks NoAddressPage := by
  unfold addressSetTxHistory
  split
  · trivial
  · refine Async.asks_bind (asks_fanOut fun _ _ _ => asks_advanceCursor) fun cursors => ?_
    refine Async.asks_bind asks_settleCursors fun final => ?_
    unfold hydrateTransactions
    split
    · trivial
    · exact Async.asks_bind (asks_fanOut fun _ _ _ => asks_hydrateOne) fun _ => trivial

/-- A walk asks for pages of its list alone. -/
theorem asks_walkPages {page : Nat → Read (Option (List Row))} (each : ∀ number, (page number).Asks P)
    {exceeded : Failure} {remaining number : Nat} {rows : List Row} :
    (walkPages page exceeded remaining number rows).Asks P := by
  induction remaining generalizing number rows with
  | zero =>
    refine Async.asks_bind (each number) fun answer => ?_
    cases answer with
    | none => trivial
    | some probe =>
      dsimp only
      split <;> trivial
  | succ remaining ih =>
    refine Async.asks_bind (each number) fun answer => ?_
    cases answer with
    | none => trivial
    | some pageRows =>
      dsimp only
      split
      · trivial
      · exact ih

theorem asks_enumerateAccountAddresses :
    (enumerateAccountAddresses stakeAddress).Asks fun endpoint => ¬ NoAddressPage endpoint :=
  Async.asks_bind (asks_walkPages fun _ => asks_getOrUndefined id) fun _ => trivial

end Asks

/-- A history that returns has read a page of each of its addresses. -/
theorem addressSetTxHistory_asked {addresses : List String} {afterBlock : Option Nat}
    {addressFanout hydrateFanout : Nat} {history : List WalletTransaction}
    (runs : (addressSetTxHistory addresses afterBlock addressFanout hydrateFanout).Runs trace
      (.ok history)) (some : addresses ≠ []) : ∃ y ∈ trace, NoAddressPage y.request := by
  have size := List.length_pos_iff.mpr some
  rw [addressSetTxHistory, if_neg (Nat.ne_of_gt size), Async.runs_bind_ok] at runs
  obtain ⟨first, rest, cursors, rfl, fan, -⟩ := runs
  obtain ⟨part, cursor, sub, ran, -⟩ := (fanOut_runs fan).2 0 (by simpa using size)
  rw [List.getElem_map] at ran
  obtain ⟨t, answer, tail, rfl, -⟩ := ran
  exact ⟨_, List.mem_append_left _ (sub.subset List.mem_cons_self), trivial⟩

theorem getTxHistory_iff {afterBlock : Option Nat} {outcome : Except Failure (List WalletTransaction)}
    (runs : (getTxHistory stakeAddress afterBlock).Runs trace outcome) :
    NeverTruncates (addressPages stakeAddress) (WholeHistory afterBlock trace) trace outcome ↔
      OnlyEnds (addressPages stakeAddress) ADDRESS_MAX_PAGES trace := by
  obtain ⟨walk, rest, addresses, rfl, walked, read⟩ | ⟨e, walked, rfl⟩ := Async.runs_bind.mp runs
  · obtain ⟨result, ends, same⟩ := enumerateAccountAddresses_ends walked
    have later : ∀ y ∈ rest, addressPages stakeAddress y = none := fun y member =>
      addressPages_other (asks_addressSetTxHistory.only read y member)
    have rows : rowsRead (addressPages stakeAddress) (walk ++ rest) =
        rowsRead (addressPages stakeAddress) walk := by simp [rowsRead_other later]
    have walkOnly : OnlyEnds (addressPages stakeAddress) ADDRESS_MAX_PAGES (walk ++ rest) ↔
        OnlyEnds (addressPages stakeAddress) ADDRESS_MAX_PAGES walk := by
      simp only [OnlyEnds, List.forall_mem_append]
      exact and_iff_left fun y member page gone => by simp [later y member] at gone
    rw [walkOnly]
    constructor
    · intro safe
      by_contra other
      obtain ⟨⟨front, y, back, page, rfl, before, gone⟩, rfl, some⟩ := ends.broken other
      cases same
      -- The walk has no address, so nothing was read after it.
      obtain ⟨rfl, rfl⟩ := read
      obtain ⟨_, failed⟩ | ⟨_, -, front', rest', split, whole⟩ :=
        safe ⟨front, y, back, page, by simp, before, gone⟩
      · cases failed
      · obtain ⟨z, member, asked⟩ := addressSetTxHistory_asked whole
          (by rwa [rows, Ne, List.map_eq_nil_iff])
        refine asks_enumerateAccountAddresses.only walked z ?_ asked
        rw [← List.append_nil (front ++ y :: back), split]
        exact List.mem_append_right _ member
    · intro only _
      cases outcome with
      | error e => exact .inl ⟨e, rfl⟩
      | ok history =>
        obtain ⟨e, rfl⟩ | rfl := ends.whole only
        · cases same
        · cases same
          refine .inr ⟨history, rfl, walk, rest, rfl, ?_⟩
          rw [rows]
          exact read
  · obtain ⟨result, ends, same⟩ := enumerateAccountAddresses_ends walked
    refine iff_of_true (fun _ => .inl ⟨e, rfl⟩) ?_
    by_contra other
    obtain ⟨-, rfl, -⟩ := ends.broken other
    cases same

section Utxos

variable {owner : UtxoOwner} {view : PageView T (UtxoRow owner.AddressField)}
  {changed exceeded : Failure}

/-- What a walk of unspent outputs returns has every row that it read. -/
theorem scanPages_whole (views : Views view fun page => getOrUndefined (.utxos owner page))
    {remaining number : Nat} {acc : ScanRows owner.AddressField}
    {scan : UtxoScan owner.AddressField} (positive : 1 ≤ number)
    (fresh : number = 1 → acc.rows = [])
    (runs : (scanPages owner changed exceeded remaining number acc).Runs trace (.ok scan)) :
    scan.found.rows = acc.rows ++ rowsRead view trace := by
  induction remaining generalizing number acc trace with
  | zero =>
    obtain ⟨first, rest, answer, rfl, asked, tail⟩ := Async.runs_bind_ok.mp runs
    obtain ⟨y, rfl, read⟩ := views.ok asked
    cases answer with
    | none =>
      obtain ⟨rfl, same⟩ := tail
      cases same
      simp [rowsRead_missing read]
    | some probe =>
      by_cases empty : probe.length = 0
      · simp only [empty, if_true] at tail
        obtain ⟨rfl, same⟩ := tail
        cases same
        obtain rfl := List.length_eq_zero_iff.mp empty
        simp [rowsRead_cons read]
      · simp only [empty, if_false] at tail
        exact nomatch tail.2
  | succ remaining ih =>
    obtain ⟨first, rest, answer, rfl, asked, tail⟩ := Async.runs_bind_ok.mp runs
    obtain ⟨y, rfl, read⟩ := views.ok asked
    cases answer with
    | none =>
      by_cases one : number = 1
      · simp only [one, if_true] at tail
        obtain ⟨rfl, same⟩ := tail
        cases same
        simp [rowsRead_missing read, fresh one, ScanRows.empty]
      · simp only [one, if_false] at tail
        exact nomatch tail.2
    | some pageRows =>
      by_cases short : pageRows.length < UTXO_PAGE_SIZE
      · simp only [short, if_true] at tail
        obtain ⟨rfl, same⟩ := tail
        cases same
        simp [rowsRead_cons read]
      · simp only [short, if_false] at tail
        rw [ih (by omega) (by omega) tail, ScanRows.append_rows, List.append_assoc]
        exact congrArg _ (rowsRead_cons read rest).symm

/-- A page between the first and the probe is missing. -/
def MidWalk (view : PageView T Row) (maxPages : Nat) (y : Exchange T Endpoint.Answer) : Prop :=
  ∃ page, view y = some (page, none) ∧ page ≠ 1 ∧ page ≤ maxPages

/-- A walk that misses such a page fails. -/
theorem scanPages_fatal (views : Views view fun page => getOrUndefined (.utxos owner page))
    {maxPages remaining number : Nat} (within : number + remaining = maxPages + 1)
    {acc : ScanRows owner.AddressField} : Async.Fatal (MidWalk view maxPages) changed
      (scanPages owner changed exceeded remaining number acc) := by
  intro trace outcome runs z member missing
  induction remaining generalizing number acc trace with
  | zero =>
    obtain ⟨k, gone, -, small⟩ := missing
    obtain ⟨first, rest, answer, rfl, asked, tail⟩ | ⟨e, asked, rfl⟩ := Async.runs_bind.mp runs
    · obtain ⟨y, rfl, read⟩ := views.ok asked
      have done : rest = [] := by
        cases answer with
        | none => exact tail.1
        | some probe =>
          dsimp only at tail
          split at tail <;> exact tail.1
      subst done
      obtain rfl := List.mem_singleton.mp member
      rw [read] at gone
      cases gone
      omega
    · obtain ⟨y, rfl, unread⟩ := views.error asked
      obtain rfl := List.mem_singleton.mp member
      simp [unread] at gone
  | succ remaining ih =>
    obtain ⟨first, rest, answer, rfl, asked, tail⟩ | ⟨e, asked, rfl⟩ := Async.runs_bind.mp runs
    · obtain ⟨y, rfl, read⟩ := views.ok asked
      cases answer with
      | none =>
        by_cases one : number = 1
        · simp only [one, if_true] at tail
          obtain ⟨rfl, -⟩ := tail
          obtain rfl := List.mem_singleton.mp member
          obtain ⟨k, gone, later, -⟩ := missing
          rw [read] at gone
          cases gone
          exact absurd one later
        · simp only [one, if_false] at tail
          exact tail.2.symm
      | some pageRows =>
        have after : z ∈ rest := by
          obtain ⟨k, gone, -⟩ := missing
          obtain rfl | member := List.mem_cons.mp member
          · simp [read] at gone
          · exact member
        by_cases short : pageRows.length < UTXO_PAGE_SIZE
        · simp only [short, if_true] at tail
          simp [tail.1] at after
        · simp only [short, if_false] at tail
          exact ih (by omega) rest tail after
    · obtain ⟨y, rfl, unread⟩ := views.error asked
      obtain ⟨k, gone, -⟩ := missing
      obtain rfl := List.mem_singleton.mp member
      simp [unread] at gone

theorem readUtxos_fatal {A : Type} {bad : Exchange T Endpoint.Answer → Prop}
    {scan : Read (UtxoScan A)} (fatal : Async.Fatal bad changed scan) :
    Async.Fatal bad changed (readUtxos scan changed) := by
  have verify (scans : Nat) (previous : UtxoScan A) :
      Async.Fatal bad changed (verifyScan scan changed scans previous) := by
    induction scans generalizing previous with
    | zero => exact Async.fatal_settled _
    | succ scans ih =>
      refine fatal.bind fun current => ?_
      split
      · exact Async.fatal_settled _
      · exact ih current
  refine fatal.bind fun first => ?_
  split
  · exact Async.fatal_settled _
  · exact verify _ first

/-- The rows a read returns are those of its last walk. -/
theorem readUtxos_last {A : Type} {scan : Read (UtxoScan A)} {rows : List (UtxoRow A)}
    (runs : (readUtxos scan changed).Runs trace (.ok rows)) :
    ∃ before walk found, trace = before ++ walk ∧ scan.Runs walk (.ok found) ∧
      found.found.rows = rows := by
  have verify (scans : Nat) : ∀ (trace : List (Exchange T Endpoint.Answer)) (previous : UtxoScan A),
      (verifyScan scan changed scans previous).Runs trace (.ok rows) →
      ∃ before walk found, trace = before ++ walk ∧ scan.Runs walk (.ok found) ∧
        found.found.rows = rows := by
    induction scans with
    | zero => exact fun _ _ runs => nomatch runs.2
    | succ scans ih =>
      intro trace previous runs
      obtain ⟨first, rest, current, rfl, walked, tail⟩ := Async.runs_bind_ok.mp runs
      split at tail
      · obtain ⟨rfl, same⟩ := tail
        cases same
        exact ⟨[], first, current, List.append_nil _, walked, rfl⟩
      · obtain ⟨before, walk, found, rfl, walked, same⟩ := ih rest current tail
        exact ⟨first ++ before, walk, found, (List.append_assoc ..).symm, walked, same⟩
  obtain ⟨first, rest, current, rfl, walked, tail⟩ := Async.runs_bind_ok.mp runs
  split at tail
  · obtain ⟨rfl, same⟩ := tail
    cases same
    exact ⟨[], first, current, List.append_nil _, walked, rfl⟩
  · obtain ⟨before, walk, found, rfl, walked, same⟩ := verify _ rest current tail
    exact ⟨first ++ before, walk, found, (List.append_assoc ..).symm, walked, same⟩

theorem retryScan_fatal {bad : Exchange T Endpoint.Answer → Prop} {scan : Read α} {e : Failure}
    (other : e ≠ .creationBlockRolledBack) (fatal : Async.Fatal bad e scan) (retries : Nat) :
    Async.Fatal bad e (retryScan scan retries) := by
  rw [retryScan_eq]
  exact fatal.retrying other retries

theorem asks_settle {rows : List (UtxoRow String)} : (settle rows).Asks NoUtxoPage := by
  have lookup (hash : String) (attempts : Nat) : (lookupBlock hash attempts).Asks NoUtxoPage := by
    induction attempts with
    | zero => trivial
    | succ attempts ih =>
      refine Async.asks_bind (asks_getOrUndefined trivial) fun answer => ?_
      cases answer with
      | none => exact ih
      | some block => trivial
  refine Async.asks_bind (Async.asks_bind (asks_fanOut fun _ _ _ => lookup _ _) fun _ => trivial)
    fun _ => ?_
  exact Async.asks_settled _

theorem scanAccountUtxos_whole {scan : UtxoScan String}
    (runs : (scanAccountUtxos stakeAddress).Runs trace (.ok scan)) :
    scan.found.rows = rowsRead (utxoPages stakeAddress) trace :=
  scanPages_whole (utxoPages_views stakeAddress) (le_refl 1) (fun _ => rfl) runs

/-- The outputs are those of the last walk of the read, all of them. -/
def LastWalk (stakeAddress : String) (trace : List (Exchange T Endpoint.Answer))
    (utxos : List Utxo) : Prop :=
  ∃ before walk after scan, trace = before ++ walk ++ after ∧
    (scanAccountUtxos stakeAddress).Runs walk (.ok scan) ∧
    (∀ y ∈ after, utxoPages stakeAddress y = none) ∧
    List.Forall₂ (MapsTo id) (rowsRead (utxoPages stakeAddress) walk) utxos

theorem getAccountUtxos_last {utxos : List Utxo}
    (runs : (getAccountUtxos stakeAddress).Runs trace (.ok utxos)) :
    LastWalk stakeAddress trace utxos := by
  obtain ⟨earlier, last, rfl, attempt⟩ := retryScan_runs runs
  obtain ⟨read, after, rows, rfl, walked, settled⟩ := Async.runs_bind_ok.mp attempt
  obtain ⟨before, walk, scan, rfl, scanned, rfl⟩ := readUtxos_last walked
  refine ⟨earlier ++ before, walk, after, scan, by simp, scanned, fun y member => ?_, ?_⟩
  · exact utxoPages_other (asks_settle.only settled y member)
  · rw [← scanAccountUtxos_whole scanned]
    obtain ⟨_, _, blockHeights, rfl, -, rfl, ok⟩ := Async.runs_bind_ok.mp settled
    exact mapUtxos_mapsTo ok

theorem getAccountUtxos_fatal : Async.Fatal (MidWalk (utxoPages (T := T) stakeAddress) UTXO_MAX_PAGES)
    utxosChanged (getAccountUtxos stakeAddress) := by
  refine retryScan_fatal (by decide) ?_ _
  have walk : Async.Fatal (MidWalk (utxoPages (T := T) stakeAddress) UTXO_MAX_PAGES) utxosChanged
      (scanAccountUtxos stakeAddress) :=
    @scanPages_fatal T (.account stakeAddress) _ utxosChanged utxosExceeded
      (utxoPages_views stakeAddress) UTXO_MAX_PAGES UTXO_MAX_PAGES 1 rfl .empty
  refine (readUtxos_fatal walk).bind fun rows => asks_settle.fatal fun y none => ?_
  rintro ⟨page, gone, -⟩
  simp [utxoPages_other none] at gone

end Utxos

/-- An interrupted walk of an account's addresses, and so of its transaction history, or of
its rewards fails or accounts for every row it has read exactly when no page between the
first and the probe is missing, or no reward read is past the cursor. A walk of its unspent
outputs always does: the read fails when such a page is missing, and otherwise returns the
whole of its last walk. -/
theorem account_walks_never_truncate_iff (stakeAddress : String)
    (trace : List (Exchange T Endpoint.Answer)) :
    (∀ outcome, (enumerateAccountAddresses stakeAddress).Runs trace outcome →
      (NeverTruncates (addressPages stakeAddress) AllAddresses trace outcome ↔
        OnlyEnds (addressPages stakeAddress) ADDRESS_MAX_PAGES trace)) ∧
    (∀ afterBlock outcome, (getTxHistory stakeAddress afterBlock).Runs trace outcome →
      (NeverTruncates (addressPages stakeAddress) (WholeHistory afterBlock trace) trace outcome ↔
        OnlyEnds (addressPages stakeAddress) ADDRESS_MAX_PAGES trace)) ∧
    (∀ afterEpoch outcome, (getRewardHistory stakeAddress afterEpoch).Runs trace outcome →
      (NeverTruncates (rewardPages stakeAddress) (AllRewards afterEpoch) trace outcome ↔
        OnlyEnds (rewardPages stakeAddress) REWARD_MAX_PAGES trace ∨
          ∀ row ∈ rowsRead (rewardPages stakeAddress) trace, past afterEpoch row = false)) ∧
    (∀ outcome, (scanAccountUtxos stakeAddress).Runs trace outcome →
      NeverTruncates (utxoPages stakeAddress) (fun rows scan => scan.found.rows = rows) trace
        outcome) ∧
    ∀ outcome, (getAccountUtxos stakeAddress).Runs trace outcome →
      ((∃ y ∈ trace, MidWalk (utxoPages stakeAddress) UTXO_MAX_PAGES y) →
        outcome = .error utxosChanged) ∧
      ∀ utxos, outcome = .ok utxos → LastWalk stakeAddress trace utxos := by
  refine ⟨fun outcome runs => enumerateAccountAddresses_iff runs,
    fun afterBlock outcome runs => getTxHistory_iff runs,
    fun afterEpoch outcome runs => getRewardHistory_iff runs, fun outcome runs _ => ?_,
    fun outcome runs => ⟨?_, ?_⟩⟩
  · cases outcome with
    | error e => exact .inl ⟨e, rfl⟩
    | ok scan => exact .inr ⟨scan, rfl, scanAccountUtxos_whole runs⟩
  · rintro ⟨y, member, missing⟩
    exact getAccountUtxos_fatal trace outcome runs y member missing
  · rintro utxos rfl
    exact getAccountUtxos_last runs

/-- A hundred addresses, and then no second page. -/
def rolledBack : List (Exchange Nat Endpoint.Answer) :=
  [⟨1, .accountAddresses "stake1" 1, .ok (some (List.replicate 100 ⟨"addr1"⟩))⟩,
    ⟨2, .accountAddresses "stake1" 2, .ok none⟩]

theorem rolledBack_interrupted : Interrupted (addressPages "stake1") rolledBack :=
  ⟨[_], _, [], 2, rfl, by decide, rfl⟩

theorem rolledBack_enumerates :
    (enumerateAccountAddresses "stake1").Runs rolledBack (.ok []) := by
  refine Async.runs_bind_ok.mpr ⟨rolledBack, [], [], rfl, ?_, rfl, rfl⟩
  exact ⟨1, _, _, rfl, 2, .ok none, [], rfl, rfl, rfl⟩

theorem rolledBack_history : (getTxHistory "stake1" none).Runs rolledBack (.ok []) :=
  Async.runs_bind_ok.mpr ⟨rolledBack, [], [], rfl, rolledBack_enumerates, rfl, rfl⟩

/-- The walk has read a hundred addresses and returns none, and the history is empty. -/
theorem rolledBack_truncates :
    (enumerateAccountAddresses "stake1").Runs rolledBack (.ok []) ∧
      (getTxHistory "stake1" none).Runs rolledBack (.ok []) ∧
      Interrupted (addressPages "stake1") rolledBack ∧
      ¬ NeverTruncates (addressPages "stake1") AllAddresses rolledBack (.ok []) := by
  refine ⟨rolledBack_enumerates, rolledBack_history, rolledBack_interrupted, fun safe => ?_⟩
  obtain ⟨_, failed⟩ | ⟨_, same, all⟩ := safe rolledBack_interrupted
  · cases failed
  · cases same
    exact List.cons_ne_nil _ _ all.symm

/-- A hundred rewards of one epoch, and then no second page. -/
def rewardsRolledBack : List (Exchange Nat Endpoint.Answer) :=
  [⟨1, .accountRewards "stake1" 1,
      .ok (some (List.replicate 100 ⟨3, .digits "5" five_digits, "pool1a", .member⟩))⟩,
    ⟨2, .accountRewards "stake1" 2, .ok none⟩]

/-- A hundred outputs, and then no second page. -/
def utxosRolledBack : List (Exchange Nat Endpoint.Answer) :=
  [⟨1, .utxos (.account "stake1") 1, .ok (some (List.replicate 100 (soleRow "addr1")))⟩,
    ⟨2, .utxos (.account "stake1") 2, .ok none⟩]

/-- Four walks interrupted on their second page: no addresses and no history, no reward of a
later epoch lost, and a failed read of the outputs. -/
theorem rolledBack_walks :
    ¬ NeverTruncates (addressPages "stake1") AllAddresses rolledBack (.ok []) ∧
      ¬ NeverTruncates (addressPages "stake1") (WholeHistory none rolledBack) rolledBack (.ok []) ∧
      NeverTruncates (rewardPages "stake1") (AllRewards (some 3)) rewardsRolledBack (.ok []) ∧
      NeverTruncates (utxoPages "stake1") (fun rows (scan : UtxoScan String) => scan.found.rows = rows)
        utxosRolledBack (.error utxosChanged) ∧
      (getAccountUtxos "stake1").Runs utxosRolledBack (.error utxosChanged) ∧
      ∀ outcome, (getAccountUtxos "stake1").Runs utxosRolledBack outcome →
        outcome = .error utxosChanged := by
  have other : ¬ OnlyEnds (addressPages "stake1") ADDRESS_MAX_PAGES rolledBack := fun only =>
    absurd (only _ (List.mem_cons_of_mem _ List.mem_cons_self) 2 rfl) (by decide)
  have rewards : (getRewardHistory "stake1" (some 3)).Runs rewardsRolledBack (.ok []) := by
    refine Async.runs_bind_ok.mpr ⟨rewardsRolledBack, [], [], rfl, ?_, rfl, rfl⟩
    exact ⟨1, _, _, rfl, 2, .ok none, [], rfl, rfl, rfl⟩
  have walk : (scanAccountUtxos "stake1").Runs utxosRolledBack (.error utxosChanged) :=
    ⟨1, _, _, rfl, 2, .ok none, [], rfl, rfl, rfl⟩
  have read : (getAccountUtxos "stake1").Runs utxosRolledBack (.error utxosChanged) := by
    refine Async.runs_tryCatch.mpr (.inr ⟨utxosRolledBack, [], utxosChanged, by simp, ?_, rfl, rfl⟩)
    exact Async.runs_bind.mpr (.inr ⟨_, Async.runs_bind.mpr (.inr ⟨_, walk, rfl⟩), rfl⟩)
  have addresses := account_walks_never_truncate_iff "stake1" rolledBack
  have outputs := account_walks_never_truncate_iff "stake1" utxosRolledBack
  refine ⟨?_, ?_, ?_, ?_, read, fun outcome other => ?_⟩
  · exact mt (addresses.1 _ rolledBack_enumerates).mp other
  · exact mt (addresses.2.1 none _ rolledBack_history).mp other
  · have safe := (account_walks_never_truncate_iff "stake1" rewardsRolledBack).2.2.1 (some 3) _ rewards
    exact safe.mpr (.inr (by decide))
  · exact outputs.2.2.2.1 _ walk
  · exact (outputs.2.2.2.2 _ other).1
      ⟨_, List.mem_cons_of_mem _ List.mem_cons_self, 2, rfl, by decide, by decide⟩

end WalletBackend.Blockfrost.Account
