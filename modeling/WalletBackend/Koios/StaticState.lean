import WalletBackend.Koios.Addresses
import WalletBackend.Library.StaticRuns

/-! The reads of the Koios provider against tables that do not change: what each comes
to, from the rows held under the strings it asks for. -/
namespace WalletBackend.Koios
open Interaction CursorPaging

/-- An unspent output with the stake address it belongs to. -/
structure HeldUtxo where
  row : UtxoRow
  stake_address : Option String
  deriving DecidableEq

/-- The tables of one Koios instance. -/
structure KoiosState where
  index : AddressIndex
  accountTxs : String → Option Nat → List HistoryRow
  listed : ∀ stakeAddress after, ∀ row ∈ accountTxs stakeAddress after,
    ∃ tx ∈ index.history.txs, row = tx.thin
  accountInfo : List AccountInfoRow
  accountRewards : List AccountRewardsRow
  addressInfo : List String
  /-- The transactions of each payment credential. -/
  credentialTxs : List (String × HistoryRow)
  utxos : List HeldUtxo
  ordered : Ascending (cursorOf UtxoRow.keyset) (utxos.map HeldUtxo.row)

section Pages

/-- The page of a listing. -/
def page (listing : List UtxoRow) : Window String → PageResponse UtxoRow
  | .keyset after =>
      let rest := left UtxoRow.keyset after listing
      let rows := rest.take KOIOS_PAGE_SIZE
      ⟨rows, if rows.length < rest.length then 206 else 200,
        some (renderRange 0 rows.length rest.length)⟩
  | .offset start =>
      let rows := (listing.drop start).take KOIOS_PAGE_SIZE
      ⟨rows, if start + rows.length < listing.length then 206 else 200,
        some (renderRange start rows.length listing.length)⟩

theorem page_serves (listing : List UtxoRow) (after : Option (String × Nat)) :
    ServesKeyset UtxoRow.keyset listing after (.ok (page listing (.keyset after))) := by
  refine ⟨rfl, rfl, ?_⟩
  rw [page]
  simp only
  split
  case isTrue less => exact iff_of_true rfl less
  case isFalse full => exact iff_of_false (by decide) full

/-- Rows in the same order are the same when they are the same set. -/
theorem ascending_ext {rows rows' : List UtxoRow} (ordered : Ascending (cursorOf UtxoRow.keyset) rows)
    (ordered' : Ascending (cursorOf UtxoRow.keyset) rows')
    (same : ∀ row, row ∈ rows ↔ row ∈ rows') : rows = rows' :=
  List.Perm.eq_of_pairwise (fun _ _ _ _ less less' => absurd (less.trans less') (lt_irrefl _))
    ordered ordered' ((List.perm_ext_iff_of_nodup ordered.nodup ordered'.nodup).mpr same)

theorem rowKeys_nodup {rows : List UtxoRow} (ordered : Ascending (cursorOf UtxoRow.keyset) rows) :
    (rows.map UtxoRow.rowKey).Nodup := by
  have cursors : ((rows.map UtxoRow.keyset).map toLex).Nodup := by
    rw [List.map_map]
    exact ordered.keys_nodup
  have keys := cursors.of_map.map OutputRef.key_injective
  rwa [List.map_map] at keys

variable {up : PageRequest String → Except Failure (PageResponse UtxoRow)} {path body : String}
  {listing : List UtxoRow} {attempts : ReadAttempts} {verifyConsistency : Bool}

/-- A paged read that returns has read the whole listing, whatever failed on the way. -/
theorem batchAllPages_listing {T : Type} {trace : List (PageExchange T UtxoRow String)}
    {rows : List UtxoRow} (ordered : Ascending (cursorOf UtxoRow.keyset) listing)
    (honest : HonestKeyset path body UtxoRow.keyset (fun _ => listing) trace)
    (runs : (batchAllPages path body attempts
      ⟨some UtxoRow.rowKey, some UtxoRow.keyset, verifyConsistency⟩).Runs trace (.ok rows)) :
    rows = listing := by
  obtain ⟨before, walk, result, rfl, rfl, walked⟩ := batchAllPages_one_walk runs
  have reads := walkBatchPages_reads ⟨fun _ => listing, fun _ => ordered⟩ walked
    fun t after answer member => honest t after answer (List.mem_append_right _ member)
  refine ascending_ext reads.ascending ordered fun row => ⟨?_, ?_⟩
  · intro member
    obtain ⟨_, -, listed⟩ := reads.listed row member
    exact listed
  · intro member
    obtain ⟨i, found, -⟩ := reads.complete row fun _ _ => member
    exact List.mem_of_getElem? found

/-- A read that returns at once is not repeated. -/
theorem read_gives {Req α : Type} {Resp : Req → Type} {up : (q : Req) → Resp q}
    {load : Async Resp Failure α} {a : α}
    (first : ∀ result, Async.Gives up load result ↔ result = .ok a)
    (outcome : Except Failure α) :
    Async.Gives up (read attempts load) outcome ↔ outcome = .ok a := by
  rw [read]
  cases attempts.count - 1 with
  | zero => exact first outcome
  | succ further => exact Async.gives_tryCatch_of first

theorem read_gives_of_ok {Req α : Type} {Resp : Req → Type} {up : (q : Req) → Resp q}
    {load : Async Resp Failure α} (succeeds : ∀ e, ¬ Async.Gives up load (.error e))
    {outcome : Except Failure α} (gives : Async.Gives up (read attempts load) outcome) :
    Async.Gives up load outcome := by
  rw [read] at gives
  cases further : attempts.count - 1 with
  | zero =>
    rw [further] at gives
    exact gives
  | succ n =>
    rw [further] at gives
    exact Async.gives_tryCatch_quiet succeeds gives

theorem requestPage_gives {request : PageRequest String} {response : PageResponse UtxoRow}
    (answered : up request = .ok response) (outcome : Except Failure (PageResponse UtxoRow)) :
    Async.Gives up (requestPage request) outcome ↔ outcome = .ok response := by
  rw [requestPage, Async.gives_bind_of fun _ => Async.gives_ask, answered]
  exact Async.gives_ofExcept

/-- A paged read of nothing returns nothing. -/
theorem batchAllPages_empty
    (serves : up ⟨path, body, .keyset none⟩ = .ok (page [] (.keyset none)))
    (outcome : Except Failure (List UtxoRow)) :
    Async.Gives up (batchAllPages path body attempts
      ⟨some UtxoRow.rowKey, some UtxoRow.keyset, verifyConsistency⟩) outcome ↔ outcome = .ok [] := by
  have walked (result : Except Failure (PagedBatchResult UtxoRow)) :
      Async.Gives up (walkBatchPages path body (some UtxoRow.rowKey) (some UtxoRow.keyset)) result ↔
        result = .ok ⟨[], [], 0, 1⟩ := by
    have asked : up ⟨path, body, PageWalk.window (some UtxoRow.keyset)
        (.start : PageWalk UtxoRow String)⟩ = .ok (page [] (.keyset none)) := serves
    have nothing : takePage path (some UtxoRow.rowKey) (some UtxoRow.keyset) .start
        (page [] (.keyset none)) = .ok (.done ⟨[], [], 0, 1⟩) := takePage_nothing _ _ _ rfl rfl
    rw [walkBatchPages, walkPages, Async.gives_bind_of (requestPage_gives asked)]
    split
    case h_1 e taken => cases taken.symm.trans nothing
    case h_2 result' taken =>
      cases taken.symm.trans nothing
      exact Async.gives_pure
    case h_3 next taken => cases taken.symm.trans nothing
  rw [batchAllPages, if_neg (by simp)]
  refine read_gives (fun result => ?_) outcome
  rw [Async.gives_bind_of walked]
  exact Async.gives_pure

end Pages

section Asked

variable {before after : String} {chunk : List String}

open Classical in
/-- The items that a body lists. -/
noncomputable def asked (body : BodyBuilder String) (text : String) : List String :=
  if known : ∃ chunk, (∀ item ∈ chunk, Plain item) ∧ body.stringify chunk = text then known.choose
  else []

theorem asked_stringify (plain : ∀ item ∈ chunk, Plain item) :
    asked (quotedBody before after) ((quotedBody before after).stringify chunk) = chunk := by
  have known : ∃ chunk', (∀ item ∈ chunk', Plain item) ∧
      (quotedBody before after).stringify chunk' = (quotedBody before after).stringify chunk :=
    ⟨chunk, plain, rfl⟩
  rw [asked, dif_pos known]
  exact stringify_injective known.choose_spec.1 plain known.choose_spec.2

end Asked

namespace KoiosState

variable (state : KoiosState)

def accountUtxos (stakeAddresses : List String) : List UtxoRow :=
  (state.utxos.filter fun held => ∃ stakeAddress ∈ held.stake_address,
    stakeAddress ∈ stakeAddresses).map HeldUtxo.row

def addressUtxos (addresses : List String) : List UtxoRow :=
  (state.utxos.filter fun held => held.row.address ∈ addresses).map HeldUtxo.row

/-- The rows a page request is about. -/
noncomputable def listing (request : PageRequest String) : List UtxoRow :=
  if request.path = ACCOUNT_UTXOS_PATH then state.accountUtxos (asked accountUtxosBody request.body)
  else state.addressUtxos (asked addressUtxosBody request.body)

/-- The answers to page requests. -/
noncomputable def servePage (request : PageRequest String) :
    Except Failure (PageResponse UtxoRow) :=
  .ok (page (state.listing request) request.window)

/-- The answers to all other requests. -/
def serve : (endpoint : Endpoint) → endpoint.Answer
  | .accountTxs stakeAddress after => .ok (state.accountTxs stakeAddress after)
  | .txInfo asked => state.index.serve (.txInfo asked)
  | .addressTxs addresses after limit offset =>
      state.index.serve (.addressTxs addresses after limit offset)
  | .accountInfo stakeAddress =>
      .ok (state.accountInfo.filter fun row => row.stake_address = stakeAddress)
  | .accountRewards stakeAddress =>
      .ok (state.accountRewards.filter fun row => row.stake_address = stakeAddress)
  | .addressInfo addresses => .ok (state.addressInfo.filter fun address => address ∈ addresses)
  | .credentialTxs credentials =>
      .ok (((state.credentialTxs.filter fun tx => tx.1 ∈ credentials).map Prod.snd).take 1)

variable {state} {attempts : ReadAttempts} {stakeAddress : String} {addresses : List String}

theorem accountUtxos_ordered (stakeAddresses : List String) :
    Ascending (cursorOf UtxoRow.keyset) (state.accountUtxos stakeAddresses) :=
  state.ordered.sublist (List.filter_sublist.map _)

theorem addressUtxos_ordered (addresses : List String) :
    Ascending (cursorOf UtxoRow.keyset) (state.addressUtxos addresses) :=
  state.ordered.sublist (List.filter_sublist.map _)

theorem servePage_account (state : KoiosState) (plain : Plain stakeAddress)
    (after : Option (String × Nat)) :
    state.servePage ⟨ACCOUNT_UTXOS_PATH, accountUtxosBody.stringify [stakeAddress], .keyset after⟩ =
      .ok (page (state.accountUtxos [stakeAddress]) (.keyset after)) := by
  have item : asked accountUtxosBody (accountUtxosBody.stringify [stakeAddress]) = [stakeAddress] :=
    asked_stringify fun item member => List.mem_singleton.mp member ▸ plain
  rw [servePage, listing, if_pos rfl, item]

theorem servePage_addresses (state : KoiosState)
    (plain : ∀ address ∈ addresses, Plain address) (after : Option (String × Nat)) :
    state.servePage ⟨ADDRESS_UTXOS_PATH, addressUtxosBody.stringify addresses, .keyset after⟩ =
      .ok (page (state.addressUtxos addresses) (.keyset after)) := by
  have items : asked addressUtxosBody (addressUtxosBody.stringify addresses) = addresses :=
    asked_stringify plain
  have other : ADDRESS_UTXOS_PATH ≠ ACCOUNT_UTXOS_PATH := by decide
  rw [servePage, listing, if_neg other, items]

/-- Every page request was answered from the tables, or failed. -/
def Standing {T : Type} (state : KoiosState) (trace : List (PageExchange T UtxoRow String)) : Prop :=
  ∀ x ∈ trace, x.response = state.servePage x.request ∨ ∃ e, x.response = .error e

section Standing

variable {T : Type} {trace : List (PageExchange T UtxoRow String)}

theorem standing_of_static (static : Async.Static state.servePage trace) : state.Standing trace :=
  fun x member => .inl (static x member)

theorem Standing.sub {part : List (PageExchange T UtxoRow String)} (standing : state.Standing trace)
    (sub : part.Sublist trace) : state.Standing part :=
  fun x member => standing x (sub.subset member)

theorem Standing.honest (standing : state.Standing trace) {path body : String} {listing : List UtxoRow}
    (serves : ∀ after, state.servePage ⟨path, body, .keyset after⟩ = .ok (page listing (.keyset after))) :
    HonestKeyset path body UtxoRow.keyset (fun _ => listing) trace := by
  intro t after answer member
  obtain served | ⟨e, failed⟩ := standing _ member
  · obtain rfl : answer = state.servePage ⟨path, body, .keyset after⟩ := served
    rw [serves]
    exact page_serves listing after
  · obtain rfl : answer = .error e := failed
    trivial

theorem getAccountUtxos_standing (plain : Plain stakeAddress) (standing : state.Standing trace)
    {utxos : List ScriptedUtxo}
    (runs : (getAccountUtxos attempts stakeAddress).Runs trace (.ok utxos)) :
    utxos = (state.accountUtxos [stakeAddress]).map mapUtxo := by
  obtain ⟨first, rest, rows, rfl, read, done⟩ := Async.runs_bind_ok.mp runs
  cases done.2
  rw [batchAllPages_listing (accountUtxos_ordered _) ((standing.sub
    (List.sublist_append_left first rest)).honest (servePage_account state plain)) read]

end Standing

theorem getAccountUtxos_none (plain : Plain stakeAddress)
    (none : state.accountUtxos [stakeAddress] = []) (outcome : Except Failure (List ScriptedUtxo)) :
    Async.Gives state.servePage (getAccountUtxos attempts stakeAddress) outcome ↔
      outcome = .ok [] := by
  have serves := servePage_account state plain .none
  rw [none] at serves
  rw [getAccountUtxos, Async.gives_bind_of (batchAllPages_empty serves)]
  exact Async.gives_pure

/-- Disjoint sets of addresses, one after the other. -/
theorem addressUtxos_append {chunk rest : List String} (disjoint : chunk.Disjoint rest) :
    (state.addressUtxos (chunk ++ rest)).Perm
      (state.addressUtxos chunk ++ state.addressUtxos rest) := by
  rw [addressUtxos, addressUtxos, addressUtxos, ← List.map_append]
  apply List.Perm.map
  simp only [List.mem_append]
  induction state.utxos with
  | nil => exact .nil
  | cons held utxos ih =>
    by_cases left : held.row.address ∈ chunk
    · have right : held.row.address ∉ rest := fun right => disjoint left right
      simpa [left, right] using ih
    · by_cases right : held.row.address ∈ rest
      · simp only [List.filter_cons, left, right, or_true, decide_true, if_true,
          decide_false, Bool.false_eq_true, if_false]
        exact (ih.cons held).trans List.perm_middle.symm
      · simpa [left, right] using ih

theorem addressUtxos_flatten {chunks : List (List String)} (nodup : chunks.flatten.Nodup) :
    (state.addressUtxos chunks.flatten).Perm (chunks.flatMap state.addressUtxos) := by
  induction chunks with
  | nil => simp [addressUtxos]
  | cons chunk chunks ih =>
    rw [List.flatten_cons, List.nodup_append] at nodup
    obtain ⟨-, later, apart⟩ := nodup
    have disjoint : chunk.Disjoint chunks.flatten :=
      fun address left right => apart address left address right rfl
    rw [List.flatten_cons, List.flatMap_cons]
    exact (addressUtxos_append disjoint).trans ((ih later).append_left _)

/-- The UTxOs of a set of distinct addresses, each once. -/
theorem getUtxosByAddresses_standing {T : Type} {trace : List (PageExchange T UtxoRow String)}
    {bodyLimit : Nat} (nodup : addresses.Nodup) (plain : ∀ address ∈ addresses, Plain address)
    (standing : state.Standing trace) {utxos : List ScriptedUtxo}
    (runs : (getUtxosByAddresses attempts bodyLimit addresses).Runs trace (.ok utxos)) :
    utxos.Perm ((state.addressUtxos addresses).map mapUtxo) := by
  rw [getUtxosByAddresses] at runs
  split at runs
  case isTrue none =>
    cases runs.2
    rw [List.length_eq_zero_iff.mp none]
    simp [addressUtxos]
  case isFalse some' =>
    obtain ⟨first, rest, rows, rfl, packed, done⟩ := Async.runs_bind_ok.mp runs
    obtain ⟨chunks, perChunk, rfl, rfl, each⟩ := packAdaptively_runs packed
    cases done.2
    have parts : perChunk = chunks.map state.addressUtxos := by
      clear packed done runs nodup some'
      induction each with
      | nil => rfl
      | @cons chunk part chunks perChunk head _ ih =>
        obtain ⟨inside, sub, ran⟩ := head
        have listed : ∀ address ∈ chunk, Plain address :=
          fun address member => plain address (List.mem_append_left _ member)
        have stands := standing.sub (sub.trans (List.sublist_append_left first rest))
        rw [batchAllPages_listing (addressUtxos_ordered _)
          (stands.honest (servePage_addresses state listed)) ran, List.map_cons,
          ih fun address member => plain address (List.mem_append_right _ member)]
    rw [parts]
    exact (addressUtxos_flatten nodup).symm.map mapUtxo

/-- Where no request failed, the read of addresses that can be asked for returns. -/
theorem getUtxosByAddresses_returns {T : Type} {trace : List (PageExchange T UtxoRow String)}
    {bodyLimit : Nat} (plain : ∀ address ∈ addresses, Plain address)
    (fits : ∀ address ∈ addresses, addressUtxosBody.Fits bodyLimit address)
    (few : state.utxos.length ≤ KOIOS_MAX_PAGED_ROWS)
    (static : Async.Static state.servePage trace) {outcome : Except Failure (List ScriptedUtxo)}
    (runs : (getUtxosByAddresses attempts bodyLimit addresses).Runs trace outcome) :
    ∃ utxos, outcome = .ok utxos := by
  rw [getUtxosByAddresses] at runs
  split at runs
  case isTrue => exact ⟨_, runs.2.symm⟩
  case isFalse =>
    obtain ⟨first, rest, rows, rfl, -, done⟩ | ⟨e, packed, -⟩ := Async.runs_bind.mp runs
    · exact ⟨_, done.2.symm⟩
    · refine absurd (packAdaptively_returns fits (fun chunk inside part e' sub ran => ?_) packed) nofun
      have listed : ∀ address ∈ chunk, Plain address := fun address member => plain address (inside member)
      have within : (state.addressUtxos chunk).length ≤ KOIOS_MAX_PAGED_ROWS := by
        rw [addressUtxos, List.length_map]
        exact (List.length_filter_le _ _).trans few
      obtain ⟨_, same⟩ := batchAllPages_returns (addressUtxos_ordered _)
        (rowKeys_nodup (addressUtxos_ordered _)) within (fun t after answer member =>
          ⟨_, (static _ (sub.subset member)).trans (servePage_addresses state listed after),
            page_serves _ after⟩) ran
      cases same

/-- The read of an account whose first request timed out. -/
theorem getAccountUtxos_retried (state : KoiosState) (again : 2 ≤ attempts.count)
    (plain : Plain stakeAddress) (few : state.utxos.length ≤ KOIOS_MAX_PAGED_ROWS) :
    ∃ (trace : List (PageExchange Unit UtxoRow String)) (utxos : List ScriptedUtxo),
      state.Standing trace ∧ (∃ x ∈ trace, x.response = .error (.timeout "")) ∧
      (getAccountUtxos attempts stakeAddress).Runs trace (.ok utxos) := by
  let first : PageRequest String :=
    ⟨ACCOUNT_UTXOS_PATH, accountUtxosBody.stringify [stakeAddress], .keyset none⟩
  have run : ∃ (trace : List (PageExchange Unit UtxoRow String)) (outcome : _),
      Async.Static state.servePage trace ∧ (walkBatchPages first.path first.body
        (some UtxoRow.rowKey) (some UtxoRow.keyset)).Runs trace outcome := Async.exists_run _ _
  obtain ⟨walk, outcome, static, walked⟩ := run
  have within : (state.accountUtxos [stakeAddress]).length ≤ KOIOS_MAX_PAGED_ROWS := by
    rw [accountUtxos, List.length_map]
    exact (List.length_filter_le _ _).trans few
  obtain ⟨result, rfl⟩ := walkBatchPages_returns (accountUtxos_ordered _)
    (rowKeys_nodup (accountUtxos_ordered _)) within (fun t after answer member =>
      ⟨_, (static _ member).trans (servePage_account state plain after), page_serves _ after⟩) walked
  refine ⟨⟨(), first, .error (.timeout "")⟩ :: walk, result.rows.map mapUtxo, ?_,
    ⟨_, List.mem_cons_self, rfl⟩, ?_⟩
  · intro x member
    obtain rfl | later := List.mem_cons.mp member
    · exact .inr ⟨_, rfl⟩
    · exact .inl (static x later)
  · exact Async.runs_bind_ok.mpr ⟨_, [], result.rows, (List.append_nil _).symm,
      batchAllPages_retried again rfl walked, rfl, rfl⟩

theorem getAccountUtxos_gives (plain : Plain stakeAddress) {utxos : List ScriptedUtxo}
    (gives : Async.Gives state.servePage (getAccountUtxos attempts stakeAddress) (.ok utxos)) :
    utxos = (state.accountUtxos [stakeAddress]).map mapUtxo := by
  obtain ⟨trace, static, runs⟩ := gives
  exact getAccountUtxos_standing plain (standing_of_static static) runs

theorem getUtxosByAddresses_gives {bodyLimit : Nat} (nodup : addresses.Nodup)
    (plain : ∀ address ∈ addresses, Plain address) {utxos : List ScriptedUtxo}
    (gives : Async.Gives state.servePage (getUtxosByAddresses attempts bodyLimit addresses)
      (.ok utxos)) :
    utxos.Perm ((state.addressUtxos addresses).map mapUtxo) := by
  obtain ⟨trace, static, runs⟩ := gives
  exact getUtxosByAddresses_standing nodup plain (standing_of_static static) runs

/-- Addresses without a UTxO. -/
theorem getUtxosByAddresses_none {bodyLimit : Nat} (nodup : addresses.Nodup)
    (plain : ∀ address ∈ addresses, Plain address)
    (fits : ∀ address ∈ addresses, addressUtxosBody.Fits bodyLimit address)
    (none : ∀ held ∈ state.utxos, held.row.address ∉ addresses)
    (outcome : Except Failure (List ScriptedUtxo))
    (gives : Async.Gives state.servePage (getUtxosByAddresses attempts bodyLimit addresses)
      outcome) : outcome = .ok [] := by
  have nothing : ∀ chunk ⊆ addresses, state.addressUtxos chunk = [] := by
    intro chunk inside
    rw [addressUtxos, List.map_eq_nil_iff, List.filter_eq_nil_iff]
    intro held member
    simpa using fun listed => none held member (inside listed)
  cases outcome with
  | ok utxos =>
    have perm := getUtxosByAddresses_gives nodup plain gives
    rw [nothing addresses fun _ => id] at perm
    rw [List.perm_nil.mp perm]
  | error e =>
    rw [getUtxosByAddresses] at gives
    split at gives
    case isTrue => cases Async.gives_pure.mp gives
    case isFalse =>
      obtain ⟨rows, -, done⟩ | ⟨e', ⟨trace, static, packed⟩, -⟩ := Async.gives_bind.mp gives
      · cases Async.gives_pure.mp done
      · have sends : ∀ chunk ⊆ addresses, ∀ part e, part.Sublist trace →
            ¬ (batchAllPages ADDRESS_UTXOS_PATH (addressUtxosBody.stringify chunk) attempts
              ⟨some UtxoRow.rowKey, some UtxoRow.keyset, false⟩).Runs part (.error e) := by
          intro chunk inside part e sub ran
          have serves := servePage_addresses state
            (fun address member => plain address (inside member)) .none
          rw [nothing chunk inside] at serves
          cases (batchAllPages_empty serves _).mp ⟨part, static.sub sub, ran⟩
        obtain ⟨_, same⟩ := packAdaptively_returns fits sends packed
        cases same

variable {bodyLimit : Nat} {afterBlock : Option Nat}

theorem request_gives {endpoint : Endpoint} {rows : endpoint.Rows}
    (answered : state.serve endpoint = .ok rows) (outcome : Except Failure endpoint.Rows) :
    Async.Gives state.serve (request endpoint) outcome ↔ outcome = .ok rows := by
  rw [request, Async.gives_bind_of fun _ => Async.gives_ask, answered]
  exact Async.gives_ofExcept

theorem get_gives {endpoint : Endpoint} {rows : endpoint.Rows}
    (answered : state.serve endpoint = .ok rows) (outcome : Except Failure endpoint.Rows) :
    Async.Gives state.serve (get attempts endpoint) outcome ↔ outcome = .ok rows :=
  read_gives (request_gives answered) outcome

/-- The rewards that the table holds for an account. -/
def rewards (state : KoiosState) (stakeAddress : String) : List RewardRow :=
  rewardsOf (state.accountRewards.filter fun row => row.stake_address = stakeAddress) stakeAddress

/-- Those earned after an epoch. -/
def rewardsAfter (state : KoiosState) (stakeAddress : String) (afterEpoch : Option Nat) :
    List RewardRow :=
  (state.rewards stakeAddress).filter fun row => ∀ epoch ∈ afterEpoch, epoch < row.earned_epoch

theorem getRewardHistory_gives {afterEpoch : Option Nat}
    (outcome : Except Failure (List AccountReward)) :
    Async.Gives state.serve (getRewardHistory attempts stakeAddress afterEpoch) outcome ↔
      outcome = .ok (((state.rewardsAfter stakeAddress afterEpoch).insertionSort
        fun a b => a.earned_epoch ≤ b.earned_epoch).map mapReward) := by
  rw [getRewardHistory, Async.gives_bind_of (get_gives rfl)]
  exact Async.gives_pure

/-- The addresses that the table holds, as they were spelled in the request. -/
theorem filterUsedAddresses_gives
    (fits : ∀ address ∈ addresses, addressInfoBody.Fits bodyLimit address)
    (outcome : Except Failure (List String)) :
    Async.Gives state.serve (filterUsedAddresses attempts bodyLimit addresses) outcome ↔
      outcome = .ok (addresses.filter fun address => address ∈ state.addressInfo) := by
  have only (result : Except Failure (List String))
      (gives : Async.Gives state.serve (filterUsedAddresses attempts bodyLimit addresses) result) :
      result = .ok (addresses.filter fun address => address ∈ state.addressInfo) := by
    rw [filterUsedAddresses] at gives
    split at gives
    case isTrue none =>
      rw [Async.gives_pure.mp gives, List.length_eq_zero_iff.mp none]
      rfl
    case isFalse =>
      obtain ⟨rows, ⟨trace, static, batch⟩, done⟩ | ⟨e, ⟨trace, static, batch⟩, -⟩ :=
        Async.gives_bind.mp gives
      · obtain ⟨chunks, perChunk, all, rfl, each⟩ := batchAll_runs batch
        have listed : ∀ address, address ∈ perChunk.flatten ↔
            address ∈ state.addressInfo ∧ address ∈ chunks.flatten := by
          intro address
          clear batch all done
          induction each with
          | nil => simp
          | @cons chunk part chunks perChunk head _ ih =>
            obtain ⟨inside, sub, ran⟩ := head
            have gave : Async.Gives state.serve (get attempts (.addressInfo chunk)) (.ok part) :=
              ⟨inside, static.sub sub, ran⟩
            have found := Except.ok.inj ((get_gives rfl _).mp gave)
            rw [List.flatten_cons, List.flatten_cons, List.mem_append, List.mem_append, ih, found,
              List.mem_filter, decide_eq_true_iff, and_or_left]
        rw [Async.gives_pure.mp done]
        refine congrArg Except.ok (List.filter_congr fun address member => ?_)
        rw [decide_eq_decide, listed, all]
        exact and_iff_left member
      · have sends : ∀ chunk ⊆ addresses, ∀ part e, part.Sublist trace →
            ¬ (get attempts (.addressInfo chunk)).Runs part (.error e) := by
          intro chunk _ part e sub ran
          cases (get_gives rfl (.error e)).mp ⟨part, static.sub sub, ran⟩
        obtain ⟨_, same⟩ := batchAll_returns fits sends batch
        cases same
  exact Async.gives_iff_of_only only

theorem static_details {T : Type} {trace : List (Exchange T Endpoint.Answer)}
    (static : Async.Static state.serve trace) (t : T) (asked : List String)
    (answer : Endpoint.Answer (.txInfo asked)) (member : ⟨t, .txInfo asked, answer⟩ ∈ trace) :
    ServesTxInfo state.index.history asked answer := by
  have served : answer = state.serve (.txInfo asked) := static _ member
  rw [served]
  exact List.Perm.refl _

theorem static_addresses {T : Type} {trace : List (Exchange T Endpoint.Answer)}
    (static : Async.Static state.serve trace) :
    HonestAddresses state.index trace ∧ AnswersAddresses trace := by
  constructor
  · intro t addresses after limit offset answer member
    have served : answer = state.serve (.addressTxs addresses after limit offset) := static _ member
    rw [served]
    exact ⟨rfl, rfl, fun _ => rfl⟩
  · intro t addresses after limit offset e member
    exact nomatch static _ member

theorem getTxHistory_none (none : state.accountTxs stakeAddress afterBlock = [])
    (outcome : Except Failure (List WalletTransaction)) :
    Async.Gives state.serve (getTxHistory attempts bodyLimit stakeAddress afterBlock) outcome ↔
      outcome = .ok [] := by
  rw [getTxHistory, Async.gives_bind_of (get_gives rfl), none]
  exact Async.gives_pure

/-- An account with transactions above the cursor has a page. -/
theorem getTxHistory_some (some' : state.accountTxs stakeAddress afterBlock ≠ []) :
    ¬ Async.Gives state.serve (getTxHistory attempts bodyLimit stakeAddress afterBlock)
      (.ok []) := by
  intro gives
  rw [getTxHistory, Async.gives_bind_of (get_gives rfl),
    if_neg (mt List.length_eq_zero_iff.mp some')] at gives
  obtain ⟨trace, static, runs⟩ := gives
  have empty := hydrateTxHistory_runs runs (static_details static)
  have page : selectPage (state.accountTxs stakeAddress afterBlock) ≠ [] := by
    rw [selectPage, Ne, BlockPaging.window_eq_nil (by decide), ← List.length_eq_zero_iff,
      (List.perm_insertionSort _ _).length_eq]
    exact mt List.length_eq_zero_iff.mp some'
  obtain ⟨row, member⟩ := List.exists_mem_of_ne_nil _ page
  obtain ⟨tx, present, rfl⟩ := state.listed _ _ row ((selectPage_subperm _).subset member)
  have found : tx ∈ state.index.history.under
      ((selectPage (state.accountTxs stakeAddress afterBlock)).map HistoryRow.tx_hash) :=
    ChainHistory.mem_under.mpr ⟨present, List.mem_map_of_mem member⟩
  rw [List.map_eq_nil_iff.mp empty.symm] at found
  cases found

/-- The page of an address set is the page of the union of its streams. -/
theorem getTxHistoryByAddresses_gives (some' : addresses ≠ []) {result : List WalletTransaction}
    (gives : Async.Gives state.serve
      (getTxHistoryByAddresses attempts bodyLimit addresses afterBlock) (.ok result)) :
    result = (state.index.history.under
      ((state.index.reference addresses afterBlock).map HistoryRow.tx_hash)).map mapTx := by
  obtain ⟨trace, static, runs⟩ := gives
  exact getTxHistoryByAddresses_runs some' (static_addresses static).1 (static_details static) runs

theorem reference_nil : state.index.reference addresses afterBlock = [] ↔
    ∀ address ∈ addresses, state.index.stream [address] afterBlock = [] := by
  rw [AddressIndex.reference, BlockPaging.window_eq_nil (by decide), List.eq_nil_iff_forall_not_mem]
  simp only [mem_unionAbove, List.eq_nil_iff_forall_not_mem]
  constructor
  · exact fun empty address listed row member => empty row ⟨address, listed, member⟩
  · rintro none row ⟨address, listed, member⟩
    exact none address listed row member

/-- Addresses with a transaction above the cursor have a page. -/
theorem getTxHistoryByAddresses_some
    (some' : ∃ address ∈ addresses, state.index.stream [address] afterBlock ≠ []) :
    ¬ Async.Gives state.serve (getTxHistoryByAddresses attempts bodyLimit addresses afterBlock)
      (.ok []) := by
  intro gives
  obtain ⟨address, listed, stream⟩ := some'
  have empty := getTxHistoryByAddresses_gives (List.ne_nil_of_mem listed) gives
  have page : state.index.reference addresses afterBlock ≠ [] :=
    fun none => stream (reference_nil.mp none address listed)
  obtain ⟨row, member⟩ := List.exists_mem_of_ne_nil _ page
  obtain ⟨address', -, found⟩ := mem_unionAbove.mp
    ((BlockPaging.window_sublist _).subset member)
  obtain ⟨tx, present, rfl⟩ := state.index.known _ _ row found
  have under : tx ∈ state.index.history.under
      ((state.index.reference addresses afterBlock).map HistoryRow.tx_hash) :=
    ChainHistory.mem_under.mpr ⟨present, List.mem_map_of_mem member⟩
  rw [List.map_eq_nil_iff.mp empty.symm] at under
  cases under

/-- Addresses without a transaction above the cursor. -/
theorem getTxHistoryByAddresses_none
    (fits : ∀ address ∈ addresses, (addressTxsBody afterBlock).Fits bodyLimit address)
    (none : ∀ address ∈ addresses, state.index.stream [address] afterBlock = [])
    (outcome : Except Failure (List WalletTransaction))
    (gives : Async.Gives state.serve
      (getTxHistoryByAddresses attempts bodyLimit addresses afterBlock) outcome) :
    outcome = .ok [] := by
  rw [getTxHistoryByAddresses] at gives
  split at gives
  case isTrue => exact Async.gives_pure.mp gives
  case isFalse some' =>
    have succeeds (e : Failure) : ¬ Async.Gives state.serve
        (boundedAddressHistoryRows bodyLimit addresses afterBlock) (.error e) := by
      rintro ⟨trace, static, runs⟩
      obtain ⟨honest, answers⟩ := static_addresses static
      obtain ⟨-, chunk, inside, long, -⟩ := boundedAddressHistoryRows_fails honest answers fits runs
      have empty : state.index.stream chunk afterBlock = [] := by
        rw [List.eq_nil_iff_forall_not_mem]
        intro row member
        obtain ⟨unbounded, past⟩ := (state.index.above _ _ _).mp member
        obtain ⟨address, listed, own⟩ := (state.index.union _ _).mp unbounded
        have there := (state.index.above _ _ _).mpr ⟨own, past⟩
        rw [none address (inside listed)] at there
        cases there
      rw [empty] at long
      exact absurd long (by decide)
    obtain ⟨rows, listed, tail⟩ | ⟨e, failed, -⟩ := Async.gives_bind.mp gives
    · obtain ⟨trace, static, runs⟩ := read_gives_of_ok succeeds listed
      have page := boundedAddressHistoryRows_page (static_addresses static).1 runs
      rw [reference_nil.mpr none] at page
      split at tail
      case isTrue => exact Async.gives_pure.mp tail
      case isFalse =>
        rw [page] at tail
        exact Async.gives_ofExcept.mp ((Async.gives_bind_of fun _ => Async.gives_pure).mp tail)
    · exact absurd (read_gives_of_ok succeeds failed) (succeeds e)

end KoiosState

end WalletBackend.Koios
