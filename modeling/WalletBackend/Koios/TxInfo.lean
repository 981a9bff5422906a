import WalletBackend.Koios.Reads
import WalletBackend.Library.Distinct
import WalletBackend.Library.PoolRuns
import Mathlib.Data.List.Sort

/-! The `/tx_info` read shared by both history paths: detail the chosen hashes and
verify that what comes back is exactly what was asked for. -/
namespace WalletBackend.Koios
open Interaction

/-- `invalidAfter`: a bound past the safe integers is omitted. -/
def InvalidAfter.transform : InvalidAfter → Option Nat
  | .number n => some n
  | .digits n => if maxSafeInteger < n then none else some n

/-- `CERT_KIND`. -/
def certKind (type : String) : CertificateKind :=
  match type with
  | "stake_registration" => .stake_registration
  | "stake_deregistration" => .stake_deregistration
  | "delegation" => .stake_delegation
  | "pool_update" => .pool_registration
  | "pool_retire" => .pool_retirement
  | "vote_delegation" => .vote_delegation
  | "drep_registration" => .drep_registration
  | "drep_update" => .drep_update
  | "drep_deregistration" => .drep_deregistration
  | "committee_hot_auth" => .committee_hot_auth
  | "committee_cold_resign" => .committee_cold_resign
  | "treasury_MIR" => .move_instantaneous_rewards
  | "reserve_MIR" => .move_instantaneous_rewards
  | "genesis" => .genesis_key_delegation
  | _ => .other

def mapCertificate (c : CertRow) : TxCertificate where
  kind := certKind c.type
  index := c.index

def mapTxIo (row : TxIoRow) : TxIo where
  address := row.payment_addr
  value := row.value.text
  assets := mapAssets row.asset_list

def mapTxInput (row : TxInputRow) : TxInput where
  toTxIo := mapTxIo row.toTxIoRow
  txHash := row.tx_hash
  outputIndex := row.tx_index

def mapWithdrawal (w : WithdrawalRow) : Withdrawal where
  stakeAddress := w.stake_addr
  amount := w.amount.text

def mapTx (row : TxInfoRow) : WalletTransaction where
  txHash := row.tx_hash
  block := row.block_height
  blockHash := row.block_hash
  slot := row.absolute_slot
  epoch := row.epoch_no
  blockTime := row.tx_timestamp
  fee := row.fee.text
  ttl := row.invalid_after.bind InvalidAfter.transform
  inputs := (row.inputs.getD []).map mapTxInput
  outputs := (row.outputs.getD []).map mapTxIo
  withdrawals := (row.withdrawals.getD []).map mapWithdrawal
  certificates := (row.certificates.getD []).map mapCertificate
  metadata := row.metadata

/-- The body of a `/tx_info` request. -/
def txInfoBody : BodyBuilder String where
  before := "\x7b\"_tx_hashes\":"
  item hash := "\"" ++ hash ++ "\""
  after := ",\"_inputs\":true,\"_metadata\":true,\"_assets\":true,\"_withdrawals\":true," ++
    "\"_certs\":true\x7d"

/-- Chain order: by block, then by index in the block. -/
def chainOrder (a b : TxInfoRow) : Prop :=
  a.block_height < b.block_height ∨
    (a.block_height = b.block_height ∧ a.tx_block_index ≤ b.tx_block_index)

instance (a b : TxInfoRow) : Decidable (chainOrder a b) := inferInstanceAs (Decidable (_ ∨ _))

instance : Std.Total chainOrder := ⟨fun a b => by unfold chainOrder; omega⟩

instance : IsTrans TxInfoRow chainOrder := ⟨fun a b c => by unfold chainOrder; omega⟩

/-- The hashes seen once every row is known to be requested and not a repetition. -/
def checkRows (requested : List String) :
    (seen : List String) → List TxInfoRow → Except Failure (List String)
  | seen, [] => .ok seen
  | seen, row :: rows =>
      if row.tx_hash ∉ requested then
        .error (.malformed "koios /tx_info returned an unrequested transaction")
      else if row.tx_hash ∈ seen then
        .error (.malformed "koios /tx_info returned a duplicate transaction")
      else checkRows requested (seen ++ [row.tx_hash]) rows

/-- The verification and ordering of the rows that came back. -/
def settleRows (hashes : List String) (rows : List TxInfoRow) :
    Except Failure (List WalletTransaction) := do
  let requested := hashes.eraseDups
  let seen ← checkRows requested [] rows
  if seen.length ≠ requested.length then
    .error (.malformed (s!"koios /tx_info omitted {requested.length - seen.length} of " ++
      s!"{hashes.length} requested transactions"))
  else pure ((rows.insertionSort chainOrder).map mapTx)

def hydrateTxHistory (attempts : ReadAttempts) (bodyLimit : Nat) (hashes : List String) :
    Read (List WalletTransaction) := do
  let rows ← batchAll txInfoBody (fun chunk => get attempts (.txInfo chunk)) bodyLimit hashes
  Async.ofExcept (settleRows hashes rows)

theorem checkRows_ok {requested seen seen' : List String} {rows : List TxInfoRow}
    (ok : checkRows requested seen rows = .ok seen') :
    seen' = seen ++ rows.map TxInfoRow.tx_hash ∧ (∀ row ∈ rows, row.tx_hash ∈ requested) ∧
      (seen.Nodup → seen'.Nodup) := by
  induction rows generalizing seen with
  | nil =>
    cases ok
    exact ⟨(List.append_nil _).symm, nofun, id⟩
  | cons row rows ih =>
    by_cases stray : row.tx_hash ∉ requested
    · rw [checkRows, if_pos stray] at ok
      cases ok
    · by_cases again : row.tx_hash ∈ seen
      · rw [checkRows, if_neg stray, if_pos again] at ok
        cases ok
      · rw [checkRows, if_neg stray, if_neg again] at ok
        obtain ⟨same, asked, keep⟩ := ih ok
        refine ⟨by rw [same]; simp, ?_, fun nodup => keep ?_⟩
        · rintro other member
          obtain rfl | later := List.mem_cons.mp member
          · exact Classical.not_not.mp stray
          · exact asked other later
        · refine List.nodup_append.mpr ⟨nodup, List.nodup_singleton _, ?_⟩
          rintro a member b single rfl
          exact again (List.mem_singleton.mp single ▸ member)

theorem checkRows_of_nodup {requested seen : List String} {rows : List TxInfoRow}
    (asked : ∀ row ∈ rows, row.tx_hash ∈ requested)
    (fresh : (seen ++ rows.map TxInfoRow.tx_hash).Nodup) :
    checkRows requested seen rows = .ok (seen ++ rows.map TxInfoRow.tx_hash) := by
  induction rows generalizing seen with
  | nil => simp [checkRows]
  | cons row rows ih =>
    have known := asked row List.mem_cons_self
    have unseen : row.tx_hash ∉ seen := fun member =>
      (List.nodup_append.mp fresh).2.2 _ member _ (List.mem_cons_self) rfl
    rw [checkRows, if_neg (not_not_intro known), if_neg unseen,
      ih (fun other member => asked other (List.mem_cons_of_mem _ member)) (by simpa using fresh)]
    simp

/-- Transactions on chain: in chain order, no two at one place and no two under one
hash, each hash short enough to be asked for. -/
structure ChainHistory where
  txs : List TxInfoRow
  ordered : txs.Pairwise fun a b => a.block_height < b.block_height ∨
    (a.block_height = b.block_height ∧ a.tx_block_index < b.tx_block_index)
  distinct : (txs.map TxInfoRow.tx_hash).Nodup
  fits : ∀ tx ∈ txs, txInfoBody.Fits KOIOS_BODY_LIMIT_BYTES tx.tx_hash

namespace ChainHistory

variable {history : ChainHistory}

/-- The transactions under `hashes`. -/
def under (history : ChainHistory) (hashes : List String) : List TxInfoRow :=
  history.txs.filter fun tx => tx.tx_hash ∈ hashes

theorem tx_eq {a b : TxInfoRow} (left : a ∈ history.txs) (right : b ∈ history.txs)
    (same : a.tx_hash = b.tx_hash) : a = b :=
  List.inj_on_of_nodup_map history.distinct left right same

/-- No two transactions are at one place in the chain. -/
theorem place_eq {a b : TxInfoRow} (left : a ∈ history.txs) (right : b ∈ history.txs)
    (forth : chainOrder a b) (back : chainOrder b a) : a = b := by
  have forward : history.txs.Pairwise fun a b => chainOrder a b → chainOrder b a → a = b :=
    history.ordered.imp fun less _ back => by unfold chainOrder at back; omega
  have backward : history.txs.Pairwise (flip fun a b => chainOrder a b → chainOrder b a → a = b) :=
    history.ordered.imp fun less back _ => by unfold chainOrder at back; omega
  exact List.Pairwise.forall_of_forall_of_flip (fun _ _ _ _ => rfl) forward backward left right
    forth back

theorem mem_under {hashes : List String} {tx : TxInfoRow} :
    tx ∈ history.under hashes ↔ tx ∈ history.txs ∧ tx.tx_hash ∈ hashes := by
  simp [under]

theorem under_hashes {hashes : List String} (nodup : hashes.Nodup)
    (known : ∀ hash ∈ hashes, hash ∈ history.txs.map TxInfoRow.tx_hash) :
    ((history.under hashes).map TxInfoRow.tx_hash).Perm hashes := by
  have unique : ((history.under hashes).map TxInfoRow.tx_hash).Nodup :=
    history.distinct.sublist (List.filter_sublist.map _)
  refine (List.perm_ext_iff_of_nodup unique nodup).mpr fun hash => ?_
  constructor
  · intro member
    obtain ⟨tx, found, rfl⟩ := List.mem_map.mp member
    exact (mem_under.mp found).2
  · intro member
    obtain ⟨tx, found, rfl⟩ := List.mem_map.mp (known hash member)
    exact List.mem_map_of_mem (mem_under.mpr ⟨found, member⟩)

/-- Rows that come from the chain, one for each hash asked for, sort into it. -/
theorem sort_under {hashes : List String} {rows : List TxInfoRow}
    (listed : ∀ row ∈ rows, row ∈ history.txs) (asked : ∀ row ∈ rows, row.tx_hash ∈ hashes)
    (nodup : (rows.map TxInfoRow.tx_hash).Nodup)
    (all : ∀ hash ∈ hashes, hash ∈ rows.map TxInfoRow.tx_hash) :
    rows.insertionSort chainOrder = history.under hashes := by
  have perm : rows.Perm (history.under hashes) := by
    have unique : (history.under hashes).Nodup := history.distinct.of_map.filter _
    refine (List.perm_ext_iff_of_nodup nodup.of_map unique).mpr fun tx => ?_
    rw [mem_under]
    constructor
    · exact fun member => ⟨listed tx member, asked tx member⟩
    · rintro ⟨member, hash⟩
      obtain ⟨row, found, same⟩ := List.mem_map.mp (all _ hash)
      exact tx_eq (listed row found) member same ▸ found
  have sorted : (history.under hashes).Pairwise chainOrder :=
    (history.ordered.sublist List.filter_sublist).imp fun less =>
      less.imp id fun ⟨same, index⟩ => ⟨same, index.le⟩
  refine ((List.perm_insertionSort chainOrder rows).trans perm).eq_of_pairwise
    (fun a b left right forth back => ?_) (List.pairwise_insertionSort chainOrder rows) sorted
  have left := listed a ((List.mem_insertionSort chainOrder).mp left)
  exact place_eq left (mem_under.mp right).1 forth back

/-- A part of the chain is what stands under its own hashes. -/
theorem under_part {part : List TxInfoRow} (sub : part.Sublist history.txs) :
    history.under (part.map TxInfoRow.tx_hash) = part := by
  have sorted : part.Pairwise chainOrder := (history.ordered.sublist sub).imp fun less =>
    less.imp id fun ⟨same, index⟩ => ⟨same, index.le⟩
  rw [← history.sort_under (fun row member => sub.subset member)
    (fun row member => List.mem_map_of_mem member) (history.distinct.sublist (sub.map _))
    (fun _ member => member), sorted.insertionSort_eq]

end ChainHistory

section Settle

variable {history : ChainHistory} {hashes : List String} {rows : List TxInfoRow}

/-- Rows of the chain that pass the verification are what was asked for. -/
theorem settleRows_ok {result : List WalletTransaction}
    (listed : ∀ row ∈ rows, row ∈ history.txs) (ok : settleRows hashes rows = .ok result) :
    result = (history.under hashes).map mapTx := by
  obtain ⟨seen, checked, rest⟩ := bind_ok.mp ok
  obtain ⟨same, asked, keep⟩ := checkRows_ok checked
  rw [List.nil_append] at same
  have nodup : (rows.map TxInfoRow.tx_hash).Nodup := same ▸ keep List.nodup_nil
  split at rest
  · cases rest
  case isFalse complete =>
    cases rest
    have subset : rows.map TxInfoRow.tx_hash ⊆ hashes.eraseDups := by
      intro hash member
      obtain ⟨row, found, rfl⟩ := List.mem_map.mp member
      exact asked row found
    have perm := (List.subperm_of_subset nodup subset).perm_of_length_le
      (by rw [← same]; exact (Classical.not_not.mp complete).ge)
    rw [history.sort_under listed (fun row member => List.mem_eraseDups.mp (asked row member)) nodup
      fun hash member => perm.mem_iff.mpr (List.mem_eraseDups.mpr member)]

/-- Rows for exactly the hashes asked for pass. -/
theorem settleRows_of_perm (nodup : hashes.Nodup)
    (perm : (rows.map TxInfoRow.tx_hash).Perm hashes) :
    settleRows hashes rows = .ok ((rows.insertionSort chainOrder).map mapTx) := by
  have asked : ∀ row ∈ rows, row.tx_hash ∈ hashes.eraseDups := fun row member =>
    List.mem_eraseDups.mpr (perm.mem_iff.mp (List.mem_map_of_mem member))
  have checked : checkRows hashes.eraseDups [] rows = .ok ([] ++ rows.map TxInfoRow.tx_hash) :=
    checkRows_of_nodup asked (perm.nodup_iff.mpr nodup)
  refine bind_ok.mpr ⟨_, checked, ?_⟩
  rw [List.nil_append, Distinct.eraseDups_of_nodup nodup, if_neg (not_not_intro perm.length_eq)]
  rfl

end Settle

/-- An answer to a `/tx_info` request about transactions of the chain: their rows in
some order, or a failure. -/
def ServesTxInfo (history : ChainHistory) (hashes : List String) :
    Except Failure (List TxInfoRow) → Prop
  | .error _ => True
  | .ok rows => rows.Perm (history.under hashes)

section Hydrate

variable {T : Type} {history : ChainHistory} {attempts : ReadAttempts} {bodyLimit : Nat}
  {hashes : List String} {trace : List (Exchange T Endpoint.Answer)}

/-- A hydrated page is the transactions under its hashes, in chain order. -/
theorem hydrateTxHistory_runs {result : List WalletTransaction}
    (runs : (hydrateTxHistory attempts bodyLimit hashes).Runs trace (.ok result))
    (honest : ∀ t asked answer, ⟨t, .txInfo asked, answer⟩ ∈ trace →
      ServesTxInfo history asked answer) :
    result = (history.under hashes).map mapTx := by
  obtain ⟨first, _, rows, rfl, batch, rfl, settled⟩ := Async.runs_bind_ok.mp runs
  obtain ⟨chunks, perChunk, -, rfl, each⟩ := batchAll_runs batch
  refine settleRows_ok (fun row member => ?_) settled
  obtain ⟨part, answered, found⟩ := List.mem_flatten.mp member
  obtain ⟨i, bound', rfl⟩ := List.getElem_of_mem answered
  have bound : i < chunks.length := each.length_eq ▸ bound'
  obtain ⟨inside, sub, ran⟩ := (List.forall₂_iff_get.mp each).2 i bound bound'
  obtain ⟨t, asked⟩ := get_runs ran
  have serves := honest t _ _ (List.mem_append_left _ (sub.subset asked))
  exact (ChainHistory.mem_under.mp (serves.mem_iff.mp found)).1

/-- Against an upstream that answers every `/tx_info` request, hydration returns. -/
theorem hydrateTxHistory_returns {outcome : Except Failure (List WalletTransaction)}
    (nodup : hashes.Nodup) (known : ∀ hash ∈ hashes, hash ∈ history.txs.map TxInfoRow.tx_hash)
    (fits : ∀ hash ∈ hashes, txInfoBody.Fits bodyLimit hash)
    (runs : (hydrateTxHistory attempts bodyLimit hashes).Runs trace outcome)
    (answers : ∀ t asked answer, ⟨t, .txInfo asked, answer⟩ ∈ trace →
      ∃ rows, answer = .ok rows ∧ rows.Perm (history.under asked)) :
    outcome = .ok ((history.under hashes).map mapTx) := by
  have sends : ∀ {whole : List (Exchange T Endpoint.Answer)}, whole.Sublist trace →
      ∀ chunk part e, part.Sublist whole → ¬ (get attempts (.txInfo chunk)).Runs part (.error e) := by
    intro whole inside chunk part e sub ran
    obtain ⟨t, asked⟩ := get_runs ran
    obtain ⟨_, same, -⟩ := answers t _ _ (inside.subset (sub.subset asked))
    cases same
  obtain ⟨first, _, rows, rfl, batch, rfl, settled⟩ | ⟨e, batch, -⟩ := Async.runs_bind.mp runs
  · obtain ⟨chunks, perChunk, split, rfl, each⟩ := batchAll_runs batch
    have perm : (perChunk.flatten.map TxInfoRow.tx_hash).Perm hashes := by
      rw [← split] at nodup known ⊢
      clear batch settled split
      induction each with
      | nil => exact .nil
      | @cons chunk part chunks perChunk head _ ih =>
        obtain ⟨inside, sub, ran⟩ := head
        obtain ⟨t, asked⟩ := get_runs ran
        obtain ⟨_, same, rows⟩ := answers t _ _ (List.mem_append_left _ (sub.subset asked))
        cases same
        rw [List.flatten_cons] at nodup known
        obtain ⟨left, right, -⟩ := List.nodup_append.mp nodup
        rw [List.flatten_cons, List.flatten_cons, List.map_append]
        refine List.Perm.append ((rows.map _).trans (history.under_hashes left ?_)) (ih ?_ right)
        · exact fun hash member => known hash (List.mem_append_left _ member)
        · exact fun hash member => known hash (List.mem_append_right _ member)
    obtain rfl := settled.symm.trans (settleRows_of_perm nodup perm)
    refine congrArg _ (hydrateTxHistory_runs runs fun t asked answer member => ?_)
    obtain ⟨rows, rfl, served⟩ := answers t asked answer member
    exact served
  · obtain ⟨_, same⟩ := batchAll_returns fits
      (fun chunk _ => sends (List.Sublist.refl _) chunk) batch
    cases same

end Hydrate

end WalletBackend.Koios
