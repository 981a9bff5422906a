import Mathlib.Order.Basic
import WalletBackend.Blockfrost.Tx
import WalletBackend.Domain.Casing
import WalletBackend.Koios.Tx

/-! What both drivers report of a submitted transaction, while the chain and the mempool change
between their requests. A report is about the moments at which it was read, and absence is never
reported as a failure. -/
namespace WalletBackend.TxLifecycle
open Interaction
open Blockfrost (runs_getOrUndefined runs_get_ok runs_get_error)

/-- The chain and the mempool at one moment, by transaction and block hash. -/
structure Ledger where
  block? : String → Option String
  confirmations? : String → Option Nat
  mempool : String → Prop

/-- The confirmations of a transaction that is on chain. -/
def Ledger.confirmed? (ledger : Ledger) (hash : String) : Option Nat :=
  (ledger.block? hash).bind ledger.confirmations?

/-- The ledger over time. -/
abbrev History (T : Type) := T → Ledger

variable {T : Type}

section Upstreams

variable (history : History T)

/-- An answer of Koios counts the confirmations of what is on chain then. It spells a hash as it
likes, and has a row or none for what is not on chain. -/
def TruthfulKoios (x : Exchange T Koios.Tx.Answer) : Prop :=
  ∀ rows, x.response = .ok rows → ∀ hash ∈ x.request,
    (∀ row ∈ rows, row.tx_hash.toLower = hash →
      row.num_confirmations.map Confirmations.count = (history x.instant).confirmed? hash) ∧
    (rows = [] → (history x.instant).confirmed? hash = none)

/-- An answer of Blockfrost is about the moment it is made at. A miss in the mempool says nothing. -/
def TruthfulBlockfrost : Exchange T Blockfrost.Tx.Request.Answer → Prop
  | ⟨t, .tx hash, answer⟩ => ∀ found, answer = .ok found →
      found.map Blockfrost.Tx.TxRow.block = (history t).block? hash
  | ⟨t, .mempool hash, answer⟩ => ∀ entry : Blockfrost.Tx.MempoolRow,
      answer = .ok (some entry) → entry.hash.toLower = hash → (history t).mempool hash
  | ⟨t, .block hash, answer⟩ => ∀ block : Blockfrost.Tx.BlockRow, answer = .ok (some block) →
      (history t).confirmations? hash = some block.confirmations.count

end Upstreams

section Lookups

open Blockfrost.Tx

variable {hash : String} {trace : List (Exchange T Request.Answer)}

/-- A status from the mempool is that of an entry for the very transaction, or of none. -/
theorem mempoolStatus_runs {status : TxStatus} (runs : (mempoolStatus hash).Runs trace (.ok status)) :
    status = unknownTxStatus ∨ status = pendingTxStatus ∧ ∃ t entry,
      entry.hash.toLower = hash ∧ ⟨t, .mempool hash, .ok (some entry)⟩ ∈ trace := by
  obtain ⟨first, rest, mempool, rfl, looked, continued⟩ := Async.runs_bind_ok.mp runs
  obtain ⟨found, asked, same⟩ | ⟨before, after, failure, rfl, -, recovered⟩ :=
    Async.runs_tryCatch.mp looked
  · cases same
    obtain ⟨t, rfl⟩ := runs_getOrUndefined.mp asked
    cases mempool with
    | none =>
      cases continued.2
      exact .inl rfl
    | some entry =>
      by_cases own : entry.hash.toLower = hash
      · simp only [own, ne_eq, not_true_eq_false, if_false] at continued
        cases continued.2
        exact .inr ⟨rfl, t, entry, own, List.mem_cons_self⟩
      · simp only [own, ne_eq, not_false_eq_true, if_true] at continued
        cases continued.2
  · by_cases unavailable : isUnavailable failure = true
    · rw [if_pos unavailable] at recovered
      cases recovered.2
      cases continued.2
      exact .inl rfl
    · rw [if_neg unavailable] at recovered
      cases recovered.2

/-- How a lookup with Blockfrost fails. The mempool is not needed for it. -/
inductive LookupFailed (trace : List (Exchange T Request.Answer)) (hash : String) : Failure → Prop where
  | tx {t failure} (asked : ⟨t, .tx hash, .error failure⟩ ∈ trace) : LookupFailed trace hash failure
  | block {t block failure} (asked : ⟨t, .block block, .error failure⟩ ∈ trace) :
      LookupFailed trace hash failure
  | noBlock {t block} {path : String} (asked : ⟨t, .block block, .ok none⟩ ∈ trace) :
      LookupFailed trace hash (.provider s!"blockfrost returned 404 for {path}" (some 404) none)
  /-- An entry that cannot be read, or is for another transaction. -/
  | entry {t answer failure} (asked : ⟨t, .mempool hash, answer⟩ ∈ trace)
      (unread : isUnavailable failure = false) : LookupFailed trace hash failure

theorem LookupFailed.mono {part : List (Exchange T Request.Answer)} {failure : Failure}
    (failed : LookupFailed part hash failure) (sub : part.Sublist trace) :
    LookupFailed trace hash failure := by
  cases failed with
  | tx asked => exact .tx (sub.subset asked)
  | block asked => exact .block (sub.subset asked)
  | noBlock asked => exact .noBlock (sub.subset asked)
  | entry asked unread => exact .entry (sub.subset asked) unread

theorem mempool_asked {recover : Failure → StatusRead (Option MempoolRow)}
    {outcome : Except Failure (Option MempoolRow)}
    (runs : (tryCatch (getOrUndefined (.mempool hash)) recover).Runs trace outcome) :
    ∃ t answer, ⟨t, .mempool hash, answer⟩ ∈ trace := by
  obtain ⟨found, asked, -⟩ | ⟨first, rest, failure, rfl, asked, -⟩ := Async.runs_tryCatch.mp runs
  · obtain ⟨t, rfl⟩ := runs_getOrUndefined.mp asked
    exact ⟨t, _, List.mem_cons_self⟩
  · obtain ⟨t, rfl⟩ := runs_getOrUndefined.mp asked
    exact ⟨t, _, List.mem_append_left _ List.mem_cons_self⟩

theorem mempoolStatus_fails {failure : Failure}
    (runs : (mempoolStatus hash).Runs trace (.error failure)) : LookupFailed trace hash failure := by
  obtain ⟨first, rest, mempool, rfl, looked, continued⟩ | ⟨e, looked, same⟩ := Async.runs_bind.mp runs
  · cases mempool with
    | none => cases continued.2
    | some entry =>
      by_cases own : entry.hash.toLower = hash
      · simp only [own, ne_eq, not_true_eq_false, if_false] at continued
        cases continued.2
      · simp only [own, ne_eq, not_false_eq_true, if_true] at continued
        cases continued.2
        obtain ⟨t, answer, member⟩ := mempool_asked looked
        exact .entry (List.mem_append_left _ member) rfl
  · cases same
    obtain ⟨found, -, same⟩ | ⟨before, after, e, rfl, asked, recovered⟩ := Async.runs_tryCatch.mp looked
    · cases same
    · obtain ⟨t, rfl⟩ := runs_getOrUndefined.mp asked
      by_cases unavailable : isUnavailable e = true
      · rw [if_pos unavailable] at recovered
        cases recovered.2
      · rw [if_neg unavailable] at recovered
        cases recovered.2
        exact .entry List.mem_cons_self (eq_false_of_ne_true unavailable)

theorem getTxStatus_fails {failure : Failure}
    (runs : (getTxStatus hash).Runs trace (.error failure)) :
    LookupFailed trace hash.toLower failure := by
  obtain ⟨first, rest, tx, rfl, asked, continued⟩ | ⟨e, asked, same⟩ := Async.runs_bind.mp runs
  · cases tx with
    | none => exact (mempoolStatus_fails continued).mono (List.sublist_append_right ..)
    | some tx =>
      obtain ⟨_, _, _, -, -, published⟩ | ⟨e, read, same⟩ := Async.runs_bind.mp continued
      · cases published.2
      · cases same
        obtain ⟨t, rfl⟩ | ⟨t, rfl, rfl⟩ := runs_get_error read
        · exact .block (List.mem_append_right _ List.mem_cons_self)
        · exact .noBlock (List.mem_append_right _ List.mem_cons_self)
  · cases same
    obtain ⟨t, rfl⟩ := runs_getOrUndefined.mp asked
    exact .tx List.mem_cons_self

end Lookups

variable [Preorder T]

/-- What a report is true of: one moment, or two of which the second is not before the first. -/
inductive Reported (history : History T) (hash : String) : TxStatus → Prop where
  | unknown {t : T} (absent : (history t).confirmed? hash = none ∨ (history t).block? hash = none) :
      Reported history hash unknownTxStatus
  | pending {t t' : T} (later : t ≤ t') (absent : (history t).block? hash = none)
      (waiting : (history t').mempool hash) : Reported history hash pendingTxStatus
  | confirmed {t t' : T} {block : String} {confirmations : Confirmations} (later : t ≤ t')
      (mined : (history t).block? hash = some block)
      (counted : (history t').confirmations? block = some confirmations.count) :
      Reported history hash confirmations.status

theorem Reported.readable {history : History T} {hash : String} {status : TxStatus}
    (reported : Reported history hash status) : Readable status := by
  cases reported with
  | unknown => exact .unknown
  | pending => exact .pending
  | confirmed => exact .confirmed _

/-- What has been in some block at all times is reported as confirmed. -/
theorem Reported.of_mined {history : History T} {hash : String} {status : TxStatus}
    (reported : Reported history hash status)
    (mined : ∀ t, ((history t).confirmed? hash).isSome = true) : status.status = .confirmed := by
  have there (t : T) : (history t).block? hash ≠ none := by
    intro absent
    have counted := mined t
    rw [Ledger.confirmed?, absent] at counted
    cases counted
  cases reported with
  | @unknown t absent =>
    obtain uncounted | absent := absent
    · have counted := mined t
      rw [uncounted] at counted
      cases counted
    · exact absurd absent (there t)
  | pending _ absent => exact absurd absent (there _)
  | confirmed => rfl

section Koios

open Koios.Tx

variable {history : History T} {attempts : Koios.ReadAttempts} {hash : String}

theorem rowOf_some {normalizedHash : String} {rows : List TxStatusRow} {row : TxStatusRow}
    (found : rowOf normalizedHash rows = some row) :
    row ∈ rows ∧ row.tx_hash.toLower = normalizedHash :=
  ⟨List.mem_of_find?_eq_some found, by simpa using List.find?_some found⟩

/-- The report is that of the row about the very transaction. -/
theorem reported_of_rows {rows : List TxStatusRow} {t : T} {status : TxStatus}
    (truthful : TruthfulKoios history ⟨t, [hash], .ok rows⟩)
    (reads : statusOf hash rows = .ok status) : Reported history hash status := by
  obtain ⟨about, none_⟩ := truthful rows rfl hash List.mem_cons_self
  rw [statusOf] at reads
  split at reads
  case isTrue => cases reads
  case isFalse same =>
    cases found : rowOf hash rows with
    | none =>
      have empty : rows = [] := by
        by_contra some_
        exact same ⟨List.length_pos_iff.mpr some_, found⟩
      rw [found] at reads
      cases reads
      exact .unknown (.inl (none_ empty))
    | some row =>
      obtain ⟨member, own⟩ := rowOf_some found
      have counted := about row member own
      rw [found, Option.bind_some] at reads
      cases there : row.num_confirmations with
      | none =>
        rw [there] at reads counted
        cases reads
        exact .unknown (.inl counted.symm)
      | some confirmations =>
        rw [there] at reads counted
        cases reads
        obtain ⟨block, mined, has⟩ := Option.bind_eq_some_iff.mp counted.symm
        exact .confirmed le_rfl mined has

theorem koios_reported {trace : List (Exchange T Answer)} {status : TxStatus}
    (truthful : ∀ x ∈ trace, TruthfulKoios history x)
    (runs : (getTxStatus attempts hash).Runs trace (.ok status)) :
    Reported history hash.toLower status := by
  obtain ⟨first, rest, rows, rfl, read, rfl, reads⟩ := Async.runs_bind_ok.mp runs
  obtain ⟨t, answer, member, rfl⟩ := Koios.read_asked read
  exact reported_of_rows (truthful _ (List.mem_append_left _ member)) reads

end Koios

section Blockfrost

open Blockfrost.Tx

variable {history : History T} {hash : String}
  {trace : List (Exchange T Request.Answer)}

theorem blockfrost_reported {status : TxStatus} (ordered : Chronological trace)
    (truthful : ∀ x ∈ trace, TruthfulBlockfrost history x)
    (runs : (getTxStatus hash).Runs trace (.ok status)) : Reported history hash.toLower status := by
  obtain ⟨first, rest, tx, rfl, asked, continued⟩ := Async.runs_bind_ok.mp runs
  obtain ⟨t, rfl⟩ := runs_getOrUndefined.mp asked
  have looked := truthful _ (List.mem_append_left _ List.mem_cons_self) tx rfl
  have after : ∀ x ∈ rest, t ≤ x.instant := fun x member =>
    List.rel_of_pairwise_cons ordered member
  cases tx with
  | none =>
    obtain rfl | ⟨rfl, t', entry, own, member⟩ := mempoolStatus_runs continued
    · exact .unknown (.inr looked.symm)
    · exact .pending (after _ member) looked.symm
        (truthful _ (List.mem_append_right _ member) entry rfl own)
  | some tx =>
    obtain ⟨read, tail, block, rfl, asked, rfl, same⟩ := Async.runs_bind_ok.mp continued
    cases same
    obtain ⟨t', rfl⟩ := runs_get_ok.mp asked
    exact .confirmed (after _ List.mem_cons_self) looked.symm
      (truthful _ (List.mem_append_right _ List.mem_cons_self) block rfl)

end Blockfrost

/-- A status that is served is true to the ledger, however that changes while a driver reads it, and
is about the transaction asked for. -/
structure Honest (history : History T) (hash : String) (status : TxStatus) : Prop where
  reported : Reported history hash.toLower status
  /-- The route passes it on as it is. -/
  published : publicTxStatus status = .ok status
  /-- No wallet is told to give up a transaction. -/
  kept : status.overlayAction ≠ .rollback
  mined : (∀ t, ((history t).confirmed? hash.toLower).isSome = true) → status.status = .confirmed

theorem Reported.honest {history : History T} {hash : String} {status : TxStatus}
    (reported : Reported history hash.toLower status) : Honest history hash status :=
  ⟨reported, reported.readable.published.1, reported.readable.published.2, reported.of_mined⟩

theorem statusOf_ne_pending {hash : String} {rows : List Koios.Tx.TxStatusRow} {status : TxStatus}
    (reads : Koios.Tx.statusOf hash rows = .ok status) : status ≠ pendingTxStatus := by
  rw [Koios.Tx.statusOf] at reads
  split at reads
  case isTrue => cases reads
  case isFalse =>
    split at reads
    case h_1 =>
      cases reads
      exact nofun
    case h_2 =>
      cases reads
      exact nofun

/-- Whatever blocks come and go while a driver reads, a transaction is reported as confirmed only with
the confirmations of the block that was seen to hold it, as pending only if it was missed on chain
and then seen in the mempool, and as unknown only if it was missed on chain; never as failed. One
that is on chain throughout is reported as confirmed. A mempool that cannot be asked fails no
read. -/
theorem status_honest (history : History T) (hash : String) (attempts : Koios.ReadAttempts) :
    (∀ (trace : List (Exchange T Koios.Tx.Answer)) status,
      (∀ x ∈ trace, TruthfulKoios history x) →
      (Koios.Tx.getTxStatus attempts hash).Runs trace (.ok status) →
      Honest history hash status ∧ status ≠ pendingTxStatus) ∧
    (∀ (trace : List (Exchange T Blockfrost.Tx.Request.Answer)) status, Chronological trace →
      (∀ x ∈ trace, TruthfulBlockfrost history x) →
      (Blockfrost.Tx.getTxStatus hash).Runs trace (.ok status) → Honest history hash status) ∧
    ∀ (trace : List (Exchange T Blockfrost.Tx.Request.Answer)) failure,
      (Blockfrost.Tx.getTxStatus hash).Runs trace (.error failure) →
      LookupFailed trace hash.toLower failure := by
  refine ⟨fun trace status truthful runs => ⟨(koios_reported truthful runs).honest, ?_⟩,
    fun trace status ordered truthful runs => (blockfrost_reported ordered truthful runs).honest,
    fun trace failure => getTxStatus_fails⟩
  obtain ⟨-, -, rows, -, -, -, reads⟩ := Async.runs_bind_ok.mp runs
  exact statusOf_ne_pending reads

section Example

/-- A transaction that reaches a block between the two requests for it. -/
def arriving (t : Nat) : Ledger where
  block? _ := if t = 0 then none else some "b"
  confirmations? _ := some 0
  mempool _ := True

def arrivingTrace : List (Exchange Nat Blockfrost.Tx.Request.Answer) :=
  [⟨0, .tx "AA".toLower, .ok none⟩, ⟨1, .mempool "AA".toLower, .ok (some ⟨"AA"⟩)⟩]

theorem arriving_honest : Honest arriving "AA" pendingTxStatus := by
  have waiting : (Blockfrost.Tx.mempoolStatus "AA".toLower).Runs
      [⟨1, .mempool "AA".toLower, .ok (some ⟨"AA"⟩)⟩] (.ok pendingTxStatus) := by
    refine Async.runs_bind_ok.mpr ⟨[_], [], some ⟨"AA"⟩, rfl, ?_, ?_⟩
    · exact Async.runs_tryCatch.mpr (.inl ⟨_, runs_getOrUndefined.mpr ⟨1, rfl⟩, rfl⟩)
    · simp only [ne_eq, not_true_eq_false, if_false]
      exact ⟨rfl, rfl⟩
  refine (status_honest arriving "AA" .single).2.1 arrivingTrace pendingTxStatus ?_ ?_ ?_
  · exact List.pairwise_pair.mpr (Nat.zero_le 1)
  · intro x member
    obtain rfl | member := List.mem_cons.mp member
    · rintro found same
      cases same
      rfl
    · rw [List.mem_singleton.mp member]
      exact fun _ _ _ => trivial
  · exact Async.runs_bind_ok.mpr ⟨[_], [_], none, rfl, runs_getOrUndefined.mpr ⟨0, rfl⟩, waiting⟩

end Example

end WalletBackend.TxLifecycle
