import WalletBackend.Blockfrost.Blocks

/-! Paged UTxO walks. Blockfrost offers offset pages and no snapshot token, so a
walk of more than one page, or one that met an output twice, is repeated until
two consecutive complete walks list the same outputs in the same order. The
account and the address module hold one copy of this code each; the copies
differ in the page ceiling and in the texts of the two errors. -/
namespace WalletBackend.Blockfrost
open Interaction Containers

def UTXO_PAGE_SIZE : Nat := 100
def UTXO_CONSISTENCY_SCANS : Nat := 3

variable {A : Type}

def utxoKey (row : UtxoRow A) : String := row.ref.key

/-- The rows appended so far, their keys, the set of keys seen and whether a key
was ever seen again. -/
structure ScanRows (A : Type) where
  rows : List (UtxoRow A)
  keys : List String
  seen : List String
  hasDuplicate : Bool
  keys_rows : keys = rows.map utxoKey
  mem_seen : ∀ key, key ∈ seen ↔ key ∈ keys
  duplicate : hasDuplicate = false → keys.Nodup

namespace ScanRows

def empty : ScanRows A where
  rows := []
  keys := []
  seen := []
  hasDuplicate := false
  keys_rows := rfl
  mem_seen := fun _ => Iff.rfl
  duplicate := fun _ => List.nodup_nil

def push (acc : ScanRows A) (row : UtxoRow A) : ScanRows A where
  rows := acc.rows ++ [row]
  keys := acc.keys ++ [utxoKey row]
  seen := utxoKey row :: acc.seen
  hasDuplicate := acc.hasDuplicate || decide (utxoKey row ∈ acc.seen)
  keys_rows := by simp [acc.keys_rows]
  mem_seen := by simp [acc.mem_seen, or_comm]
  duplicate := by
    intro fresh
    simp only [Bool.or_eq_false_iff, decide_eq_false_iff_not, acc.mem_seen] at fresh
    exact List.nodup_append.mpr ⟨acc.duplicate fresh.1, by simp, by
      rintro a member b single rfl
      exact fresh.2 (List.mem_singleton.mp single ▸ member)⟩

/-- `append(pageRows)`. -/
def append (acc : ScanRows A) (pageRows : List (UtxoRow A)) : ScanRows A :=
  pageRows.foldl push acc

@[simp] theorem append_rows (acc : ScanRows A) (pageRows : List (UtxoRow A)) :
    (acc.append pageRows).rows = acc.rows ++ pageRows := by
  induction pageRows generalizing acc with
  | nil => simp [append]
  | cons row rest ih =>
    change ((acc.push row).append rest).rows = _
    simp [ih, push]

theorem hasDuplicate_append {acc : ScanRows A} {pageRows : List (UtxoRow A)}
    (fresh : acc.hasDuplicate = false) (distinct : (acc.append pageRows).keys.Nodup) :
    (acc.append pageRows).hasDuplicate = false := by
  induction pageRows generalizing acc with
  | nil => exact fresh
  | cons row rest ih =>
    refine @ih (acc.push row) ?_ distinct
    rw [keys_rows, append_rows, List.map_append, List.map_cons, ← keys_rows,
      List.nodup_append'] at distinct
    have new : utxoKey row ∉ acc.keys := fun old => distinct.2.2 old List.mem_cons_self
    change (acc.hasDuplicate || decide (utxoKey row ∈ acc.seen)) = false
    rw [fresh, Bool.false_or, decide_eq_false_iff_not, acc.mem_seen]
    exact new

end ScanRows

structure UtxoScan (A : Type) where
  found : ScanRows A
  needsVerification : Bool

/-- Walk pages until one comes back short. The page after the last permitted one
only tells an exact fit from a truncation. -/
def scanPages (owner : UtxoOwner) (changed exceeded : Failure) :
    (remaining page : Nat) → ScanRows owner.AddressField → Read (UtxoScan owner.AddressField)
  | 0, page, acc => do
      match ← getOrUndefined (.utxos owner page) with
      | none => pure { found := acc, needsVerification := true }
      | some probe =>
          if probe.length = 0 then pure { found := acc, needsVerification := true }
          else throw exceeded
  | remaining + 1, page, acc => do
      match ← getOrUndefined (.utxos owner page) with
      | none =>
          if page = 1 then pure { found := .empty, needsVerification := false }
          else throw changed
      | some pageRows =>
          let acc := acc.append pageRows
          if pageRows.length < UTXO_PAGE_SIZE then
            pure { found := acc, needsVerification := page > 1 }
          else scanPages owner changed exceeded remaining (page + 1) acc

def scanUtxos (owner : UtxoOwner) (maxPages : Nat) (changed exceeded : Failure) :
    Read (UtxoScan owner.AddressField) :=
  scanPages owner changed exceeded maxPages 1 .empty

def sameKeys (left right : List String) : Bool := left = right

/-- Two consecutive walks that agree, neither of which met an output twice. -/
def agree (previous current : UtxoScan A) : Bool :=
  !previous.found.hasDuplicate && !current.found.hasDuplicate &&
    sameKeys previous.found.keys current.found.keys

/-- Scan again, at most `scans` more times, until two consecutive walks agree. -/
def verifyScan (scan : Read (UtxoScan A)) (changed : Failure) :
    Nat → UtxoScan A → Read (List (UtxoRow A))
  | 0, _ => throw changed
  | scans + 1, previous => do
      let current ← scan
      if agree previous current then pure current.found.rows
      else verifyScan scan changed scans current

def readUtxos (scan : Read (UtxoScan A)) (changed : Failure) :
    Read (List (UtxoRow A)) := do
  let first ← scan
  if !first.needsVerification && !first.found.hasDuplicate then pure first.found.rows
  else verifyScan scan changed (UTXO_CONSISTENCY_SCANS - 1) first

/-- `mapUtxo` of one module: how the address field is read, what an unresolved
height is reported as, and the spellings seen so far when they are shared. -/
def mapUtxo (addressOf : A → String) (unresolved : Failure)
    (blockHeights : KeyedMap String Nat) (row : UtxoRow A)
    (seenUnits : Option (KeyedMap String String)) :
    Except Failure (Utxo × Option (KeyedMap String String)) := do
  let (amount, seenUnits) ← splitAmount row.amount seenUnits
  match blockHeights.get? row.block with
  | none => .error unresolved
  | some blockHeight =>
      .ok ({ txHash := row.tx_hash
             outputIndex := row.output_index
             address := addressOf row.address
             blockHeight := blockHeight
             value := amount.value
             assets := amount.assets
             datumHash := row.data_hash
             inlineDatum := row.inline_datum
             referenceScriptHash := row.reference_script_hash }, seenUnits)

/-- `rows.map(row => mapUtxo(row, ..))`, threading the shared spellings. -/
def mapUtxos (addressOf : A → String) (unresolved : Failure)
    (blockHeights : KeyedMap String Nat) :
    List (UtxoRow A) → Option (KeyedMap String String) → Except Failure (List Utxo)
  | [], _ => .ok []
  | row :: rest, seenUnits => do
      let (utxo, seenUnits) ← mapUtxo addressOf unresolved blockHeights row seenUnits
      let utxos ← mapUtxos addressOf unresolved blockHeights rest seenUnits
      .ok (utxo :: utxos)

/-- The output a row is mapped to carries all of the row's data; its height and
the asset spellings already seen come from elsewhere in the read. -/
def MapsTo (addressOf : A → String) (row : UtxoRow A) (utxo : Utxo) : Prop :=
  ∃ unresolved blockHeights seenUnits seenUnits',
    mapUtxo addressOf unresolved blockHeights row seenUnits = .ok (utxo, seenUnits')

theorem mapUtxos_mapsTo {addressOf : A → String} {unresolved : Failure}
    {blockHeights : KeyedMap String Nat} {rows : List (UtxoRow A)}
    {seenUnits : Option (KeyedMap String String)} {utxos : List Utxo}
    (ok : mapUtxos addressOf unresolved blockHeights rows seenUnits = .ok utxos) :
    List.Forall₂ (MapsTo addressOf) rows utxos := by
  induction rows generalizing seenUnits utxos with
  | nil =>
    cases ok
    exact .nil
  | cons row rest ih =>
    cases head : mapUtxo addressOf unresolved blockHeights row seenUnits with
    | error e => simp [mapUtxos, head, bind, Except.bind] at ok
    | ok mapped =>
      obtain ⟨utxo, seenUnits'⟩ := mapped
      cases tail : mapUtxos addressOf unresolved blockHeights rest seenUnits' with
      | error e => simp [mapUtxos, head, tail, bind, Except.bind] at ok
      | ok utxos' =>
        simp only [mapUtxos, head, tail, bind, Except.bind, Except.ok.injEq] at ok
        subst ok
        exact .cons ⟨_, _, _, _, head⟩ (ih tail)

theorem MapsTo.ref {addressOf : A → String} {row : UtxoRow A} {utxo : Utxo}
    (maps : MapsTo addressOf row utxo) : utxo.ref = row.ref := by
  obtain ⟨unresolved, blockHeights, seenUnits, seenUnits', ok⟩ := maps
  cases amount : splitAmount row.amount seenUnits with
  | error e => simp [mapUtxo, amount, bind, Except.bind] at ok
  | ok split =>
    cases height : blockHeights.get? row.block with
    | none => simp [mapUtxo, amount, height, bind, Except.bind] at ok
    | some blockHeight =>
      simp only [mapUtxo, amount, height, bind, Except.bind, Except.ok.injEq,
        Prod.mk.injEq] at ok
      rw [← ok.1]
      rfl

end WalletBackend.Blockfrost
