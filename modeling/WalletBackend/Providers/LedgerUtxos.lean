import WalletBackend.Blockfrost.AmountSplits
import WalletBackend.Blockfrost.UtxoReads
import WalletBackend.Koios.StaticState
import WalletBackend.Providers.TxAgreement

/-! The unspent outputs of one ledger, as each upstream lists them. Whichever driver a wallet is
served by, it sees the same outputs, so it has the same balance. -/
namespace WalletBackend.Providers
open Interaction Containers

/-- An unspent output of the ledger, and the block that it was created in. -/
structure LedgerUtxo where
  txHash : String
  outputIndex : Nat
  output : LedgerOutput
  stakeAddress : Option String
  block : String
  blockHeight : Nat
  datumHash : Option String
  inlineDatum : Option String
  script : Option Koios.ReferenceScript

namespace LedgerUtxo

def ref (held : LedgerUtxo) : OutputRef := (held.txHash, held.outputIndex)

/-- What a wallet is told of it. -/
def utxo (held : LedgerUtxo) : Utxo where
  txHash := held.txHash
  outputIndex := held.outputIndex
  address := held.output.address
  blockHeight := held.blockHeight
  value := toString held.output.lovelace
  assets := held.output.assets.map LedgerAsset.asset
  datumHash := held.datumHash
  inlineDatum := held.inlineDatum
  referenceScriptHash := held.script.map Koios.ReferenceScript.hash

/-- The row of Koios. -/
def koiosRow (held : LedgerUtxo) : Koios.UtxoRow where
  tx_hash := held.txHash
  tx_index := held.outputIndex
  address := held.output.address
  block_height := held.blockHeight
  value := decimal held.output.lovelace
  asset_list := some (held.output.assets.map LedgerAsset.assetItem)
  datum_hash := held.datumHash
  inline_datum := held.inlineDatum
  reference_script := held.script

/-- The row of Blockfrost, with its address as the listing has it. -/
def blockfrostRow {A : Type} (address : A) (held : LedgerUtxo) : Blockfrost.UtxoRow A where
  address
  tx_hash := held.txHash
  output_index := held.outputIndex
  amount := held.output.amount
  block := held.block
  data_hash := held.datumHash
  inline_datum := held.inlineDatum
  reference_script_hash := held.script.map Koios.ReferenceScript.hash

end LedgerUtxo

structure LedgerUtxos where
  utxos : List LedgerUtxo
  distinct : (utxos.map LedgerUtxo.ref).Nodup

namespace LedgerUtxos

def ofAccount (ledger : LedgerUtxos) (stakeAddress : String) : List LedgerUtxo :=
  ledger.utxos.filter fun held => held.stakeAddress = some stakeAddress

def ofAddress (ledger : LedgerUtxos) (address : String) : List LedgerUtxo :=
  ledger.utxos.filter fun held => held.output.address = address

end LedgerUtxos

/-- Koios holds the outputs of the ledger. -/
def KoiosHolds (ledger : LedgerUtxos) (state : Koios.KoiosState) : Prop :=
  state.utxos.Perm (ledger.utxos.map fun held => ⟨held.koiosRow, held.stakeAddress⟩)

/-- In the trace Blockfrost lists the outputs of the ledger, each owner's in some order, by address
with or without the address itself, and tells the heights of their blocks, or not yet. Any request
may fail. -/
structure BlockfrostHolds (ledger : LedgerUtxos)
    (trace : List (Exchange Unit Blockfrost.Endpoint.Answer)) : Prop where
  account : ∀ stakeAddress, ∃ listing : List (Blockfrost.UtxoRow String),
    listing.Perm ((ledger.ofAccount stakeAddress).map fun held =>
      held.blockfrostRow held.output.address) ∧
    ∀ t page answer, ⟨t, .utxos (.account stakeAddress) page, answer⟩ ∈ trace →
      Blockfrost.Serves listing page answer
  address : ∀ address, ∃ (listing : List (Blockfrost.UtxoRow (Option String)))
      (field : LedgerUtxo → Option String), (∀ held, ∀ said ∈ field held, said = held.output.address) ∧
    listing.Perm ((ledger.ofAddress address).map fun held => held.blockfrostRow (field held)) ∧
    ∀ t page answer, ⟨t, .utxos (.address address) page, answer⟩ ∈ trace →
      Blockfrost.Serves listing page answer
  heights : ∀ held ∈ ledger.utxos, ∀ t row, ⟨t, .blockHeight held.block, .ok (some row)⟩ ∈ trace →
    row.height = held.blockHeight

section Koios

variable {ledger : LedgerUtxos} {state : Koios.KoiosState} {attempts : Koios.ReadAttempts} {T : Type}
  {trace : List (Koios.PageExchange T Koios.UtxoRow String)}

theorem mapUtxo_koiosRow (held : LedgerUtxo) : (Koios.mapUtxo held.koiosRow).toUtxo = held.utxo := by
  simp only [Koios.mapUtxo, LedgerUtxo.koiosRow, LedgerUtxo.utxo, mapAssets_assetItems, text_decimal]

theorem KoiosHolds.accountUtxos (holds : KoiosHolds ledger state) (stakeAddress : String) :
    (state.accountUtxos [stakeAddress]).Perm
      ((ledger.ofAccount stakeAddress).map LedgerUtxo.koiosRow) := by
  rw [Koios.KoiosState.accountUtxos]
  refine ((holds.filter _).map _).trans (.of_eq ?_)
  rw [List.filter_map, List.map_map]
  refine congrArg _ (List.filter_congr fun held _ => ?_)
  simp

theorem KoiosHolds.addressUtxos (holds : KoiosHolds ledger state) (address : String) :
    (state.addressUtxos [address]).Perm ((ledger.ofAddress address).map LedgerUtxo.koiosRow) := by
  rw [Koios.KoiosState.addressUtxos]
  refine ((holds.filter _).map _).trans (.of_eq ?_)
  rw [List.filter_map, List.map_map]
  refine congrArg _ (List.filter_congr fun held _ => ?_)
  simp [LedgerUtxo.koiosRow]

theorem map_mapUtxo (utxos : List LedgerUtxo) :
    ((utxos.map LedgerUtxo.koiosRow).map Koios.mapUtxo).map Koios.ScriptedUtxo.toUtxo =
      utxos.map LedgerUtxo.utxo := by
  rw [List.map_map, List.map_map]
  exact List.map_congr_left fun held _ => mapUtxo_koiosRow held

theorem KoiosHolds.getAccountUtxos (holds : KoiosHolds ledger state) {stakeAddress : String}
    (plain : Koios.Plain stakeAddress) (standing : state.Standing trace)
    {utxos : List Koios.ScriptedUtxo}
    (runs : (Koios.getAccountUtxos attempts stakeAddress).Runs trace (.ok utxos)) :
    (utxos.map Koios.ScriptedUtxo.toUtxo).Perm
      ((ledger.ofAccount stakeAddress).map LedgerUtxo.utxo) := by
  rw [Koios.KoiosState.getAccountUtxos_standing plain standing runs, ← map_mapUtxo]
  exact ((holds.accountUtxos stakeAddress).map _).map _

theorem KoiosHolds.getUtxosByAddresses (holds : KoiosHolds ledger state) {bodyLimit : Nat}
    {addresses : List String} (nodup : addresses.Nodup)
    (plain : ∀ address ∈ addresses, Koios.Plain address) (standing : state.Standing trace)
    {utxos : List Koios.ScriptedUtxo}
    (runs : (Koios.getUtxosByAddresses attempts bodyLimit addresses).Runs trace (.ok utxos)) :
    (utxos.map Koios.ScriptedUtxo.toUtxo).Perm
      ((addresses.flatMap ledger.ofAddress).map LedgerUtxo.utxo) := by
  have apart : (addresses.map fun address => [address]).flatten = addresses := by
    rw [← List.flatMap_def]
    exact List.flatMap_singleton' addresses
  have parts : (state.addressUtxos (addresses.map fun address => [address]).flatten).Perm _ :=
    Koios.KoiosState.addressUtxos_flatten (apart.symm ▸ nodup)
  rw [apart, List.flatMap_map] at parts
  have rows : (state.addressUtxos addresses).Perm
      ((addresses.flatMap ledger.ofAddress).map LedgerUtxo.koiosRow) := by
    rw [List.map_flatMap]
    exact parts.trans (List.Perm.flatMap_left _ fun address _ => holds.addressUtxos address)
  rw [← map_mapUtxo]
  exact ((Koios.KoiosState.getUtxosByAddresses_standing nodup plain standing runs).map _).trans
    ((rows.map _).map _)

end Koios

section Blockfrost

variable {ledger : LedgerUtxos} {A : Type}

/-- The shared spellings decide whether a list is split, not what of it. -/
theorem splitAmount_spelled {output : LedgerOutput} {seenUnits seenUnits' : Option (KeyedMap String String)}
    {amount : Blockfrost.SplitAmount}
    (ok : Blockfrost.splitAmount output.amount seenUnits = .ok (amount, seenUnits')) :
    amount = ⟨toString output.lovelace, output.assets.map LedgerAsset.asset⟩ := by
  obtain ⟨nodup, -, whole, -⟩ := Blockfrost.splitAmount_ok.mp ok
  have alone : Blockfrost.splitAmount output.amount none = .ok (amount, none) :=
    Blockfrost.splitAmount_ok.mpr ⟨nodup, fun item _ => nofun, whole, rfl⟩
  rw [splitAmount_amount] at alone
  cases alone
  rfl

theorem mapUtxo_blockfrostRow {addressOf : A → String} {field : A} {unresolved : Failure}
    {blockHeights : KeyedMap String Nat} {held : LedgerUtxo}
    {seenUnits seenUnits' : Option (KeyedMap String String)} {utxo : Utxo}
    (address : addressOf field = held.output.address)
    (height : ∀ known, blockHeights.get? held.block = some known → known = held.blockHeight)
    (ok : Blockfrost.mapUtxo addressOf unresolved blockHeights (held.blockfrostRow field) seenUnits =
      .ok (utxo, seenUnits')) : utxo = held.utxo := by
  cases split : Blockfrost.splitAmount (held.blockfrostRow field).amount seenUnits with
  | error e => simp [Blockfrost.mapUtxo, split, bind, Except.bind] at ok
  | ok amount =>
    cases known : blockHeights.get? (held.blockfrostRow field).block with
    | none => simp [Blockfrost.mapUtxo, split, known, bind, Except.bind] at ok
    | some blockHeight =>
      have whole := splitAmount_spelled split
      have created : blockHeight = held.blockHeight := height blockHeight known
      simp only [Blockfrost.mapUtxo, split, known, bind, Except.bind, Except.ok.injEq,
        Prod.mk.injEq] at ok
      rw [← ok.1, whole, created]
      simp only [LedgerUtxo.utxo, LedgerUtxo.blockfrostRow, address]

theorem mapUtxos_each {addressOf : A → String} {unresolved : Failure}
    {blockHeights : KeyedMap String Nat} {rows : List (Blockfrost.UtxoRow A)}
    {seenUnits : Option (KeyedMap String String)} {utxos : List Utxo}
    (ok : Blockfrost.mapUtxos addressOf unresolved blockHeights rows seenUnits = .ok utxos) :
    List.Forall₂ (fun row utxo => ∃ seenUnits seenUnits',
      Blockfrost.mapUtxo addressOf unresolved blockHeights row seenUnits = .ok (utxo, seenUnits'))
      rows utxos := by
  induction rows generalizing seenUnits utxos with
  | nil =>
    cases ok
    exact .nil
  | cons row rest ih =>
    obtain ⟨⟨utxo, seenUnits'⟩, head, later⟩ := Koios.bind_ok.mp ok
    obtain ⟨utxos', tail, same⟩ := Koios.bind_ok.mp later
    cases same
    exact .cons ⟨_, _, head⟩ (ih tail)

/-- Rows that are those of the outputs, mapped with the heights of their blocks. -/
theorem mapUtxos_held {addressOf : A → String} {unresolved : Failure}
    {blockHeights : KeyedMap String Nat} {rows : List (Blockfrost.UtxoRow A)}
    {seenUnits : Option (KeyedMap String String)} {utxos : List Utxo} {outputs : List LedgerUtxo}
    {field : LedgerUtxo → A} (listed : rows.Perm (outputs.map fun held => held.blockfrostRow (field held)))
    (address : ∀ held ∈ outputs, addressOf (field held) = held.output.address)
    (heights : ∀ held ∈ outputs, ∀ known, blockHeights.get? held.block = some known →
      known = held.blockHeight)
    (ok : Blockfrost.mapUtxos addressOf unresolved blockHeights rows seenUnits = .ok utxos) :
    utxos.Perm (outputs.map LedgerUtxo.utxo) := by
  obtain ⟨ordered, alike, perm⟩ := List.perm_comp_forall₂ listed
    (List.forall₂_map_left_iff.mpr (List.forall₂_same.mpr fun held _ => rfl) :
      List.Forall₂ (fun row held => row = held.blockfrostRow (field held)) _ outputs)
  have each : utxos = ordered.map LedgerUtxo.utxo := by
    have inside : ordered ⊆ outputs := perm.subset
    have mapped := mapUtxos_each ok
    clear ok listed perm
    induction alike generalizing utxos with
    | nil =>
      cases mapped
      rfl
    | @cons row held rows ordered same _ ih =>
      obtain ⟨here, later⟩ := List.cons_subset.mp inside
      cases mapped with
      | cons head tail =>
        obtain ⟨_, _, head⟩ := head
        rw [same] at head
        rw [mapUtxo_blockfrostRow (address held here) (heights held here) head, ih later tail,
          List.map_cons]
  rw [each]
  exact perm.map LedgerUtxo.utxo

end Blockfrost

end WalletBackend.Providers
