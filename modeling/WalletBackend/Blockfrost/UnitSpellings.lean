import WalletBackend.Blockfrost.AccountWalks
import WalletBackend.Blockfrost.AmountSplits
import WalletBackend.Domain.Casing

/-! The spellings of asset units in the UTxO answers. The account read shares one map of
spellings across all of its rows; the read by addresses splits each row's amounts alone, and
passes on whatever spellings the upstream has. -/
namespace WalletBackend.Blockfrost
open Interaction Containers

/-- The units of the rows, lovelace among them. -/
def rowUnits {A : Type} (rows : List (UtxoRow A)) : List String :=
  rows.flatMap fun row => row.amount.map AmountItem.unit

/-- The units of the assets, as a reader puts them together. -/
def utxoUnits (utxos : List Utxo) : List String :=
  utxos.flatMap fun utxo => utxo.assets.map fun asset => (assetPair asset).1

/-- No unit is there in two casings. -/
def OneSpelling (units : List String) : Prop :=
  ∀ unit ∈ units, ∀ other ∈ units, unit.toLower = other.toLower → unit = other

instance (units : List String) : Decidable (OneSpelling units) :=
  inferInstanceAs (Decidable (∀ unit ∈ units, _))

/-- What both reads ask of a row by itself. -/
structure Admissible {A : Type} (blockHeights : KeyedMap String Nat) (row : UtxoRow A) : Prop where
  nodup : (row.amount.map AmountItem.key).Nodup
  ada : ∃ item ∈ row.amount, item.unit = "lovelace"
  height : ∃ height, blockHeights.get? row.block = some height

/-- A native unit is hexadecimal, and lovelace is not. -/
theorem AmountItem.ada_of_key {item : AmountItem} (same : item.unit.toLower = "lovelace") :
    item.unit = "lovelace" := by
  by_contra native
  have valid := item.valid
  simp only [isValidUnit, Bool.or_eq_true, decide_eq_true_eq, native, false_or, matchesUnitPattern,
    Bool.and_eq_true, List.all_eq_true] at valid
  have hex := valid.1.1.1
  have letters : item.unit.toList.map Char.toLower = "lovelace".toList := by
    rw [← toList_toLower, same]
  obtain ⟨c, member, lower⟩ := List.mem_map.mp (show 'l' ∈ item.unit.toList.map Char.toLower by
    rw [letters]; decide)
  have each : ∀ n < 128, Hex.isDigit (Char.ofNat n) = true → (Char.ofNat n).toLower ≠ 'l' := by decide
  have small : c.toNat < 128 := by
    rcases charToLower_eq c with unchanged | capital
    · rw [← unchanged, lower]
      decide
    · omega
  have other := each c.toNat small
  rw [Char.ofNat_toNat] at other
  exact other (hex c member) lower

section Rows

variable {A : Type} {addressOf : A → String} {unresolved : Failure}
  {blockHeights : KeyedMap String Nat} {row : UtxoRow A} {rows : List (UtxoRow A)}
  {seenUnits seenUnits' : Option (KeyedMap String String)} {utxo : Utxo} {utxos : List Utxo}

/-- A row is mapped if it is admissible and spells its units as the map has them. -/
theorem mapUtxo_accepts :
    (∃ result, mapUtxo addressOf unresolved blockHeights row seenUnits = .ok result) ↔
      Admissible blockHeights row ∧ ∀ item ∈ row.amount, Spelled seenUnits item := by
  constructor
  · rintro ⟨result, ok⟩
    cases split : splitAmount row.amount seenUnits with
    | error e => simp [mapUtxo, split, bind, Except.bind] at ok
    | ok amount =>
      obtain ⟨nodup, spelled, ⟨before, ada, after, items, isAda, -⟩, -⟩ := splitAmount_ok.mp split
      cases height : blockHeights.get? row.block with
      | none => simp [mapUtxo, split, height, bind, Except.bind] at ok
      | some known =>
        exact ⟨⟨nodup, ⟨ada, by rw [items]; simp, isAda⟩, known, height⟩, spelled⟩
  · rintro ⟨⟨nodup, ⟨ada, member, isAda⟩, height, known⟩, spelled⟩
    obtain ⟨before, after, items⟩ := List.append_of_mem member
    have split := splitAmount_ok.mpr ⟨nodup, spelled, ⟨before, ada, after, items, isAda, rfl⟩, rfl⟩
    exact ⟨_, by simp only [mapUtxo, split, known, bind, Except.bind]; rfl⟩

/-- The units of the output are the native units of the row. -/
theorem mapUtxo_units (ok : mapUtxo addressOf unresolved blockHeights row seenUnits =
    .ok (utxo, seenUnits')) : seenUnits' = seenUnits.map (spellingsAfter · row.amount) ∧
      utxoUnits [utxo] = (rowUnits [row]).filter (· ≠ "lovelace") := by
  cases split : splitAmount row.amount seenUnits with
  | error e => simp [mapUtxo, split, bind, Except.bind] at ok
  | ok amount =>
    obtain ⟨nodup, -, ⟨before, ada, after, items, isAda, same⟩, noted⟩ := splitAmount_ok.mp split
    cases height : blockHeights.get? row.block with
    | none => simp [mapUtxo, split, height, bind, Except.bind] at ok
    | some known =>
      simp only [mapUtxo, split, height, bind, Except.bind, Except.ok.injEq, Prod.mk.injEq] at ok
      obtain ⟨rfl, rfl⟩ := ok
      refine ⟨noted, ?_⟩
      rw [items] at nodup
      have others : ((before ++ after).map AmountItem.unit).filter (· ≠ "lovelace") =
          (before ++ after).map AmountItem.unit := by
        refine List.filter_eq_self.mpr fun unit member => ?_
        obtain ⟨item, there, rfl⟩ := List.mem_map.mp member
        simpa using lone_lovelace nodup isAda item there
      rw [List.map_append, List.filter_append] at others
      simp only [utxoUnits, rowUnits, List.flatMap_cons, List.flatMap_nil, List.append_nil, same,
        items, List.map_append, List.map_cons, List.filter_append, List.filter_cons, isAda,
        List.map_map, Function.comp_def, assetPair_assetOf, AmountItem.pair]
      simpa using others.symm

/-- The spellings that a list of rows demands together, if a map is shared. -/
def SharedSpellings (seenUnits : Option (KeyedMap String String)) (rows : List (UtxoRow A)) : Prop :=
  ∀ known, seenUnits = some known → SpelledAlike known (rows.map UtxoRow.amount)

/-- Rows are mapped if each is admissible and they share their spellings. -/
theorem mapUtxos_accepts :
    (∃ utxos, mapUtxos addressOf unresolved blockHeights rows seenUnits = .ok utxos) ↔
      (∀ row ∈ rows, Admissible blockHeights row) ∧ SharedSpellings seenUnits rows := by
  induction rows generalizing seenUnits with
  | nil => exact iff_of_true ⟨[], rfl⟩ ⟨nofun, fun known _ => ⟨nofun, nofun⟩⟩
  | cons row rows ih =>
    have shared (admissible : Admissible blockHeights row)
        (spelled : ∀ item ∈ row.amount, Spelled seenUnits item) :
        SharedSpellings seenUnits (row :: rows) ↔
          SharedSpellings (seenUnits.map (spellingsAfter · row.amount)) rows := by
      cases seenUnits with
      | none => simp [SharedSpellings]
      | some known =>
        simp only [SharedSpellings, Option.some.injEq, forall_eq', Option.map_some, List.map_cons]
        exact spelledAlike_cons admissible.nodup spelled
    constructor
    · rintro ⟨utxos, ok⟩
      cases head : mapUtxo addressOf unresolved blockHeights row seenUnits with
      | error e => simp [mapUtxos, head, bind, Except.bind] at ok
      | ok mapped =>
        obtain ⟨admissible, spelled⟩ := mapUtxo_accepts.mp ⟨mapped, head⟩
        obtain ⟨noted, -⟩ := mapUtxo_units head
        cases tail : mapUtxos addressOf unresolved blockHeights rows mapped.2 with
        | error e => simp [mapUtxos, head, tail, bind, Except.bind] at ok
        | ok rest =>
          obtain ⟨others, alike⟩ := ih.mp ⟨rest, tail⟩
          rw [noted] at alike
          exact ⟨List.forall_mem_cons.mpr ⟨admissible, others⟩, (shared admissible spelled).mpr alike⟩
    · rintro ⟨each, alike⟩
      obtain ⟨admissible, others⟩ := List.forall_mem_cons.mp each
      have spelled : ∀ item ∈ row.amount, Spelled seenUnits item := by
        intro item member prior recorded
        cases seenUnits with
        | none => cases recorded
        | some known =>
          exact (alike known rfl).known row.amount List.mem_cons_self item member prior recorded
      obtain ⟨mapped, head⟩ :
          ∃ result, mapUtxo addressOf unresolved blockHeights row seenUnits = .ok result :=
        mapUtxo_accepts.mpr ⟨admissible, spelled⟩
      obtain ⟨noted, -⟩ := mapUtxo_units head
      obtain ⟨rest, tail⟩ := ih.mpr ⟨others, (shared admissible spelled).mp alike⟩
      rw [← noted] at tail
      exact ⟨mapped.1 :: rest, by simp only [mapUtxos, head, tail, bind, Except.bind]⟩

theorem mapUtxos_units (ok : mapUtxos addressOf unresolved blockHeights rows seenUnits = .ok utxos) :
    utxoUnits utxos = (rowUnits rows).filter (· ≠ "lovelace") := by
  induction rows generalizing seenUnits utxos with
  | nil =>
    cases ok
    rfl
  | cons row rows ih =>
    cases head : mapUtxo addressOf unresolved blockHeights row seenUnits with
    | error e => simp [mapUtxos, head, bind, Except.bind] at ok
    | ok mapped =>
      cases tail : mapUtxos addressOf unresolved blockHeights rows mapped.2 with
      | error e => simp [mapUtxos, head, tail, bind, Except.bind] at ok
      | ok rest =>
        simp only [mapUtxos, head, tail, bind, Except.bind, Except.ok.injEq] at ok
        obtain ⟨-, first⟩ := mapUtxo_units head
        rw [← ok, show mapped.1 :: rest = [mapped.1] ++ rest from rfl,
          show row :: rows = [row] ++ rows from rfl, utxoUnits, rowUnits, List.flatMap_append,
          List.flatMap_append, List.filter_append]
        exact congrArg₂ _ first (ih tail)

/-- Lovelace is spelled in one way to begin with. -/
theorem oneSpelling_native :
    OneSpelling ((rowUnits rows).filter (· ≠ "lovelace")) ↔ OneSpelling (rowUnits rows) := by
  have ada : ∀ unit ∈ rowUnits rows, unit.toLower = "lovelace" → unit = "lovelace" := by
    intro unit member same
    obtain ⟨row, -, listed⟩ := List.mem_flatMap.mp member
    obtain ⟨item, -, rfl⟩ := List.mem_map.mp listed
    exact item.ada_of_key same
  constructor
  · intro alike unit member other member' same
    by_cases left : unit = "lovelace"
    · rw [left, toLower_lovelace] at same
      rw [left, ada other member' same.symm]
    · by_cases right : other = "lovelace"
      · rw [right, toLower_lovelace] at same
        exact absurd (ada unit member same) left
      · exact alike unit (List.mem_filter.mpr ⟨member, by simpa using left⟩) other
          (List.mem_filter.mpr ⟨member', by simpa using right⟩) same
  · exact fun alike unit member other member' =>
      alike unit (List.mem_of_mem_filter member) other (List.mem_of_mem_filter member')

/-- Rows that share an empty map are those that spell each unit in one way. -/
theorem sharedSpellings_empty :
    SharedSpellings (some .empty) rows ↔ OneSpelling (rowUnits rows) := by
  simp only [SharedSpellings, Option.some.injEq, forall_eq']
  constructor
  · intro alike unit member other member' same
    obtain ⟨row, inside, listed⟩ := List.mem_flatMap.mp member
    obtain ⟨item, there, rfl⟩ := List.mem_map.mp listed
    obtain ⟨row', inside', listed'⟩ := List.mem_flatMap.mp member'
    obtain ⟨item', there', rfl⟩ := List.mem_map.mp listed'
    exact alike.each _ (List.mem_map_of_mem inside) item there _ (List.mem_map_of_mem inside')
      item' there' same
  · intro alike
    have unit_mem {items : AmountList} (inside : items ∈ rows.map UtxoRow.amount) {item : AmountItem}
        (member : item ∈ items) : item.unit ∈ rowUnits rows := by
      obtain ⟨row, listed, rfl⟩ := List.mem_map.mp inside
      exact List.mem_flatMap.mpr ⟨row, listed, List.mem_map_of_mem member⟩
    constructor
    · intro items inside item member prior recorded
      cases recorded
    · exact fun items inside item member items' inside' item' member' =>
        alike item.unit (unit_mem inside member) item'.unit (unit_mem inside' member')

end Rows

namespace Addresses

variable {T : Type} {blockHeights : KeyedMap String Nat} {queried : List String}
  {perAddress : List (List (UtxoRow (Option String)))} {utxos : List Utxo}

theorem mapPortions_accepts (size : queried.length = perAddress.length) :
    (∃ utxos, mapPortions blockHeights queried perAddress = .ok utxos) ↔
      ∀ row ∈ perAddress.flatten, Admissible blockHeights row := by
  induction queried generalizing perAddress with
  | nil =>
    obtain rfl := List.length_eq_zero_iff.mp size.symm
    exact iff_of_true ⟨[], rfl⟩ nofun
  | cons address queried ih =>
    obtain ⟨rows, perAddress, rfl⟩ := List.exists_cons_of_length_eq_add_one size.symm
    have portion : (∃ utxos, mapPortion blockHeights address rows = .ok utxos) ↔
        (∀ row ∈ rows, Admissible blockHeights row) ∧ SharedSpellings none rows := mapUtxos_accepts
    have unshared : SharedSpellings none rows := fun known shared => by cases shared
    have others := ih (Nat.succ.inj size)
    rw [List.flatten_cons, List.forall_mem_append, ← others]
    constructor
    · rintro ⟨utxos, ok⟩
      cases head : mapPortion blockHeights address rows with
      | error e => simp [mapPortions, head, bind, Except.bind] at ok
      | ok first =>
        cases tail : mapPortions blockHeights queried perAddress with
        | error e => simp [mapPortions, head, tail, bind, Except.bind] at ok
        | ok rest => exact ⟨(portion.mp ⟨first, head⟩).1, rest, rfl⟩
    · rintro ⟨each, rest, tail⟩
      obtain ⟨first, head⟩ := portion.mpr ⟨each, unshared⟩
      exact ⟨first ++ rest, by simp only [mapPortions, head, tail, bind, Except.bind]⟩

theorem mapPortions_units (size : queried.length = perAddress.length)
    (ok : mapPortions blockHeights queried perAddress = .ok utxos) :
    utxoUnits utxos = (rowUnits perAddress.flatten).filter (· ≠ "lovelace") := by
  induction queried generalizing perAddress utxos with
  | nil =>
    obtain rfl := List.length_eq_zero_iff.mp size.symm
    cases ok
    rfl
  | cons address queried ih =>
    obtain ⟨rows, perAddress, rfl⟩ := List.exists_cons_of_length_eq_add_one size.symm
    cases head : mapPortion blockHeights address rows with
    | error e => simp [mapPortions, head, bind, Except.bind] at ok
    | ok first =>
      cases tail : mapPortions blockHeights queried perAddress with
      | error e => simp [mapPortions, head, tail, bind, Except.bind] at ok
      | ok rest =>
        simp only [mapPortions, head, tail, bind, Except.bind, Except.ok.injEq] at ok
        rw [← ok, List.flatten_cons, utxoUnits, rowUnits, List.flatMap_append, List.flatMap_append,
          List.filter_append]
        exact congrArg₂ _ (mapUtxos_units head) (ih (Nat.succ.inj size) tail)

/-- How an exchange is read as one page of an address. -/
def utxoPages (address : String) : Account.PageView T (UtxoRow (Option String))
  | ⟨_, .utxos (.address queried) page, .ok answer⟩ =>
      if queried = address then some (page, answer) else none
  | _ => none

theorem utxoPages_views (address : String) : Account.Views (utxoPages (T := T) address)
    fun page => getOrUndefined (.utxos (.address address) page) := by
  constructor
  · intro number trace answer runs
    obtain ⟨t, rfl⟩ := runs_getOrUndefined.mp runs
    exact ⟨_, rfl, if_pos rfl⟩
  · intro number trace e runs
    obtain ⟨t, rfl⟩ := Account.getOrUndefined_error runs
    exact ⟨_, rfl, rfl⟩

/-- The rows of each address, as the pages of a complete walk over it listed them. -/
def Listed (trace : List (Exchange T Endpoint.Answer)) (queried : List String)
    (perAddress : List (List (UtxoRow (Option String)))) : Prop :=
  List.Forall₂ (fun address rows => ∃ walk scan, walk.Sublist trace ∧
    (fetchAddressUtxos address).Runs walk (.ok scan) ∧
    rows = Account.rowsRead (utxoPages address) walk) queried perAddress

/-- An answer is made of the rows that the upstream listed, under one set of heights. -/
theorem getUtxosByAddresses_listed {trace : List (Exchange T Endpoint.Answer)}
    (runs : (getUtxosByAddresses queried).Runs trace (.ok utxos)) :
    ∃ perAddress blockHeights, Listed trace queried perAddress ∧
      mapPortions blockHeights queried perAddress = .ok utxos := by
  unfold getUtxosByAddresses at runs
  split at runs
  case isTrue none =>
    obtain ⟨-, same⟩ := runs
    cases same
    obtain rfl := List.length_eq_zero_iff.mp none
    exact ⟨[], .empty, .nil, rfl⟩
  case isFalse =>
    obtain ⟨before, last, rfl, attempt⟩ := retryScan_runs runs
    obtain ⟨walks, lookups, perAddress, rfl, fanned, mapped⟩ := Async.runs_bind_ok.mp attempt
    obtain ⟨heights, _, blockHeights, rfl, -, rfl, ok⟩ := Async.runs_bind_ok.mp mapped
    refine ⟨perAddress, blockHeights, ?_, ok⟩
    refine (fanOut_each fanned).imp ?_
    rintro address rows ⟨-, -, part, sub, read⟩
    obtain ⟨earlier, walk, scan, rfl, scanned, same⟩ := Account.readUtxos_last read
    have inside := (List.sublist_append_right earlier walk).trans (sub.trans
      ((List.sublist_append_left walks (heights ++ [])).trans (List.sublist_append_right before _)))
    refine ⟨walk, scan, inside, scanned, same.symm.trans ?_⟩
    exact Account.scanPages_whole (utxoPages_views _) (le_refl 1) (fun _ => rfl) scanned

/-- The rows of each address in turn. -/
abbrev Portions := List (String × List (UtxoRow (Option String)))

def Portions.rows (portions : Portions) : List (UtxoRow (Option String)) :=
  (portions.map Prod.snd).flatten

/-- The same rows under one stake account, each with the address it stands for. -/
def Portions.accountRows (portions : Portions) : List (UtxoRow String) :=
  portions.flatMap fun portion => portion.2.map fun row =>
    { row with address := addressOf portion.1 row.address }

theorem Portions.accountRows_admissible {portions : Portions} :
    (∀ row ∈ portions.accountRows, Admissible blockHeights row) ↔
      ∀ row ∈ portions.rows, Admissible blockHeights row := by
  have same (row : UtxoRow (Option String)) (address : String) :
      Admissible blockHeights { row with address } ↔ Admissible blockHeights row :=
    ⟨fun admissible => ⟨admissible.nodup, admissible.ada, admissible.height⟩,
      fun admissible => ⟨admissible.nodup, admissible.ada, admissible.height⟩⟩
  simp only [accountRows, rows, List.forall_mem_flatMap, List.forall_mem_map, same,
    List.forall_mem_flatten]

theorem Portions.accountRows_units (portions : Portions) :
    rowUnits portions.accountRows = rowUnits portions.rows := by
  simp only [rowUnits, accountRows, rows, ← List.flatMap_def, List.flatMap_assoc, List.flatMap_map]

end Addresses

open Addresses in
/-- Rows as either read may meet them: they are accepted by both or by neither, and what the
read by addresses makes of them spells each asset in one way. -/
def ReadsAgree (blockHeights : KeyedMap String Nat) (portions : Portions) : Prop :=
  ((∃ utxos, mapUtxos id Account.heightUnresolved blockHeights portions.accountRows (some .empty) =
      .ok utxos) ↔
    ∃ utxos, mapPortions blockHeights (portions.map Prod.fst) (portions.map Prod.snd) = .ok utxos) ∧
  ∀ utxos, mapPortions blockHeights (portions.map Prod.fst) (portions.map Prod.snd) = .ok utxos →
    OneSpelling (utxoUnits utxos)

/-- That is so unless the address read accepts two spellings of one unit. -/
theorem readsAgree_iff (blockHeights : KeyedMap String Nat) (portions : Addresses.Portions) :
    ReadsAgree blockHeights portions ↔
      ((∀ row ∈ portions.rows, Admissible blockHeights row) → OneSpelling (rowUnits portions.rows)) := by
  have size : (portions.map Prod.fst).length = (portions.map Prod.snd).length := by simp
  have byAddresses : (∃ utxos, Addresses.mapPortions blockHeights (portions.map Prod.fst)
      (portions.map Prod.snd) = .ok utxos) ↔
        ∀ row ∈ portions.rows, Admissible blockHeights row := Addresses.mapPortions_accepts size
  have byAccount : (∃ utxos, mapUtxos id Account.heightUnresolved blockHeights portions.accountRows
      (some .empty) = .ok utxos) ↔ (∀ row ∈ portions.rows, Admissible blockHeights row) ∧
        OneSpelling (rowUnits portions.rows) := by
    rw [mapUtxos_accepts, sharedSpellings_empty, portions.accountRows_units,
      Addresses.Portions.accountRows_admissible]
  constructor
  · rintro ⟨together, -⟩ admissible
    exact (byAccount.mp (together.mpr (byAddresses.mpr admissible))).2
  · intro uniform
    constructor
    · rw [byAccount, byAddresses]
      exact ⟨And.left, fun admissible => ⟨admissible, uniform admissible⟩⟩
    · intro utxos ok
      rw [Addresses.mapPortions_units size ok, oneSpelling_native]
      exact uniform (byAddresses.mp ⟨utxos, ok⟩)

/-- The account read never answers with a unit in two casings. -/
theorem Account.getAccountUtxos_oneSpelling {T : Type} {trace : List (Exchange T Endpoint.Answer)}
    {stakeAddress : String} {utxos : List Utxo}
    (runs : (Account.getAccountUtxos stakeAddress).Runs trace (.ok utxos)) :
    OneSpelling (utxoUnits utxos) := by
  obtain ⟨earlier, last, rfl, attempt⟩ := retryScan_runs runs
  obtain ⟨read, after, rows, rfl, -, settled⟩ := Async.runs_bind_ok.mp attempt
  obtain ⟨_, _, blockHeights, rfl, -, rfl, ok⟩ := Async.runs_bind_ok.mp settled
  obtain ⟨-, shared⟩ := mapUtxos_accepts.mp ⟨utxos, ok⟩
  rw [mapUtxos_units ok, oneSpelling_native]
  exact sharedSpellings_empty.mp shared

/-- Spellings are uniform in what the account read answers, and in what the read by addresses
answers exactly when the rows it goes by have them so; the two accept the same rows exactly
when rows that are admissible one by one spell each unit in one way. -/
theorem unit_spellings_iff {T : Type} (trace : List (Exchange T Endpoint.Answer))
    (stakeAddress : String) (queried : List String) (utxos : List Utxo)
    (blockHeights : KeyedMap String Nat) (portions : Addresses.Portions) :
    ((Account.getAccountUtxos stakeAddress).Runs trace (.ok utxos) →
        OneSpelling (utxoUnits utxos)) ∧
      ((Addresses.getUtxosByAddresses queried).Runs trace (.ok utxos) →
        ∃ perAddress, Addresses.Listed trace queried perAddress ∧
          (OneSpelling (utxoUnits utxos) ↔ OneSpelling (rowUnits perAddress.flatten))) ∧
      (ReadsAgree blockHeights portions ↔
        ((∀ row ∈ portions.rows, Admissible blockHeights row) →
          OneSpelling (rowUnits portions.rows))) := by
  refine ⟨Account.getAccountUtxos_oneSpelling, fun runs => ?_, readsAgree_iff blockHeights portions⟩
  obtain ⟨perAddress, blockHeights, listed, ok⟩ := Addresses.getUtxosByAddresses_listed runs
  refine ⟨perAddress, listed, ?_⟩
  rw [Addresses.mapPortions_units listed.length_eq ok, oneSpelling_native]

def smallUnit : String := "abababababababababababababababababababababababababababab"
def capitalUnit : String := "ABABABABABABABABABABABABABABABABABABABABABABABABABABABAB"

theorem smallUnit_valid : isValidUnit smallUnit = true := by decide
theorem capitalUnit_valid : isValidUnit capitalUnit = true := by decide

def heldRow (hash : String) (token : AmountItem) : UtxoRow (Option String) :=
  { soleRow none with
    tx_hash := hash
    amount := [⟨"lovelace", .digits "5" five_digits, isValidUnit_lovelace⟩, token] }

/-- One token, held in two outputs that spell it in two ways. -/
def twoSpellings : List (UtxoRow (Option String)) :=
  [heldRow "a1" ⟨smallUnit, .digits "5" five_digits, smallUnit_valid⟩,
    heldRow "a2" ⟨capitalUnit, .digits "5" five_digits, capitalUnit_valid⟩]

def spelledTrace : List (Exchange Nat Endpoint.Answer) :=
  [⟨1, .utxos (.address "addr1") 1, .ok (some twoSpellings)⟩, soleBlock 2]

theorem twoSpellings_admissible :
    ∀ row ∈ twoSpellings, Admissible (KeyedMap.empty.set "b7" 7) row := by
  have each (hash : String) (token : AmountItem) (native : token.unit ≠ "lovelace") :
      Admissible (KeyedMap.empty.set "b7" 7) (heldRow hash token) := by
    refine ⟨?_, ⟨_, List.mem_cons_self, rfl⟩, 7, KeyedMap.get?_set_self ..⟩
    simp only [heldRow, List.map_cons, List.map_nil, List.nodup_cons, List.mem_singleton,
      List.not_mem_nil, not_false_eq_true, List.nodup_nil, and_true]
    exact fun same => native (token.ada_of_key (same.symm.trans toLower_lovelace))
  intro row member
  obtain rfl | rfl := List.mem_pair.mp member
  · exact each _ _ (by decide)
  · exact each _ _ (by decide)

theorem twoSpellings_apart : ¬ OneSpelling (rowUnits twoSpellings) := by
  intro alike
  have same := alike smallUnit (by decide) capitalUnit (by decide) (by
    rw [← String.toList_inj, toList_toLower, toList_toLower]
    decide)
  exact absurd same (by decide)

/-- The read by addresses passes both spellings on, where the account read accepts neither. -/
theorem twoSpellings_passed :
    (∃ utxos, (Addresses.getUtxosByAddresses ["addr1"]).Runs spelledTrace (.ok utxos) ∧
      ¬ OneSpelling (utxoUnits utxos)) ∧
    ¬ ReadsAgree (KeyedMap.empty.set "b7" 7) [("addr1", twoSpellings)] := by
  constructor
  · obtain ⟨utxos, ok⟩ := (Addresses.mapPortions_accepts (show ["addr1"].length = [twoSpellings].length
      from rfl)).mpr (by simpa using twoSpellings_admissible)
    refine ⟨utxos, ?_, ?_⟩
    · refine Async.runs_tryCatch.mpr (.inl ⟨_, Async.runs_bind_ok.mpr ?_, rfl⟩)
      refine ⟨_, [soleBlock 2], [twoSpellings], rfl,
        fanOut_lone (by decide) ⟨1, .ok (some twoSpellings), [], rfl, rfl, rfl⟩, ?_⟩
      exact Async.runs_bind_ok.mpr ⟨[soleBlock 2], [], _, rfl, soleBlock_resolved rfl 2, rfl, ok⟩
    · rw [Addresses.mapPortions_units rfl ok, oneSpelling_native]
      simpa using twoSpellings_apart
  · rw [readsAgree_iff]
    intro agree
    have uniform := agree (by simpa [Addresses.Portions.rows] using twoSpellings_admissible)
    exact twoSpellings_apart (by simpa [Addresses.Portions.rows] using uniform)

end WalletBackend.Blockfrost
