import WalletBackend.Blockfrost.UtxoSnapshots
import WalletBackend.Domain.Casing

/-! The two UTxO reads of the provider return snapshots: the account read as a
whole, the address-set read address by address. -/
namespace WalletBackend.Blockfrost
open Interaction Containers

variable {T : Type} [LinearOrder T] {trace : List (Exchange T Endpoint.Answer)}

theorem refs_of_mapped {A : Type} {addressOf : A → String} {rows : List (UtxoRow A)}
    {utxos : List Utxo} (maps : List.Forall₂ (MapsTo addressOf) rows utxos) :
    utxos.map Utxo.ref = rows.map UtxoRow.ref := by
  induction maps with
  | nil => rfl
  | cons head _ ih => rw [List.map_cons, List.map_cons, ih, head.ref]

/-- Mapping the rows keeps the snapshot. -/
theorem PinnedRows.snapshot {owner : UtxoOwner} {addressOf : owner.AddressField → String}
    {history : UtxoHistory T owner.AddressField} {rows : List (UtxoRow owner.AddressField)}
    {utxos : List Utxo} (pinned : PinnedRows owner history trace rows)
    (maps : List.Forall₂ (MapsTo addressOf) rows utxos) :
    SnapshotOf owner addressOf history trace utxos := by
  obtain ⟨t, answered, same, listed⟩ := pinned
  refine ⟨t, answered, by rw [refs_of_mapped maps]; exact same, fun utxo member => ?_⟩
  obtain ⟨i, bound, rfl⟩ := List.getElem_of_mem member
  have size := maps.length_eq
  have bound' : i < rows.length := by omega
  obtain ⟨s, seen, present⟩ := listed rows[i] (List.getElem_mem bound')
  exact ⟨s, rows[i], seen, present, (List.forall₂_iff_get.mp maps).2 i bound' bound⟩

theorem Account.getAccountUtxos_snapshot {stakeAddress : String}
    {history : UtxoHistory T String} {utxos : List Utxo}
    (runs : (Account.getAccountUtxos stakeAddress).Runs trace (.ok utxos))
    (honest : Honest (.account stakeAddress) history trace) (ordered : Chronological trace) :
    SnapshotOf (.account stakeAddress) id history trace utxos := by
  obtain ⟨before, last, rfl, attempt⟩ := retryScan_runs runs
  have sub := List.sublist_append_right before last
  rw [Async.runs_bind_ok] at attempt
  obtain ⟨walks, lookups, rows, rfl, read, mapped⟩ := attempt
  rw [Account.settle, Async.runs_bind_ok] at mapped
  obtain ⟨_, _, blockHeights, rfl, -, rfl, ok⟩ := mapped
  have inside := (List.sublist_append_left walks _).trans sub
  have pinned := readUtxos_pinned read (honest.sublist inside) (ordered.sublist inside)
  exact (pinned.mono inside).snapshot (mapUtxos_mapsTo ok)

/-- The portions that `mapPortions` concatenates, one for each address. -/
theorem Addresses.mapPortions_portions {blockHeights : KeyedMap String Nat}
    {queried : List String} {perAddress : List (List (UtxoRow (Option String)))}
    {Q : String → List (UtxoRow (Option String)) → Prop} {utxos : List Utxo}
    (reads : List.Forall₂ Q queried perAddress)
    (ok : Addresses.mapPortions blockHeights queried perAddress = .ok utxos) :
    ∃ portions : List (List Utxo), utxos = portions.flatten ∧
      List.Forall₂ (fun address portion => ∃ rows, Q address rows ∧
        List.Forall₂ (MapsTo (Addresses.addressOf address)) rows portion) queried portions := by
  induction reads generalizing utxos with
  | nil =>
    cases ok
    exact ⟨[], rfl, .nil⟩
  | @cons address rows queried perAddress read _ ih =>
    cases head : Addresses.mapPortion blockHeights address rows with
    | error e => simp [Addresses.mapPortions, head, bind, Except.bind] at ok
    | ok portion =>
      cases tail : Addresses.mapPortions blockHeights queried perAddress with
      | error e => simp [Addresses.mapPortions, head, tail, bind, Except.bind] at ok
      | ok rest =>
        simp only [Addresses.mapPortions, head, tail, bind, Except.bind, Except.ok.injEq] at ok
        obtain ⟨portions, rfl, maps⟩ := ih tail
        exact ⟨portion :: portions, ok.symm, .cons ⟨rows, read, mapUtxos_mapsTo head⟩ maps⟩

theorem Addresses.getUtxosByAddresses_snapshots {queried : List String}
    (history : String → UtxoHistory T (Option String)) {utxos : List Utxo}
    (runs : (Addresses.getUtxosByAddresses queried).Runs trace (.ok utxos))
    (honest : ∀ address ∈ queried, Honest (.address address) (history address) trace)
    (ordered : Chronological trace) :
    ∃ portions : List (List Utxo), utxos = portions.flatten ∧
      List.Forall₂ (fun address portion => SnapshotOf (.address address)
        (Addresses.addressOf address) (history address) trace portion) queried portions := by
  unfold Addresses.getUtxosByAddresses at runs
  split at runs
  case isTrue none =>
    obtain ⟨-, same⟩ := runs
    cases same
    rw [List.length_eq_zero_iff.mp none]
    exact ⟨[], rfl, .nil⟩
  case isFalse =>
    obtain ⟨before, last, rfl, attempt⟩ := retryScan_runs runs
    rw [Async.runs_bind_ok] at attempt
    obtain ⟨walks, lookups, perAddress, rfl, fanOut, mapped⟩ := attempt
    rw [Async.runs_bind_ok] at mapped
    obtain ⟨heights, _, blockHeights, rfl, -, rfl, ok⟩ := mapped
    have reads : List.Forall₂ (fun address rows =>
        PinnedRows (.address address) (history address)
          (before ++ (walks ++ (heights ++ []))) rows)
        queried perAddress := by
      refine (fanOut_each fanOut).imp ?_
      rintro address rows ⟨listed, -, part, sub, read⟩
      have inside := sub.trans ((List.sublist_append_left walks (heights ++ [])).trans
        (List.sublist_append_right before _))
      exact (readUtxos_pinned read ((honest address listed).sublist inside)
        (ordered.sublist inside)).mono inside
    obtain ⟨portions, rfl, maps⟩ := Addresses.mapPortions_portions reads ok
    refine ⟨portions, rfl, maps.imp ?_⟩
    rintro address portion ⟨rows, pinned, mapped⟩
    exact pinned.snapshot mapped

/-- Every list that a UTxO read returns is, for the account or for each address
queried, the set as it stood at the instant of one of that read's page requests. -/
theorem utxo_reads_are_snapshots {T : Type} [LinearOrder T]
    (history : (owner : UtxoOwner) → UtxoHistory T owner.AddressField)
    (trace : List (Exchange T Endpoint.Answer))
    (honest : ∀ owner, Honest owner (history owner) trace) (ordered : Chronological trace) :
    (∀ stakeAddress utxos, (Account.getAccountUtxos stakeAddress).Runs trace (.ok utxos) →
      SnapshotOf (.account stakeAddress) id (history (.account stakeAddress)) trace utxos) ∧
    (∀ queried utxos, (Addresses.getUtxosByAddresses queried).Runs trace (.ok utxos) →
      ∃ portions : List (List Utxo), utxos = portions.flatten ∧
        List.Forall₂ (fun address portion => SnapshotOf (.address address)
          (Addresses.addressOf address) (history (.address address)) trace portion)
          queried portions) := by
  constructor
  · intro stakeAddress utxos runs
    exact Account.getAccountUtxos_snapshot runs (honest _) ordered
  · intro queried utxos runs
    exact Addresses.getUtxosByAddresses_snapshots (fun address => history (.address address)) runs
      (fun address _ => honest _) ordered

theorem toLower_lovelace : "lovelace".toLower = "lovelace" := by
  apply String.toList_inj.mp
  rw [toList_toLower]
  decide

theorem five_digits : isDigits "5" = true := by decide

def soleRow {A : Type} (address : A) : UtxoRow A :=
  { tx_hash := "ab", output_index := 0, address := address
    amount := [⟨"lovelace", .digits "5" five_digits, isValidUnit_lovelace⟩], block := "b7"
    data_hash := none, inline_datum := none, reference_script_hash := none }

def soleBlock {T : Type} (t : T) : Exchange T Endpoint.Answer := ⟨t, .blockHeight "b7", .ok (some ⟨7⟩)⟩

/-- The block of the rows is looked up once. -/
theorem soleBlock_resolved {T : Type} {hashes : List String} (one : hashes.eraseDups = ["b7"]) (t : T) :
    (resolveBlockHeights hashes).Runs [soleBlock t] (.ok (KeyedMap.empty.set "b7" 7)) := by
  rw [resolveBlockHeights, one, Async.runs_bind_ok]
  refine ⟨[_], [], [("b7", 7)], rfl, ?_, rfl, rfl⟩
  exact fanOut_lone (by decide) ⟨t, .ok (some ⟨7⟩), [], rfl, rfl, rfl⟩

section Spending

/-! The first output of a hundred and two is spent after the first page was read, so that the first
scan misses the one that is carried to that page. The next two scans agree. -/

variable {A : Type}

def UtxoOwner.soleAddress : (owner : UtxoOwner) → owner.AddressField
  | .account _ => "addr1"
  | .address _ => none

def numberedRow (address : A) (n : Nat) : UtxoRow A :=
  { soleRow address with output_index := n }

def numberedRows (address : A) (first count : Nat) : List (UtxoRow A) :=
  (List.range' first count).map (numberedRow address)

def numberedUtxo (n : Nat) : Utxo :=
  { txHash := "ab", outputIndex := n, address := "addr1", blockHeight := 7, value := "5"
    assets := [], datumHash := none, inlineDatum := none, referenceScriptHash := none }

/-- The outputs that are spent at an instant. -/
def spentBy (t : Nat) : Nat := if t < 2 then 0 else 1

theorem spentBy_mono : Monotone spentBy := by
  intro s t le
  unfold spentBy
  split <;> split <;> omega

theorem refs_numberedRows (address : A) (first count : Nat) :
    (numberedRows address first count).map UtxoRow.ref = (List.range' first count).map ("ab", ·) := by
  rw [numberedRows, List.map_map]
  rfl

theorem numberedRows_distinct (address : A) (first count : Nat) :
    ((numberedRows address first count).map UtxoRow.ref).Nodup := by
  rw [refs_numberedRows]
  exact List.Nodup.map (Prod.mk_right_injective "ab") List.nodup_range'

def spendingHistory (owner : UtxoOwner) : UtxoHistory Nat owner.AddressField where
  listing t := numberedRows owner.soleAddress (spentBy t) (102 - spentBy t)
  distinct t := numberedRows_distinct ..
  noReturn ref := by
    refine ⟨fun s _ t present u between => ?_⟩
    rename_i there
    simp only [Set.mem_ofPred_eq, refs_numberedRows, List.mem_map, List.mem_range'_1] at *
    obtain ⟨n, inside, rfl⟩ := present
    have before := spentBy_mono between.2
    exact ⟨n, by omega, rfl⟩

/-- A page of the listing at an instant. -/
def pageRead {T : Type} (owner : UtxoOwner) (t : T) (page first count : Nat) :
    Exchange T Endpoint.Answer :=
  ⟨t, .utxos owner page, .ok (some (numberedRows owner.soleAddress first count))⟩

/-- Three scans of two pages, and the lookup of the one block. -/
def spendingTrace (owner : UtxoOwner) : List (Exchange Nat Endpoint.Answer) :=
  [pageRead owner 1 1 0 100, pageRead owner 2 2 101 1] ++
    ([pageRead owner 3 1 1 100, pageRead owner 4 2 101 1] ++
      [pageRead owner 5 1 1 100, pageRead owner 6 2 101 1]) ++
    [soleBlock 7]

theorem spendingTrace_honest (owner other : UtxoOwner) :
    Honest other (spendingHistory other) (spendingTrace owner) := by
  intro t page answer member
  simp only [spendingTrace, List.mem_append, List.mem_cons, List.not_mem_nil, or_false] at member
  rcases member with ((member | member) | (member | member) | member | member) | member <;>
    cases member
  all_goals
    change _ = List.take 100 (List.drop _ (List.map _ _))
    rw [← List.map_drop, ← List.map_take]
    rfl

theorem spendingTrace_ordered (owner : UtxoOwner) : Chronological (spendingTrace owner) := by
  simp [Chronological, spendingTrace, pageRead, soleBlock]

theorem scanUtxos_twoPages {T : Type} {owner : UtxoOwner} {changed exceeded : Failure} {more : Nat}
    {s t : T} {first second : List (UtxoRow owner.AddressField)} (full : first.length = 100)
    (short : second.length < 100) :
    (scanUtxos owner (more + 2) changed exceeded).Runs
      [⟨s, .utxos owner 1, .ok (some first)⟩, ⟨t, .utxos owner 2, .ok (some second)⟩]
      (.ok ⟨(ScanRows.empty.append first).append second, true⟩) := by
  refine Async.runs_bind_ok.mpr ⟨[_], [_], _, rfl, runs_getOrUndefined.mpr ⟨s, rfl⟩, ?_⟩
  dsimp only
  rw [if_neg (by rw [full]; decide)]
  refine Async.runs_bind_ok.mpr ⟨[_], [], _, rfl, runs_getOrUndefined.mpr ⟨t, rfl⟩, ?_⟩
  dsimp only
  rw [if_pos (by exact short)]
  exact ⟨rfl, rfl⟩

theorem twoPages_fresh {first second : List (UtxoRow A)}
    (distinct : ((first ++ second).map UtxoRow.ref).Nodup) :
    ((ScanRows.empty.append first).append second).hasDuplicate = false := by
  have keys (scan : ScanRows A) (part : scan.rows.Sublist (first ++ second)) : scan.keys.Nodup := by
    rw [scan.keys_rows]
    change (List.map (OutputRef.key ∘ UtxoRow.ref) _).Nodup
    rw [← List.map_map]
    exact (distinct.sublist (part.map _)).map OutputRef.key_injective
  refine ScanRows.hasDuplicate_append (ScanRows.hasDuplicate_append rfl (keys _ ?_)) (keys _ ?_)
  · rw [ScanRows.append_rows]
    exact List.sublist_append_left first second
  · rw [ScanRows.append_rows, ScanRows.append_rows]
    exact .refl _

/-- Outputs on two pages that stay as they are, read in two scans. -/
theorem readUtxos_twoPages {T : Type} {owner : UtxoOwner} {changed exceeded : Failure} {more : Nat}
    {s t s' t' : T} {first second : List (UtxoRow owner.AddressField)} (full : first.length = 100)
    (short : second.length < 100) (distinct : ((first ++ second).map UtxoRow.ref).Nodup) :
    (readUtxos (scanUtxos owner (more + 2) changed exceeded) changed).Runs
      [⟨s, .utxos owner 1, .ok (some first)⟩, ⟨t, .utxos owner 2, .ok (some second)⟩,
        ⟨s', .utxos owner 1, .ok (some first)⟩, ⟨t', .utxos owner 2, .ok (some second)⟩]
      (.ok (first ++ second)) := by
  have fresh := twoPages_fresh distinct
  refine Async.runs_bind_ok.mpr ⟨[_, _], _, _, rfl, scanUtxos_twoPages full short, ?_⟩
  refine Async.runs_bind_ok.mpr ⟨[_, _], [], _, rfl, scanUtxos_twoPages full short, ?_⟩
  rw [if_pos (agree_iff.mpr ⟨fresh, fresh, rfl⟩)]
  refine ⟨rfl, congrArg _ ?_⟩
  rw [ScanRows.append_rows, ScanRows.append_rows]
  rfl

/-- What the second and third scan find. -/
def leftRows (owner : UtxoOwner) : ScanRows owner.AddressField :=
  (ScanRows.empty.append (numberedRows owner.soleAddress 1 100)).append
    (numberedRows owner.soleAddress 101 1)

theorem leftRows_rows (owner : UtxoOwner) :
    (leftRows owner).rows = numberedRows owner.soleAddress 1 101 := by
  rw [leftRows, ScanRows.append_rows, ScanRows.append_rows]
  rfl

theorem leftRows_fresh (owner : UtxoOwner) : (leftRows owner).hasDuplicate = false :=
  twoPages_fresh (numberedRows_distinct owner.soleAddress 1 101)

theorem readUtxos_spending (owner : UtxoOwner) (changed exceeded : Failure) (more : Nat) :
    (readUtxos (scanUtxos owner (more + 2) changed exceeded) changed).Runs
      [pageRead owner 1 1 0 100, pageRead owner 2 2 101 1, pageRead owner 3 1 1 100,
        pageRead owner 4 2 101 1, pageRead owner 5 1 1 100, pageRead owner 6 2 101 1]
      (.ok (numberedRows owner.soleAddress 1 101)) := by
  have length (first count : Nat) : (numberedRows owner.soleAddress first count).length = count := by
    rw [numberedRows, List.length_map, List.length_range']
  have short (first : Nat) : (numberedRows owner.soleAddress first 1).length < 100 := by
    rw [length]
    decide
  have differ : agree ⟨(ScanRows.empty.append (numberedRows owner.soleAddress 0 100)).append
      (numberedRows owner.soleAddress 101 1), true⟩ ⟨leftRows owner, true⟩ = false := by
    refine Bool.eq_false_iff.mpr fun agrees => ?_
    have same := refs_of_keys (agree_iff.mp agrees).2.2
    rw [leftRows_rows, ScanRows.append_rows, ScanRows.append_rows] at same
    have first := (List.cons.inj same).1
    exact absurd (congrArg Prod.snd first) Nat.zero_ne_one
  have agrees : agree ⟨leftRows owner, true⟩ ⟨leftRows owner, true⟩ = true :=
    agree_iff.mpr ⟨leftRows_fresh owner, leftRows_fresh owner, rfl⟩
  refine Async.runs_bind_ok.mpr ⟨[_, _], _, _, rfl, scanUtxos_twoPages (length ..) (short _), ?_⟩
  refine Async.runs_bind_ok.mpr ⟨[_, _], _, ⟨leftRows owner, true⟩, rfl, scanUtxos_twoPages (length ..) (short _), ?_⟩
  rw [if_neg (Bool.eq_false_iff.mp differ)]
  refine Async.runs_bind_ok.mpr ⟨[_, _], _, ⟨leftRows owner, true⟩, rfl, scanUtxos_twoPages (length ..) (short _), ?_⟩
  rw [if_pos agrees]
  exact ⟨rfl, congrArg _ (leftRows_rows owner)⟩

/-- The heights that the lookup resolves. -/
def soleHeights : KeyedMap String Nat := KeyedMap.empty.set "b7" 7

theorem numberedRows_block (address : A) (first count : Nat) :
    ((numberedRows address first (count + 1)).map UtxoRow.block).eraseDups = ["b7"] := by
  have others : ((numberedRows address (first + 1) count).map UtxoRow.block).filter
      (fun block => !block == "b7") = [] := by
    refine List.filter_eq_nil_iff.mpr fun block member => ?_
    rw [numberedRows, List.map_map] at member
    obtain ⟨n, -, rfl⟩ := List.mem_map.mp member
    exact Bool.false_ne_true
  change (("b7" : String) :: (numberedRows address (first + 1) count).map UtxoRow.block).eraseDups = _
  rw [List.eraseDups_cons, others]
  rfl

section Mapping

variable {addressOf : A → String} {unresolved : Failure} {address : A}
  {seenUnits seenUnits' : Option (KeyedMap String String)} (here : addressOf address = "addr1")

include here

theorem mapUtxo_numbered
    (split : splitAmount (soleRow address).amount seenUnits = .ok (⟨"5", []⟩, seenUnits')) (n : Nat) :
    mapUtxo addressOf unresolved soleHeights (numberedRow address n) seenUnits =
      .ok (numberedUtxo n, seenUnits') := by
  have known : soleHeights.get? (numberedRow address n).block = some 7 := rfl
  have amount : splitAmount (numberedRow address n).amount seenUnits = .ok (⟨"5", []⟩, seenUnits') :=
    split
  have place : addressOf (numberedRow address n).address = "addr1" := here
  simp only [mapUtxo, amount, known, place, bind, Except.bind]
  rfl

theorem mapUtxos_numbered
    (quiet : splitAmount (soleRow address).amount seenUnits = .ok (⟨"5", []⟩, seenUnits))
    (first count : Nat) :
    mapUtxos addressOf unresolved soleHeights (numberedRows address first count) seenUnits =
      .ok ((List.range' first count).map numberedUtxo) := by
  rw [numberedRows]
  induction List.range' first count with
  | nil => rfl
  | cons n rest ih =>
    simp only [List.map_cons, mapUtxos, mapUtxo_numbered here quiet, ih, bind, Except.bind]

end Mapping

theorem mapUtxos_shared {unresolved : Failure} (first count : Nat) :
    mapUtxos id unresolved soleHeights (numberedRows "addr1" first (count + 1)) (some .empty) =
      .ok ((List.range' first (count + 1)).map numberedUtxo) := by
  have spelled : splitAmount (soleRow "addr1").amount (some .empty) =
      .ok (⟨"5", []⟩, some (KeyedMap.empty.set "lovelace" "lovelace")) := by
    simp only [splitAmount, soleRow, List.foldlM_cons, SplitState.add, SplitState.record, toLower_lovelace]
    rfl
  have quiet : splitAmount (soleRow "addr1").amount
      (some (KeyedMap.empty.set "lovelace" "lovelace")) =
        .ok (⟨"5", []⟩, some (KeyedMap.empty.set "lovelace" "lovelace")) := by
    simp only [splitAmount, soleRow, List.foldlM_cons, SplitState.add, SplitState.record, toLower_lovelace]
    rfl
  change mapUtxos id unresolved soleHeights
    (numberedRow "addr1" first :: numberedRows "addr1" (first + 1) count) _ = _
  rw [mapUtxos, mapUtxo_numbered rfl spelled]
  simp only [bind, Except.bind, @mapUtxos_numbered String id unresolved "addr1" _ rfl quiet]
  rfl

theorem mapPortions_numbered (first count : Nat) :
    Addresses.mapPortions soleHeights ["addr1"] [numberedRows none first count] =
      .ok ((List.range' first count).map numberedUtxo) := by
  rw [Addresses.mapPortions, Addresses.mapPortion,
    @mapUtxos_numbered _ (Addresses.addressOf "addr1") _ none none rfl rfl]
  exact congrArg Except.ok (List.append_nil _)

theorem getAccountUtxos_spending : (Account.getAccountUtxos "stake1").Runs
    (spendingTrace (.account "stake1")) (.ok ((List.range' 1 101).map numberedUtxo)) := by
  refine Async.runs_tryCatch.mpr (.inl ⟨_, Async.runs_bind_ok.mpr ?_, rfl⟩)
  refine ⟨_, [_], _, rfl, readUtxos_spending (.account "stake1") _ _ 48, ?_⟩
  exact Async.runs_bind_ok.mpr ⟨[_], [], soleHeights, rfl,
    soleBlock_resolved (numberedRows_block "addr1" 1 100) 7, rfl, mapUtxos_shared 1 100⟩

theorem getUtxosByAddresses_spending : (Addresses.getUtxosByAddresses ["addr1"]).Runs
    (spendingTrace (.address "addr1")) (.ok ((List.range' 1 101).map numberedUtxo)) := by
  refine Async.runs_tryCatch.mpr (.inl ⟨_, Async.runs_bind_ok.mpr ?_, rfl⟩)
  refine ⟨_, [_], [numberedRows none 1 101], rfl,
    fanOut_lone (by decide) (readUtxos_spending (.address "addr1") _ _ 9998), ?_⟩
  refine Async.runs_bind_ok.mpr ⟨[_], [], soleHeights, rfl, ?_, rfl, mapPortions_numbered 1 101⟩
  exact soleBlock_resolved (numberedRows_block (none : Option String) 1 100) 7

/-- Reads of an account and of an address that lose an output between two pages. -/
theorem spending_reads_are_snapshots :
    SnapshotOf (.account "stake1") id (spendingHistory (.account "stake1"))
      (spendingTrace (.account "stake1")) ((List.range' 1 101).map numberedUtxo) ∧
    ∃ portions : List (List Utxo), (List.range' 1 101).map numberedUtxo = portions.flatten ∧
      List.Forall₂ (fun address portion => SnapshotOf (.address address)
        (Addresses.addressOf address) (spendingHistory (.address address))
        (spendingTrace (.address "addr1")) portion) ["addr1"] portions := by
  constructor
  · exact (utxo_reads_are_snapshots spendingHistory (spendingTrace (.account "stake1"))
      (spendingTrace_honest _) (spendingTrace_ordered _)).1 _ _ getAccountUtxos_spending
  · exact (utxo_reads_are_snapshots spendingHistory (spendingTrace (.address "addr1"))
      (spendingTrace_honest _) (spendingTrace_ordered _)).2 _ _ getUtxosByAddresses_spending

end Spending

end WalletBackend.Blockfrost
