import WalletBackend.Library.KeyedJoin
import WalletBackend.Providers.LedgerHistory
import WalletBackend.Providers.LedgerUtxos

/-! Both drivers answer a UTxO read with the outputs of the ledger. -/
namespace WalletBackend.Providers
open Interaction Containers Blockfrost

section Walks

variable {part : List (Exchange Unit Endpoint.Answer)}

theorem lookupBlock_told {hash : String} {attempts : Nat} {entry : String × Nat}
    (runs : (lookupBlock hash attempts).Runs part (.ok entry)) :
    entry.1 = hash ∧ ∃ t row, ⟨t, .blockHeight hash, .ok (some row)⟩ ∈ part ∧ entry.2 = row.height := by
  induction attempts generalizing part with
  | zero => cases runs.2
  | succ attempts ih =>
    obtain ⟨first, rest, found, rfl, asked, later⟩ := Async.runs_bind_ok.mp runs
    obtain ⟨t, rfl⟩ := runs_getOrUndefined.mp asked
    cases found with
    | none =>
      obtain ⟨same, t', row, told, height⟩ := ih later
      exact ⟨same, t', row, List.mem_append_right _ told, height⟩
    | some row =>
      obtain ⟨-, same⟩ := later
      cases same
      exact ⟨rfl, t, row, List.mem_append_left _ List.mem_cons_self, rfl⟩

/-- The heights that a read resolves are those that it was told. -/
theorem resolveBlockHeights_told {hashes : List String} {heights : KeyedMap String Nat}
    (runs : (resolveBlockHeights hashes).Runs part (.ok heights)) {hash : String} {height : Nat}
    (known : heights.get? hash = some height) :
    ∃ t row, ⟨t, .blockHeight hash, .ok (some row)⟩ ∈ part ∧ height = row.height := by
  obtain ⟨first, rest, entries, rfl, looked, done⟩ := Async.runs_bind_ok.mp runs
  obtain ⟨-, same⟩ := done
  cases same
  obtain ⟨size, each⟩ := fanOut_runs looked
  have written : (KeyedMap.empty.setAll entries).get? hash = some height := known
  obtain listed | impossible := KeyedMap.get?_setAll_some written
  · obtain ⟨i, bound, at_⟩ := List.getElem_of_mem listed
    obtain ⟨inside, entry, sub, ran, found⟩ := each i (size ▸ bound)
    rw [List.getElem?_eq_getElem bound, at_] at found
    cases found
    obtain ⟨hash', t, row, told, same⟩ := lookupBlock_told ran
    cases hash'
    exact ⟨t, row, List.mem_append_left _ (sub.subset told), same⟩
  · rw [KeyedMap.get?_empty] at impossible
    cases impossible

/-- Outputs that nobody touches. -/
def UtxoHistory.quiet {A : Type} (rows : List (UtxoRow A)) (distinct : (rows.map UtxoRow.ref).Nodup) :
    UtxoHistory Unit A where
  listing _ := rows
  distinct _ := distinct
  noReturn _ := ⟨fun _ present _ _ _ _ => present⟩

/-- A verified read of a listing that stays as it is returns it, in some order. -/
theorem readUtxos_standing (owner : UtxoOwner) {maxPages : Nat} {changed exceeded : Failure}
    {listing rows : List (UtxoRow owner.AddressField)} (distinct : (listing.map UtxoRow.ref).Nodup)
    (serves : ∀ t page answer, ⟨t, .utxos owner page, answer⟩ ∈ part → Serves listing page answer)
    (runs : (readUtxos (scanUtxos owner maxPages changed exceeded) changed).Runs part (.ok rows)) :
    rows.Perm listing := by
  have honest : Honest owner (UtxoHistory.quiet listing distinct) part := serves
  have ordered : Chronological part := List.pairwise_of_forall fun _ _ => le_refl ()
  obtain ⟨_, -, same, listed⟩ := readUtxos_pinned runs honest ordered
  have once : (rows.map UtxoRow.ref).Nodup := same.nodup_iff.mpr distinct
  have inside : rows ⊆ listing := fun row member => (listed row member).choose_spec.2
  have length := same.length_eq
  rw [List.length_map, List.length_map] at length
  exact (once.of_map.subperm inside).perm_of_length_le length.ge

end Walks

section Reads

variable {ledger : LedgerUtxos} {trace : List (Exchange Unit Endpoint.Answer)}

theorem listing_distinct {A : Type} {outputs : List LedgerUtxo} {field : LedgerUtxo → A}
    {listing : List (UtxoRow A)} (inside : outputs.Sublist ledger.utxos)
    (lists : listing.Perm (outputs.map fun held => held.blockfrostRow (field held))) :
    (listing.map UtxoRow.ref).Nodup := by
  refine (lists.map UtxoRow.ref).nodup_iff.mpr ?_
  rw [List.map_map]
  exact ledger.distinct.sublist (inside.map LedgerUtxo.ref)

theorem BlockfrostHolds.known (holds : BlockfrostHolds ledger trace)
    {part : List (Exchange Unit Endpoint.Answer)} (sub : part.Sublist trace)
    {hashes : List String} {heights : KeyedMap String Nat}
    (runs : (resolveBlockHeights hashes).Runs part (.ok heights)) {outputs : List LedgerUtxo}
    (inside : outputs ⊆ ledger.utxos) : ∀ held ∈ outputs, ∀ known,
      heights.get? held.block = some known → known = held.blockHeight := by
  intro held member known found
  obtain ⟨t, row, told, rfl⟩ := resolveBlockHeights_told runs found
  exact holds.heights held (inside member) t row (sub.subset told)

theorem BlockfrostHolds.getAccountUtxos (holds : BlockfrostHolds ledger trace) {stakeAddress : String}
    {utxos : List Utxo} (runs : (Account.getAccountUtxos stakeAddress).Runs trace (.ok utxos)) :
    utxos.Perm ((ledger.ofAccount stakeAddress).map LedgerUtxo.utxo) := by
  obtain ⟨before, last, rfl, attempt⟩ := retryScan_runs runs
  have sub := List.sublist_append_right before last
  obtain ⟨walks, lookups, rows, rfl, read, settled⟩ := Async.runs_bind_ok.mp attempt
  obtain ⟨heights, _, blockHeights, rfl, resolved, rfl, ok⟩ := Async.runs_bind_ok.mp settled
  have walked := (List.sublist_append_left walks (heights ++ [])).trans sub
  have lookedUp := ((List.sublist_append_left heights []).trans
    (List.sublist_append_right walks _)).trans sub
  obtain ⟨listing, lists, serves⟩ := holds.account stakeAddress
  have inside : (ledger.ofAccount stakeAddress).Sublist ledger.utxos := List.filter_sublist
  have listed := (readUtxos_standing (.account stakeAddress) (listing_distinct inside lists)
    (fun t page answer member => serves t page answer (walked.subset member)) read).trans lists
  exact mapUtxos_held listed (fun _ _ => rfl) (holds.known lookedUp resolved inside.subset) ok

/-- The portions that are concatenated, one for each address. -/
theorem mapPortions_each {blockHeights : KeyedMap String Nat} {queried : List String}
    {perAddress : List (List (UtxoRow (Option String)))}
    {Q : String → List (UtxoRow (Option String)) → Prop} {outputs : String → List Utxo}
    (reads : List.Forall₂ Q queried perAddress)
    (portions : ∀ address rows portion, Q address rows →
      Addresses.mapPortion blockHeights address rows = .ok portion → portion.Perm (outputs address))
    {utxos : List Utxo} (ok : Addresses.mapPortions blockHeights queried perAddress = .ok utxos) :
    utxos.Perm (queried.flatMap outputs) := by
  induction reads generalizing utxos with
  | nil =>
    cases ok
    exact .nil
  | @cons address rows queried perAddress read _ ih =>
    obtain ⟨portion, head, later⟩ := Koios.bind_ok.mp ok
    obtain ⟨rest, tail, same⟩ := Koios.bind_ok.mp later
    cases same
    rw [List.flatMap_cons]
    exact (portions address rows portion read head).append (ih tail)

theorem BlockfrostHolds.getUtxosByAddresses (holds : BlockfrostHolds ledger trace)
    {addresses : List String} {utxos : List Utxo}
    (runs : (Addresses.getUtxosByAddresses addresses).Runs trace (.ok utxos)) :
    utxos.Perm ((addresses.flatMap ledger.ofAddress).map LedgerUtxo.utxo) := by
  unfold Addresses.getUtxosByAddresses at runs
  split at runs
  case isTrue none =>
    obtain ⟨-, same⟩ := runs
    cases same
    rw [List.length_eq_zero_iff.mp none]
    exact .nil
  case isFalse =>
    obtain ⟨before, last, rfl, attempt⟩ := retryScan_runs runs
    have sub := List.sublist_append_right before last
    obtain ⟨walks, lookups, perAddress, rfl, fanOut, settled⟩ := Async.runs_bind_ok.mp attempt
    obtain ⟨heights, _, blockHeights, rfl, resolved, rfl, ok⟩ := Async.runs_bind_ok.mp settled
    have walked := (List.sublist_append_left walks (heights ++ [])).trans sub
    have lookedUp := ((List.sublist_append_left heights []).trans
      (List.sublist_append_right walks _)).trans sub
    rw [List.map_flatMap]
    refine mapPortions_each (fanOut_each fanOut) (fun address rows portion read mapped => ?_) ok
    obtain ⟨-, -, part, within, read⟩ := read
    obtain ⟨listing, field, said, lists, serves⟩ := holds.address address
    have inside : (ledger.ofAddress address).Sublist ledger.utxos := List.filter_sublist
    have listed := (readUtxos_standing (.address address) (listing_distinct inside lists)
      (fun t page answer member => serves t page answer ((within.trans walked).subset member)) read).trans lists
    refine mapUtxos_held listed (fun held member => ?_)
      (holds.known lookedUp resolved inside.subset) mapped
    have own : held.output.address = address := of_decide_eq_true (List.mem_filter.mp member).2
    cases named : field held with
    | none => exact own.symm
    | some said' => exact said held said' named

/-- Whichever driver answers a read of unspent outputs, and whatever fails and is asked for again on
the way, a read that returns has the outputs of the ledger under the account or the addresses, each
once, with the same data. -/
theorem utxos_agree {state : Koios.KoiosState} (koios : KoiosHolds ledger state)
    (attempts : Koios.ReadAttempts) (bodyLimit : Nat) :
    (∀ stakeAddress, Koios.Plain stakeAddress →
      (∀ (trace : List (Koios.PageExchange Unit Koios.UtxoRow String)) utxos, state.Standing trace →
        (Koios.getAccountUtxos attempts stakeAddress).Runs trace (.ok utxos) →
        (utxos.map Koios.ScriptedUtxo.toUtxo).Perm
          ((ledger.ofAccount stakeAddress).map LedgerUtxo.utxo)) ∧
      ∀ trace utxos, BlockfrostHolds ledger trace →
        (Account.getAccountUtxos stakeAddress).Runs trace (.ok utxos) →
        utxos.Perm ((ledger.ofAccount stakeAddress).map LedgerUtxo.utxo)) ∧
    ∀ addresses, addresses.Nodup → (∀ address ∈ addresses, Koios.Plain address) →
      (∀ (trace : List (Koios.PageExchange Unit Koios.UtxoRow String)) utxos, state.Standing trace →
        (Koios.getUtxosByAddresses attempts bodyLimit addresses).Runs trace (.ok utxos) →
        (utxos.map Koios.ScriptedUtxo.toUtxo).Perm
          ((addresses.flatMap ledger.ofAddress).map LedgerUtxo.utxo)) ∧
      ∀ trace utxos, BlockfrostHolds ledger trace →
        (Addresses.getUtxosByAddresses addresses).Runs trace (.ok utxos) →
        utxos.Perm ((addresses.flatMap ledger.ofAddress).map LedgerUtxo.utxo) := by
  refine ⟨fun stakeAddress plain => ⟨?_, ?_⟩, fun addresses nodup plain => ⟨?_, ?_⟩⟩
  · exact fun trace utxos standing runs => koios.getAccountUtxos plain standing runs
  · exact fun trace utxos holds runs => holds.getAccountUtxos runs
  · exact fun trace utxos standing runs => koios.getUtxosByAddresses nodup plain standing runs
  · exact fun trace utxos holds runs => holds.getUtxosByAddresses runs

end Reads

section Held

/-! One wallet with a hundred and two outputs, two pages of Blockfrost, and another with a thousand and
two, two pages of Koios. -/

def heldOutput (n : Nat) : LedgerUtxo where
  txHash := "ab"
  outputIndex := n
  output := ⟨if n < 102 then "addr1" else "addr2", 5, [], List.nodup_nil⟩
  stakeAddress := some (if n < 102 then "stake1" else "stake2")
  block := "b7"
  blockHeight := 7
  datumHash := none
  inlineDatum := none
  script := none

def heldLedger : LedgerUtxos where
  utxos := (List.range 1104).map heldOutput
  distinct := by
    rw [List.map_map]
    exact List.nodup_range.map (Prod.mk_right_injective "ab")

theorem mem_heldLedger {held : LedgerUtxo} :
    held ∈ heldLedger.utxos ↔ ∃ n < 1104, heldOutput n = held := by
  simp only [heldLedger, List.mem_map, List.mem_range]

theorem first_held : (List.range 1104).filter (fun n => n < 102) = List.range' 0 102 := by
  have split : List.range 1104 = List.range' 0 102 ++ List.range' 102 1002 :=
    List.range_eq_range'.trans (@List.range'_append_1 0 102 1002).symm
  have low : (List.range' 0 102).filter (fun n => n < 102) = List.range' 0 102 := by
    refine List.filter_eq_self.mpr fun n member => decide_eq_true ?_
    exact (List.mem_range'_1.mp member).2
  have high : (List.range' 102 1002).filter (fun n => n < 102) = [] := by
    refine List.filter_eq_nil_iff.mpr fun n member => ?_
    have above := (List.mem_range'_1.mp member).1
    simpa using above
  rw [split, List.filter_append, low, high, List.append_nil]

theorem heldLedger_ofAccount : heldLedger.ofAccount "stake1" = (List.range' 0 102).map heldOutput := by
  rw [LedgerUtxos.ofAccount, heldLedger, List.filter_map, ← first_held]
  refine congrArg _ (List.filter_congr fun n _ => decide_eq_decide.mpr ?_)
  by_cases low : n < 102 <;> simp [heldOutput, low]

theorem heldLedger_ofAddress : heldLedger.ofAddress "addr1" = (List.range' 0 102).map heldOutput := by
  rw [LedgerUtxos.ofAddress, heldLedger, List.filter_map, ← first_held]
  refine congrArg _ (List.filter_congr fun n _ => decide_eq_decide.mpr ?_)
  by_cases low : n < 102 <;> simp [heldOutput, low]

/-- Two scans of two pages, and a block that is found when it is asked for again. -/
def heldTrace (owner : UtxoOwner) : List (Exchange Unit Endpoint.Answer) :=
  [pageRead owner () 1 0 100, pageRead owner () 2 100 2, pageRead owner () 1 0 100,
      pageRead owner () 2 100 2] ++
    [⟨(), .blockHeight "b7", .ok none⟩, soleBlock ()]

theorem heldTrace_serves {owner other : UtxoOwner} {t : Unit} {page : Nat}
    {answer : (Endpoint.utxos other page).Answer}
    (member : ⟨t, .utxos other page, answer⟩ ∈ heldTrace owner) :
    other = owner ∧ Serves (numberedRows other.soleAddress 0 102) page answer := by
  simp only [heldTrace, List.mem_append, List.mem_cons, List.not_mem_nil, or_false] at member
  rcases member with (member | member | member | member) | member | member <;> cases member
  all_goals
    refine ⟨rfl, ?_⟩
    change _ = List.take 100 (List.drop _ (List.map _ _))
    rw [← List.map_drop, ← List.map_take]
    rfl

/-- The rows of the first wallet are those of its pages. -/
theorem heldRows {A : Type} {address : LedgerUtxo → A} {field : A}
    (fields : ∀ n < 102, address (heldOutput n) = field) :
    ((List.range' 0 102).map heldOutput).map (fun held => held.blockfrostRow (address held)) =
      numberedRows field 0 102 := by
  have five : decimal 5 = .digits "5" five_digits := by decide
  rw [numberedRows, List.map_map]
  refine List.map_congr_left fun n member => ?_
  rw [Function.comp_apply, fields n (List.mem_range'_1.mp member).2]
  simp only [LedgerUtxo.blockfrostRow, heldOutput, LedgerOutput.amount, five]
  rfl

theorem heldTrace_height {owner : UtxoOwner} {t : Unit} {row : BlockHeightRow} {block : String}
    (told : ⟨t, .blockHeight block, .ok (some row)⟩ ∈ heldTrace owner) : row.height = 7 := by
  simp only [heldTrace, List.mem_append, List.mem_cons, List.not_mem_nil, or_false] at told
  rcases told with (told | told | told | told) | told | told <;> cases told
  rfl

theorem heldTrace_holds_account : BlockfrostHolds heldLedger (heldTrace (.account "stake1")) where
  account stakeAddress := by
    by_cases own : stakeAddress = "stake1"
    · subst own
      refine ⟨numberedRows "addr1" 0 102, .of_eq ?_, fun t page answer member =>
        (heldTrace_serves member).2⟩
      rw [heldLedger_ofAccount]
      exact (heldRows fun n low => if_pos low).symm
    · refine ⟨_, .refl _, fun t page answer member => ?_⟩
      exact absurd (UtxoOwner.account.inj (heldTrace_serves member).1) own
  address address := by
    refine ⟨_, fun _ => none, nofun, .refl _, fun t page answer member => ?_⟩
    cases (heldTrace_serves member).1
  heights held member t row told := by
    obtain ⟨n, -, rfl⟩ := mem_heldLedger.mp member
    exact heldTrace_height told

theorem heldTrace_holds_address : BlockfrostHolds heldLedger (heldTrace (.address "addr1")) where
  account stakeAddress := by
    refine ⟨_, .refl _, fun t page answer member => ?_⟩
    cases (heldTrace_serves member).1
  address address := by
    by_cases own : address = "addr1"
    · subst own
      refine ⟨numberedRows none 0 102, fun _ => none, nofun, .of_eq ?_, fun t page answer member =>
        (heldTrace_serves member).2⟩
      rw [heldLedger_ofAddress]
      exact (heldRows fun n low => rfl).symm
    · refine ⟨_, fun _ => none, nofun, .refl _, fun t page answer member => ?_⟩
      exact absurd (UtxoOwner.address.inj (heldTrace_serves member).1) own
  heights held member t row told := by
    obtain ⟨n, -, rfl⟩ := mem_heldLedger.mp member
    exact heldTrace_height told

theorem readUtxos_held (owner : UtxoOwner) (changed exceeded : Failure) (more : Nat) :
    (readUtxos (scanUtxos owner (more + 2) changed exceeded) changed).Runs
      [pageRead owner () 1 0 100, pageRead owner () 2 100 2, pageRead owner () 1 0 100,
        pageRead owner () 2 100 2] (.ok (numberedRows owner.soleAddress 0 102)) := by
  have length (first count : Nat) : (numberedRows owner.soleAddress first count).length = count := by
    rw [numberedRows, List.length_map, List.length_range']
  have short : (numberedRows owner.soleAddress 100 2).length < 100 := by
    rw [length]
    decide
  have all : numberedRows owner.soleAddress 0 100 ++ numberedRows owner.soleAddress 100 2 =
      numberedRows owner.soleAddress 0 102 := by
    rw [numberedRows, numberedRows, ← List.map_append]
    exact congrArg _ (@List.range'_append_1 0 100 2)
  rw [← all]
  exact readUtxos_twoPages (length ..) short (all ▸ numberedRows_distinct ..)

theorem resolveBlockHeights_held {hashes : List String} (one : hashes.eraseDups = ["b7"]) :
    (resolveBlockHeights hashes).Runs [⟨(), .blockHeight "b7", .ok none⟩, soleBlock ()]
      (.ok soleHeights) := by
  rw [resolveBlockHeights, one, Async.runs_bind_ok]
  refine ⟨[_, _], [], [("b7", 7)], rfl, fanOut_lone (by decide) ?_, rfl, rfl⟩
  exact Async.runs_bind_ok.mpr ⟨[_], [_], none, rfl, runs_getOrUndefined.mpr ⟨(), rfl⟩,
    (), .ok (some ⟨7⟩), [], rfl, rfl, rfl⟩

theorem getAccountUtxos_held : (Account.getAccountUtxos "stake1").Runs
    (heldTrace (.account "stake1")) (.ok ((List.range' 0 102).map numberedUtxo)) := by
  refine Async.runs_tryCatch.mpr (.inl ⟨_, Async.runs_bind_ok.mpr ?_, rfl⟩)
  refine ⟨_, [_, _], _, rfl, readUtxos_held (.account "stake1") _ _ 48, ?_⟩
  exact Async.runs_bind_ok.mpr ⟨[_, _], [], soleHeights, rfl,
    resolveBlockHeights_held (numberedRows_block "addr1" 0 101), rfl, mapUtxos_shared 0 101⟩

theorem getUtxosByAddresses_held : (Addresses.getUtxosByAddresses ["addr1"]).Runs
    (heldTrace (.address "addr1")) (.ok ((List.range' 0 102).map numberedUtxo)) := by
  refine Async.runs_tryCatch.mpr (.inl ⟨_, Async.runs_bind_ok.mpr ?_, rfl⟩)
  refine ⟨_, [_, _], [numberedRows none 0 102], rfl,
    fanOut_lone (by decide) (readUtxos_held (.address "addr1") _ _ 9998), ?_⟩
  refine Async.runs_bind_ok.mpr ⟨[_, _], [], soleHeights, rfl, ?_, rfl, mapPortions_numbered 0 102⟩
  exact resolveBlockHeights_held (numberedRows_block (none : Option String) 0 101)

def heldUtxos : List Koios.HeldUtxo :=
  heldLedger.utxos.map fun held => ⟨held.koiosRow, held.stakeAddress⟩

theorem heldUtxos_ordered : CursorPaging.Ascending (Koios.cursorOf Koios.UtxoRow.keyset)
    (heldUtxos.map Koios.HeldUtxo.row) := by
  rw [heldUtxos, heldLedger, List.map_map, List.map_map]
  refine List.pairwise_map.mpr (List.pairwise_lt_range.imp fun less => ?_)
  exact Prod.Lex.toLex_lt_toLex.mpr (.inr ⟨rfl, less⟩)

def heldState : Koios.KoiosState where
  index := Koios.sharedIndex
  accountTxs _ _ := []
  listed _ _ _ member := nomatch member
  accountInfo := []
  accountRewards := []
  addressInfo := []
  credentialTxs := []
  utxos := heldUtxos
  ordered := heldUtxos_ordered

theorem heldState_utxos : heldState.utxos = heldUtxos := by rw [heldState]

theorem heldState_holds : KoiosHolds heldLedger heldState := by
  rw [KoiosHolds, heldState_utxos, heldUtxos]

theorem heldState_few : heldState.utxos.length ≤ Koios.KOIOS_MAX_PAGED_ROWS := by
  have size : heldState.utxos.length = 1104 := by
    rw [heldState_utxos, heldUtxos, List.length_map, heldLedger, List.length_map, List.length_range]
  rw [size]
  decide

/-- Both wallets read by either driver, over two pages, after a time-out or a block that is not known
yet, by account and by address. -/
theorem held_agrees :
    (∀ stakeAddress ∈ ["stake1", "stake2"],
      ∃ (trace : List (Koios.PageExchange Unit Koios.UtxoRow String)) (utxos : List Koios.ScriptedUtxo),
        (∃ x ∈ trace, x.response = .error (.timeout "")) ∧
        (Koios.getAccountUtxos .twice stakeAddress).Runs trace (.ok utxos) ∧
        (utxos.map Koios.ScriptedUtxo.toUtxo).Perm
          ((heldLedger.ofAccount stakeAddress).map LedgerUtxo.utxo)) ∧
    ((Account.getAccountUtxos "stake1").Runs (heldTrace (.account "stake1"))
        (.ok ((List.range' 0 102).map numberedUtxo)) ∧
      ((List.range' 0 102).map numberedUtxo).Perm
        ((heldLedger.ofAccount "stake1").map LedgerUtxo.utxo)) ∧
    (∀ addresses ∈ [["addr1"], ["addr1", "addr2"]],
      ∃ (trace : List (Koios.PageExchange Unit Koios.UtxoRow String)) (utxos : List Koios.ScriptedUtxo),
        (Koios.getUtxosByAddresses .twice Koios.KOIOS_BODY_LIMIT_BYTES addresses).Runs trace
          (.ok utxos) ∧
        (utxos.map Koios.ScriptedUtxo.toUtxo).Perm
          ((addresses.flatMap heldLedger.ofAddress).map LedgerUtxo.utxo)) ∧
    (Addresses.getUtxosByAddresses ["addr1"]).Runs (heldTrace (.address "addr1"))
        (.ok ((List.range' 0 102).map numberedUtxo)) ∧
      ((List.range' 0 102).map numberedUtxo).Perm
        ((["addr1"].flatMap heldLedger.ofAddress).map LedgerUtxo.utxo) := by
  have twice : 2 ≤ Koios.ReadAttempts.twice.count := le_refl 2
  have plain : ∀ text ∈ ["stake1", "stake2", "addr1", "addr2"], Koios.Plain text := by
    unfold Koios.Plain
    decide
  obtain ⟨accounts, addresses⟩ :=
    utxos_agree heldState_holds .twice Koios.KOIOS_BODY_LIMIT_BYTES
  refine ⟨fun stakeAddress listed => ?_, ⟨getAccountUtxos_held, ?_⟩, fun queried listed => ?_,
    getUtxosByAddresses_held, ?_⟩
  · have asked : Koios.Plain stakeAddress := plain _ (by revert stakeAddress; decide)
    obtain ⟨trace, utxos, standing, timedOut, runs⟩ :=
      heldState.getAccountUtxos_retried twice asked heldState_few
    exact ⟨trace, utxos, timedOut, runs, (accounts stakeAddress asked).1 trace utxos standing runs⟩
  · exact (accounts "stake1" (plain _ (by decide))).2 _ _ heldTrace_holds_account getAccountUtxos_held
  · have known : ∀ address ∈ queried, address ∈ ["stake1", "stake2", "addr1", "addr2"] := by
      revert queried
      decide
    have nodup : queried.Nodup := by
      revert queried
      decide
    have fits : ∀ address ∈ queried,
        Koios.addressUtxosBody.Fits Koios.KOIOS_BODY_LIMIT_BYTES address := by
      unfold Koios.BodyBuilder.Fits
      revert queried
      decide
    have asked : ∀ address ∈ queried, Koios.Plain address :=
      fun address member => plain address (known address member)
    have run : ∃ (trace : List (Koios.PageExchange Unit Koios.UtxoRow String)) (outcome : _),
        Async.Static heldState.servePage trace ∧ (Koios.getUtxosByAddresses .twice
          Koios.KOIOS_BODY_LIMIT_BYTES queried).Runs trace outcome := Async.exists_run _ _
    obtain ⟨trace, outcome, static, runs⟩ := run
    obtain ⟨utxos, rfl⟩ :=
      Koios.KoiosState.getUtxosByAddresses_returns asked fits heldState_few static runs
    exact ⟨trace, utxos, runs, (addresses queried nodup asked).1 trace utxos
      (Koios.KoiosState.standing_of_static static) runs⟩
  · have one : ∀ address ∈ ["addr1"], address ∈ ["stake1", "stake2", "addr1", "addr2"] := by decide
    exact (addresses ["addr1"] (by decide) fun address member => plain address (one address member)).2
      _ _ heldTrace_holds_address getUtxosByAddresses_held

end Held

end WalletBackend.Providers
