import WalletBackend.Providers.LedgerTransaction

/-! The two providers agree on a transaction exactly when it returns no collateral and
its validity bound, if any, is a safe integer. -/
namespace WalletBackend.Providers
open Interaction Blockfrost

/-- What both providers publish of the sides of a transaction. -/
def LedgerAsset.asset (asset : LedgerAsset) : Asset where
  policyId := asset.policyId
  assetName := asset.assetName
  quantity := toString asset.quantity

def LedgerOutput.txIo (output : LedgerOutput) : TxIo where
  address := some output.address
  value := toString output.lovelace
  assets := output.assets.map LedgerAsset.asset

def LedgerInput.txInput (input : LedgerInput) : TxInput where
  toTxIo := input.source.txIo
  txHash := input.txHash
  outputIndex := input.outputIndex

def ExposedCertificate.kind : ExposedCertificate → CertificateKind
  | .stakeRegistration => .stake_registration
  | .stakeDeregistration => .stake_deregistration
  | .delegation => .stake_delegation
  | .reserveMir => .move_instantaneous_rewards
  | .treasuryMir => .move_instantaneous_rewards
  | .poolUpdate => .pool_registration
  | .poolRetire => .pool_retirement

def LedgerCertificate.txCertificate (c : LedgerCertificate) : TxCertificate where
  kind := c.type.kind
  index := c.index

def LedgerWithdrawal.withdrawal (w : LedgerWithdrawal) : Withdrawal where
  stakeAddress := w.stakeAddress
  amount := toString w.amount

/-- The record of a transaction, with the outputs and the bound as given. -/
def LedgerTransaction.record (tx : LedgerTransaction) (ttl : Option Nat)
    (outputs : List LedgerOutput) : WalletTransaction where
  txHash := tx.hash
  block := tx.block
  blockHash := tx.blockHash
  slot := tx.slot
  epoch := tx.epoch
  blockTime := tx.blockTime
  fee := toString tx.fee
  ttl := ttl
  inputs := tx.inputs.map LedgerInput.txInput
  outputs := outputs.map LedgerOutput.txIo
  withdrawals := tx.withdrawals.map LedgerWithdrawal.withdrawal
  certificates := tx.certificates.map LedgerCertificate.txCertificate
  metadata := metadataObject tx.metadata

section Koios

theorem mapAssets_assetItems (assets : List LedgerAsset) :
    Koios.mapAssets (some (assets.map LedgerAsset.assetItem)) = assets.map LedgerAsset.asset := by
  rw [Koios.mapAssets, Option.getD_some, List.map_map]
  rfl

theorem mapTxIo_txIoRow (output : LedgerOutput) : Koios.mapTxIo output.txIoRow = output.txIo := by
  simp only [Koios.mapTxIo, LedgerOutput.txIoRow, mapAssets_assetItems, text_decimal,
    LedgerOutput.txIo]

theorem mapTxInput_txInputRow (input : LedgerInput) :
    Koios.mapTxInput input.txInputRow = input.txInput := by
  simp only [Koios.mapTxInput, LedgerInput.txInputRow, mapTxIo_txIoRow, LedgerInput.txInput]

theorem certKind_koiosType (type : ExposedCertificate) :
    Koios.certKind type.koiosType = type.kind := by
  cases type <;> rfl

/-- Koios publishes a bound only where it is a safe integer. -/
def LedgerTransaction.koiosTtl (tx : LedgerTransaction) : Option Nat :=
  tx.invalidHereafter.bind fun bound => if maxSafeInteger < bound.toNat then none else some bound.toNat

theorem mapTx_txInfo (tx : LedgerTransaction) :
    Koios.mapTx tx.txInfo = tx.record tx.koiosTtl tx.outputs := by
  have ttl : (tx.invalidHereafter.map fun bound => Koios.InvalidAfter.digits bound.toNat).bind
      Koios.InvalidAfter.transform = tx.koiosTtl := by
    cases found : tx.invalidHereafter <;> simp [LedgerTransaction.koiosTtl, found,
      Koios.InvalidAfter.transform]
  simp only [Koios.mapTx, LedgerTransaction.txInfo, ttl, Option.getD_some, List.map_map,
    LedgerTransaction.record, text_decimal]
  refine congr (congr (congr (congr (congrArg _ ?_) ?_) ?_) ?_) rfl
  · exact List.map_congr_left fun input _ => mapTxInput_txInputRow input
  · exact List.map_congr_left fun output _ => mapTxIo_txIoRow output
  · exact List.map_congr_left fun w _ => rfl
  · refine List.map_congr_left fun c _ => ?_
    exact congrArg (TxCertificate.mk · c.index) (certKind_koiosType c.type)

end Koios

section Amounts

/-- The unit of an asset, as it is compared. -/
def LedgerAsset.unitKey (asset : LedgerAsset) : String :=
  (asset.policyId ++ asset.assetName).toLower

theorem unit_length (asset : LedgerAsset) :
    Blockfrost.POLICY_ID_HEX_LEN ≤ (asset.policyId ++ asset.assetName).toList.length := by
  rw [String.toList_append, List.length_append, asset.policy]
  exact Nat.le_add_right _ _

theorem unit_ne_lovelace (asset : LedgerAsset) :
    asset.policyId ++ asset.assetName ≠ "lovelace" := by
  intro same
  have long := unit_length asset
  rw [same] at long
  exact absurd long (by decide)

theorem unitKey_ne_lovelace (asset : LedgerAsset) : asset.unitKey ≠ "lovelace".toLower := by
  intro same
  have long := unit_length asset
  have letters (text : String) : text.toLower.toList = text.toList.map Char.toLower :=
    String.toList_map
  have lengths := congrArg (fun s => s.toList.length) same
  simp only [LedgerAsset.unitKey, letters, List.length_map] at lengths
  rw [lengths] at long
  exact absurd long (by decide)

theorem assetOf_amountItem (asset : LedgerAsset) : assetOf asset.amountItem = asset.asset := by
  have chars : (asset.policyId ++ asset.assetName).toList =
      asset.policyId.toList ++ asset.assetName.toList := String.toList_append
  simp only [assetOf, LedgerAsset.amountItem, LedgerAsset.asset, text_decimal, chars,
    ← asset.policy, List.take_left, List.drop_left, String.ofList_toList]

/-- An asset that the list has not shown yet is recorded. -/
theorem add_amountItem {s : SplitState} {asset : LedgerAsset} (alone : s.seenUnits = none)
    (fresh : asset.unitKey ∉ s.seen) :
    s.add asset.amountItem = .ok
      { s with assets := s.assets ++ [asset.asset], seen := asset.unitKey :: s.seen } := by
  have native : asset.amountItem.unit ≠ "lovelace" := unit_ne_lovelace asset
  have unseen : asset.amountItem.unit.toLower ∉ s.seen := fresh
  simp only [SplitState.add, if_neg unseen, alone, Option.bind_none, SplitState.record,
    if_neg native, Option.map_none, assetOf_amountItem]
  rfl

theorem add_amountItems {s : SplitState} (assets : List LedgerAsset) (alone : s.seenUnits = none)
    (fresh : ∀ asset ∈ assets, asset.unitKey ∉ s.seen)
    (distinct : (assets.map LedgerAsset.unitKey).Nodup) :
    ∃ seen, (assets.map LedgerAsset.amountItem).foldlM SplitState.add s =
      (.ok { s with assets := s.assets ++ assets.map LedgerAsset.asset, seen := seen } :
        Except Failure SplitState) := by
  induction assets generalizing s with
  | nil => exact ⟨s.seen, by simp only [List.map_nil, List.append_nil]; rfl⟩
  | cons asset assets ih =>
    rw [List.map_cons, List.nodup_cons] at distinct
    obtain ⟨new, distinct⟩ := distinct
    have later : ∀ other ∈ assets, other.unitKey ∉ asset.unitKey :: s.seen := by
      intro other member repeated
      obtain same | earlier := List.mem_cons.mp repeated
      · exact new (same ▸ List.mem_map_of_mem member)
      · exact fresh other (List.mem_cons_of_mem _ member) earlier
    obtain ⟨seen, rest⟩ := ih (s := { s with
      assets := s.assets ++ [asset.asset], seen := asset.unitKey :: s.seen }) alone later distinct
    refine ⟨seen, ?_⟩
    rw [List.map_cons, List.foldlM_cons, add_amountItem alone (fresh asset List.mem_cons_self)]
    refine Eq.trans rest ?_
    simp only [List.append_assoc, List.singleton_append, List.map_cons]

theorem splitAmount_amount (output : LedgerOutput) :
    splitAmount output.amount none =
      .ok (⟨toString output.lovelace, output.assets.map LedgerAsset.asset⟩, none) := by
  obtain ⟨seen, split⟩ := add_amountItems (s := ⟨some (toString output.lovelace), [],
    ["lovelace".toLower], none⟩) output.assets rfl
    (fun asset _ => by simpa using unitKey_ne_lovelace asset) output.distinct
  have whole : output.amount.foldlM SplitState.add ⟨none, [], [], none⟩ =
      (.ok ⟨some (toString output.lovelace), output.assets.map LedgerAsset.asset, seen, none⟩ :
        Except Failure SplitState) := split
  rw [splitAmount, whole]
  rfl

theorem mapTxIo_amount (output : LedgerOutput) :
    Blockfrost.mapTxIo output.address output.amount = .ok output.txIo := by
  rw [Blockfrost.mapTxIo, splitAmount_amount]
  rfl

theorem mapTxInput_inputRow (collateral reference : Bool) (input : LedgerInput) :
    Blockfrost.mapTxInput (input.inputRow collateral reference) = .ok input.txInput := by
  rw [Blockfrost.mapTxInput, LedgerInput.inputRow, mapTxIo_amount]
  rfl

theorem mapTxOutput_outputRow (collateral : Bool) (output : LedgerOutput) (index : Nat) :
    Blockfrost.mapTxOutput (output.outputRow collateral index) = .ok output.txIo :=
  mapTxIo_amount output

theorem mapM_ok {α β γ : Type} {rows : List α} {f : β → Except Failure γ} {row : α → β} {g : α → γ}
    (each : ∀ a ∈ rows, f (row a) = .ok (g a)) :
    (rows.map row).mapM f = (.ok (rows.map g) : Except Failure (List γ)) := by
  induction rows with
  | nil => rfl
  | cons a rows ih =>
    rw [List.map_cons, List.mapM_cons, each a List.mem_cons_self,
      ih fun b member => each b (List.mem_cons_of_mem _ member)]
    rfl

/-- Only the regular inputs count as spent. -/
theorem mapM_inputs (tx : LedgerTransaction) :
    (tx.utxos.inputs.filter UtxoInputRow.spent).mapM Blockfrost.mapTxInput =
      (.ok (tx.inputs.map LedgerInput.txInput) : Except Failure _) := by
  have regular : tx.utxos.inputs.filter UtxoInputRow.spent =
      tx.inputs.map (LedgerInput.inputRow false false) := by
    have spent : ∀ (collateral reference : Bool) (inputs : List LedgerInput),
        (inputs.map (LedgerInput.inputRow collateral reference)).filter UtxoInputRow.spent =
          if collateral || reference then [] else inputs.map (LedgerInput.inputRow false false) := by
      intro collateral reference inputs
      induction inputs with
      | nil => simp
      | cons input inputs ih =>
        rw [List.map_cons, List.filter_cons, ih]
        cases collateral <;> cases reference <;> rfl
    rw [LedgerTransaction.utxos, List.filter_append, List.filter_append, spent, spent, spent]
    simp
  rw [regular]
  exact mapM_ok fun input _ => mapTxInput_inputRow false false input

/-- Every listed output is published, the collateral return with them. -/
theorem mapM_outputs (tx : LedgerTransaction) :
    tx.utxos.outputs.mapM Blockfrost.mapTxOutput =
      (.ok ((tx.outputs ++ tx.collateralReturn.toList).map LedgerOutput.txIo) :
        Except Failure _) := by
  have numbered : ∀ outputs : List LedgerOutput, (outputs.mapIdx fun index output =>
      output.outputRow false index).mapM Blockfrost.mapTxOutput =
        (.ok (outputs.map LedgerOutput.txIo) : Except Failure _) := by
    intro outputs
    rw [List.mapIdx_eq_zipIdx_map, mapM_ok (g := fun entry => entry.1.txIo)
      fun entry _ => mapTxOutput_outputRow false entry.1 entry.2]
    exact congrArg _ (by simp [← List.map_map, ← Function.comp_def])
  rw [LedgerTransaction.utxos, List.mapM_append, numbered,
    mapM_ok fun output _ => mapTxOutput_outputRow true output _, List.map_append]
  rfl

end Amounts

section Certificates

variable {tx : LedgerTransaction}

theorem kind_of_resource {type : ExposedCertificate} {resource : CertResource}
    (under : type.resource = some resource) : resource.kind = type.kind := by
  cases type <;> cases under <;> rfl

theorem kind_of_stake {type : ExposedCertificate} (under : type.resource = none) :
    (if decide (type = .stakeRegistration) then CertificateKind.stake_registration
      else .stake_deregistration) = type.kind := by
  cases type <;> first | rfl | cases under

theorem stakes_certificates :
    tx.details.stakes.map StakeCertRow.certificate =
      (tx.under none).map LedgerCertificate.txCertificate := by
  rw [LedgerTransaction.details, List.map_map]
  refine List.map_congr_left fun c member => ?_
  exact congrArg (TxCertificate.mk · c.index)
    (kind_of_stake (of_decide_eq_true (List.mem_filter.mp member).2))

theorem listed_certificates (resource : CertResource) :
    tx.details.listed resource =
      (tx.under (some resource)).map LedgerCertificate.txCertificate := by
  rw [TxDetails.listed, LedgerTransaction.details, List.map_map]
  refine List.map_congr_left fun c member => ?_
  exact congrArg (TxCertificate.mk · c.index)
    (kind_of_resource (of_decide_eq_true (List.mem_filter.mp member).2))

/-- Skipping a resource whose count is zero loses nothing. -/
theorem flatten_counted {α β : Type} (rows : List α) (f : α → β) :
    (if 0 < rows.length then [rows.map f] else []).flatten = rows.map f := by
  cases rows <;> simp

theorem certGroups_flatten : tx.details.certGroups.flatten =
    (tx.under none ++ tx.under (some .delegations) ++ tx.under (some .mirs) ++
      tx.under (some .pool_updates) ++ tx.under (some .pool_retires)).map
        LedgerCertificate.txCertificate := by
  simp only [TxDetails.certGroups, stakes_certificates, listed_certificates, List.flatten_append,
    List.map_append]
  refine congr (congrArg _ (congr (congrArg _ (congr (congrArg _ (congr (congrArg _ ?_) ?_)) ?_))
    ?_)) ?_
  all_goals exact flatten_counted _ _

/-- Every certificate is listed under exactly one resource. -/
theorem under_perm : (tx.under none ++ tx.under (some .delegations) ++ tx.under (some .mirs) ++
    tx.under (some .pool_updates) ++ tx.under (some .pool_retires)).Perm tx.certificates := by
  have count : ∀ (c : LedgerCertificate) (resource : Option CertResource),
      (tx.under resource).count c =
        if c.type.resource = resource then tx.certificates.count c else 0 := by
    intro c resource
    split
    case isTrue same => exact List.count_filter (decide_eq_true same)
    case isFalse other =>
      exact List.count_eq_zero.mpr fun member =>
        other (of_decide_eq_true (List.mem_filter.mp member).2)
  refine List.perm_iff_count.mpr fun c => ?_
  simp only [List.count_append, count]
  cases c.type <;> simp [ExposedCertificate.resource]

/-- Sorting by the index puts the certificates back into the order of the transaction. -/
theorem byIndex_certGroups : byIndex tx.details.certGroups.flatten =
    tx.certificates.map LedgerCertificate.txCertificate := by
  have strict : (tx.certificates.map LedgerCertificate.txCertificate).Pairwise
      fun a b => a.index < b.index := List.pairwise_map.mpr tx.indexed
  have perm : tx.details.certGroups.flatten.Perm
      (tx.certificates.map LedgerCertificate.txCertificate) :=
    certGroups_flatten ▸ under_perm.map LedgerCertificate.txCertificate
  rw [byIndex]
  refine ((List.perm_insertionSort _ _).trans perm).eq_of_pairwise
    (fun a b left right forth back => ?_) (List.pairwise_insertionSort _ _)
    (strict.imp Nat.le_of_lt)
  have indices : ((tx.certificates.map LedgerCertificate.txCertificate).map
      TxCertificate.index).Nodup := List.pairwise_map.mpr (strict.imp Nat.ne_of_lt)
  exact List.inj_on_of_nodup_map indices
    (perm.subset ((List.mem_insertionSort _).mp left)) right (Nat.le_antisymm forth back)

end Certificates

section Metadata

theorem foldl_label {metadata : List (String × Json)} (labelled : (metadata.map Prod.fst).Nodup)
    (init : String → Option Json) (label : String) :
    metadata.foldl (fun out row label => if label = row.1 then some row.2 else out label) init
      label = (metadata.lookup label).or (init label) := by
  induction metadata generalizing init with
  | nil => rfl
  | cons row metadata ih =>
    obtain ⟨name, value⟩ := row
    rw [List.map_cons, List.nodup_cons] at labelled
    rw [List.foldl_cons, ih labelled.2]
    by_cases same : label = name
    · subst same
      have absent : metadata.lookup label = none := List.lookup_eq_none_iff.mpr fun other member =>
        by simpa using fun repeated : label = other.1 =>
          labelled.1 (List.mem_map.mpr ⟨other, member, repeated.symm⟩)
      simp [absent]
    · have other : (label == name) = false := by simpa using same
      rw [if_neg same, List.lookup_cons, other]

theorem mapMetadata_metadata (tx : LedgerTransaction) :
    mapMetadata tx.details.metadata = metadataObject tx.metadata := by
  have none : tx.details.metadata.length = 0 ↔ tx.metadata = [] := by
    simp [LedgerTransaction.details]
  rw [mapMetadata, metadataObject]
  by_cases empty : tx.metadata = []
  · rw [if_pos (none.mpr empty), if_pos empty]
  · rw [if_neg (none.not.mpr empty), if_neg empty]
    refine congrArg (some ∘ Json.object) (funext fun label => ?_)
    rw [metadataByLabel, LedgerTransaction.details, List.foldl_map]
    exact (foldl_label tx.labelled _ label).trans (Option.or_none)

end Metadata

section Agreement

variable {T : Type} {tx : LedgerTransaction}

/-- Blockfrost publishes every bound, as a JavaScript number. -/
def LedgerTransaction.blockfrostTtl (tx : LedgerTransaction) : Option Nat :=
  tx.invalidHereafter.map fun bound => toDouble bound.toNat

theorem countedWithdrawals_details (tx : LedgerTransaction) :
    tx.details.countedWithdrawals = tx.withdrawals.map LedgerWithdrawal.withdrawal := by
  change (if 0 < tx.withdrawals.length then (tx.withdrawals.map _).map _ else []) = _
  rw [List.map_map]
  cases tx.withdrawals with
  | nil => rfl
  | cons w withdrawals => exact if_pos (Nat.succ_pos _)

/-- What a hydration from the resources of a transaction comes to. -/
theorem hydrate_details (tx : LedgerTransaction) :
    tx.details.hydrate tx.hash = .ok ⟨tx.record tx.blockfrostTtl
      (tx.outputs ++ tx.collateralReturn.toList), tx.blockIndex⟩ := by
  have ttl : (tx.invalidHereafter.map fun bound => decimal bound.toNat).map Numeric.toNumber =
      tx.blockfrostTtl := by
    cases found : tx.invalidHereafter <;> simp [LedgerTransaction.blockfrostTtl, found]
  rw [TxDetails.hydrate, hydrated, countedWithdrawals_details, byIndex_certGroups,
    mapMetadata_metadata]
  change ((tx.utxos.inputs.filter UtxoInputRow.spent).mapM Blockfrost.mapTxInput >>= _) = _
  rw [mapM_inputs]
  change (tx.utxos.outputs.mapM Blockfrost.mapTxOutput >>= _) = _
  rw [mapM_outputs, ← ttl]
  rfl

/-- The bounds agree where the bound is a safe integer. -/
theorem ttl_agrees_iff : tx.blockfrostTtl = tx.koiosTtl ↔
    ∀ bound ∈ tx.invalidHereafter, bound.toNat ≤ maxSafeInteger := by
  rw [LedgerTransaction.blockfrostTtl, LedgerTransaction.koiosTtl]
  cases tx.invalidHereafter with
  | none => simp
  | some bound =>
    simp only [Option.bind_some, Option.mem_some_iff, forall_eq']
    by_cases unsafe_ : maxSafeInteger < bound.toNat
    · simp [unsafe_]
    · have safe := Nat.le_of_not_lt unsafe_
      simp [unsafe_, safe, toDouble_of_safe safe]

theorem records_agree_iff :
    tx.record tx.blockfrostTtl (tx.outputs ++ tx.collateralReturn.toList) =
      tx.record tx.koiosTtl tx.outputs ↔
    tx.collateralReturn = none ∧ ∀ bound ∈ tx.invalidHereafter, bound.toNat ≤ maxSafeInteger := by
  rw [← ttl_agrees_iff]
  constructor
  · intro same
    have outputs := congrArg (fun record => record.outputs.length) same
    refine ⟨?_, congrArg WalletTransaction.ttl same⟩
    cases found : tx.collateralReturn with
    | none => rfl
    | some output => simp [LedgerTransaction.record, found] at outputs
  · rintro ⟨none, ttl⟩
    rw [none, ttl, Option.toList_none, List.append_nil]

/-- The two providers agree on a transaction if and only if it returns no collateral
and has no bound past the safe integers: Blockfrost publishes a collateral return
with the outputs, and rounds a bound that Koios leaves out. -/
theorem providers_agree_iff (tx : LedgerTransaction) {trace : List (Exchange T Endpoint.Answer)}
    {outcome : Except Failure HydratedTx} (serves : ServesTx tx.details tx.hash trace)
    (runs : (hydrateOne tx.hash).Runs trace outcome) :
    outcome.map HydratedTx.tx = .ok (Koios.mapTx tx.txInfo) ↔
      tx.collateralReturn = none ∧ ∀ bound ∈ tx.invalidHereafter, bound.toNat ≤ maxSafeInteger := by
  have settled : outcome = tx.details.hydrate tx.hash :=
    settles_hydrateOne serves trace outcome (.refl _) runs
  rw [settled, hydrate_details, mapTx_txInfo, ← records_agree_iff]
  exact ⟨fun same => Except.ok.inj same, fun same => congrArg Except.ok same⟩

/-- A payment of three lovelace. -/
def payment : LedgerTransaction where
  hash := "aa"
  phase2Failed := false
  block := 10
  blockHash := "b10"
  blockIndex := 0
  slot := 200
  epoch := 3
  blockTime := 1000
  fee := 2
  invalidHereafter := some 300
  inputs := [⟨⟨"addr1", 5, [], List.nodup_nil⟩, "bb", 0⟩]
  collateralInputs := []
  referenceInputs := []
  outputs := [⟨"addr2", 3, [], List.nodup_nil⟩]
  collateralReturn := none
  withdrawals := []
  certificates := []
  indexed := .nil
  metadata := []
  labelled := List.nodup_nil

/-- Its hydration is the record that Koios publishes. -/
theorem payment_agrees : ∃ (trace : List (Exchange Unit Endpoint.Answer)) (outcome : _),
    (hydrateOne payment.hash).Runs trace outcome ∧
      outcome.map HydratedTx.tx = .ok (Koios.mapTx payment.txInfo) := by
  obtain ⟨trace, serves, runs⟩ := exists_hydration payment.details payment.hash
  have safe : ∀ bound ∈ payment.invalidHereafter, bound.toNat ≤ maxSafeInteger := by
    intro bound given
    cases given
    decide
  exact ⟨trace, _, runs, (providers_agree_iff payment serves runs).mpr ⟨rfl, safe⟩⟩

/-- A failed script spends its collateral and returns what is left of it. -/
def failedScript : LedgerTransaction := { payment with
  phase2Failed := true
  collateralInputs := [⟨⟨"addr1", 9, [], List.nodup_nil⟩, "cc", 1⟩]
  collateralReturn := some ⟨"addr1", 6, [], List.nodup_nil⟩ }

/-- A payment valid up to the last slot that 64 bits can name. -/
def openEnded : LedgerTransaction := { payment with invalidHereafter := some 18446744073709551615 }

theorem exists_disagreement {tx : LedgerTransaction}
    (differ : ¬ (tx.collateralReturn = none ∧
      ∀ bound ∈ tx.invalidHereafter, bound.toNat ≤ maxSafeInteger)) :
    ∃ (trace : List (Exchange Unit Endpoint.Answer)) (outcome : _),
      ServesTx tx.details tx.hash trace ∧ (hydrateOne tx.hash).Runs trace outcome ∧
        outcome.map HydratedTx.tx ≠ .ok (Koios.mapTx tx.txInfo) := by
  obtain ⟨trace, serves, runs⟩ := exists_hydration tx.details tx.hash
  refine ⟨trace, _, serves, runs, ?_⟩
  intro same
  rw [hydrate_details, mapTx_txInfo] at same
  exact differ (records_agree_iff.mp (Except.ok.inj same))

/-- These two transactions have hydrations that differ from the record of Koios. -/
theorem providers_disagree :
    (∃ (trace : List (Exchange Unit Endpoint.Answer)) (outcome : _),
      ServesTx failedScript.details failedScript.hash trace ∧
        (hydrateOne failedScript.hash).Runs trace outcome ∧
        outcome.map HydratedTx.tx ≠ .ok (Koios.mapTx failedScript.txInfo)) ∧
    ∃ (trace : List (Exchange Unit Endpoint.Answer)) (outcome : _),
      ServesTx openEnded.details openEnded.hash trace ∧
        (hydrateOne openEnded.hash).Runs trace outcome ∧
        outcome.map HydratedTx.tx ≠ .ok (Koios.mapTx openEnded.txInfo) := by
  constructor
  · apply exists_disagreement
    rintro ⟨noReturn, -⟩
    cases noReturn
  · apply exists_disagreement
    rintro ⟨-, safe⟩
    exact absurd (safe _ rfl) (by decide)

end Agreement

end WalletBackend.Providers
