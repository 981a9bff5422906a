import WalletBackend.Blockfrost.Schema

/-! What `splitAmount` accepts and what it makes of it: nothing of an amount list is lost,
and lists that share a map of spellings spell each unit in one way. -/
namespace WalletBackend.Blockfrost
open Containers

/-- `unitKey`: hexadecimal casing does not change a native asset's identity. -/
def AmountItem.key (item : AmountItem) : String := item.unit.toLower

/-- The entry as Blockfrost lists it. -/
def AmountItem.pair (item : AmountItem) : String × String := (item.unit, item.quantity.text)

/-- The entry that an asset stands for. -/
def assetPair (asset : Asset) : String × String := (asset.policyId ++ asset.assetName, asset.quantity)

/-- The spelling of each unit is the one the map has for it, if it has one. -/
def Spelled (seenUnits : Option (KeyedMap String String)) (item : AmountItem) : Prop :=
  ∀ prior, seenUnits.bind (·.get? item.key) = some prior → prior = item.unit

/-- The map after the units of a list. -/
def spellingsAfter (known : KeyedMap String String) (items : AmountList) : KeyedMap String String :=
  items.foldl (fun known item => known.set item.key item.unit) known

theorem assetPair_assetOf (item : AmountItem) : assetPair (assetOf item) = item.pair := by
  rw [assetPair, assetOf, AmountItem.pair, ← String.ofList_append, List.take_append_drop,
    String.ofList_toList]

namespace SplitState

variable {s t : SplitState} {item : AmountItem} {items : List AmountItem}

@[simp] theorem record_seen : (s.record item).seen = item.key :: s.seen := by
  unfold record
  split <;> rfl

@[simp] theorem record_seenUnits :
    (s.record item).seenUnits = s.seenUnits.map (·.set item.key item.unit) := by
  unfold record
  split <;> rfl

theorem record_value : (s.record item).value =
    if item.unit = "lovelace" then some item.quantity.text else s.value := by
  unfold record
  split <;> rfl

theorem record_assets : (s.record item).assets =
    if item.unit = "lovelace" then s.assets else s.assets ++ [assetOf item] := by
  unfold record
  split <;> rfl

/-- What the two guards let through. -/
theorem add_ok : s.add item = .ok t ↔
    item.key ∉ s.seen ∧ Spelled s.seenUnits item ∧ t = s.record item := by
  unfold add Spelled AmountItem.key
  simp only
  by_cases again : item.unit.toLower ∈ s.seen
  · simp [again]
  · simp only [again, if_false, not_false_eq_true, true_and]
    cases known : s.seenUnits.bind (·.get? item.unit.toLower) with
    | none => simp [eq_comm]
    | some prior =>
      by_cases same : prior = item.unit
      · simp [same, eq_comm]
      · simp [same]

/-- Whatever is refused is refused as malformed. -/
theorem add_error {e : Failure} (refused : s.add item = .error e) : ∃ message, e = .malformed message := by
  unfold add at refused
  simp only at refused
  split at refused
  · cases refused
    exact ⟨_, rfl⟩
  · split at refused
    · split at refused
      · cases refused
      · cases refused
        exact ⟨_, rfl⟩
    · cases refused

/-- The spellings that an item leaves are good for those after it that are other units. -/
theorem spelled_record {other : AmountItem} (distinct : other.key ≠ item.key) :
    Spelled (s.record item).seenUnits other ↔ Spelled s.seenUnits other := by
  unfold Spelled
  rw [record_seenUnits]
  cases s.seenUnits with
  | none => rfl
  | some known => simp only [Option.map_some, Option.bind_some, KeyedMap.get?_set, if_neg distinct]

/-- The loop goes through if and only if no unit is repeated and none is spelled in another
way than before. -/
theorem foldlM_ok : items.foldlM add s = .ok t ↔ (items.map AmountItem.key).Nodup ∧
    (∀ item ∈ items, item.key ∉ s.seen) ∧ (∀ item ∈ items, Spelled s.seenUnits item) ∧
    t = items.foldl record s := by
  induction items generalizing s with
  | nil => simp [pure, Except.pure, eq_comm]
  | cons item items ih =>
    rw [List.foldlM_cons]
    constructor
    · intro ok
      cases added : s.add item with
      | error e => simp [added, bind, Except.bind] at ok
      | ok next =>
        obtain ⟨fresh, spelled, rfl⟩ := add_ok.mp added
        simp only [added, bind, Except.bind] at ok
        obtain ⟨nodup, others, rest, rfl⟩ := ih.mp ok
        have apart : ∀ other ∈ items, other.key ≠ item.key ∧ other.key ∉ s.seen := by
          intro other member
          have unseen := others other member
          rw [record_seen, List.mem_cons, not_or] at unseen
          exact unseen
        refine ⟨?_, ?_, ?_, rfl⟩
        · rw [List.map_cons, List.nodup_cons]
          refine ⟨fun member => ?_, nodup⟩
          obtain ⟨other, later, same⟩ := List.mem_map.mp member
          exact (apart other later).1 same
        · exact List.forall_mem_cons.mpr ⟨fresh, fun other member => (apart other member).2⟩
        · refine List.forall_mem_cons.mpr ⟨spelled, fun other member => ?_⟩
          exact (spelled_record (apart other member).1).mp (rest other member)
    · rintro ⟨nodup, fresh, spelled, rfl⟩
      rw [List.map_cons, List.nodup_cons] at nodup
      have apart : ∀ other ∈ items, other.key ≠ item.key := fun other member same =>
        nodup.1 (same ▸ List.mem_map_of_mem member)
      have added : s.add item = .ok (s.record item) :=
        add_ok.mpr ⟨fresh item List.mem_cons_self, spelled item List.mem_cons_self, rfl⟩
      simp only [added, bind, Except.bind]
      refine ih.mpr ⟨nodup.2, fun other member => ?_, fun other member => ?_, rfl⟩
      · rw [record_seen, List.mem_cons, not_or]
        exact ⟨apart other member, fresh other (List.mem_cons_of_mem _ member)⟩
      · exact (spelled_record (apart other member)).mpr (spelled other (List.mem_cons_of_mem _ member))

theorem foldlM_error {e : Failure} (refused : items.foldlM add s = .error e) :
    ∃ message, e = .malformed message := by
  induction items generalizing s with
  | nil => cases refused
  | cons item items ih =>
    rw [List.foldlM_cons] at refused
    cases added : s.add item with
    | error e' =>
      simp only [added, bind, Except.bind] at refused
      cases refused
      exact add_error added
    | ok next =>
      simp only [added, bind, Except.bind] at refused
      exact ih refused

theorem foldl_assets : (items.foldl record s).assets =
    s.assets ++ (items.filter (·.unit ≠ "lovelace")).map assetOf := by
  induction items generalizing s with
  | nil => simp
  | cons item items ih =>
    rw [List.foldl_cons, ih, record_assets]
    by_cases ada : item.unit = "lovelace" <;> simp [ada]

/-- The last lovelace entry is the one that counts. -/
theorem foldl_value : (items.foldl record s).value =
    (((items.filter (·.unit = "lovelace")).getLast?.map (·.quantity.text)).or s.value) := by
  induction items generalizing s with
  | nil => simp
  | cons item items ih =>
    rw [List.foldl_cons, ih, record_value]
    by_cases ada : item.unit = "lovelace"
    · simp only [ada, if_true, List.filter_cons, decide_true, List.getLast?_cons, Option.map_some]
      cases (items.filter (·.unit = "lovelace")).getLast? <;> simp
    · simp [ada]

theorem foldl_seenUnits :
    (items.foldl record s).seenUnits = s.seenUnits.map (spellingsAfter · items) := by
  induction items generalizing s with
  | nil => simp [spellingsAfter]
  | cons item items ih =>
    rw [List.foldl_cons, ih, record_seenUnits, Option.map_map]
    rfl

end SplitState

/-- What the reader is told of an amount is the list itself, its lovelace entry taken out. -/
def Lossless (items : AmountList) (amount : SplitAmount) : Prop :=
  ∃ before after, items.map AmountItem.pair = before ++ ("lovelace", amount.value) :: after ∧
    amount.assets.map assetPair = before ++ after

/-- A unit is there twice, or in another spelling than is recorded, or there is no ada. -/
def Refused (items : AmountList) (seenUnits : Option (KeyedMap String String)) : Prop :=
  ¬ (items.map AmountItem.key).Nodup ∨ (∃ item ∈ items, ¬ Spelled seenUnits item) ∨
    ∀ item ∈ items, item.unit ≠ "lovelace"

section Split

variable {items : AmountList} {seenUnits seenUnits' : Option (KeyedMap String String)}
  {amount : SplitAmount}

/-- Under distinct units there is one lovelace entry at most. -/
theorem lone_lovelace {before after : AmountList} {ada : AmountItem}
    (nodup : ((before ++ ada :: after).map AmountItem.key).Nodup) (isAda : ada.unit = "lovelace") :
    ∀ other ∈ before ++ after, other.unit ≠ "lovelace" := by
  intro other member same
  rw [List.map_append, List.map_cons, List.nodup_middle, List.nodup_cons, ← List.map_append] at nodup
  have repeated : other.key = ada.key := by rw [AmountItem.key, AmountItem.key, same, isAda]
  exact nodup.1 (repeated ▸ List.mem_map_of_mem member)

/-- The loop over a list with one lovelace entry. -/
theorem foldl_record_ada {s : SplitState} {before after : AmountList} {ada : AmountItem}
    (nodup : ((before ++ ada :: after).map AmountItem.key).Nodup) (isAda : ada.unit = "lovelace") :
    ((before ++ ada :: after).foldl SplitState.record s).value = some ada.quantity.text ∧
      ((before ++ ada :: after).foldl SplitState.record s).assets =
        s.assets ++ (before ++ after).map assetOf := by
  have others := lone_lovelace nodup isAda
  have notAda (part : AmountList) (inside : part ⊆ before ++ after) :
      part.filter (·.unit = "lovelace") = [] ∧ part.filter (·.unit ≠ "lovelace") = part := by
    constructor
    · exact List.filter_eq_nil_iff.mpr fun item member =>
        by simpa using others item (inside member)
    · exact List.filter_eq_self.mpr fun item member => by simpa using others item (inside member)
  obtain ⟨noneBefore, allBefore⟩ := notAda before (List.subset_append_left _ _)
  obtain ⟨noneAfter, allAfter⟩ := notAda after (List.subset_append_right _ _)
  rw [SplitState.foldl_value, SplitState.foldl_assets, List.filter_append, List.filter_append,
    List.filter_cons, List.filter_cons, noneBefore, noneAfter, allBefore, allAfter]
  simp [isAda]

/-- What a list has to be to be split, and what comes of it. -/
theorem splitAmount_ok : splitAmount items seenUnits = .ok (amount, seenUnits') ↔
    (items.map AmountItem.key).Nodup ∧ (∀ item ∈ items, Spelled seenUnits item) ∧
      (∃ before ada after, items = before ++ ada :: after ∧ ada.unit = "lovelace" ∧
        amount = ⟨ada.quantity.text, (before ++ after).map assetOf⟩) ∧
      seenUnits' = seenUnits.map (spellingsAfter · items) := by
  have looped (t : SplitState) : items.foldlM SplitState.add ⟨none, [], [], seenUnits⟩ = .ok t ↔
      (items.map AmountItem.key).Nodup ∧ (∀ item ∈ items, item.key ∉ []) ∧
        (∀ item ∈ items, Spelled seenUnits item) ∧
        t = items.foldl SplitState.record ⟨none, [], [], seenUnits⟩ := SplitState.foldlM_ok
  constructor
  · intro ok
    unfold splitAmount at ok
    cases loop : items.foldlM SplitState.add ⟨none, [], [], seenUnits⟩ with
    | error e => simp [loop, bind, Except.bind] at ok
    | ok t =>
      obtain ⟨nodup, -, spelled, rfl⟩ := (looped t).mp loop
      simp only [loop, bind, Except.bind] at ok
      refine ⟨nodup, spelled, ?_⟩
      by_cases ada : ∃ item ∈ items, item.unit = "lovelace"
      · obtain ⟨item, member, isAda⟩ := ada
        obtain ⟨before, after, rfl⟩ := List.append_of_mem member
        obtain ⟨value, assets⟩ := foldl_record_ada (s := ⟨none, [], [], seenUnits⟩) nodup isAda
        rw [value] at ok
        simp only [Except.ok.injEq, Prod.mk.injEq] at ok
        obtain ⟨rfl, rfl⟩ := ok
        rw [assets, List.nil_append, SplitState.foldl_seenUnits]
        exact ⟨⟨before, item, after, rfl, isAda, rfl⟩, rfl⟩
      · have none : items.filter (·.unit = "lovelace") = [] :=
          List.filter_eq_nil_iff.mpr fun item member =>
            by simpa using fun same => ada ⟨item, member, same⟩
        rw [SplitState.foldl_value, none] at ok
        cases ok
  · rintro ⟨nodup, spelled, ⟨before, ada, after, rfl, isAda, rfl⟩, rfl⟩
    have loop := (looped _).mpr ⟨nodup, fun _ _ => List.not_mem_nil, spelled, rfl⟩
    obtain ⟨value, assets⟩ := foldl_record_ada (s := ⟨none, [], [], seenUnits⟩) nodup isAda
    unfold splitAmount
    simp only [loop, bind, Except.bind, value, assets, List.nil_append, SplitState.foldl_seenUnits]

theorem splitAmount_error {e : Failure} (refused : splitAmount items seenUnits = .error e) :
    ∃ message, e = .malformed message := by
  unfold splitAmount at refused
  cases loop : items.foldlM SplitState.add ⟨none, [], [], seenUnits⟩ with
  | error e' =>
    simp only [loop, bind, Except.bind] at refused
    cases refused
    exact SplitState.foldlM_error loop
  | ok t =>
    simp only [loop, bind, Except.bind] at refused
    split at refused
    · cases refused
      exact ⟨_, rfl⟩
    · cases refused

/-- It throws on what is refused and on nothing else. -/
theorem splitAmount_throws :
    (∃ e, splitAmount items seenUnits = .error e) ↔ Refused items seenUnits := by
  constructor
  · rintro ⟨e, threw⟩
    by_contra accepted
    simp only [Refused, not_or, not_not, not_exists, not_and, not_forall] at accepted
    obtain ⟨nodup, spelled, item, member, isAda⟩ := accepted
    obtain ⟨before, after, rfl⟩ := List.append_of_mem member
    have ok := splitAmount_ok.mpr ⟨nodup, spelled, ⟨before, item, after, rfl, isAda, rfl⟩, rfl⟩
    rw [threw] at ok
    cases ok
  · intro refused
    cases split : splitAmount items seenUnits with
    | error e => exact ⟨e, rfl⟩
    | ok result =>
      obtain ⟨nodup, spelled, ⟨before, ada, after, rfl, isAda, -⟩, -⟩ := splitAmount_ok.mp split
      rcases refused with repeated | ⟨item, member, other⟩ | none
      · exact absurd nodup repeated
      · exact absurd (spelled item member) other
      · exact absurd isAda (none ada (by simp))

theorem splitAmount_lossless (ok : splitAmount items seenUnits = .ok (amount, seenUnits')) :
    Lossless items amount := by
  obtain ⟨-, -, ⟨before, ada, after, rfl, isAda, rfl⟩, -⟩ := splitAmount_ok.mp ok
  refine ⟨before.map AmountItem.pair, after.map AmountItem.pair, ?_, ?_⟩
  · rw [List.map_append, List.map_cons, AmountItem.pair, isAda]
  · rw [List.map_map, ← List.map_append]
    exact List.map_congr_left fun item _ => assetPair_assetOf item

/-- The units of a list that is split differ by more than their case. -/
theorem splitAmount_nodup (ok : splitAmount items seenUnits = .ok (amount, seenUnits')) :
    (items.map (·.unit.toLower)).Nodup := (splitAmount_ok.mp ok).1

end Split

/-- Split one list after another, the map of spellings shared. -/
def splitAll : List AmountList → KeyedMap String String →
    Except Failure (List SplitAmount × KeyedMap String String)
  | [], known => .ok ([], known)
  | items :: lists, known => do
      let (amount, seenUnits) ← splitAmount items (some known)
      let (amounts, known) ← splitAll lists (seenUnits.getD known)
      .ok (amount :: amounts, known)

/-- No unit of the lists is spelled in two ways, nor in another way than the map has it. -/
structure SpelledAlike (known : KeyedMap String String) (lists : List AmountList) : Prop where
  known : ∀ items ∈ lists, ∀ item ∈ items, Spelled (some known) item
  each : ∀ items ∈ lists, ∀ item ∈ items, ∀ items' ∈ lists, ∀ item' ∈ items',
    item.unit.toLower = item'.unit.toLower → item.unit = item'.unit

theorem get?_spellingsAfter {known : KeyedMap String String} {items : AmountList}
    (nodup : (items.map AmountItem.key).Nodup) (key : String) :
    (spellingsAfter known items).get? key =
      ((items.find? (·.key = key)).map AmountItem.unit).or (known.get? key) := by
  induction items generalizing known with
  | nil => rfl
  | cons item items ih =>
    rw [List.map_cons, List.nodup_cons] at nodup
    change (spellingsAfter (known.set item.key item.unit) items).get? key = _
    rw [ih nodup.2, KeyedMap.get?_set, List.find?_cons]
    by_cases same : item.key = key
    · have none : items.find? (·.key = key) = none := List.find?_eq_none.mpr fun other member =>
        by simpa using fun again : other.key = key =>
          nodup.1 (same ▸ again ▸ List.mem_map_of_mem member)
      simp [same, none]
    · simp [same, Ne.symm same]

section Shared

variable {known known' : KeyedMap String String} {items : AmountList} {lists : List AmountList}

/-- The map after a list demands what it did before, and the spellings of the list. -/
theorem spelled_spellingsAfter (nodup : (items.map AmountItem.key).Nodup)
    (spelled : ∀ item ∈ items, Spelled (some known) item) (other : AmountItem) :
    Spelled (some (spellingsAfter known items)) other ↔ Spelled (some known) other ∧
      ∀ item ∈ items, item.key = other.key → item.unit = other.unit := by
  unfold Spelled
  simp only [Option.bind_some, get?_spellingsAfter nodup]
  cases found : items.find? (·.key = other.key) with
  | none =>
    have absent : ∀ item ∈ items, item.key ≠ other.key := by simpa using List.find?_eq_none.mp found
    constructor
    · exact fun demands => ⟨demands, fun item member same => absurd same (absent item member)⟩
    · exact And.left
  | some item =>
    have member := List.mem_of_find?_eq_some found
    have same : item.key = other.key := by simpa using List.find?_some found
    simp only [Option.map_some, Option.some_or, Option.some.injEq, forall_eq']
    constructor
    · intro alike
      constructor
      · intro prior recorded
        rw [← alike]
        exact spelled item member prior (by rw [same]; exact recorded)
      · intro item' member' same'
        obtain rfl := List.inj_on_of_nodup_map nodup member' member (same'.trans same.symm)
        exact alike
    · exact fun demands => demands.2 item member same

/-- A list more under the same map. -/
theorem spelledAlike_cons (nodup : (items.map AmountItem.key).Nodup)
    (spelled : ∀ item ∈ items, Spelled (some known) item) :
    SpelledAlike known (items :: lists) ↔ SpelledAlike (spellingsAfter known items) lists := by
  have demands := spelled_spellingsAfter nodup spelled
  constructor
  · intro alike
    constructor
    · intro items' later item' member'
      refine (demands item').mpr ⟨?_, ?_⟩
      · exact alike.known items' (List.mem_cons_of_mem _ later) item' member'
      · exact fun item member => alike.each items List.mem_cons_self item member items'
          (List.mem_cons_of_mem _ later) item' member'
    · exact fun items' later item' member' items'' later' =>
        alike.each items' (List.mem_cons_of_mem _ later) item' member' items''
          (List.mem_cons_of_mem _ later')
  · intro alike
    have across : ∀ item ∈ items, ∀ items' ∈ lists, ∀ item' ∈ items',
        item.key = item'.key → item.unit = item'.unit := fun item member items' later item' member' =>
      ((demands item').mp (alike.known items' later item' member')).2 item member
    constructor
    · refine List.forall_mem_cons.mpr ⟨spelled, fun items' later item' member' => ?_⟩
      exact ((demands item').mp (alike.known items' later item' member')).1
    · intro left inLeft item member right inRight item' member' same
      rcases List.mem_cons.mp inLeft with rfl | leftLater
      · rcases List.mem_cons.mp inRight with rfl | rightLater
        · rw [List.inj_on_of_nodup_map nodup member member' same]
        · exact across item member right rightLater item' member' same
      · rcases List.mem_cons.mp inRight with rfl | rightLater
        · exact (across item' member' left leftLater item member same.symm).symm
        · exact alike.each left leftLater item member right rightLater item' member' same

/-- Lists that are all split, one map shared, spell every unit in one way. -/
theorem splitAll_alike {amounts : List SplitAmount}
    (ok : splitAll lists known = .ok (amounts, known')) : SpelledAlike known lists := by
  induction lists generalizing known amounts with
  | nil => exact ⟨nofun, nofun⟩
  | cons items lists ih =>
    rw [splitAll] at ok
    cases split : splitAmount items (some known) with
    | error e => simp [split, bind, Except.bind] at ok
    | ok result =>
      obtain ⟨nodup, spelled, -, after⟩ := splitAmount_ok.mp split
      cases rest : splitAll lists (result.2.getD known) with
      | error e => simp [split, rest, bind, Except.bind] at ok
      | ok results =>
        simp only [split, rest, bind, Except.bind, Except.ok.injEq, Prod.mk.injEq] at ok
        rw [after] at rest
        exact (spelledAlike_cons nodup spelled).mpr (ih (rest.trans (by rw [← ok.2])))

end Shared

/-- Splitting loses nothing, throws exactly on what cannot be told apart or holds no ada, and
keeps the spellings of lists that share a map apart from none of the others. -/
theorem splitAmount_exact :
    (∀ (items : AmountList) (seenUnits : Option (KeyedMap String String)),
      (∀ amount seenUnits', splitAmount items seenUnits = .ok (amount, seenUnits') →
        Lossless items amount ∧ (items.map (·.unit.toLower)).Nodup) ∧
      ((∃ e, splitAmount items seenUnits = .error e) ↔ Refused items seenUnits) ∧
      ∀ e, splitAmount items seenUnits = .error e → ∃ message, e = .malformed message) ∧
    ∀ (lists : List AmountList) (known known' : KeyedMap String String)
      (amounts : List SplitAmount), splitAll lists known = .ok (amounts, known') →
        SpelledAlike known lists := by
  constructor
  · intro items seenUnits
    refine ⟨fun amount seenUnits' ok => ?_, splitAmount_throws, fun e => splitAmount_error⟩
    exact ⟨splitAmount_lossless ok, splitAmount_nodup ok⟩
  · exact fun lists known known' amounts ok => splitAll_alike ok

end WalletBackend.Blockfrost
