import WalletBackend.Koios.HexCase
import WalletBackend.Providers.LedgerTransaction
import WalletBackend.Providers.TokenAgreement

/-! The reads of token metadata of the two providers, where both know the same tokens. -/
namespace WalletBackend.Providers
open Interaction Containers Koios
open JsonTree (Value)
open Blockfrost.Assets (AssetRow)

section Reads

variable {known : String → Option LedgerToken}
  {koios : List (String × String) → List Koios.Assets.AssetInfoRow}
  {blockfrost : String → Option AssetRow} {subjects : List String}

theorem pairOf_append (subject : String) :
    (Koios.Assets.pairOf subject).1 ++ (Koios.Assets.pairOf subject).2 = subject := by
  apply String.toList_inj.mp
  rw [Koios.Assets.pairOf, String.toList_append, String.toList_ofList, String.toList_ofList,
    List.take_append_drop]

theorem peekSubjects_cold (subjects : List String) :
    (Koios.Assets.peekSubjects (fun _ => none) subjects).2 = subjects := by
  have each (state : KeyedMap String TokenMetadata × List String) :
      (subjects.foldl (Koios.Assets.peekSubject fun _ => none) state).2 = state.2 ++ subjects := by
    induction subjects generalizing state with
    | nil => exact (List.append_nil _).symm
    | cons subject subjects ih => exact (ih _).trans (List.append_assoc ..)
  exact each (.empty, [])

/-- Of the rows that Koios answers with, the last about a subject tells of its token. -/
theorem found_served (serves : KoiosServes known koios) {chunks : List (List (String × String))}
    {subject : String} (asked : Koios.Assets.pairOf subject ∈ chunks.flatten) :
    Koios.Assets.found (fun _ => none) (chunks.flatMap koios) subject =
      (known subject).map fun token => token.metadata imageOnly logoFirst := by
  rw [Koios.Assets.found, Option.or_none]
  cases last : lastOf Koios.Assets.AssetInfoRow.subject (chunks.flatMap koios) subject with
  | some row =>
    obtain ⟨member, same⟩ := lastOf_some last
    obtain ⟨chunk, -, there⟩ := List.mem_flatMap.mp member
    obtain ⟨token, knows, tells⟩ := serves.rows chunk row there
    rw [← same, knows, Option.bind_some, Koios.Assets.tokenOf, koios_maps tells]
    rfl
  | none =>
    cases knows : known subject with
    | none => rfl
    | some token =>
      obtain ⟨chunk, there, inside⟩ := List.mem_flatten.mp asked
      have told := serves.complete chunk _ inside
      rw [pairOf_append, knows] at told
      obtain ⟨row, member, same⟩ := told rfl
      obtain ⟨row', found⟩ := lastOf_exists (List.mem_flatMap.mpr ⟨chunk, there, member⟩) same
      cases last.symm.trans found

theorem rows_mapped (serves : KoiosServes known koios) (chunks : List (List (String × String))) :
    ∀ row ∈ chunks.flatMap koios, (Koios.Assets.tokenOf row).isSome := by
  intro row member
  obtain ⟨chunk, -, there⟩ := List.mem_flatMap.mp member
  obtain ⟨token, -, tells⟩ := serves.rows chunk row there
  rw [Koios.Assets.tokenOf, koios_maps tells]
  rfl

theorem koios_reads (serves : KoiosServes known koios) {attempts : ReadAttempts} {bodyLimit : Nat}
    (fits : ∀ subject ∈ subjects,
      Koios.Assets.assetListBody.Fits bodyLimit (Koios.Assets.pairOf subject.toLower))
    {outcome : Except Failure (List TokenMetadata)}
    (gives : Async.Gives (fun chunk => .ok (koios chunk))
      (Koios.Assets.getTokenMetadata attempts bodyLimit (fun _ => none) subjects) outcome) :
    outcome = .ok ((subjects.map String.toLower).filterMap fun subject =>
      (known subject).map fun token => token.metadata imageOnly logoFirst) := by
  have pairs : Koios.Assets.missing (fun _ => none) subjects =
      (subjects.map String.toLower).map Koios.Assets.pairOf := by
    rw [Koios.Assets.missing, peekSubjects_cold]
    rfl
  have fit : ∀ pair ∈ Koios.Assets.missing (fun _ => none) subjects,
      Koios.Assets.assetListBody.Fits bodyLimit pair := by
    rw [pairs, List.map_map]
    intro pair member
    obtain ⟨subject, asked, rfl⟩ := List.mem_map.mp member
    exact fits subject asked
  obtain ⟨chunks, packed⟩ := packBySize_fits fit
  rw [(Koios.Assets.gives_getTokenMetadata packed outcome).mp gives,
    Koios.Assets.tokensFrom_eq (rows_mapped serves chunks)]
  refine congrArg Except.ok (List.filterMap_congr fun subject asked => found_served serves ?_)
  rw [packBySize_flatten packed, pairs]
  exact List.mem_map_of_mem asked

theorem lookup_served (serves : BlockfrostServes known blockfrost)
    (keyed : ∀ subject token, known subject = some token → token.subject = subject) (subject : String) :
    (blockfrost subject).map (Blockfrost.Assets.mapTokenMetadata subject) =
      (known subject).map fun token => token.metadata imageFirst imageFirst := by
  have served := serves subject
  cases knows : known subject with
  | none =>
    rw [knows] at served
    rw [show blockfrost subject = none from served]
    rfl
  | some token =>
    rw [knows] at served
    obtain ⟨row, answered, tells⟩ := served
    rw [answered, Option.map_some, Option.map_some, ← blockfrost_maps tells, keyed subject token knows]

theorem blockfrost_reads (serves : BlockfrostServes known blockfrost)
    (keyed : ∀ subject token, known subject = some token → token.subject = subject)
    {outcome : Except Failure (List TokenMetadata)}
    (gives : Async.Gives (fun subject => .ok (blockfrost subject))
      (Blockfrost.Assets.getTokenMetadata subjects) outcome) :
    outcome = .ok ((subjects.map String.toLower).filterMap fun subject =>
      (known subject).map fun token => token.metadata imageFirst imageFirst) := by
  unfold Blockfrost.Assets.getTokenMetadata at gives
  split at gives
  case isTrue none =>
    rw [List.length_eq_zero_iff.mp none]
    exact Async.gives_pure.mp gives
  case isFalse =>
    have each (subject : String) (member : subject ∈ subjects.map String.toLower) (i : Nat)
        (result : Except Failure (Option TokenMetadata)) :
        Async.Gives (fun subject => (.ok (blockfrost subject) : Blockfrost.Assets.Answer subject))
            (do pure ((← Blockfrost.Assets.getOrUndefined subject).map
              (Blockfrost.Assets.mapTokenMetadata subject))) result ↔
          result = .ok ((known subject).map fun token => token.metadata imageFirst imageFirst) := by
      have asks (answer : Except Failure (Option AssetRow)) :
          Async.Gives (fun subject => (.ok (blockfrost subject) : Blockfrost.Assets.Answer subject))
            (Blockfrost.Assets.getOrUndefined subject) answer ↔ answer = .ok (blockfrost subject) :=
        Blockfrost.gives_getOrUndefined
      rw [Async.gives_bind_of asks, lookup_served serves keyed]
      exact Async.gives_pure
    rw [Blockfrost.mapWithConcurrency, Async.gives_bind_of (gives_fanOut each)] at gives
    rw [Async.gives_pure.mp gives, List.reduceOption, List.filterMap_map]
    rfl

theorem metadata_subject (token : LedgerToken) (choice choice' : ImageChoice) :
    (token.metadata choice choice').subject = token.subject := by
  rw [LedgerToken.metadata]
  split
  · rfl
  · split
    · rfl
    · rw [LedgerToken.ofMint]
      split <;> rfl
    · rw [LedgerToken.ofDatum]
      split <;> rfl

/-- One token comes back for each subject that is known. -/
theorem subjects_published (keyed : ∀ subject token, known subject = some token → token.subject = subject)
    (choice choice' : ImageChoice) (names : List String) :
    (names.filterMap fun subject => (known subject).map fun token =>
      token.metadata choice choice').map TokenMetadata.subject =
        names.filter fun subject => (known subject).isSome := by
  rw [List.map_filterMap, ← List.filterMap_eq_filter]
  refine List.filterMap_congr fun subject _ => ?_
  cases knows : known subject with
  | none => simp [Option.guard, knows]
  | some token => simp [Option.guard, knows, metadata_subject, keyed subject token knows]

/-- With nothing cached, both providers answer for the tokens that are known, in the order asked, and
with the same metadata exactly if that leaves no choice of an image. -/
theorem tokens_agree_iff (serves : KoiosServes known koios) (serves' : BlockfrostServes known blockfrost)
    (keyed : ∀ subject token, known subject = some token → token.subject = subject)
    {attempts : ReadAttempts} {bodyLimit : Nat}
    (fits : ∀ subject ∈ subjects,
      Koios.Assets.assetListBody.Fits bodyLimit (Koios.Assets.pairOf subject.toLower))
    {outcome outcome' : Except Failure (List TokenMetadata)}
    (gives : Async.Gives (fun chunk => .ok (koios chunk))
      (Koios.Assets.getTokenMetadata attempts bodyLimit (fun _ => none) subjects) outcome)
    (gives' : Async.Gives (fun subject => .ok (blockfrost subject))
      (Blockfrost.Assets.getTokenMetadata subjects) outcome') :
    (∀ published ∈ [outcome, outcome'], ∃ tokens, published = .ok tokens ∧
      tokens.map TokenMetadata.subject =
        (subjects.map String.toLower).filter fun subject => (known subject).isSome) ∧
    (outcome = outcome' ↔ ∀ subject ∈ subjects, ∀ token, known subject.toLower = some token →
      token.OneImage) := by
  rw [koios_reads serves fits gives, blockfrost_reads serves' keyed gives']
  constructor
  · intro published member
    obtain rfl | rfl := List.mem_pair.mp member
    · exact ⟨_, rfl, subjects_published keyed imageOnly logoFirst _⟩
    · exact ⟨_, rfl, subjects_published keyed imageFirst imageFirst _⟩
  · have alike : ((subjects.map String.toLower).filterMap fun subject => (known subject).map fun token =>
        token.metadata imageOnly logoFirst).map id =
          ((subjects.map String.toLower).filterMap fun subject => (known subject).map fun token =>
            token.metadata imageFirst imageFirst).map id ↔ _ := filterMap_alike_iff (by simp)
    simp only [List.map_id, Option.map_id, List.forall_mem_map, id] at alike
    rw [Except.ok.injEq, alike]
    refine forall₂_congr fun subject _ => ?_
    cases known subject.toLower with
    | none => simp
    | some token => simp [metadata_eq_iff]

theorem coin_policy :
    "aaaaaaaaaaaaaaaaaaaaaaaaaaaaaaaaaaaaaaaaaaaaaaaaaaaaaaaa".toList.length = POLICY_ID_HEX_LEN := by
  decide

/-- A token without a name of its own, whose mint gives it an image. -/
def coin : LedgerToken where
  policyId := "aaaaaaaaaaaaaaaaaaaaaaaaaaaaaaaaaaaaaaaaaaaaaaaaaaaaaaaa"
  assetName := ""
  fingerprint := "asset1coin"
  supply := 1
  registry := ⟨none, none, none, none, none⟩
  published := .mint [("name", .string "Coin"), ("image", .string "ipfs://coin")]
  policy := coin_policy

def coinMint : Value :=
  .object [("721", .object [(coin.policyId, .object [("", .object
    [("name", .string "Coin"), ("image", .string "ipfs://coin")])])])]

def coinInfo : Koios.Assets.AssetInfoRow where
  policy_id := coin.policyId
  asset_name := ""
  asset_name_ascii := some ""
  fingerprint := "asset1coin"
  total_supply := decimal 1
  name := none
  ticker := none
  description := none
  url := none
  decimals := none
  minting_tx_metadata := some coinMint
  cip68_metadata := none

def coinAsset : AssetRow where
  fingerprint := "asset1coin"
  quantity := decimal 1
  onchain_metadata := some [("name", .string "Coin"), ("image", .string "ipfs://coin")]
  onchain_metadata_standard := some "CIP25v1"
  metadata := none

theorem coin_minted : Minted coinInfo.minting_tx_metadata coin.policyId coin.assetName
    [("name", .string "Coin"), ("image", .string "ipfs://coin")] where
  filed := ⟨_, _, [""], rfl, rfl, by rintro key member; cases List.mem_singleton.mp member; exact .inl rfl,
    "", List.mem_singleton_self "", rfl⟩

theorem coin_standard : Blockfrost.Assets.isCip68 coinAsset.onchain_metadata_standard = false := by
  rw [coinAsset, Blockfrost.Assets.isCip68, Option.any_some, toList_toLower]
  decide

/-- A token that is in the registry, with nothing on chain. -/
def wrapped : LedgerToken where
  policyId := coin.policyId
  assetName := "57524150"
  fingerprint := "asset1wrap"
  supply := 500
  registry := ⟨some "Wrapped", none, some "WRAP", none, some 6⟩
  published := .nothing
  policy := coin_policy

def wrappedInfo : Koios.Assets.AssetInfoRow where
  policy_id := coin.policyId
  asset_name := "57524150"
  asset_name_ascii := some "WRAP"
  fingerprint := "asset1wrap"
  total_supply := decimal 500
  name := some "Wrapped"
  ticker := some "WRAP"
  description := none
  url := none
  decimals := some 6
  minting_tx_metadata := none
  cip68_metadata := none

def wrappedAsset : AssetRow where
  fingerprint := "asset1wrap"
  quantity := decimal 500
  onchain_metadata := none
  onchain_metadata_standard := none
  metadata := some ⟨some "Wrapped", none, some "WRAP", none, some 6⟩

/-- A token with what the two services tell of it. -/
structure TokenEntry where
  token : LedgerToken
  info : Koios.Assets.AssetInfoRow
  asset : AssetRow
  told : KoiosTells token info
  told' : BlockfrostTells token asset

def coinEntry : TokenEntry where
  token := coin
  info := coinInfo
  asset := coinAsset
  told := ⟨rfl, rfl, rfl, rfl, rfl, rfl, coin_minted, rfl⟩
  told' := ⟨rfl, rfl, rfl, rfl, coin_standard⟩

def wrappedEntry : TokenEntry where
  token := wrapped
  info := wrappedInfo
  asset := wrappedAsset
  told := ⟨rfl, rfl, by decide, rfl, rfl, rfl, rfl, rfl⟩
  told' := ⟨rfl, rfl, rfl, rfl⟩

/-- The entry of a subject. -/
def entryOf (subject : String) : Option TokenEntry :=
  [coinEntry, wrappedEntry].find? fun entry => entry.token.subject = subject

def twoTokens (subject : String) : Option LedgerToken := (entryOf subject).map TokenEntry.token

def twoInfos (chunk : List (String × String)) : List Koios.Assets.AssetInfoRow :=
  (chunk.filterMap fun pair => entryOf (pair.1 ++ pair.2)).map TokenEntry.info

def twoAssets (subject : String) : Option AssetRow := (entryOf subject).map TokenEntry.asset

theorem entryOf_some {subject : String} {entry : TokenEntry} (found : entryOf subject = some entry) :
    entry.token.subject = subject ∧ entry.token.OneImage := by
  rw [entryOf] at found
  refine ⟨by simpa using List.find?_some found, ?_⟩
  obtain rfl | rfl := List.mem_pair.mp (List.mem_of_find?_eq_some found)
  · exact .inr (.inl rfl)
  · exact .inl rfl

/-- A row is about the subject of its token. -/
theorem TokenEntry.info_subject (entry : TokenEntry) : entry.info.subject = entry.token.subject :=
  congrArg₂ String.append entry.told.policy_id entry.told.asset_name

theorem twoInfos_serve : KoiosServes twoTokens twoInfos where
  rows chunk row member := by
    obtain ⟨entry, there, rfl⟩ := List.mem_map.mp member
    obtain ⟨pair, -, found⟩ := List.mem_filterMap.mp there
    refine ⟨entry.token, ?_, entry.told⟩
    rw [twoTokens, entry.info_subject, (entryOf_some found).1, found]
    rfl
  complete chunk pair member known := by
    obtain ⟨entry, found⟩ := Option.isSome_iff_exists.mp ((Option.isSome_map ..).symm.trans known)
    refine ⟨entry.info, ?_, entry.info_subject.trans (entryOf_some found).1⟩
    exact List.mem_map_of_mem (List.mem_filterMap.mpr ⟨pair, member, found⟩)

theorem twoAssets_serve : BlockfrostServes twoTokens twoAssets := by
  intro subject
  rw [twoTokens, twoAssets]
  cases entryOf subject with
  | none => rfl
  | some entry => exact ⟨entry.asset, rfl, entry.told'⟩

/-- What is asked for: the two tokens, and one that neither service knows. -/
def askedSubjects : List String := [wrapped.subject, coin.policyId ++ "00", coin.subject]

theorem askedSubjects_lower : askedSubjects.map String.toLower = askedSubjects := by
  refine (List.map_congr_left fun subject member => String.toList_inj.mp ?_).trans (List.map_id _)
  rw [toList_toLower]
  revert subject
  decide

/-- Both providers publish the two tokens alike. -/
theorem tokens_agree : ∃ tokens,
    Async.Gives (fun chunk => .ok (twoInfos chunk))
      (Koios.Assets.getTokenMetadata .single 5120 (fun _ => none) askedSubjects) (.ok tokens) ∧
    Async.Gives (fun subject => .ok (twoAssets subject))
      (Blockfrost.Assets.getTokenMetadata askedSubjects) (.ok tokens) ∧
    tokens.map TokenMetadata.subject = [wrapped.subject, coin.subject] := by
  obtain ⟨outcome, gives⟩ := Async.exists_gives (fun chunk => .ok (twoInfos chunk))
    (Koios.Assets.getTokenMetadata .single 5120 (fun _ => none) askedSubjects)
  obtain ⟨outcome', gives'⟩ := Async.exists_gives (fun subject => .ok (twoAssets subject))
    (Blockfrost.Assets.getTokenMetadata askedSubjects)
  have keyed (subject : String) (token : LedgerToken) (known : twoTokens subject = some token) :
      token.subject = subject := by
    obtain ⟨entry, found, rfl⟩ := Option.map_eq_some_iff.mp known
    exact (entryOf_some found).1
  have fits : ∀ subject ∈ askedSubjects, Koios.Assets.assetListBody.Fits 5120
      (Koios.Assets.pairOf subject.toLower) := by
    have lower : ∀ subject ∈ askedSubjects.map String.toLower,
        Koios.Assets.assetListBody.Fits 5120 (Koios.Assets.pairOf subject) := by
      rw [askedSubjects_lower]
      unfold BodyBuilder.Fits
      decide
    exact fun subject member => lower _ (List.mem_map_of_mem member)
  obtain ⟨each, agree⟩ := tokens_agree_iff twoInfos_serve twoAssets_serve keyed fits gives gives'
  obtain ⟨tokens, rfl, subjects⟩ := each outcome List.mem_cons_self
  have same : Except.ok tokens = outcome' := agree.mpr fun subject _ token known => by
    obtain ⟨entry, found, rfl⟩ := Option.map_eq_some_iff.mp known
    exact (entryOf_some found).2
  refine ⟨tokens, gives, same ▸ gives', ?_⟩
  rw [subjects, askedSubjects_lower]
  rfl

end Reads

end WalletBackend.Providers
