import WalletBackend.Providers.LedgerToken

/-! The two providers publish the same metadata of a token unless its minter has given both a logo
and an image. -/
namespace WalletBackend.Providers
open Koios
open JsonTree (Value)
open Koios.Assets (emptyToUndefined extractTraits cip25String)
open Blockfrost.Assets (RegistryMetadata AssetRow truthy)

/-- How a text for the image is chosen from the texts of a token. -/
abbrev ImageChoice := (String → Option String) → Option String

def imageOnly : ImageChoice := fun text => text "image"
def imageFirst : ImageChoice := fun text => text "image" <|> text "logo"
def logoFirst : ImageChoice := fun text => text "logo" <|> text "image"

namespace LedgerToken

variable (token : LedgerToken)

def base : TokenMetadata where
  subject := token.subject
  policyId := token.policyId
  assetName := token.assetName
  assetNameAscii := Blockfrost.Assets.asciiAssetName token.assetName
  fingerprint := token.fingerprint
  supply := toString token.supply
  source := .none
  name := none
  ticker := none
  description := none
  decimals := none
  url := none
  image := none
  traits := none

/-- A name, a description or a trait. -/
def displays (record : List (String × Value)) : Bool :=
  truthy (mintText record "name") || truthy (mintText record "description") ||
    (extractTraits (.object record)).isSome

/-- What is published of the record of a mint, with an image. -/
def ofMint (record : List (String × Value)) (image : Option String) : TokenMetadata :=
  if displays record || truthy image then
    { token.base with
      source := .cip25
      name := mintText record "name"
      description := mintText record "description"
      image
      traits := extractTraits (.object record) }
  else token.base

/-- What is published of the map of a datum, with an image. -/
def ofDatum (fields : List Value) (image : Option String) : TokenMetadata :=
  if (datumText fields "name").isSome || (datumText fields "description").isSome || image.isSome ||
      (datumText fields "ticker").isSome || (datumText fields "url").isSome ||
      (datumDecimals fields).isSome then
    { token.base with
      source := .cip68
      name := datumText fields "name"
      ticker := datumText fields "ticker"
      description := datumText fields "description"
      decimals := datumDecimals fields
      url := datumText fields "url"
      image }
  else token.base

def ofRegistry : TokenMetadata :=
  { token.base with
    source := .registry
    name := token.registry.name
    ticker := token.registry.ticker
    description := token.registry.description
    decimals := token.registry.decimals
    url := token.registry.url }

/-- What is published of the token, by how an image is chosen. -/
def metadata (mintImage datumImage : ImageChoice) : TokenMetadata :=
  if token.registry.isEntry then token.ofRegistry
  else
    match token.published with
    | .nothing => token.base
    | .mint record => token.ofMint record (mintImage (mintText record))
    | .datum fields => token.ofDatum fields (datumImage (datumText fields))

/-- The texts leave no choice of the image. -/
def OneImage : Prop :=
  token.registry.isEntry = true ∨
    match token.published with
    | .nothing => True
    | .mint record => (mintText record "image").isSome ∨ mintText record "logo" = none ∨
        displays record = false
    | .datum fields => datumText fields "image" = none ∨ datumText fields "logo" = none ∨
        datumText fields "image" = datumText fields "logo"

end LedgerToken

section Koios

variable {token : LedgerToken} {row : Koios.Assets.AssetInfoRow}

/-- Under whatever names the record is filed, it is what is found. -/
theorem firstDisplayable_filed {byPolicy : Value} {keys : List String} {record : List (String × Value)}
    (same : ∀ key ∈ keys, byPolicy.property key = some (.object record) ∨ byPolicy.property key = none)
    (filed : ∃ key ∈ keys, byPolicy.property key = some (.object record)) :
    (Koios.Assets.firstDisplayable byPolicy keys).map Prod.snd =
      (some (Koios.Assets.cip25Fields (.object record))).filter
        Koios.Assets.Cip25Fields.displayable := by
  have under (key : String) (member : key ∈ keys) :
      Koios.Assets.displayableUnder byPolicy key = none ∨ Koios.Assets.displayableUnder byPolicy key =
        (some (Koios.Assets.cip25Fields (.object record))).filter
          Koios.Assets.Cip25Fields.displayable := by
    obtain there | absent := same key member
    · refine .inr ?_
      rw [Koios.Assets.displayableUnder, there]
      rfl
    · refine .inl ?_
      rw [Koios.Assets.displayableUnder, absent]
      rfl
  rw [Koios.Assets.firstDisplayable]
  cases found : keys.findSome? fun key => (Koios.Assets.displayableUnder byPolicy key).map (key, ·) with
  | some first =>
    obtain ⟨key, member, here⟩ := List.exists_of_findSome?_eq_some found
    obtain ⟨fields, shown, rfl⟩ := Option.map_eq_some_iff.mp here
    obtain none | one := under key member
    · cases none.symm.trans shown
    · exact shown.symm.trans one
  | none =>
    obtain ⟨key, member, there⟩ := filed
    have hidden := Option.map_eq_none_iff.mp (List.findSome?_eq_none_iff.mp found key member)
    rw [Koios.Assets.displayableUnder, there] at hidden
    exact hidden.symm

theorem extractCip25_filed {minting : Option Value} {policyId assetName : String}
    {record : List (String × Value)} (minted : Minted minting policyId assetName record) :
    Koios.Assets.extractCip25 minting policyId assetName =
      .ok ((some (Koios.Assets.cip25Fields (.object record))).filter
        Koios.Assets.Cip25Fields.displayable) := by
  obtain ⟨nft, byPolicy, keys, policy, tried, same, filed⟩ := minted.filed
  rw [Koios.Assets.extractCip25, Koios.Assets.resolveCip25, policy]
  simp only [tried]
  exact congrArg Except.ok (firstDisplayable_filed same filed)

theorem extractCip25_unfiled {minting : Option Value} {policyId assetName : String}
    (unfiled : Koios.Assets.policyMap minting policyId = none) :
    Koios.Assets.extractCip25 minting policyId assetName = .ok none := by
  rw [Koios.Assets.extractCip25, Koios.Assets.resolveCip25, unfiled]
  rfl

/-- What is made of the map of a datum. -/
def cip68Fields (fields : List Value) : Koios.Assets.Cip68Fields where
  name := datumText fields "name"
  description := datumText fields "description"
  image := logoFirst (datumText fields)
  ticker := datumText fields "ticker"
  url := datumText fields "url"
  decimals := datumDecimals fields

theorem extractCip68_held {cip68 : Option Value} {policyId assetName : String} {fields : List Value}
    (holds : Held cip68 policyId assetName fields) :
    Koios.Assets.extractCip68 cip68 policyId assetName =
      if (datumText fields "name").isSome || (datumText fields "description").isSome ||
          (logoFirst (datumText fields)).isSome || (datumText fields "ticker").isSome ||
          (datumText fields "url").isSome || (datumDecimals fields).isSome then
        some (cip68Fields fields)
      else none := by
  obtain ⟨datum, datumFields, top, first, listed, map, rfl⟩ := holds.held
  rw [Koios.Assets.extractCip68, first]
  simp only [Option.bind_eq_bind, Option.bind_some, listed, map]
  rfl

/-- What is published of every row. -/
def baseOf (row : Koios.Assets.AssetInfoRow) : TokenMetadata where
  subject := row.policy_id ++ row.asset_name
  policyId := row.policy_id
  assetName := row.asset_name
  assetNameAscii := emptyToUndefined row.asset_name_ascii
  fingerprint := row.fingerprint
  supply := row.total_supply.text
  source := .none
  name := none
  ticker := none
  description := none
  decimals := none
  url := none
  image := none
  traits := none

theorem baseOf_eq (tells : KoiosTells token row) : baseOf row = token.base := by
  simp only [baseOf, LedgerToken.base, LedgerToken.subject, tells.policy_id, tells.asset_name,
    tells.ascii, tells.fingerprint, tells.supply]

def registryOf (row : Koios.Assets.AssetInfoRow) : RegistryMetadata :=
  ⟨row.name, row.description, row.ticker, row.url, row.decimals⟩

theorem mapTokenMetadata_registered (registered : (registryOf row).isEntry = true) :
    Koios.Assets.mapTokenMetadata row = .ok { baseOf row with
      source := .registry
      name := row.name
      ticker := row.ticker
      description := row.description
      decimals := row.decimals
      url := row.url } :=
  if_pos registered

/-- What is published of what is on chain: the mint comes first, then the datum. -/
def ofChain (base : TokenMetadata) (minted : Option Koios.Assets.Cip25Fields)
    (datum : Option Koios.Assets.Cip68Fields) : TokenMetadata :=
  match minted with
  | some cip25 =>
      { base with
        source := .cip25
        name := cip25.name
        description := cip25.description
        image := cip25.image
        traits := cip25.traits }
  | none =>
      match datum with
      | some cip68 =>
          { base with
            source := .cip68
            name := cip68.name
            ticker := cip68.ticker
            description := cip68.description
            decimals := cip68.decimals
            url := cip68.url
            image := cip68.image }
      | none => base

theorem mapTokenMetadata_unregistered (unregistered : (registryOf row).isEntry = false)
    {minted : Option Koios.Assets.Cip25Fields}
    (found : Koios.Assets.extractCip25 row.minting_tx_metadata row.policy_id row.asset_name = .ok minted) :
    Koios.Assets.mapTokenMetadata row = .ok (ofChain (baseOf row) minted
      (Koios.Assets.extractCip68 row.cip68_metadata row.policy_id row.asset_name)) := by
  have plain : ¬ (row.name.isSome || row.ticker.isSome || row.description.isSome || row.url.isSome ||
      row.decimals.isSome) = true := ne_true_of_eq_false unregistered
  unfold Koios.Assets.mapTokenMetadata
  dsimp only
  rw [if_neg plain, found]
  cases minted with
  | some cip25 => rfl
  | none =>
    cases Koios.Assets.extractCip68 row.cip68_metadata row.policy_id row.asset_name with
    | some cip68 => rfl
    | none => rfl

theorem displayable_eq (record : List (String × Value)) :
    (Koios.Assets.cip25Fields (.object record)).displayable =
      (LedgerToken.displays record || truthy (imageOnly (mintText record))) := by
  rw [Koios.Assets.Cip25Fields.displayable, LedgerToken.displays, Bool.or_right_comm]
  rfl

theorem koios_maps (tells : KoiosTells token row) :
    Koios.Assets.mapTokenMetadata row = .ok (token.metadata imageOnly logoFirst) := by
  have registry : registryOf row = token.registry := tells.registry
  rw [LedgerToken.metadata]
  split
  case isTrue registered =>
    rw [mapTokenMetadata_registered (registry ▸ registered), baseOf_eq tells, LedgerToken.ofRegistry,
      ← registry]
    rfl
  case isFalse unregistered =>
    have plain : (registryOf row).isEntry = false := Bool.eq_false_iff.mpr (registry ▸ unregistered)
    have shown := tells.published
    cases published : token.published with
    | nothing =>
      rw [published] at shown
      obtain ⟨unfiled, absent⟩ := shown
      rw [← tells.policy_id] at unfiled
      have none : Koios.Assets.extractCip25 row.minting_tx_metadata row.policy_id row.asset_name =
          .ok none := extractCip25_unfiled unfiled
      rw [mapTokenMetadata_unregistered plain none, absent, baseOf_eq tells]
      rfl
    | mint record =>
      rw [published] at shown
      obtain ⟨minted, absent⟩ := shown
      rw [← tells.policy_id, ← tells.asset_name] at minted
      rw [mapTokenMetadata_unregistered plain (extractCip25_filed minted), absent, baseOf_eq tells,
        Option.filter_some, displayable_eq]
      change _ = Except.ok (token.ofMint record (imageOnly (mintText record)))
      rw [LedgerToken.ofMint]
      split
      · rfl
      · rfl
    | datum fields =>
      rw [published] at shown
      obtain ⟨unfiled, held⟩ := shown
      rw [← tells.policy_id, ← tells.asset_name] at held
      rw [← tells.policy_id] at unfiled
      rw [mapTokenMetadata_unregistered plain (extractCip25_unfiled unfiled), extractCip68_held held,
        baseOf_eq tells]
      change _ = Except.ok (token.ofDatum fields (logoFirst (datumText fields)))
      rw [LedgerToken.ofDatum]
      split
      · rfl
      · rfl

end Koios

section Blockfrost

variable {token : LedgerToken} {row : AssetRow}

theorem blockfrost_base (tells : BlockfrostTells token row) :
    Blockfrost.Assets.baseOf token.subject row = token.base := by
  have front : (token.policyId.toList ++ token.assetName.toList).take POLICY_ID_HEX_LEN =
      token.policyId.toList := by
    rw [List.take_append_of_le_length (Nat.le_of_eq token.policy.symm)]
    exact List.take_of_length_le (Nat.le_of_eq token.policy)
  have rest : (token.policyId.toList ++ token.assetName.toList).drop POLICY_ID_HEX_LEN =
      token.assetName.toList := List.drop_left' token.policy
  simp only [Blockfrost.Assets.baseOf, LedgerToken.subject, String.toList_append, front, rest,
    String.ofList_toList, tells.fingerprint, tells.supply, LedgerToken.base]

theorem registered_eq (tells : BlockfrostTells token row) :
    row.metadata.filter RegistryMetadata.isEntry =
      if token.registry.isEntry then some token.registry else none := by
  rw [← tells.registry]
  cases row.metadata with
  | none => rfl
  | some m => rw [Option.filter_some, Option.getD_some]

/-- A text that is never empty. -/
def Proper (text : Option String) : Prop := emptyToUndefined text = text

theorem proper_emptyToUndefined (text : Option String) : Proper (emptyToUndefined text) := by
  rw [Proper, emptyToUndefined, emptyToUndefined, Option.filter_filter]
  simp only [Bool.and_self]

theorem proper_bind {α : Type} {x : Option α} {next : α → Option String}
    (each : ∀ a, Proper (next a)) : Proper (x.bind next) := by
  cases x with
  | none => rfl
  | some a => exact each a

theorem Proper.or {first second : Option String} (left : Proper first) (right : Proper second) :
    Proper (first <|> second) := by
  cases first with
  | none => exact right
  | some text => exact left

theorem hexToUtf8_proper (hex : Option Value) : Proper (Koios.Assets.hexToUtf8 hex) :=
  proper_bind fun _ => proper_bind fun _ => proper_emptyToUndefined _

/-- What a datum spells is never empty. -/
theorem datumText_proper (fields : List Value) (key : String) : Proper (datumText fields key) := by
  rw [datumText, Koios.Assets.asString]
  split
  case h_1 =>
    refine proper_bind fun parts => ?_
    split
    · rfl
    · exact hexToUtf8_proper _
  case h_2 => exact hexToUtf8_proper _

theorem imageFirst_proper (fields : List Value) : Proper (imageFirst (datumText fields)) :=
  (datumText_proper fields "image").or (datumText_proper fields "logo")

theorem Proper.truthy_eq {text : Option String} (proper : Proper text) : truthy text = text.isSome :=
  congrArg Option.isSome proper

theorem blockfrost_maps (tells : BlockfrostTells token row) :
    Blockfrost.Assets.mapTokenMetadata token.subject row = token.metadata imageFirst imageFirst := by
  have shown := tells.published
  rw [Blockfrost.Assets.mapTokenMetadata, registered_eq tells, blockfrost_base tells,
    LedgerToken.metadata]
  split
  case h_1 m entry =>
    obtain ⟨registered, same⟩ := Option.ite_none_right_eq_some.mp entry
    cases same
    rw [if_pos registered]
    rfl
  case h_2 plain =>
    have unregistered : ¬ token.registry.isEntry = true := fun registered => by simp [registered] at plain
    rw [if_neg unregistered]
    cases published : token.published with
    | nothing =>
      rw [published] at shown
      rw [show row.onchain_metadata = none from shown]
      rfl
    | mint record =>
      rw [published] at shown
      obtain ⟨minted, standard⟩ := shown
      rw [minted, Option.bind_some, Blockfrost.Assets.onchainTokenMetadata]
      change _ = token.ofMint record (imageFirst (mintText record))
      rw [LedgerToken.ofMint, LedgerToken.displays]
      simp only [standard, Bool.false_eq_true, if_false]
      rw [Bool.or_right_comm (truthy (mintText record "name") || truthy (mintText record "description"))]
      exact apply_ite (Option.getD · token.base) ..
    | datum fields =>
      rw [published] at shown
      obtain ⟨⟨onchain, told, decoded⟩, standard⟩ := shown
      rw [told, Option.bind_some, Blockfrost.Assets.onchainTokenMetadata]
      change _ = token.ofDatum fields (imageFirst (datumText fields))
      have name := decoded.texts "name" (by simp)
      have description := decoded.texts "description" (by simp)
      have image : (cip25String (Blockfrost.Assets.onchainField onchain "image") <|>
          cip25String (Blockfrost.Assets.onchainField onchain "logo")) =
            imageFirst (datumText fields) := by
        rw [decoded.texts "image" (by simp), decoded.texts "logo" (by simp)]
        rfl
      have url := decoded.texts "url" (by simp)
      have shows : (truthy (datumText fields "name") || truthy (datumText fields "ticker") ||
          truthy (datumText fields "description") || truthy (datumText fields "url") ||
          truthy (imageFirst (datumText fields)) || (datumDecimals fields).isSome) =
        ((datumText fields "name").isSome || (datumText fields "description").isSome ||
          (imageFirst (datumText fields)).isSome || (datumText fields "ticker").isSome ||
          (datumText fields "url").isSome || (datumDecimals fields).isSome) := by
        simp only [(datumText_proper fields _).truthy_eq, (imageFirst_proper fields).truthy_eq]
        ac_rfl
      simp only [standard, if_true, name, description, image, url, decoded.ticker, decoded.decimals, shows]
      exact apply_ite (Option.getD · token.base) ..

end Blockfrost

section Agreement

variable {token : LedgerToken}

/-- A logo with some text is a trait. -/
theorem displays_of_logo {record : List (String × Value)} (logo : truthy (mintText record "logo") = true) :
    LedgerToken.displays record = true := by
  have traits : (extractTraits (.object record)).isSome = true := by
    obtain ⟨text, spelled⟩ := Option.isSome_iff_exists.mp logo
    cases found : record.lookup "logo" with
    | none =>
      have absent : mintText record "logo" = none := by
        rw [mintText, Value.property, Value.ownProperty, found]
        rfl
      rw [absent] at spelled
      cases spelled
    | some raw =>
      have here : mintText record "logo" = cip25String (some raw) := by
        rw [mintText, Value.property, Value.ownProperty, found]
      obtain ⟨front, rest, split, -⟩ := List.lookup_eq_some_iff.mp found
      have member : ("logo", raw) ∈ record := split ▸ List.mem_append_right front List.mem_cons_self
      have trait : ("logo", text) ∈ record.filterMap fun entry =>
          if Koios.Assets.CIP25_RESERVED.contains entry.1 || entry.1 == "__proto__" then none
          else (emptyToUndefined (cip25String (some entry.2))).map (entry.1, ·) := by
        rw [here] at spelled
        have unreserved :
            ¬ (Koios.Assets.CIP25_RESERVED.contains "logo" || "logo" == "__proto__") = true := by
          decide
        exact List.mem_filterMap.mpr ⟨_, member,
          (if_neg unreserved).trans (congrArg (Option.map ("logo", ·)) spelled)⟩
      rw [extractTraits]
      change (if List.isEmpty _ = true then none else some _).isSome = true
      rw [if_neg]
      · rfl
      · rw [List.isEmpty_iff]
        exact List.ne_nil_of_mem trait
  rw [LedgerToken.displays, traits, Bool.or_true]

theorem ofMint_eq_iff (record : List (String × Value)) :
    token.ofMint record (imageOnly (mintText record)) =
        token.ofMint record (imageFirst (mintText record)) ↔
      (mintText record "image").isSome ∨ mintText record "logo" = none ∨
        LedgerToken.displays record = false := by
  cases image : mintText record "image" with
  | some text =>
    refine iff_of_true ?_ (.inl rfl)
    rw [imageOnly, imageFirst, image]
    rfl
  | none =>
    simp only [Option.isSome_none, Bool.false_eq_true, false_or]
    cases logo : mintText record "logo" with
    | none =>
      refine iff_of_true ?_ (.inl rfl)
      rw [imageOnly, imageFirst, image, logo]
      rfl
    | some text =>
      simp only [reduceCtorEq, false_or]
      rw [LedgerToken.ofMint, LedgerToken.ofMint, imageOnly, imageFirst, image, logo]
      cases shown : LedgerToken.displays record with
      | true =>
        refine iff_of_false (fun same => ?_) Bool.noConfusion
        cases congrArg TokenMetadata.image same
      | false =>
        have empty : truthy (some text) = false := by
          rw [← logo]
          exact Bool.eq_false_iff.mpr fun spelled => by
            cases shown.symm.trans (displays_of_logo spelled)
        refine iff_of_true ?_ rfl
        change (if (false || truthy none) = true then _ else _) =
          if (false || truthy (some text)) = true then _ else _
        rw [empty]
        rfl

theorem ofDatum_eq_iff (fields : List Value) :
    token.ofDatum fields (logoFirst (datumText fields)) =
        token.ofDatum fields (imageFirst (datumText fields)) ↔
      datumText fields "image" = none ∨ datumText fields "logo" = none ∨
        datumText fields "image" = datumText fields "logo" := by
  cases image : datumText fields "image" with
  | none =>
    refine iff_of_true ?_ (.inl rfl)
    rw [logoFirst, imageFirst, image]
    cases datumText fields "logo" <;> rfl
  | some text =>
    cases logo : datumText fields "logo" with
    | none =>
      refine iff_of_true ?_ (.inr (.inl rfl))
      rw [logoFirst, imageFirst, image, logo]
      rfl
    | some other =>
      simp only [reduceCtorEq, false_or]
      have shown (chosen : String) : token.ofDatum fields (some chosen) =
          { token.base with
            source := .cip68
            name := datumText fields "name"
            ticker := datumText fields "ticker"
            description := datumText fields "description"
            decimals := datumDecimals fields
            url := datumText fields "url"
            image := some chosen } :=
        if_pos (by simp only [Option.isSome_some, Bool.or_true, Bool.true_or])
      rw [logoFirst, imageFirst, image, logo]
      change token.ofDatum fields (some other) = token.ofDatum fields (some text) ↔ _
      rw [shown, shown]
      constructor
      · intro same
        exact (congrArg TokenMetadata.image same).symm
      · intro same
        rw [same]

theorem metadata_eq_iff : token.metadata imageOnly logoFirst = token.metadata imageFirst imageFirst ↔
    token.OneImage := by
  rw [LedgerToken.metadata, LedgerToken.metadata, LedgerToken.OneImage]
  cases token.registry.isEntry with
  | true => exact iff_of_true rfl (.inl rfl)
  | false =>
    simp only [Bool.false_eq_true, if_false, false_or]
    cases token.published with
    | nothing => exact iff_of_true rfl trivial
    | mint record => exact ofMint_eq_iff record
    | datum fields => exact ofDatum_eq_iff fields

end Agreement

end WalletBackend.Providers
