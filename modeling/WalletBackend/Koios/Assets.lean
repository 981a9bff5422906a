import WalletBackend.Domain.Assets
import WalletBackend.Domain.Dreps
import WalletBackend.Koios.Reads
import WalletBackend.Library.JsonTree
import WalletBackend.Library.KeyedJoin

/-! The token metadata of `assets.ts`: the registry entry of a token, what its mint or its
datum says of it, and the batch read that joins the rows with the subjects asked about. -/
namespace WalletBackend.Koios.Assets
open Interaction Containers
open JsonTree (Value)

/-- `assetInfoRow`. What a minter wrote is kept as it came. -/
structure AssetInfoRow where
  policy_id : String
  asset_name : String
  asset_name_ascii : Option String
  fingerprint : String
  total_supply : Numeric
  name : Option String
  ticker : Option String
  description : Option String
  url : Option String
  decimals : Option Nat
  minting_tx_metadata : Option Value
  cip68_metadata : Option Value

def emptyToUndefined (value : Option String) : Option String :=
  value.filter fun text => text != ""

/-- `value[key]` of a record. -/
def member (value : Option Value) (key : String) : Option Value :=
  (value.filter Value.isRecord).bind (·.property key)

section Hex

def hexDigitValue (c : Char) : Option Nat :=
  if c.isDigit then some (c.toNat - '0'.toNat)
  else if 'a' ≤ c ∧ c ≤ 'f' then some (c.toNat - 'a'.toNat + 10)
  else if 'A' ≤ c ∧ c ≤ 'F' then some (c.toNat - 'A'.toNat + 10)
  else none

/-- The bytes of an even number of digits. -/
def hexBytes : List Char → Option (List UInt8)
  | [] => some []
  | [_] => none
  | high :: low :: rest => do
      let high ← hexDigitValue high
      let low ← hexDigitValue low
      let bytes ← hexBytes rest
      some (.ofNat (high * 16 + low) :: bytes)

/-- A fatal `TextDecoder`, which drops a byte order mark in front. -/
def decodeUtf8 (bytes : List UInt8) : Option String := do
  let text ← String.fromUTF8? bytes.toByteArray
  if text.toList.head? = some '\uFEFF' then some (String.ofList text.toList.tail) else some text

/-- The text that the digits encode, unless it is empty. -/
def hexToUtf8 (hex : Option Value) : Option String := do
  let digits ← hex.bind Value.string?
  let bytes ← hexBytes digits.toList
  emptyToUndefined (decodeUtf8 bytes)

def hexOf (text : String) : String := toHex text.toUTF8.toList

end Hex

section Cip68

structure Cip68Fields where
  name : Option String
  description : Option String
  image : Option String
  ticker : Option String
  url : Option String
  decimals : Option Nat

def CIP68_NESTED_KEY_HEX : String := hexOf "721"
def CIP67_LABEL_HEX_LEN : Nat := 8

/-- The entries of a PlutusData map. -/
def mapEntries (value : Option Value) : Option (List Value) :=
  (member value "map").bind Value.items?

/-- An entry's key in hex. -/
def keyHexOf (entry : Value) : Option String :=
  (member (member (some entry) "k") "bytes").bind Value.string?

def valueForKeyHex (entries : List Value) (keyHex : String) : Option Value :=
  let found := entries.find? fun entry => (keyHexOf entry).map String.toLower == some keyHex.toLower
  found.bind (·.property "v")

/-- A datum of version 4 is unwrapped to the map of the asset. -/
def unwrapNested (top : List Value) (policyIdHex assetNameHex : String) : Option (List Value) := do
  let byPolicy ← mapEntries (valueForKeyHex top CIP68_NESTED_KEY_HEX)
  let byAsset ← mapEntries (valueForKeyHex byPolicy policyIdHex)
  -- The name without its label, or else with it.
  let bare := String.ofList (assetNameHex.toList.drop CIP67_LABEL_HEX_LEN)
  mapEntries (valueForKeyHex byAsset bare) <|> mapEntries (valueForKeyHex byAsset assetNameHex)

/-- A byte string, or a list of them that are decoded together. -/
def asString (v : Option Value) : Option String :=
  match (member v "list").bind Value.items? with
  | some chunks => do
      let parts ← chunks.mapM fun chunk => (member (some chunk) "bytes").bind Value.string?
      if parts.isEmpty then none else hexToUtf8 (some (.string (String.join parts)))
  | none => hexToUtf8 (member v "bytes")

/-- `Number.isSafeInteger(value) && value >= 0`. -/
def safeCount (value : Float) : Option Nat :=
  let exact := Binary64.toRat value
  if value.isFinite ∧ exact.den = 1 ∧ 0 ≤ exact ∧ exact ≤ maxSafeInteger then
    some exact.num.toNat
  else none

def asDecimals (v : Option Value) : Option Nat :=
  match member v "int" with
  | some (.number raw) => safeCount raw
  | some (.string raw) => if isDigits raw then safeCount (Binary64.ofText raw) else none
  | _ => none

def extractCip68 (cip68 : Option Value) (policyIdHex assetNameHex : String) :
    Option Cip68Fields := do
  let datum ← ((cip68.filter Value.isRecord).map Value.entries).bind List.head?
  let datumFields ← (member (some datum.2) "fields").bind Value.items?
  let top ← mapEntries datumFields[0]?
  let entries := (unwrapNested top policyIdHex assetNameHex).getD top
  let valueFor (fieldName : String) := valueForKeyHex entries (hexOf fieldName)
  let fields : Cip68Fields :=
    { name := asString (valueFor "name")
      description := asString (valueFor "description")
      image := asString (valueFor "logo") <|> asString (valueFor "image")
      ticker := asString (valueFor "ticker")
      url := asString (valueFor "url")
      decimals := asDecimals (valueFor "decimals") }
  if fields.name.isSome || fields.description.isSome || fields.image.isSome ||
      fields.ticker.isSome || fields.url.isSome || fields.decimals.isSome then
    some fields
  else none

end Cip68

section Cip25

structure Cip25Fields where
  name : Option String
  description : Option String
  image : Option String
  traits : Option (List (String × String))
  deriving DecidableEq

/-- A string, or the chunks of one. -/
def cip25String (value : Option Value) : Option String :=
  match value with
  | some (.string text) => some text
  | some (.array items) => do
      let chunks ← items.mapM Value.string?
      if chunks.isEmpty then none else some (String.join chunks)
  | _ => none

/-- The key of version 1; a name that is no text has none. -/
def v1TextKey (assetNameHex : String) : Option String :=
  if assetNameHex = "" then some "" else hexToUtf8 (some (.string assetNameHex))

def CIP25_RESERVED : List String :=
  ["name", "image", "description", "mediaType", "files", "Project", "project"]

/-- What the standard did not reserve and reads as a label. -/
def extractTraits (entry : Value) : Option (List (String × String)) :=
  let traits := entry.entries.filterMap fun (key, raw) =>
    -- An assignment to `__proto__` of a string does nothing.
    if CIP25_RESERVED.contains key || key == "__proto__" then none
    else (emptyToUndefined (cip25String (some raw))).map (key, ·)
  if traits.isEmpty then none else some traits

/-- `Number(nft.version) === 2`. -/
def declaresVersion2 (nft : Value) : Except Failure Bool :=
  match nft.property "version" with
  | none => .ok false
  | some version =>
      match version.toNumber? with
      | some number => .ok (number == 2)
      | none => .error (.typeError "Cannot convert object to primitive value")

/-- The keys to try, in order; a repeated one is tried once. -/
def cip25Keys (nft : Value) (assetNameHex : String) : Except Failure (List String) := do
  let text := (v1TextKey assetNameHex).toList
  let keys := if ← declaresVersion2 nft then assetNameHex :: text else text ++ [assetNameHex]
  .ok keys.eraseDups

/-- The fields of a record. -/
def cip25Fields (entry : Value) : Cip25Fields where
  name := cip25String (entry.property "name")
  description := cip25String (entry.property "description")
  image := cip25String (entry.property "image")
  traits := extractTraits entry

def Cip25Fields.displayable (fields : Cip25Fields) : Bool :=
  (emptyToUndefined fields.name).isSome || (emptyToUndefined fields.description).isSome ||
    (emptyToUndefined fields.image).isSome || fields.traits.isSome

/-- The record under a key, if it has anything to display. -/
def displayableUnder (byPolicy : Value) (key : String) : Option Cip25Fields :=
  (((byPolicy.property key).filter Value.isRecord).map cip25Fields).filter Cip25Fields.displayable

/-- The first key whose record has anything to display, with its fields. -/
def firstDisplayable (byPolicy : Value) (keys : List String) : Option (String × Cip25Fields) :=
  keys.findSome? fun key => (displayableUnder byPolicy key).map (key, ·)

/-- The policy's map in the mint metadata, and the map it is in. -/
def policyMap (minting : Option Value) (policy : String) : Option (Value × Value) := do
  let nft ← (member minting "721").filter Value.isRecord
  let byPolicy ← (nft.property policy).filter Value.isRecord
  some (nft, byPolicy)

/-- The entry of an asset, with the key it was found under. -/
def resolveCip25 (minting : Option Value) (policy assetNameHex : String) :
    Except Failure (Option (String × Cip25Fields)) :=
  match policyMap minting policy with
  | none => .ok none
  | some (nft, byPolicy) => (cip25Keys nft assetNameHex).map (firstDisplayable byPolicy)

def extractCip25 (minting : Option Value) (policy assetNameHex : String) :
    Except Failure (Option Cip25Fields) :=
  (resolveCip25 minting policy assetNameHex).map (·.map Prod.snd)

end Cip25

/-- The registry comes first, then the mint, then the datum. -/
def mapTokenMetadata (row : AssetInfoRow) : Except Failure TokenMetadata := do
  let base : TokenMetadata :=
    { subject := row.policy_id ++ row.asset_name
      policyId := row.policy_id
      assetName := row.asset_name
      assetNameAscii := emptyToUndefined row.asset_name_ascii
      fingerprint := row.fingerprint
      supply := row.total_supply.text
      source := .none
      name := none
      ticker := none
      description := none
      decimals := none
      url := none
      image := none
      traits := none }
  if row.name.isSome || row.ticker.isSome || row.description.isSome || row.url.isSome ||
      row.decimals.isSome then
    .ok { base with
      source := .registry
      name := row.name
      ticker := row.ticker
      description := row.description
      decimals := row.decimals
      url := row.url }
  else
    match ← extractCip25 row.minting_tx_metadata row.policy_id row.asset_name with
    | some cip25 =>
        .ok { base with
          source := .cip25
          name := cip25.name
          description := cip25.description
          image := cip25.image
          traits := cip25.traits }
    | none =>
        match extractCip68 row.cip68_metadata row.policy_id row.asset_name with
        | some cip68 =>
            .ok { base with
              source := .cip68
              name := cip68.name
              ticker := cip68.ticker
              description := cip68.description
              decimals := cip68.decimals
              url := cip68.url
              image := cip68.image }
        | none => .ok base

section Read

/-- The answer of `/asset_info` for pairs of a policy id and a name. -/
abbrev Answer (_ : List (String × String)) : Type := Except Failure (List AssetInfoRow)

abbrev AssetRead (α : Type) := Async Answer Failure α

/-- `{ _asset_list: chunk }`. -/
def assetListBody : BodyBuilder (String × String) where
  before := "\x7b\"_asset_list\":"
  item pair := "[\"" ++ pair.1 ++ "\",\"" ++ pair.2 ++ "\"]"
  after := "\x7d"

def pairOf (subject : String) : String × String :=
  (String.ofList (subject.toList.take POLICY_ID_HEX_LEN),
    String.ofList (subject.toList.drop POLICY_ID_HEX_LEN))

variable (attempts : ReadAttempts) (bodyLimit : Nat)

/-- `koios.batch`: fetch, validate and retry. -/
def batch (pairs : List (String × String)) : AssetRead (List AssetInfoRow) :=
  read attempts do Async.ofExcept (← Async.ask pairs)

/-- One turn of the loop over the subjects: a hit is found, another is missing. -/
def peekSubject (hits : String → Option TokenMetadata)
    (state : KeyedMap String TokenMetadata × List String) (subject : String) :
    KeyedMap String TokenMetadata × List String :=
  match hits subject with
  | some hit => (state.1.set subject hit, state.2)
  | none => (state.1, state.2 ++ [subject])

def peekSubjects (hits : String → Option TokenMetadata) (subjects : List String) :
    KeyedMap String TokenMetadata × List String :=
  subjects.foldl (peekSubject hits) (.empty, [])

def AssetInfoRow.subject (row : AssetInfoRow) : String := row.policy_id ++ row.asset_name

/-- The entries that the loop over the rows writes, each under the subject that its row
spells. -/
def fileRows : List AssetInfoRow → Except Failure (List (String × TokenMetadata))
  | [] => .ok []
  | row :: rows => do
      let token ← mapTokenMetadata row
      let entries ← fileRows rows
      .ok ((row.subject, token) :: entries)

/-- What a cache has of the subjects is found, the rest is asked for. Subjects that upstream
does not know are absent. -/
def getTokenMetadata (hits : String → Option TokenMetadata) (subjects : List String) :
    AssetRead (List TokenMetadata) :=
  if subjects.length = 0 then pure []
  else do
    let normalized := subjects.map String.toLower
    let (cached, missing) := peekSubjects hits normalized
    let found ←
      if missing.length = 0 then pure cached
      else do
        let rows ← batchAll assetListBody (batch attempts) bodyLimit (missing.map pairOf)
        let entries ← Async.ofExcept (fileRows rows)
        pure (cached.setAll entries)
    pure (normalized.filterMap found.get?)

end Read

end WalletBackend.Koios.Assets
