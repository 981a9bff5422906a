import WalletBackend.Domain.Errors
import WalletBackend.Domain.Numbers
import WalletBackend.Domain.Types
import WalletBackend.Library.Hex
import WalletBackend.Library.KeyedMap

/-! Blockfrost's flat `amount` lists and their split into lovelace and native
assets. An item carries the proof that its unit passed the schema. -/
namespace WalletBackend.Blockfrost
open Containers

/-- A policy id is 28 bytes. -/
def POLICY_ID_HEX_LEN : Nat := 56

/-- An asset name is at most 32 bytes. -/
def MAX_ASSET_NAME_HEX_LEN : Nat := 64

/-- `UNIT_PATTERN`: a policy id followed by whole bytes of an asset name. -/
def matchesUnitPattern (unit : String) : Bool :=
  let chars := unit.toList
  chars.all Hex.isDigit && POLICY_ID_HEX_LEN ≤ chars.length &&
    (chars.length - POLICY_ID_HEX_LEN) % 2 = 0 &&
    chars.length - POLICY_ID_HEX_LEN ≤ MAX_ASSET_NAME_HEX_LEN

def isValidUnit (unit : String) : Bool := unit = "lovelace" || matchesUnitPattern unit

structure AmountItem where
  unit : String
  quantity : Numeric
  valid : isValidUnit unit = true
  deriving DecidableEq

abbrev AmountList := List AmountItem

theorem isValidUnit_lovelace : isValidUnit "lovelace" = true := by decide

/-- What the loop of `splitAmount` carries: the lovelace entry once found, the
assets so far, the units of this list and the spellings shared across lists. -/
structure SplitState where
  value : Option String
  assets : List Asset
  seen : List String
  seenUnits : Option (KeyedMap String String)

def assetOf (item : AmountItem) : Asset where
  policyId := String.ofList (item.unit.toList.take POLICY_ID_HEX_LEN)
  assetName := String.ofList (item.unit.toList.drop POLICY_ID_HEX_LEN)
  quantity := item.quantity.text

/-- An item whose unit has passed both guards. -/
def SplitState.record (s : SplitState) (item : AmountItem) : SplitState :=
  let key := item.unit.toLower
  let noted : SplitState := { s with
    seen := key :: s.seen
    seenUnits := s.seenUnits.map (·.set key item.unit) }
  if item.unit = "lovelace" then { noted with value := some item.quantity.text }
  else { noted with assets := s.assets ++ [assetOf item] }

def SplitState.add (s : SplitState) (item : AmountItem) : Except Failure SplitState :=
  let key := item.unit.toLower
  if key ∈ s.seen then
    .error (.malformed
      s!"blockfrost returned a utxo amount with a duplicate '{item.unit}' unit")
  else
    match s.seenUnits.bind (·.get? key) with
    | some prior =>
        if prior = item.unit then .ok (s.record item)
        else .error (.malformed ("blockfrost returned the same native-asset unit with different " ++
          s!"hexadecimal casing: '{prior}' and '{item.unit}'"))
    | none => .ok (s.record item)

structure SplitAmount where
  value : String
  assets : List Asset

/-- `splitAmount(items, seenUnits)`, with the shared map as it is afterwards. -/
def splitAmount (items : AmountList) (seenUnits : Option (KeyedMap String String)) :
    Except Failure (SplitAmount × Option (KeyedMap String String)) := do
  let s ← items.foldlM SplitState.add
    { value := none, assets := [], seen := [], seenUnits := seenUnits }
  match s.value with
  | none => .error (.malformed "blockfrost returned a utxo amount with no 'lovelace' unit")
  | some value => .ok ({ value := value, assets := s.assets }, s.seenUnits)

end WalletBackend.Blockfrost
