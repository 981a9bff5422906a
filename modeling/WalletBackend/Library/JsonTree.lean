import WalletBackend.Library.Binary64
import Mathlib.Data.List.Basic

/-! JSON documents as a script walks them: properties in the order in which they are
enumerated, what is inherited from a prototype, and the conversions to text and to numbers. -/
namespace JsonTree

/-- What a parser of JSON returns. The names of an object are distinct. -/
inductive Value where
  | null
  | bool (value : Bool)
  | number (value : Float)
  | string (value : String)
  | array (items : List Value)
  | object (entries : List (String × Value))

namespace Value

/-- The index that a property name denotes in an array. -/
def arrayIndex? (key : String) : Option Nat :=
  let digits := key.toList
  let canonical := digits.all Char.isDigit && (digits.length == 1 || digits.head? != some '0')
  if !digits.isEmpty && canonical then some (Binary64.digitsValue digits) else none

/-- An own property. -/
def ownProperty : Value → String → Option Value
  | .array items, key =>
      if key = "length" then some (.number (.ofNat items.length))
      else (arrayIndex? key).bind (items[·]?)
  | .object entries, key => entries.lookup key
  | _, _ => none

/-- `value[key]`. What else is inherited is a function, which no document holds. -/
def property (value : Value) (key : String) : Option Value :=
  match value.ownProperty key with
  | some own => some own
  | none =>
      if key = "__proto__" then
        match value with
        | .array _ => some (.array [])
        | .object _ => some (.object [])
        | _ => none
      else none

/-- `Object.entries(value)`. -/
def entries : Value → List (String × Value)
  | .array items => items.zipIdx.map fun (item, i) => (toString i, item)
  | .object entries => entries
  | _ => []

/-- `typeof value === 'object' && value !== null`. -/
def isRecord : Value → Bool
  | .array _ => true
  | .object _ => true
  | _ => false

def items? : Value → Option (List Value)
  | .array items => some items
  | _ => none

def string? : Value → Option String
  | .string value => some value
  | _ => none

mutual

/-- `String(value)`. A `TypeError` is thrown where an object has a `toString` of its own,
since no value of a document can be called. -/
def text? : Value → Option String
  | .null => some "null"
  | .bool value => some (toString value)
  | .number value => some (Binary64.toText value)
  | .string value => some value
  | .array items => (joined items).map (",".intercalate ·)
  | .object entries =>
      if (entries.lookup "toString").isSome then none else some "[object Object]"

/-- The items as `join` writes them. -/
def joined : List Value → Option (List String)
  | [] => some []
  | item :: items => do
      let first ← match item with
        | .null => some ""
        | other => text? other
      let rest ← joined items
      some (first :: rest)

end

/-- `Number(value)`, unless it throws. -/
def toNumber? : Value → Option Float
  | .null => some 0
  | .bool value => some (if value then 1 else 0)
  | .number value => some value
  | .string value => some (Binary64.ofText value)
  | .array items => (text? (.array items)).map Binary64.ofText
  | .object entries => (text? (.object entries)).map Binary64.ofText

end Value
end JsonTree
