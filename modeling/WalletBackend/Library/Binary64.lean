import Mathlib.Data.Int.Log
import Mathlib.Data.List.DropRight
import Mathlib.Data.Rat.Floor

/-! Binary64 numbers as scripts read them from text and print them. The arithmetic is
that of `Float`. -/
namespace Binary64

/-- The exact value of a finite number. -/
def toRat (x : Float) : ℚ :=
  match x.toModel.unpack with
  | .finite sign mantissa exponent _ => sign.apply mantissa * 2 ^ exponent
  | _ => 0

/-- A decimal fraction, `coefficient * 10 ^ exponent`. -/
structure Decimal where
  coefficient : Nat
  exponent : Int
  deriving DecidableEq

/-- The nearest number, the even one of two. -/
def Decimal.toFloat (decimal : Decimal) : Float :=
  .ofModel (.ofScientific decimal.coefficient decimal.exponent)

/-! ### Printing -/

/-- The nearer of the two decimals of `k` digits about `x` that reads back as `x`. -/
def nearestOfLength (x : Float) (k : Nat) : Option Decimal :=
  let value := toRat x
  let exponent := Int.log 10 value + 1 - k
  let scaled := value / 10 ^ exponent
  let below := ⌊scaled⌋₊
  let distance := scaled - below
  let candidates :=
    if distance < 1 / 2 ∨ (distance = 1 / 2 ∧ below % 2 = 0) then [below, below + 1]
    else [below + 1, below]
  (candidates.map (Decimal.mk · exponent)).find? fun decimal => decimal.toFloat.toBits == x.toBits

/-- The shortest decimal that reads back as a positive `x`; none needs more than seventeen
digits. -/
def shortest (x : Float) : Option Decimal :=
  (List.range' 1 17).findSome? (nearestOfLength x)

/-- Digits with the point after the first `point` of them. -/
def layout (digits : List Char) (point : Int) : List Char :=
  if digits.length ≤ point ∧ point ≤ 21 then
    digits ++ List.replicate (point - digits.length).toNat '0'
  else if 0 < point ∧ point ≤ 21 then
    digits.take point.toNat ++ '.' :: digits.drop point.toNat
  else if -6 < point ∧ point ≤ 0 then
    '0' :: '.' :: List.replicate (-point).toNat '0' ++ digits
  else
    let exponent := (if point - 1 < 0 then '-' else '+') :: Nat.toDigits 10 (point - 1).natAbs
    let fraction := if digits.length = 1 then [] else '.' :: digits.drop 1
    digits.take 1 ++ fraction ++ 'e' :: exponent

def Decimal.text (decimal : Decimal) : List Char :=
  let digits := Nat.toDigits 10 decimal.coefficient
  -- One below a power of ten may be rounded up to it.
  layout (digits.rdropWhile (· == '0')) (digits.length + decimal.exponent)

/-- `Number.prototype.toString`. -/
def toText (x : Float) : String :=
  if x.isNaN then "NaN"
  else if x == 0 then "0"
  else
    let magnitude :=
      if x.isInf then "Infinity".toList else ((shortest x.abs).map Decimal.text).getD []
    String.ofList (if x < 0 then '-' :: magnitude else magnitude)

/-! ### Reading -/

/-- `StrWhiteSpaceChar`. -/
def isWhiteSpace (c : Char) : Bool :=
  [0x9, 0xA, 0xB, 0xC, 0xD, 0x20, 0xA0, 0x1680, 0x2028, 0x2029, 0x202F, 0x205F, 0x3000,
    0xFEFF].contains c.toNat || (0x2000 ≤ c.toNat && c.toNat ≤ 0x200A)

def digitsValue (digits : List Char) : Nat := Nat.ofDigitChars 10 digits 0

/-- `SignedInteger`. -/
def readSigned (text : List Char) : Option Int :=
  let magnitude (digits : List Char) : Option Int :=
    if !digits.isEmpty && digits.all Char.isDigit then some (digitsValue digits) else none
  match text with
  | '+' :: digits => magnitude digits
  | '-' :: digits => (magnitude digits).map (- ·)
  | digits => magnitude digits

/-- `StrUnsignedDecimalLiteral`, but for `Infinity`. -/
def readDecimal (text : List Char) : Option Decimal :=
  let whole := text.takeWhile Char.isDigit
  let rest := text.dropWhile Char.isDigit
  let (fraction, rest) :=
    match rest with
    | '.' :: tail => (tail.takeWhile Char.isDigit, tail.dropWhile Char.isDigit)
    | _ => ([], rest)
  let exponent :=
    match rest with
    | [] => some 0
    | mark :: tail => if mark == 'e' || mark == 'E' then readSigned tail else none
  if whole.isEmpty && fraction.isEmpty then none
  else exponent.map fun exponent =>
    { coefficient := digitsValue (whole ++ fraction), exponent := exponent - fraction.length }

/-- The digits of a literal in base sixteen, eight or two. -/
def readRadix (base : Nat) (digits : List Char) : Option Nat :=
  let digit? (c : Char) : Option Nat :=
    let value :=
      if c.isDigit then c.toNat - '0'.toNat
      else if 'a' ≤ c ∧ c ≤ 'z' then c.toNat - 'a'.toNat + 10
      else if 'A' ≤ c ∧ c ≤ 'Z' then c.toNat - 'A'.toNat + 10
      else base
    if value < base then some value else none
  if digits.isEmpty then none
  else digits.foldlM (fun number c => (digit? c).map (number * base + ·)) 0

def nan : Float := 0 / 0
def infinity : Float := 1 / 0

/-- `Number(text)`. -/
def ofText (text : String) : Float :=
  let trimmed := (text.toList.dropWhile isWhiteSpace).rdropWhile isWhiteSpace
  let magnitude (text : List Char) : Option Float :=
    if text = "Infinity".toList then some infinity else (readDecimal text).map Decimal.toFloat
  let radix (base : Nat) (digits : List Char) : Option Float :=
    (readRadix base digits).map fun number => Decimal.toFloat ⟨number, 0⟩
  let number :=
    match trimmed with
    | [] => some 0
    | '0' :: mark :: digits =>
        if mark == 'x' || mark == 'X' then radix 16 digits
        else if mark == 'o' || mark == 'O' then radix 8 digits
        else if mark == 'b' || mark == 'B' then radix 2 digits
        else magnitude trimmed
    | '+' :: unsigned => magnitude unsigned
    | '-' :: unsigned => (magnitude unsigned).map Float.neg
    | unsigned => magnitude unsigned
  number.getD nan

end Binary64
