import WalletBackend.Library.Binary64

/-! Numbers of the price upstreams as plain decimal strings. -/
namespace WalletBackend.Prices

structure RangeError where
  message : String
  deriving DecidableEq

/-- The parts of `1.234e-9` that `/^(-?)(\d+)(?:\.(\d+))?e([+-]?\d+)$/i` captures. -/
structure Exponential where
  sign : List Char
  intPart : List Char
  fracPart : List Char
  exponent : Int

def matchExponential (text : List Char) : Option Exponential :=
  let sign := text.takeWhile (· == '-')
  let intPart := (text.dropWhile (· == '-')).takeWhile Char.isDigit
  let rest := (text.dropWhile (· == '-')).dropWhile Char.isDigit
  let fraction : Option (List Char × List Char) :=
    match rest with
    | '.' :: tail =>
        if (tail.takeWhile Char.isDigit).isEmpty then none
        else some (tail.takeWhile Char.isDigit, tail.dropWhile Char.isDigit)
    | _ => some ([], rest)
  if 1 < sign.length || intPart.isEmpty then none
  else
    match fraction with
    | some (fracPart, mark :: exponent) =>
        if mark == 'e' || mark == 'E' then
          (Binary64.readSigned exponent).map (Exponential.mk sign intPart fracPart)
        else none
    | _ => none

/-- Of a fraction the zeros at the end are dropped, and the point if nothing is left of it. -/
def trimmed (body : List Char) : List Char :=
  let kept := body.rdropWhile (· == '0')
  if kept.getLast? = some '.' then kept.dropLast else kept

/-- Rewrite an exponential literal as a plain decimal: the point is shifted by the exponent,
the digits are kept. -/
def expandExponential (text : List Char) : List Char :=
  match matchExponential text with
  | none => text
  | some ⟨sign, intPart, fracPart, exponent⟩ =>
      let digits := intPart ++ fracPart
      let pointPos : Int := intPart.length + exponent
      if pointPos ≤ 0 then
        sign ++ trimmed ('0' :: '.' :: List.replicate (-pointPos).toNat '0' ++ digits)
      else if digits.length ≤ pointPos then
        -- An integer; its zeros count.
        sign ++ digits ++ List.replicate (pointPos - digits.length).toNat '0'
      else
        sign ++ trimmed (digits.take pointPos.toNat ++ '.' :: digits.drop pointPos.toNat)

def toDecimalString (n : Float) : Except RangeError String :=
  if n.isFinite then
    let str := (Binary64.toText n).toList
    .ok (String.ofList (if str.any fun c => c == 'e' || c == 'E' then expandExponential str else str))
  else
    .error ⟨"cannot format a non-finite number as a decimal string: " ++ Binary64.toText n⟩

example : toDecimalString 1.5e-9 = .ok "0.0000000015" ∧
    toDecimalString 1e21 = .ok "1000000000000000000000" := by decide +kernel

/-- The quotient of two decimal strings. -/
def divideDecimalStrings (numerator denominator : String) : Except RangeError String :=
  let numeratorValue := Binary64.ofText numerator
  let denominatorValue := Binary64.ofText denominator
  if !numeratorValue.isFinite then .error ⟨"cannot divide with a non-finite numerator"⟩
  else if !denominatorValue.isFinite then .error ⟨"cannot divide with a non-finite denominator"⟩
  else if denominatorValue == 0 then .error ⟨"cannot divide by a zero denominator"⟩
  else toDecimalString (numeratorValue / denominatorValue)

/-- Exactly the finite numbers can be formatted. -/
theorem toDecimalString_isOk (n : Float) : (∃ text, toDecimalString n = .ok text) ↔ n.isFinite = true := by
  unfold toDecimalString
  cases n.isFinite <;> simp

end WalletBackend.Prices
