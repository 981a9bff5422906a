import WalletBackend.Domain.Casing
import Mathlib.Data.List.Sort

/-! The keys of the price of ADA and of its history, of `coingecko.ts`, and the codes of currencies as
the routes accept them. -/
namespace WalletBackend.Prices

/-- `/^[A-Za-z]{2,10}$/`. -/
def isCurrencyCode (text : String) : Bool :=
  2 ≤ text.length && text.length ≤ 10 && text.toList.all Char.isAlpha

structure CurrencyCode where
  text : String
  valid : isCurrencyCode text = true
  deriving DecidableEq

/-- `PRICE_RANGES`. -/
inductive PriceRange where
  | d1
  | w1
  | m1
  | m6
  | y1
  | all
  deriving DecidableEq

def PriceRange.text : PriceRange → String
  | .d1 => "1d"
  | .w1 => "1w"
  | .m1 => "1m"
  | .m6 => "6m"
  | .y1 => "1y"
  | .all => "all"

/-- `[...currencies].sort().join(',')`, under its prefix. -/
def adaPriceKey (currencies : List CurrencyCode) : String :=
  "price:ada:" ++ ",".intercalate
    ((currencies.map CurrencyCode.text).mergeSort fun a b => decide (a ≤ b))

def adaHistoryKey (range : PriceRange) (currency : CurrencyCode) : String :=
  "price:ada:history:" ++ range.text ++ ":" ++ currency.text.toLower

end WalletBackend.Prices
