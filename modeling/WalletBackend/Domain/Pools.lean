import WalletBackend.Domain.Numbers
import Mathlib.Data.Rat.Defs

/-! The stake-pool shapes of `domain/types`. Fractions are those that a double holds. -/
namespace WalletBackend

structure PoolMetadata where
  name : Option String
  ticker : Option String
  homepage : Option String
  description : Option String
  deriving DecidableEq

inductive PoolStatus where
  | registered
  | retiring
  | retired
  deriving DecidableEq

structure PoolInfo where
  poolId : String
  poolIdHex : String
  status : PoolStatus
  retiringEpoch : Option Nat
  margin : ℚ
  fixedCost : String
  pledge : String
  livePledge : String
  activeStake : String
  liveStake : String
  saturation : ℚ
  liveDelegators : Nat
  blocksMinted : Nat
  metadata : Option PoolMetadata
  deriving DecidableEq

structure PoolListParams where
  limit : Nat
  offset : Nat
  ticker : Option String
  deriving DecidableEq

/-- `BigInt(value)`. -/
def Numeric.toBigInt : Numeric → Nat
  | .number n _ => n
  | .digits s _ => Nat.ofDigitChars 10 s.toList 0

end WalletBackend
