/-! The stake-account shapes of `domain/types/account.ts`. -/
namespace WalletBackend

structure AccountState where
  stakeAddress : String
  registered : Bool
  balance : String
  rewardsAvailable : String
  rewardsSum : String
  withdrawalsSum : String
  delegatedPool : Option String
  delegatedDrep : Option String
  deriving DecidableEq, Repr

inductive RewardKind where
  | member | leader | treasury | reserves | refund | proposalRefund
  deriving DecidableEq, Repr

structure AccountReward where
  earnedEpoch : Nat
  spendableEpoch : Nat
  amount : String
  kind : RewardKind
  poolId : Option String
  deriving DecidableEq, Repr

end WalletBackend
