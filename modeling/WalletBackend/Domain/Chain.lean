/-! The chain-level shapes of `domain/types/chain.ts`. -/
namespace WalletBackend

/-- The chain tip. -/
structure Tip where
  block : Nat
  slot : Nat
  epoch : Nat
  hash : String
  blockTime : Nat
  deriving DecidableEq, Repr

/-- The protocol parameters, of which only the epoch is read here. -/
structure ProtocolParams where
  epoch : Nat
  deriving DecidableEq, Repr

end WalletBackend
