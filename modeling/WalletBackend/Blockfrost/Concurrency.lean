import WalletBackend.Library.PoolRuns

/-! The bounded fan-out of `concurrency.ts`. -/
namespace WalletBackend.Blockfrost
open Interaction

variable {Req : Type} {Resp : Req → Type} {ε R Item Instant : Type}

/-- `mapWithConcurrency(items, limit, worker)`: `limit` runners share one iterator. -/
def mapWithConcurrency (items : List Item) (limit : Nat)
    (worker : Item → Nat → Async Resp ε R) : Async Resp ε (List R) :=
  fanOut worker items limit

end WalletBackend.Blockfrost
