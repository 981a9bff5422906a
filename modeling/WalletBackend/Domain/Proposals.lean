/-! Governance actions, of `domain/types/governance.ts`, and what both drivers make of the fields that
their upstreams report alike. -/
namespace WalletBackend

/-- `PROPOSAL_TYPES`. -/
inductive ProposalType where
  | ParameterChange
  | HardForkInitiation
  | TreasuryWithdrawals
  | NoConfidence
  | NewCommittee
  | NewConstitution
  | InfoAction
  deriving DecidableEq

inductive ProposalStatus where
  | open_
  | ratified
  | enacted
  | dropped
  | expired
  deriving DecidableEq

structure VoteCountTally where
  yes : Nat
  no : Nat
  abstain : Nat
  deriving DecidableEq

structure VoteTally extends VoteCountTally where
  yesPower : String
  noPower : String
  abstainPower : String
  deriving DecidableEq

structure Proposal where
  proposalId : String
  txHash : String
  index : Nat
  type : ProposalType
  status : ProposalStatus
  proposedEpoch : Option Nat
  expiryEpoch : Option Nat
  decidedEpoch : Option Nat
  deposit : String
  returnAddress : String
  title : Option String
  abstract : Option String
  metadataUrl : Option String
  metadataHash : Option String
  metadataValid : Option Bool
  drepVotes : Option VoteTally
  poolVotes : Option VoteTally
  committeeVotes : Option VoteCountTally
  deriving DecidableEq

structure ProposalListParams where
  limit : Nat
  offset : Nat

/-- The four epochs by which an upstream reports the fate of a proposal. -/
structure ProposalEpochs where
  enacted_epoch : Option Nat
  ratified_epoch : Option Nat
  dropped_epoch : Option Nat
  expired_epoch : Option Nat

/-- `proposalStatus`, with `decidedEpoch`: a proposal is ratified first and enacted afterwards. -/
def ProposalEpochs.proposalStatus (epochs : ProposalEpochs) : ProposalStatus × Option Nat :=
  match epochs.enacted_epoch, epochs.ratified_epoch, epochs.dropped_epoch, epochs.expired_epoch with
  | some epoch, _, _, _ => (.enacted, some epoch)
  | none, some epoch, _, _ => (.ratified, some epoch)
  | none, none, some epoch, _ => (.dropped, some epoch)
  | none, none, none, some epoch => (.expired, some epoch)
  | none, none, none, none => (.open_, none)

end WalletBackend
