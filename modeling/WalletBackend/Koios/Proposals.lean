import WalletBackend.Domain.Pools
import WalletBackend.Domain.Proposals
import WalletBackend.Koios.Governance

/-! The governance actions of `governance.ts`: a page of the list, newest first, and for each of them
the state of its vote, where that can be had. -/
namespace WalletBackend.Koios.Governance
open Interaction

/-- `/^gov_action1[0-9a-z]+$/`. -/
def isGovActionId (text : String) : Bool :=
  "gov_action1".toList.isPrefixOf text.toList && 11 < text.length &&
    (text.toList.drop 11).all fun c => c.isDigit || c.isLower

/-- `/^[0-9a-fA-F]{64}$/`. -/
def isTxHash (text : String) : Bool :=
  text.toList.length == 64 &&
    text.toList.all fun c => c.isDigit || ('a' ≤ c && c ≤ 'f') || ('A' ≤ c && c ≤ 'F')

structure ProposalRow extends ProposalEpochs where
  proposal_id : String
  proposal_tx_hash : String
  proposal_index : Nat
  proposal_type : ProposalType
  deposit : Numeric
  return_address : String
  proposed_epoch : Nat
  expiration : Option Nat
  meta_url : Option String
  meta_hash : Option String
  meta_json : Option Json
  meta_is_valid : Option Bool
  validId : isGovActionId proposal_id = true
  validHash : isTxHash proposal_tx_hash = true

/-- The votes that are cast for one choice, and the power behind them. -/
structure ChoiceRow where
  votes_cast : Option Nat
  vote_power : Option Numeric

/-- What a body of voters has cast: the columns `yes`, `no` and `abstain`, and the power of those
who always abstain. -/
structure BodyRow where
  yes : ChoiceRow
  no : ChoiceRow
  abstain_votes_cast : Option Nat
  active_abstain_vote_power : Option Numeric
  always_abstain_vote_power : Option Numeric

/-- `votingSummaryRow`. -/
structure VotingSummaryRow where
  drep : BodyRow
  pool : BodyRow
  committee_yes_votes_cast : Option Nat
  committee_no_votes_cast : Option Nat
  committee_abstain_votes_cast : Option Nat

/-- `metaJson.body` if that is a record, or the document itself. -/
def proposalBody (metaJson : Option Json) : Option Json :=
  match recordMember metaJson "body" with
  | some (.object property) => some (.object property)
  | some (.array items) => some (.array items)
  | _ => metaJson

structure ProposalMeta where
  title : Option String
  abstract : Option String
  deriving DecidableEq

def proposalMeta (metaJson : Option Json) : ProposalMeta where
  title := nonEmptyString (recordMember (proposalBody metaJson) "title")
  abstract := nonEmptyString (recordMember (proposalBody metaJson) "abstract")

def voteCountTally (yes no abstain : Option Nat) : VoteCountTally :=
  ⟨yes.getD 0, no.getD 0, abstain.getD 0⟩

/-- `String(power ?? 0)`. -/
def powerText (power : Option Numeric) : String := (power.map Numeric.text).getD "0"

/-- `addNumeric`, of two values. -/
def addNumeric (a b : Option Numeric) : String :=
  toString ((a.map Numeric.toBigInt).getD 0 + (b.map Numeric.toBigInt).getD 0)

/-- `stakeWeightedTally` of the columns of one body. -/
def BodyRow.tally (votes : BodyRow) : VoteTally where
  toVoteCountTally := voteCountTally votes.yes.votes_cast votes.no.votes_cast votes.abstain_votes_cast
  yesPower := powerText votes.yes.vote_power
  noPower := powerText votes.no.vote_power
  abstainPower := addNumeric votes.active_abstain_vote_power votes.always_abstain_vote_power

/-- Stake pools have no vote on these. -/
def withoutPools (type : ProposalType) : Bool :=
  type = .TreasuryWithdrawals || type = .NewConstitution

/-- The committee has no vote on these. -/
def withoutCommittee (type : ProposalType) : Bool :=
  type = .NewCommittee || type = .NoConfidence

/-- A row of the list, with what has come of the lookup of its votes. -/
def mapProposal (row : ProposalRow) (votes : Option VotingSummaryRow) : Proposal where
  proposalId := row.proposal_id
  txHash := row.proposal_tx_hash
  index := row.proposal_index
  type := row.proposal_type
  status := row.proposalStatus.1
  proposedEpoch := some row.proposed_epoch
  expiryEpoch := row.expiration
  decidedEpoch := row.proposalStatus.2
  deposit := row.deposit.text
  returnAddress := row.return_address
  title := (proposalMeta row.meta_json).title
  abstract := (proposalMeta row.meta_json).abstract
  metadataUrl := row.meta_url
  metadataHash := row.meta_hash
  metadataValid := row.meta_is_valid
  drepVotes := votes.map fun votes => votes.drep.tally
  poolVotes := if withoutPools row.proposal_type then none
    else votes.map fun votes => votes.pool.tally
  committeeVotes := if withoutCommittee row.proposal_type then none
    else votes.map fun votes => voteCountTally votes.committee_yes_votes_cast
      votes.committee_no_votes_cast votes.committee_abstain_votes_cast

inductive ProposalRequest where
  | list (limit offset : Nat)
  | votingSummary (proposalId : String)
  deriving DecidableEq

abbrev ProposalRequest.Rows : ProposalRequest → Type
  | .list .. => List ProposalRow
  | .votingSummary _ => List VotingSummaryRow

abbrev ProposalRequest.Answer (request : ProposalRequest) : Type := Except Failure request.Rows

abbrev ProposalRead (α : Type) := Async ProposalRequest.Answer Failure α

section Program

variable (attempts : ReadAttempts)

/-- `koios.get`: fetch, validate and retry. -/
def getProposalRows (request : ProposalRequest) : ProposalRead request.Rows :=
  read attempts do Async.ofExcept (← Async.ask request)

/-- The votes on one proposal; a lookup that fails leaves them out. -/
def votesOn (row : ProposalRow) : ProposalRead (Option VotingSummaryRow) :=
  tryCatch (do pure (← getProposalRows attempts (.votingSummary row.proposal_id)).head?)
    fun _ => pure none

def getProposals (params : ProposalListParams) : ProposalRead (List Proposal) := do
  let rows ← getProposalRows attempts (.list params.limit params.offset)
  if rows.length = 0 then pure []
  else do
    let tallies ← promiseAll (rows.map (votesOn attempts))
    pure ((rows.zip tallies).map fun entry => mapProposal entry.1 entry.2)

end Program
end WalletBackend.Koios.Governance
