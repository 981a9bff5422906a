import WalletBackend.Koios.Proposals
import WalletBackend.Library.PoolRuns

/-! Each proposal of a page is published with its own votes or with none: the votes are looked up for
all of them at once, and a lookup that fails costs no more than the votes it was for. -/
namespace WalletBackend.Koios.Governance
open Interaction

variable {T : Type} {attempts : ReadAttempts} {trace part : List (Exchange T ProposalRequest.Answer)}

/-- What has come of the lookup of a proposal's votes. -/
inductive Counted (trace : List (Exchange T ProposalRequest.Answer)) (proposalId : String) :
    Option VotingSummaryRow → Prop where
  | summary {t votes rest} (asked : ⟨t, .votingSummary proposalId, .ok (votes :: rest)⟩ ∈ trace) :
      Counted trace proposalId (some votes)
  | empty {t} (asked : ⟨t, .votingSummary proposalId, .ok []⟩ ∈ trace) :
      Counted trace proposalId none
  | failed {t failure} (asked : ⟨t, .votingSummary proposalId, .error failure⟩ ∈ trace) :
      Counted trace proposalId none

theorem Counted.mono {proposalId : String} {votes : Option VotingSummaryRow}
    (counted : Counted part proposalId votes) (sub : part.Sublist trace) :
    Counted trace proposalId votes := by
  cases counted with
  | summary asked => exact .summary (sub.subset asked)
  | empty asked => exact .empty (sub.subset asked)
  | failed asked => exact .failed (sub.subset asked)

theorem getProposalRows_runs {request : ProposalRequest} {outcome : Except Failure request.Rows}
    (runs : (getProposalRows attempts request).Runs trace outcome) :
    ∃ t, ⟨t, request, outcome⟩ ∈ trace := by
  obtain ⟨t, answer, member, rfl⟩ := read_asked runs
  exact ⟨t, member⟩

/-- The lookup of one proposal's votes does not fail. -/
theorem votesOn_runs {row : ProposalRow} {outcome : Except Failure (Option VotingSummaryRow)}
    (runs : (votesOn attempts row).Runs trace outcome) :
    ∃ votes, outcome = .ok votes ∧ Counted trace row.proposal_id votes := by
  obtain ⟨votes, read, rfl⟩ | ⟨first, rest, failure, rfl, failed, recovered⟩ :=
    Async.runs_tryCatch.mp runs
  · obtain ⟨asked, tail, summaries, rfl, found, mapped⟩ := Async.runs_bind_ok.mp read
    obtain ⟨rfl, same⟩ := mapped
    cases same
    obtain ⟨t, member⟩ := getProposalRows_runs found
    have there := List.mem_append_left [] member
    cases summaries with
    | nil => exact ⟨none, rfl, .empty there⟩
    | cons votes rest => exact ⟨some votes, rfl, .summary there⟩
  · obtain ⟨rfl, rfl⟩ := recovered
    obtain ⟨asked, tail, summaries, -, -, mapped⟩ | ⟨e, found, same⟩ := Async.runs_bind.mp failed
    · cases mapped.2
    · cases same
      obtain ⟨t, member⟩ := getProposalRows_runs found
      exact ⟨none, rfl, .failed (List.mem_append_left _ member)⟩

/-- A proposal as it is published: a row, and what has come of the lookup of its votes. -/
def Tallied (trace : List (Exchange T ProposalRequest.Answer)) (row : ProposalRow)
    (proposal : Proposal) : Prop :=
  ∃ votes, Counted trace row.proposal_id votes ∧ proposal = mapProposal row votes

/-- What a read of a page of proposals comes to. -/
inductive ProposalsRead (trace : List (Exchange T ProposalRequest.Answer))
    (params : ProposalListParams) : Except Failure (List Proposal) → Prop where
  | listed {t rows proposals} (asked : ⟨t, .list params.limit params.offset, .ok rows⟩ ∈ trace)
      (each : List.Forall₂ (Tallied trace) rows proposals) :
      ProposalsRead trace params (.ok proposals)
  | failed {t failure} (asked : ⟨t, .list params.limit params.offset, .error failure⟩ ∈ trace) :
      ProposalsRead trace params (.error failure)

theorem forall₂_zip_map {Row Votes Published : Type} {rows : List Row} {tallies : List Votes}
    {counted : Row → Votes → Prop} {publish : Row → Votes → Published}
    (each : List.Forall₂ counted rows tallies) :
    List.Forall₂ (fun row published => ∃ votes, counted row votes ∧ published = publish row votes)
      rows ((rows.zip tallies).map fun entry => publish entry.1 entry.2) := by
  induction each with
  | nil => exact .nil
  | cons here _ ih => exact .cons ⟨_, here, rfl⟩ ih

/-- The bodies that have a vote on a proposal. -/
structure Eligible (proposal : Proposal) : Prop where
  pools : withoutPools proposal.type = true → proposal.poolVotes = none
  committee : withoutCommittee proposal.type = true → proposal.committeeVotes = none
  together : proposal.drepVotes = none → proposal.poolVotes = none ∧ proposal.committeeVotes = none

theorem eligible_mapProposal (row : ProposalRow) (votes : Option VotingSummaryRow) :
    Eligible (mapProposal row votes) := by
  refine ⟨fun without => if_pos without, fun without => if_pos without, fun missing => ?_⟩
  cases votes with
  | none => exact ⟨ite_self none, ite_self none⟩
  | some votes => cases missing

/-- However the lookups interleave and whichever of them fail, a page of proposals is the list that
was read, in its order, each row with the votes that the lookup of that very proposal found or
with none. The read fails only with a read of the list, and no proposal is published with votes of
a body that has none on it. -/
theorem getProposals_tallied (attempts : ReadAttempts) (params : ProposalListParams)
    (trace : List (Exchange T ProposalRequest.Answer)) (outcome : Except Failure (List Proposal))
    (runs : (getProposals attempts params).Runs trace outcome) :
    ProposalsRead trace params outcome ∧
      ∀ proposals, outcome = .ok proposals → ∀ proposal ∈ proposals, Eligible proposal := by
  have read : ProposalsRead trace params outcome := by
    obtain ⟨first, rest, rows, rfl, listed, continued⟩ | ⟨failure, listed, rfl⟩ :=
      Async.runs_bind.mp runs
    · obtain ⟨t, asked⟩ := getProposalRows_runs listed
      split at continued
      case isTrue empty =>
        obtain ⟨rfl, rfl⟩ := continued
        rw [List.length_eq_zero_iff.mp empty] at asked
        exact .listed (List.mem_append_left _ asked) .nil
      case isFalse =>
        obtain ⟨looked, tail, tallies, rfl, all, rfl, rfl⟩ | ⟨failure, failed, rfl⟩ :=
          Async.runs_bind.mp continued
        · have counted : List.Forall₂ (fun row votes =>
              Counted (first ++ (looked ++ [])) row.proposal_id votes) rows tallies := by
            refine (promiseAll_runs all).imp fun row votes => ?_
            rintro ⟨part, sub, ran⟩
            obtain ⟨votes', same, counted⟩ := votesOn_runs ran
            cases same
            refine counted.mono (sub.trans ?_)
            rw [List.append_nil]
            exact List.sublist_append_right ..
          exact .listed (List.mem_append_left _ asked) (forall₂_zip_map counted)
        · obtain ⟨row, -, part, -, ran⟩ := promiseAll_fails failed
          obtain ⟨votes, same, -⟩ := votesOn_runs ran
          cases same
    · obtain ⟨t, asked⟩ := getProposalRows_runs listed
      exact .failed asked
  refine ⟨read, ?_⟩
  rintro proposals rfl proposal member
  cases read with
  | @listed t rows proposals asked each =>
    obtain ⟨i, bound, rfl⟩ := List.getElem_of_mem member
    obtain ⟨votes, -, same⟩ := (List.forall₂_iff_get.mp each).2 i (each.length_eq ▸ bound) bound
    rw [List.get_eq_getElem] at same
    exact same ▸ eligible_mapProposal _ votes

section Example

theorem actionId_id : isGovActionId "gov_action1new" = true := by decide

theorem actionHash_hash :
    isTxHash "0123456789abcdef0123456789abcdef0123456789abcdef0123456789abcdef" = true := by decide

/-- A withdrawal from the treasury that is still open. -/
def openAction : ProposalRow where
  enacted_epoch := none
  ratified_epoch := none
  dropped_epoch := none
  expired_epoch := none
  proposal_id := "gov_action1new"
  proposal_tx_hash := "0123456789abcdef0123456789abcdef0123456789abcdef0123456789abcdef"
  proposal_index := 0
  proposal_type := .TreasuryWithdrawals
  deposit := .number 100 (by decide)
  return_address := "stake1return"
  proposed_epoch := 500
  expiration := some 506
  meta_url := none
  meta_hash := none
  meta_json := none
  meta_is_valid := none
  validId := actionId_id
  validHash := actionHash_hash

theorem forkAction_id : isGovActionId "gov_action1fork" = true := by decide

/-- A hard fork, on which all three bodies vote. -/
def forkAction : ProposalRow :=
  { openAction with
    proposal_id := "gov_action1fork"
    proposal_index := 1
    proposal_type := .HardForkInitiation
    validId := forkAction_id }

def forkVotes : VotingSummaryRow where
  drep := ⟨⟨some 3, some (.number 70 (by decide))⟩, ⟨some 1, some (.number 20 (by decide))⟩, none, none,
    some (.number 10 (by decide))⟩
  pool := ⟨⟨some 2, some (.number 40 (by decide))⟩, ⟨none, none⟩, some 1, some (.number 5 (by decide)), none⟩
  committee_yes_votes_cast := some 5
  committee_no_votes_cast := none
  committee_abstain_votes_cast := some 1

/-- The votes on the first of two proposals cannot be had, those on the second can. -/
def halfCounted : List (Exchange Unit ProposalRequest.Answer) :=
  [⟨(), .list 2 1, .ok [openAction, forkAction]⟩,
    ⟨(), .votingSummary "gov_action1new", .error (.timeout "koios request timed out")⟩,
    ⟨(), .votingSummary "gov_action1fork", .ok [forkVotes]⟩]

theorem halfCounted_read : ProposalsRead halfCounted ⟨2, 1⟩
    (.ok [mapProposal openAction none, mapProposal forkAction (some forkVotes)]) := by
  refine (getProposals_tallied .single ⟨2, 1⟩ halfCounted _ ?_).1
  have listed : (getProposalRows .single (.list 2 1)).Runs
      [⟨(), .list 2 1, .ok [openAction, forkAction]⟩] (.ok [openAction, forkAction]) :=
    ⟨(), _, [], rfl, rfl, rfl⟩
  have missed : (votesOn .single openAction).Runs
      [⟨(), .votingSummary "gov_action1new", .error (.timeout "koios request timed out")⟩]
      (.ok none) :=
    ⟨(), _, [], rfl, rfl, rfl⟩
  have counted : (votesOn .single forkAction).Runs
      [⟨(), .votingSummary "gov_action1fork", .ok [forkVotes]⟩] (.ok (some forkVotes)) :=
    ⟨(), _, [], rfl, rfl, rfl⟩
  refine Async.runs_bind_ok.mpr ⟨[_], _, [openAction, forkAction], rfl, listed, ?_⟩
  refine Async.runs_bind_ok.mpr ⟨_, [], [none, some forkVotes], (List.append_nil _).symm, ?_, rfl, rfl⟩
  exact runs_fanOut [(_, none), (_, some forkVotes)] (le_refl 2) (.cons missed (.cons counted .nil))
    rfl rfl

end Example
end WalletBackend.Koios.Governance
