import WalletBackend.Blockfrost.Governance

/-! The pages of DReps and of proposals that are served from lists that stay as they are. -/
namespace WalletBackend.Blockfrost.Governance
open Interaction Async OffsetPaging
open Koios.Governance (isGovActionId isTxHash)

variable {up : (q : Request) → q.Answer}

/-- The deposit of a registration today. -/
def GovParamsRow.deposit (row : GovParamsRow) : String :=
  (row.drep_deposit.map Numeric.text).getD "0"

theorem gives_governanceParams {row : GovParamsRow} (known : up .latestParameters = .ok (some row))
    (outcome : Except Failure String) :
    Gives up governanceParams outcome ↔ outcome = .ok row.deposit :=
  (gives_bind_of (gives_get known)).trans gives_pure

/-- A window of the first rows of a list is that window of the list. -/
theorem pageOf_eq {Row : Type} {offset limit : Nat} {kept rows : List Row} (part : kept <+: rows)
    (enough : kept = rows ∨ offset + limit ≤ kept.length) :
    pageOf offset limit kept = (rows.drop offset).take limit := by
  have same : kept.take (offset + limit) = rows.take (offset + limit) := by
    obtain rfl | enough := enough
    · rfl
    · obtain ⟨rest, rfl⟩ := part
      exact (List.take_append_of_le_length enough).symm
  rw [pageOf, same, List.drop_take, Nat.add_sub_cancel_left]

/-- Windows of one size, one after the other, are the list as far as they go. -/
theorem flatMap_windows {Row : Type} (rows : List Row) (limit n : Nat) :
    (List.range n).flatMap (fun k => (rows.drop (k * limit)).take limit) = rows.take (n * limit) := by
  induction n with
  | zero => simp
  | succ n ih =>
    rw [List.range_succ, List.flatMap_append, List.flatMap_singleton, ih, Nat.succ_mul, List.take_add]

section Dreps

/-- The upstream lists the DReps, whatever page is asked for. -/
def ListsDreps (up : (q : Request) → q.Answer) (rows : List DrepListRow) : Prop :=
  ∀ page, up (.dreps page) = .ok (some (drepPages.page rows page))

/-- The registered DReps of a list, in its order. -/
def registered (rows : List DrepListRow) : List DrepListRow := rows.filter isRegistered

def served (deposit : String) (row : DrepListRow) : DrepInfo :=
  mapDrepInfo row.toDrepRow deposit (drepMetaFields row.metadata)

/-- The page of a request: a window of the registered DReps. -/
def drepPage (deposit : String) (rows : List DrepListRow) (params : DrepListParams) :
    List DrepInfo :=
  (((registered rows).drop params.offset).take params.limit).map (served deposit)

/-- As many registered DReps as the page takes are among the rows that may be scanned, or those are
all the rows. -/
def InReach (rows : List DrepListRow) (params : DrepListParams) : Prop :=
  drepPages.Suffices isRegistered (some (params.offset + params.limit)) rows

instance (rows : List DrepListRow) (params : DrepListParams) : Decidable (InReach rows params) :=
  inferInstanceAs (Decidable (Source.Suffices ..))

theorem serves_dreps {rows : List DrepListRow} (lists : ListsDreps up rows) :
    Source.Serves up drepPages rows :=
  fun page => gives_get (lists page)

/-- A page of the list is that window of the registered DReps, in the order of the list, with no
gap and no repetition between pages; and a request fails if and only if the rows that may be scanned
neither hold the DReps it takes nor are all there are. -/
theorem getDrepList_pages (up : (q : Request) → q.Answer) (rows : List DrepListRow)
    (parameters : GovParamsRow) (lists : ListsDreps up rows)
    (known : up .latestParameters = .ok (some parameters)) :
    (∀ params outcome, Gives up (getDrepList params) outcome ↔
      outcome = if params.limit = 0 then .ok []
        else if InReach rows params then .ok (drepPage parameters.deposit rows params)
        else .error drepPages.exceeded) ∧
    ∀ limit n, (List.range n).flatMap
        (fun k => drepPage parameters.deposit rows ⟨limit, k * limit⟩) =
      ((registered rows).take (n * limit)).map (served parameters.deposit) := by
  refine ⟨fun params outcome => ?_, fun limit n => ?_⟩
  · rw [getDrepList]
    by_cases none : params.limit = 0
    · rw [if_pos none, if_pos none]
      exact gives_pure
    · rw [if_neg none, if_neg none, gives_bind_of (gives_governanceParams known)]
      by_cases reach : InReach rows params
      · obtain ⟨kept, gives, part, enough⟩ :=
          Source.gives_collect (serves_dreps lists) (by decide) (by decide) reach
        rw [if_pos reach, registeredDreps, gives_bind_of gives, gives_pure, drepPage, registered,
          pageOf_eq part]
        · rfl
        · refine enough.imp id ?_
          rintro ⟨n, same, le⟩
          cases same
          exact le
      · rw [if_neg reach, registeredDreps, gives_bind_fails fun outcome =>
          Source.gives_collect_exceeded (serves_dreps lists) (by decide) reach]
  · rw [← flatMap_windows, List.map_flatMap]
    rfl

end Dreps

section Proposals

/-- The upstream lists the proposals, and knows the detail of each. -/
structure ListsProposals (up : (q : Request) → q.Answer) (rows : List ProposalListRow)
    (detail : ProposalListRow → ProposalRow) : Prop where
  pages : ∀ page, up (.proposals page) = .ok (some (proposalPages.page rows page))
  details : ∀ row ∈ rows, up (.proposal row.tx_hash row.cert_index) = .ok (some (detail row))

/-- The document of a proposal, if its lookup finds one. -/
def anchorOf (up : (q : Request) → q.Answer) (item : ProposalListRow) : ProposalAnchor :=
  match up (.proposalMetadata item.tx_hash item.cert_index) with
  | .ok anchor => proposalAnchorFields anchor
  | .error _ => .none

/-- The proposals of the list that a request is for. -/
def proposalWindow (rows : List ProposalListRow) (params : ProposalListParams) :
    List ProposalListRow :=
  (rows.drop params.offset).take params.limit

/-- Whatever comes of the lookup of the document, the proposal is read. -/
theorem gives_proposalAnchor (item : ProposalListRow) (outcome : Except Failure ProposalAnchor) :
    Gives up (proposalAnchor item.tx_hash item.cert_index) outcome ↔
      outcome = .ok (anchorOf up item) := by
  have asked (result : Except Failure (Option ProposalMetadataRow)) :
      Gives up (getOrUndefined (.proposalMetadata item.tx_hash item.cert_index)) result ↔
        result = up (.proposalMetadata item.tx_hash item.cert_index) := gives_getOrUndefined
  rw [proposalAnchor, anchorOf]
  cases found : up (.proposalMetadata item.tx_hash item.cert_index) with
  | ok anchor =>
    rw [found] at asked
    apply gives_tryCatch_of
    intro result
    rw [gives_bind_of asked]
    exact gives_pure
  | error failure =>
    rw [found] at asked
    exact (gives_tryCatch_fails fun _ => gives_bind_fails asked).trans gives_pure

theorem gives_hydrateProposal {item : ProposalListRow} {row : ProposalRow}
    (known : up (.proposal item.tx_hash item.cert_index) = .ok (some row))
    (outcome : Except Failure Proposal) :
    Gives up (hydrateProposal item) outcome ↔ outcome = .ok (mapProposal row (anchorOf up item)) := by
  have detail (result : Except Failure ProposalRow) : Gives up (get (.proposal item.tx_hash item.cert_index)
      s!"/governance/proposals/{item.tx_hash}/{item.cert_index}") result ↔ result = .ok row :=
    gives_get known result
  rw [hydrateProposal, gives_bind_of detail, gives_bind_of (gives_proposalAnchor item)]
  exact gives_pure

theorem serves_proposals {rows : List ProposalListRow} {detail : ProposalListRow → ProposalRow}
    (lists : ListsProposals up rows detail) : Source.Serves up proposalPages rows :=
  fun page => gives_get (lists.pages page)

/-- As many proposals as the page takes are among the rows that may be scanned, or those are all. -/
def ProposalsInReach (rows : List ProposalListRow) (params : ProposalListParams) : Prop :=
  rows.length ≤ DEFAULT_MAX_PAGES * DEFAULT_PAGE_SIZE ∨
    params.offset + params.limit ≤ DEFAULT_MAX_PAGES * DEFAULT_PAGE_SIZE

instance (rows : List ProposalListRow) (params : ProposalListParams) :
    Decidable (ProposalsInReach rows params) :=
  inferInstanceAs (Decidable (_ ∨ _))

theorem suffices_iff {rows : List ProposalListRow} {params : ProposalListParams} :
    proposalPages.Suffices (fun _ => true) (some (params.offset + params.limit)) rows ↔
      ProposalsInReach rows params := by
  rw [Source.Suffices, ProposalsInReach]
  simp only [List.filter_true, Source.upTo, List.length_take, Option.mem_some, exists_eq_left']
  change rows.length ≤ DEFAULT_MAX_PAGES * DEFAULT_PAGE_SIZE ∨
    _ ≤ min (DEFAULT_MAX_PAGES * DEFAULT_PAGE_SIZE) rows.length ↔ _
  omega

/-- A page of proposals is that window of the list, newest first, each with its detail and with its
document where that can be read. A document that cannot be read costs no proposal, and the request
fails if and only if the window ends beyond the rows that may be scanned and the list does too. -/
theorem getProposals_window (up : (q : Request) → q.Answer) (rows : List ProposalListRow)
    (detail : ProposalListRow → ProposalRow) (lists : ListsProposals up rows detail)
    (params : ProposalListParams) (outcome : Except Failure (List Proposal)) :
    Gives up (getProposals params) outcome ↔
      outcome = if params.limit = 0 then .ok []
        else if ProposalsInReach rows params then
          .ok ((proposalWindow rows params).map fun item => mapProposal (detail item) (anchorOf up item))
        else .error proposalPages.exceeded := by
  rw [getProposals]
  by_cases none : params.limit = 0
  · rw [if_pos none, if_pos none]
    exact gives_pure
  rw [if_neg none, if_neg none]
  by_cases reach : ProposalsInReach rows params
  · obtain ⟨kept, gives, part, enough⟩ := Source.gives_collect (serves_proposals lists)
      (by decide) (by decide) (suffices_iff.mpr reach)
    rw [List.filter_true] at part enough
    have window : pageOf params.offset params.limit kept = proposalWindow rows params := by
      refine pageOf_eq part (enough.imp id ?_)
      rintro ⟨n, same, le⟩
      cases same
      exact le
    rw [if_pos reach, gives_bind_of gives]
    simp only [window]
    split
    case isTrue nothing =>
      rw [List.length_eq_zero_iff.mp nothing]
      exact gives_pure
    case isFalse =>
      have each : ∀ item ∈ proposalWindow rows params, ∀ (_ : Nat) (result : Except Failure Proposal),
          Gives up (hydrateProposal item) result ↔
            result = .ok (mapProposal (detail item) (anchorOf up item)) := by
        intro item member _ result
        have listed : item ∈ rows := List.mem_of_mem_drop (List.mem_of_mem_take member)
        exact gives_hydrateProposal (lists.details item listed) result
      exact gives_fanOut each outcome
  · rw [if_neg reach, gives_bind_fails fun outcome => Source.gives_collect_exceeded
      (serves_proposals lists) (by decide) (mt suffices_iff.mp reach)]

end Proposals

section Example

def credentialText : String := "0123456789abcdef0123456789abcdef0123456789abcdef01234567"

def hashText : String := "0123456789abcdef0123456789abcdef0123456789abcdef0123456789abcdef"

theorem credentialText_bare : isBareCredential credentialText = true := by decide

theorem abstain_pseudo :
    isPseudoDrep "drep_always_abstain" = false → isBareCredential "" = true := by decide

theorem powerText_digits : isDigits "12" = true := by decide

theorem hashText_hash : isTxHash hashText = true := by decide

/-- The row of the option to abstain, which has no credential. -/
def abstainRow : DrepRow :=
  ⟨⟨"drep_always_abstain", "", .digits "12" powerText_digits, false, false, false⟩, abstain_pseudo⟩

def credentialRow (id : String) (retired : Bool) : DrepRow :=
  ⟨⟨id, credentialText, .digits "12" powerText_digits, false, retired, false⟩,
    fun _ => credentialText_bare⟩

/-- A document with one text in its body. -/
def bodyText (key text : String) : Json :=
  .object fun name => if name = "body" then
    some (.object fun inner => if inner = key then some (.string text) else none) else none

/-- Registered DReps, the second of them with a document, around one that has retired and the option
to abstain. -/
def listedDreps : List DrepListRow :=
  [⟨credentialRow "drep1first" false, none⟩, ⟨abstainRow, none⟩, ⟨credentialRow "drep1gone" true, none⟩,
    ⟨credentialRow "drep1named" false, some ⟨some "https://drep", none, some (bodyText "givenName" "Ada")⟩⟩,
    ⟨credentialRow "drep1last" false, none⟩, ⟨credentialRow "drep1beyond" false, none⟩]

theorem newAction_id : isGovActionId "gov_action1new" = true := by decide

theorem nextAction_id : isGovActionId "gov_action1next" = true := by decide

theorem oldAction_id : isGovActionId "gov_action1old" = true := by decide

/-- Three proposals of one transaction, newest first. -/
def listedProposals : List ProposalListRow :=
  [⟨"gov_action1new", hashText, 2, .info_action, newAction_id, hashText_hash⟩,
    ⟨"gov_action1next", hashText, 1, .treasury_withdrawals, nextAction_id, hashText_hash⟩,
    ⟨"gov_action1old", hashText, 0, .info_action, oldAction_id, hashText_hash⟩]

/-- The proposals expire one epoch after the other, and the first of them is ratified. -/
def proposalDetail (item : ProposalListRow) : ProposalRow :=
  { item with
    enacted_epoch := none
    ratified_epoch := if item.cert_index = 0 then some 500 else none
    dropped_epoch := none
    expired_epoch := none
    deposit := .digits "12" powerText_digits
    return_address := "stake1return"
    expiration := 505 + item.cert_index }

/-- Only the document of the proposal in the middle can be read. -/
def governanceUpstream : (q : Request) → q.Answer
  | .latestParameters => .ok (some ⟨some (.digits "12" powerText_digits)⟩)
  | .dreps page => .ok (some (drepPages.page listedDreps page))
  | .proposals page => .ok (some (proposalPages.page listedProposals page))
  | .proposal _ index =>
      .ok ((listedProposals.find? fun row => row.cert_index == index).map proposalDetail)
  | .proposalMetadata _ index =>
      if index = 1 then .ok (some ⟨some "https://next", none, some (bodyText "title" "Next")⟩)
      else .error (.timeout "blockfrost request timed out")
  | _ => .ok none

/-- The second and the third of those registered. -/
theorem listedDrep_served : Gives governanceUpstream (getDrepList ⟨2, 1⟩)
    (.ok [⟨"drep1named", credentialText, false, .registered, true, "12", "12", none,
        some "https://drep", none, some "Ada", none⟩,
      ⟨"drep1last", credentialText, false, .registered, true, "12", "12", none, none, none, none,
        none⟩]) := by
  have reach : InReach listedDreps ⟨2, 1⟩ := .inl (by decide)
  apply ((getDrepList_pages governanceUpstream listedDreps _ (fun _ => rfl) rfl).1 ⟨2, 1⟩ _).mpr
  rw [if_neg (by decide), if_pos reach]
  rfl

/-- The second and the third of those listed. -/
theorem listedProposal_served : Gives governanceUpstream (getProposals ⟨2, 1⟩)
    (.ok [⟨"gov_action1next", hashText, 1, .TreasuryWithdrawals, .open_, none, some 506, none, "12",
        "stake1return", some "Next", none, some "https://next", none, none, none, none, none⟩,
      ⟨"gov_action1old", hashText, 0, .InfoAction, .ratified, none, some 505, some 500, "12",
        "stake1return", none, none, none, none, none, none, none, none⟩]) := by
  have lists : ListsProposals governanceUpstream listedProposals proposalDetail := by
    refine ⟨fun _ => rfl, fun row member => ?_⟩
    simp only [listedProposals, List.mem_cons, List.not_mem_nil, or_false] at member
    obtain rfl | rfl | rfl := member <;> rfl
  have reach : ProposalsInReach listedProposals ⟨2, 1⟩ := .inl (by decide)
  apply (getProposals_window governanceUpstream listedProposals proposalDetail lists ⟨2, 1⟩ _).mpr
  rw [if_neg (by decide), if_pos reach]
  rfl

end Example
end WalletBackend.Blockfrost.Governance
