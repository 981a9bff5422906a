import WalletBackend.Blockfrost.Concurrency
import WalletBackend.Blockfrost.Pagination
import WalletBackend.Koios.Proposals
import WalletBackend.Library.OffsetWalk

/-! The DRep and proposal reads of Blockfrost's `governance.ts`. Neither has a batch form: DReps are
looked up one by one, proposals are listed and then looked up one by one, and the off-chain
documents of both are read where they can be had. -/
namespace WalletBackend.Blockfrost.Governance
open Interaction OffsetPaging
open Koios.Governance (recordMember nonEmptyString isGovActionId isTxHash)

def DREP_LOOKUP_CONCURRENCY : Nat := 10
def PROPOSAL_LOOKUP_CONCURRENCY : Nat := 8
def DREP_PAGE_SIZE : Nat := 100
def DREP_MAX_PAGES : Nat := 500

section Credentials

def DREP_KEY_HASH_HEADER : String := "22"
def DREP_SCRIPT_HASH_HEADER : String := "23"

/-- `BARE_CREDENTIAL`: 28 bytes in hex. -/
def isBareCredential (hex : String) : Bool :=
  hex.toList.length == 56 && hex.toList.all Hex.isDigit

/-- `HEADED_CREDENTIAL`: a header of one byte and the credential after it. -/
def headedCredential? (hex : String) : Option (String × String) :=
  if hex.toList.length == 58 && hex.toList.all Hex.isDigit then
    some (String.ofList (hex.toList.take 2), String.ofList (hex.toList.drop 2))
  else none

def headerOf (hasScript : Bool) : String :=
  if hasScript then DREP_SCRIPT_HASH_HEADER else DREP_KEY_HASH_HEADER

/-- The 28-byte hash, or the message of the issue. -/
def normalizeDrepCredential (hex : String) (hasScript : Bool) : Except String String :=
  if isBareCredential hex then .ok hex
  else
    match headedCredential? hex with
    | none => .error "drep credential is neither a 28-byte hash nor a CIP-129 headed credential"
    | some (header, credential) =>
        if header.toLower ≠ headerOf hasScript then
          .error "drep credential header disagrees with the row's has_script flag"
        else .ok credential

def PSEUDO_DREP_IDS : List String := ["drep_always_abstain", "drep_always_no_confidence"]

def isPseudoDrep (drepId : String) : Bool := drepId ∈ PSEUDO_DREP_IDS

theorem headed_bare {hex header credential : String}
    (headed : headedCredential? hex = some (header, credential)) :
    isBareCredential credential = true := by
  obtain ⟨digits, same⟩ := Option.ite_none_right_eq_some.mp headed
  obtain ⟨length, all⟩ := Bool.and_eq_true_iff.mp digits
  cases same
  rw [isBareCredential, String.toList_ofList, List.length_drop, eq_of_beq length, Bool.and_eq_true_iff]
  refine ⟨rfl, List.all_eq_true.mpr fun c member => ?_⟩
  exact List.all_eq_true.mp all c (List.mem_of_mem_drop member)

theorem normalize_bare {hex credential : String} {hasScript : Bool}
    (normalized : normalizeDrepCredential hex hasScript = .ok credential) :
    isBareCredential credential = true := by
  rw [normalizeDrepCredential] at normalized
  split at normalized
  case isTrue bare =>
    cases normalized
    exact bare
  case isFalse =>
    split at normalized
    case h_1 => cases normalized
    case h_2 headed =>
      split at normalized
      case isTrue => cases normalized
      case isFalse =>
        cases normalized
        exact headed_bare headed

end Credentials

/-- `drepMetaAnchor`. -/
structure DrepMetaAnchor where
  url : Option String
  hash : Option String
  json_metadata : Option Json

/-- A row of `drepRow` as it comes. -/
structure RawDrepRow where
  drep_id : String
  hex : String
  amount : Numeric
  has_script : Bool
  retired : Bool
  expired : Bool

/-- A row of `drepRow`. One that is no pseudo-DRep has a credential of 28 bytes. -/
structure DrepRow extends RawDrepRow where
  credential : isPseudoDrep drep_id = false → isBareCredential hex = true

/-- A row of `drepListRow`, which carries its anchor. -/
structure DrepListRow extends DrepRow where
  metadata : Option DrepMetaAnchor

/-- The `transform` of both row schemas. -/
def RawDrepRow.transform (row : RawDrepRow) : Except String DrepRow :=
  if pseudo : isPseudoDrep row.drep_id = true then
    .ok { row with credential := fun real => absurd pseudo (ne_true_of_eq_false real) }
  else
    match normalized : normalizeDrepCredential row.hex row.has_script with
    | .ok hex => .ok { row with hex, credential := fun _ => normalize_bare normalized }
    | .error issue => .error issue

/-- `/epochs/latest/parameters`, as far as it is read. -/
structure GovParamsRow where
  drep_deposit : Option Numeric

/-- `BF_GOVERNANCE_TYPES`. -/
inductive GovernanceType where
  | hard_fork_initiation
  | new_committee
  | new_constitution
  | info_action
  | no_confidence
  | parameter_change
  | treasury_withdrawals
  deriving DecidableEq

/-- `proposalListRow`. -/
structure ProposalListRow where
  id : String
  tx_hash : String
  cert_index : Nat
  governance_type : GovernanceType
  validId : isGovActionId id = true
  validHash : isTxHash tx_hash = true

/-- `proposalRow`. -/
structure ProposalRow extends ProposalListRow, ProposalEpochs where
  deposit : Numeric
  return_address : String
  expiration : Nat

/-- `proposalMetadataRow`. -/
structure ProposalMetadataRow where
  url : Option String
  hash : Option String
  json_metadata : Option Json

section Mapping

/-- `asString`. -/
def asString (text : Option String) : Option String := text.filter fun value => 0 < value.length

structure DrepMetaFields where
  name : Option String
  image : Option String
  metadataUrl : Option String
  metadataHash : Option String
  deriving DecidableEq

def DrepMetaFields.none : DrepMetaFields := ⟨.none, .none, .none, .none⟩

/-- The name is at `body.givenName` or at `name`, the image at `body.image.contentUrl`. -/
def drepMetaFields : Option DrepMetaAnchor → DrepMetaFields
  | .none => .none
  | some anchor =>
      let metaJson := anchor.json_metadata
      { name := nonEmptyString (recordMember (recordMember metaJson "body") "givenName") <|>
          nonEmptyString (recordMember metaJson "name")
        image := nonEmptyString
          (recordMember (recordMember (recordMember metaJson "body") "image") "contentUrl")
        metadataUrl := asString anchor.url
        metadataHash := asString anchor.hash }

def mapDrepInfo (row : DrepRow) (deposit : String) (fields : DrepMetaFields) : DrepInfo where
  drepId := row.drep_id
  hex := row.hex
  hasScript := row.has_script
  status := if row.retired then .deregistered else .registered
  active := !row.expired
  deposit := deposit
  votingPower := row.amount.text
  expiresEpoch := none
  metadataUrl := fields.metadataUrl
  metadataHash := fields.metadataHash
  name := fields.name
  image := fields.image

end Mapping

inductive Request where
  | latestParameters
  | dreps (page : Nat)
  | drep (id : String)
  | drepMetadata (id : String)
  | proposals (page : Nat)
  | proposal (txHash : String) (certIndex : Nat)
  | proposalMetadata (txHash : String) (certIndex : Nat)
  deriving DecidableEq

abbrev Request.Row : Request → Type
  | .latestParameters => GovParamsRow
  | .dreps _ => List DrepListRow
  | .drep _ => DrepRow
  | .drepMetadata _ => DrepMetaAnchor
  | .proposals _ => List ProposalListRow
  | .proposal .. => ProposalRow
  | .proposalMetadata .. => ProposalMetadataRow

abbrev Request.Answer : Request → Type := Client.Answer Request.Row

abbrev GovRead (α : Type) := Async Request.Answer Failure α

section Program

def getOrUndefined (request : Request) : GovRead (Option request.Row) := Client.getOrUndefined request

def get (request : Request) (path : String) : GovRead request.Row := Client.get request path

/-- `governanceParams().drepDeposit`. -/
def governanceParams : GovRead String := do
  let row ← get .latestParameters "/epochs/latest/parameters"
  pure ((row.drep_deposit.map Numeric.text).getD "0")

def drepAnchor (drepId : String) : GovRead DrepMetaFields :=
  tryCatch (do pure (drepMetaFields (← getOrUndefined (.drepMetadata drepId)))) fun _ => pure .none

/-- The list of DReps in pages. -/
def drepPages : Source Request.Answer Failure DrepListRow where
  fetch page := get (.dreps page) s!"/governance/dreps?count={DREP_PAGE_SIZE}&page={page}"
  pageSize := DREP_PAGE_SIZE
  maxPages := DREP_MAX_PAGES
  exceeded := .plain ("blockfrost /governance/dreps exceeds this provider's " ++
    s!"{DREP_MAX_PAGES * DREP_PAGE_SIZE}-row scan bound")

/-- What the list is for: the retired and the pseudo-DReps are left out. -/
def isRegistered (row : DrepListRow) : Bool :=
  !row.retired && "drep1".toList.isPrefixOf row.drep_id.toList

def registeredDreps (needed : Nat) : GovRead (List DrepListRow) :=
  drepPages.collect isRegistered (some needed)

/-- The lookup of one id. -/
def lookupDrep (drepDeposit id : String) : GovRead (Option DrepInfo) := do
  match ← getOrUndefined (.drep id) with
  | none => pure none
  | some row =>
      if isPseudoDrep id || isPseudoDrep row.drep_id then pure none
      else do
        let fields ← drepAnchor id
        pure (some (mapDrepInfo row drepDeposit fields))

def getDrepInfo (drepIds : List String) : GovRead (List DrepInfo) :=
  if drepIds.length = 0 then pure []
  else do
    let drepDeposit ← governanceParams
    let mapped ← mapWithConcurrency drepIds DREP_LOOKUP_CONCURRENCY fun id _ =>
      lookupDrep drepDeposit id
    pure mapped.reduceOption

/-- `rows.slice(offset, offset + limit)`. -/
def pageOf {Row : Type} (offset limit : Nat) (rows : List Row) : List Row :=
  (rows.take (offset + limit)).drop offset

def getDrepList (params : DrepListParams) : GovRead (List DrepInfo) :=
  if params.limit = 0 then pure []
  else do
    let drepDeposit ← governanceParams
    let registered ← registeredDreps (params.offset + params.limit)
    pure ((pageOf params.offset params.limit registered).map fun row =>
      mapDrepInfo row.toDrepRow drepDeposit (drepMetaFields row.metadata))

end Program

section Proposals

/-- `GOVERNANCE_TYPE`. -/
def GovernanceType.proposalType : GovernanceType → ProposalType
  | .hard_fork_initiation => .HardForkInitiation
  | .new_committee => .NewCommittee
  | .new_constitution => .NewConstitution
  | .info_action => .InfoAction
  | .no_confidence => .NoConfidence
  | .parameter_change => .ParameterChange
  | .treasury_withdrawals => .TreasuryWithdrawals

/-- What `proposalAnchor` finds. -/
structure ProposalAnchor where
  title : Option String
  abstract : Option String
  metadataUrl : Option String
  metadataHash : Option String
  deriving DecidableEq

def ProposalAnchor.none : ProposalAnchor := ⟨.none, .none, .none, .none⟩

def proposalMeta (metaJson : Option Json) : Koios.Governance.ProposalMeta :=
  Koios.Governance.proposalMeta metaJson

/-- The fields of an anchor that was found. -/
def proposalAnchorFields : Option ProposalMetadataRow → ProposalAnchor
  | .none => .none
  | some anchor =>
      { title := (proposalMeta anchor.json_metadata).title
        abstract := (proposalMeta anchor.json_metadata).abstract
        metadataUrl := asString anchor.url
        metadataHash := asString anchor.hash }

/-- The epoch of the proposal and its votes are not to be had. -/
def mapProposal (row : ProposalRow) (anchor : ProposalAnchor) : Proposal where
  proposalId := row.id
  txHash := row.tx_hash
  index := row.cert_index
  type := row.governance_type.proposalType
  status := row.proposalStatus.1
  proposedEpoch := none
  expiryEpoch := some row.expiration
  decidedEpoch := row.proposalStatus.2
  deposit := row.deposit.text
  returnAddress := row.return_address
  title := anchor.title
  abstract := anchor.abstract
  metadataUrl := anchor.metadataUrl
  metadataHash := anchor.metadataHash
  metadataValid := none
  drepVotes := none
  poolVotes := none
  committeeVotes := none

def proposalAnchor (txHash : String) (certIndex : Nat) : GovRead ProposalAnchor :=
  tryCatch (do pure (proposalAnchorFields (← getOrUndefined (.proposalMetadata txHash certIndex))))
    fun _ => pure .none

/-- The list of proposals, newest first, as `collectPages` reads it. -/
def proposalPages : Source Request.Answer Failure ProposalListRow where
  fetch page := get (.proposals page)
    s!"/governance/proposals?order=desc&count={DEFAULT_PAGE_SIZE}&page={page}"
  pageSize := DEFAULT_PAGE_SIZE
  maxPages := DEFAULT_MAX_PAGES
  exceeded := .plain ("blockfrost /governance/proposals exceeds this provider's " ++
    s!"{DEFAULT_MAX_PAGES * DEFAULT_PAGE_SIZE}-row scan bound")

def hydrateProposal (item : ProposalListRow) : GovRead Proposal := do
  let detail ← get (.proposal item.tx_hash item.cert_index)
    s!"/governance/proposals/{item.tx_hash}/{item.cert_index}"
  let anchor ← proposalAnchor item.tx_hash item.cert_index
  pure (mapProposal detail anchor)

def getProposals (params : ProposalListParams) : GovRead (List Proposal) :=
  if params.limit = 0 then pure []
  else do
    let list ← proposalPages.collect (fun _ => true) (some (params.offset + params.limit))
    let page := pageOf params.offset params.limit list
    if page.length = 0 then pure []
    else mapWithConcurrency page PROPOSAL_LOOKUP_CONCURRENCY fun item _ => hydrateProposal item

end Proposals

end WalletBackend.Blockfrost.Governance
