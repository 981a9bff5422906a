import WalletBackend.Domain.Dreps
import WalletBackend.Koios.Reads
import WalletBackend.Koios.RegisteredScans
import WalletBackend.Library.KeyedJoin
import WalletBackend.Library.StaticRuns

/-! The DRep reads of `governance.ts`: ids are hydrated by `/drep_info`, joined with their
off-chain names by credential, and pages are cut from the list of those registered. -/
namespace WalletBackend.Koios.Governance
open Interaction Containers

/-- A row of `/drep_info`, whose two encodings of its credential agree. -/
structure DrepInfoRow (bech32 : Bech32) where
  drep_id : String
  hex : String
  has_script : Bool
  drep_status : DrepStatus
  active : Bool
  deposit : Option Numeric
  amount : Option Numeric
  expires_epoch_no : Option Nat
  meta_url : Option String
  meta_hash : Option String
  agrees : drepCredentialHex bech32 drep_id = some hex.toLower

structure DrepMetadataRow where
  drep_id : String
  meta_json : Option Json

/-- The display fields of an off-chain document. -/
structure DrepMetaFields where
  name : Option String
  image : Option String
  deriving DecidableEq

def mapDrepInfo {bech32 : Bech32} (row : DrepInfoRow bech32) : DrepInfo where
  drepId := row.drep_id
  hex := row.hex
  hasScript := row.has_script
  status := row.drep_status
  active := row.active
  deposit := (row.deposit.map Numeric.text).getD "0"
  votingPower := (row.amount.map Numeric.text).getD "0"
  expiresEpoch := row.expires_epoch_no
  metadataUrl := row.meta_url
  metadataHash := row.meta_hash
  name := none
  image := none

/-- `isRecord`, and a member of one; an array has none of the names that are read. -/
def recordMember (json : Option Json) (key : String) : Option Json :=
  match json with
  | some (.object property) => property key
  | _ => none

/-- A string that is not empty. -/
def nonEmptyString : Option Json → Option String
  | some (.string value) => if 0 < value.length then some value else none
  | _ => none

/-- The name is at `body.givenName` or at `name`, the image at `body.image.contentUrl`. -/
def drepMetaFields (metaJson : Option Json) : DrepMetaFields where
  name := nonEmptyString (recordMember (recordMember metaJson "body") "givenName") <|>
    nonEmptyString (recordMember metaJson "name")
  image := nonEmptyString (recordMember (recordMember (recordMember metaJson "body") "image")
    "contentUrl")

/-- `{ ...drep, ...fields }`. -/
def withFields (drep : DrepInfo) (fields : Option DrepMetaFields) : DrepInfo :=
  { drep with
    name := fields.bind DrepMetaFields.name
    image := fields.bind DrepMetaFields.image }

inductive Request where
  | list (request : ListRequest String)
  | info (drepIds : List String)
  | metadata (drepIds : List String)

section Reads

variable (bech32 : Bech32)

abbrev Request.Rows : Request → Type
  | .list _ => List (DrepListRow String)
  | .info _ => List (DrepInfoRow bech32)
  | .metadata _ => List DrepMetadataRow

abbrev Request.Answer (request : Request) : Type := Except Failure (request.Rows bech32)

abbrev DrepRead (α : Type) := Async (Request.Answer bech32) Failure α

end Reads

/-- `{ _drep_ids: chunk }`. -/
def drepIdsBody : BodyBuilder String where
  before := "\x7b\"_drep_ids\":"
  item id := "\"" ++ id ++ "\""
  after := "\x7d"

/-- What a cache hands out during one call. -/
structure CacheView where
  /-- The membership, from its entry or from a load in flight. -/
  membership : Option (Except Failure (List String))
  /-- The membership that is left to serve where a load of the call's own fails. -/
  stale : Option (List String)
  metadata : String → Option DrepMetaFields

section Program

variable (bech32 : Bech32) (attempts : ReadAttempts) (bodyLimit : Nat) (cache : Option CacheView)

/-- `koios.batch`: fetch, validate and retry. -/
def batch (request : Request) : DrepRead bech32 (request.Rows bech32) :=
  read attempts do Async.ofExcept (← Async.ask request)

/-- One turn of the loop over the ids: a hit goes by its credential, another id is missing. -/
def peekId (state : KeyedMap String DrepMetaFields × List String) (id : String) :
    KeyedMap String DrepMetaFields × List String :=
  match drepCredentialHex bech32 id with
  | none => state
  | some hex =>
      match cache.bind (·.metadata hex) with
      | some cached => (state.1.set hex cached, state.2)
      | none => (state.1, state.2 ++ [id])

def peekMetadata (drepIds : List String) : KeyedMap String DrepMetaFields × List String :=
  drepIds.foldl (peekId bech32 cache) (.empty, [])

/-- The rows of one batch by credential; others are skipped. -/
def metadataEntries (rows : List DrepMetadataRow) : List (String × DrepMetaFields) :=
  rows.filterMap fun row =>
    (drepCredentialHex bech32 row.drep_id).map fun hex => (hex, drepMetaFields row.meta_json)

/-- The loop over the chunks. One that fails leaves its names out. -/
def loadMetadata (byHex : KeyedMap String DrepMetaFields) :
    List (List String) → DrepRead bech32 (KeyedMap String DrepMetaFields)
  | [] => pure byHex
  | chunk :: chunks => do
      let rows ← tryCatch (batch bech32 attempts (.metadata chunk)) fun _ => pure []
      loadMetadata (byHex.setAll (metadataEntries bech32 rows)) chunks

def drepMetadataByHex (drepIds : List String) : DrepRead bech32 (KeyedMap String DrepMetaFields) :=
  let (byHex, missing) := peekMetadata bech32 cache drepIds
  if missing.length = 0 then pure byHex
  else do
    let chunks ← Async.ofExcept (packBySize missing drepIdsBody bodyLimit)
    loadMetadata bech32 attempts byHex chunks

/-- The rows of `/drep_info` by credential. -/
def drepInfoByHex (drepIds : List String) : DrepRead bech32 (KeyedMap String (DrepInfoRow bech32)) := do
  let rows ← batchAll drepIdsBody (fun chunk => batch bech32 attempts (.info chunk)) bodyLimit drepIds
  pure (.ofEntries (rows.map fun row => (row.hex.toLower, row)))

/-- The row of an id, with the fields found. -/
def answerFor (infoByHex : KeyedMap String (DrepInfoRow bech32))
    (metaByHex : KeyedMap String DrepMetaFields) (drepId : String) : Option DrepInfo := do
  let hex ← drepCredentialHex bech32 drepId
  let row ← infoByHex.get? hex
  pure (withFields (mapDrepInfo row) (metaByHex.get? hex))

/-- The answers for the ids, in their order. -/
def joinRows (drepIds : List String) (infoByHex : KeyedMap String (DrepInfoRow bech32))
    (metaByHex : KeyedMap String DrepMetaFields) : List DrepInfo :=
  drepIds.filterMap (answerFor bech32 infoByHex metaByHex)

def drepInfoByIds (drepIds : List String) : DrepRead bech32 (List DrepInfo) :=
  if drepIds.length = 0 then pure []
  else do
    let (infoByHex, metaByHex) ← Async.both (drepInfoByHex bech32 attempts bodyLimit drepIds)
      (drepMetadataByHex bech32 attempts bodyLimit cache drepIds)
    pure (joinRows bech32 drepIds infoByHex metaByHex)

def getDrepInfo (drepIds : List String) : DrepRead bech32 (List DrepInfo) :=
  drepInfoByIds bech32 attempts bodyLimit cache drepIds

/-- `registeredDreps`, whose requests go through the client. -/
def scanRegistered (needed : Option Nat) : DrepRead bech32 (List String) :=
  Async.relay Request.list (fun _ => id) (registeredDreps attempts needed)

/-- The whole membership through a cache, or as much of it as the page takes. -/
def membership (params : DrepListParams) : DrepRead bech32 (List String) :=
  match cache with
  | none => scanRegistered bech32 attempts (some (params.offset + params.limit))
  | some view =>
      match view.membership with
      | some handed => Async.ofExcept handed
      | none => tryCatch (scanRegistered bech32 attempts none) fun error =>
          match view.stale with
          | some ids => pure ids
          | none => throw error

/-- `registered.slice(offset, offset + limit)`. -/
def pageOf (params : DrepListParams) (registered : List String) : List String :=
  (registered.take (params.offset + params.limit)).drop params.offset

def getDrepList (params : DrepListParams) : DrepRead bech32 (List DrepInfo) := do
  let registered ← membership bech32 attempts cache params
  let hydrated ← drepInfoByIds bech32 attempts bodyLimit cache (pageOf params registered)
  pure (hydrated.filter fun drep => drep.status = .registered)

end Program

section Peek

variable {bech32 : Bech32} {cache : Option CacheView} {drepIds : List String}
  {state : KeyedMap String DrepMetaFields × List String} {id hex : String}

theorem peekId_hit {fields : DrepMetaFields} (credential : drepCredentialHex bech32 id = some hex)
    (hit : cache.bind (·.metadata hex) = some fields) :
    peekId bech32 cache state id = (state.1.set hex fields, state.2) := by
  rw [peekId, credential]
  simp only [hit]

theorem peekId_missing (credential : drepCredentialHex bech32 id = some hex)
    (missing : cache.bind (·.metadata hex) = none) :
    peekId bech32 cache state id = (state.1, state.2 ++ [id]) := by
  rw [peekId, credential]
  simp only [missing]

/-- Without a cache every id with a credential is missing. -/
theorem peekMetadata_uncached (named : ∀ id ∈ drepIds, (drepCredentialHex bech32 id).isSome) :
    peekMetadata bech32 none drepIds = (.empty, drepIds) := by
  suffices all : ∀ state, drepIds.foldl (peekId bech32 none) state = (state.1, state.2 ++ drepIds) by
    exact all (.empty, [])
  induction drepIds with
  | nil => simp
  | cons id drepIds ih =>
    intro state
    obtain ⟨hex, credential⟩ := Option.isSome_iff_exists.mp (named id List.mem_cons_self)
    rw [List.foldl_cons, peekId_missing credential rfl,
      ih fun other member => named other (List.mem_cons_of_mem _ member), List.append_assoc]
    rfl

/-- What is asked for is some of what was asked about. -/
theorem peekMetadata_missing : (peekMetadata bech32 cache drepIds).2 ⊆ drepIds := by
  refine List.foldlRecOn (motive := fun state : KeyedMap String DrepMetaFields × List String =>
    state.2 ⊆ drepIds) drepIds _ (List.nil_subset _) ?_
  intro state inside id member
  unfold peekId
  split
  · exact inside
  · split
    · exact inside
    · exact List.append_subset.mpr ⟨inside, List.cons_subset.mpr ⟨member, List.nil_subset _⟩⟩

theorem peekMetadata_hit {fields : DrepMetaFields}
    (found : (peekMetadata bech32 cache drepIds).1.get? hex = some fields) :
    cache.bind (·.metadata hex) = some fields := by
  refine List.foldlRecOn (motive := fun state : KeyedMap String DrepMetaFields × List String =>
    state.1.get? hex = some fields → cache.bind (·.metadata hex) = some fields)
    drepIds (peekId bech32 cache) (by simp) ?_ found
  intro state known id member found
  unfold peekId at found
  split at found
  · exact known found
  · split at found
    case h_1 hex' _ cached hit =>
      rw [KeyedMap.get?_set] at found
      split at found
      case isTrue same =>
        cases found
        exact same ▸ hit
      case isFalse => exact known found
    case h_2 => exact known found

/-- Each id with a credential was hit or is missing. -/
theorem peekMetadata_covers (member : id ∈ drepIds)
    (credential : drepCredentialHex bech32 id = some hex) :
    ((peekMetadata bech32 cache drepIds).1.get? hex).isSome ∨
      id ∈ (peekMetadata bech32 cache drepIds).2 := by
  refine foldl_establishes (f := peekId bech32 cache)
    (P := fun state id => ∀ hex, drepCredentialHex bech32 id = some hex →
      (state.1.get? hex).isSome ∨ id ∈ state.2) ?_ ?_ drepIds _ id member hex credential
  · intro state id hex credential
    simp only [peekId, credential]
    split
    · exact .inl (by simp)
    · exact .inr (by simp)
  · intro state id other known hex credential
    have before := known hex credential
    unfold peekId
    split
    · exact before
    · split
      · rw [KeyedMap.get?_set]
        split
        · exact .inl rfl
        · exact before
      · exact before.imp_right fun inside => List.mem_append_left _ inside

end Peek

end WalletBackend.Koios.Governance
