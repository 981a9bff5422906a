import WalletBackend.Domain.Casing
import WalletBackend.Koios.DrepPages
import WalletBackend.Library.Requests

/-! Which DRep an id is answered with. An id names a hash and, in its header, whether the hash
is of a key or of a script; the rows are joined by the hash alone. -/
namespace WalletBackend.Koios.Governance
open Interaction Containers

/-- What an id names. -/
structure Credential where
  hash : String
  script : Bool
  deriving DecidableEq

/-- The kind that the header of a CIP-129 id states. -/
def statedKind (bech32 : Bech32) (drepId : String) : Option Bool := do
  let bytes ← drepBytes bech32 drepId
  if bytes.length = CIP129_DREP_BYTES then bytes.head?.map (· == CIP129_DREP_SCRIPT_HEADER) else none

/-- What the upstream knows: the kind that it takes an id without a header for, who is known,
and the off-chain fields of those that have any. -/
structure Dreps where
  kindOf : String → Bool
  known : Credential → Prop
  offChain : Credential → Option DrepMetaFields

variable {bech32 : Bech32} {dreps : Dreps} {T : Type}

/-- The credential of an id, whose kind is stated or is what the upstream takes it for. -/
def Dreps.credentialOf (dreps : Dreps) (bech32 : Bech32) (drepId : String) : Option Credential :=
  (drepCredentialHex bech32 drepId).map fun hash =>
    ⟨hash, (statedKind bech32 drepId).getD (dreps.kindOf hash)⟩

def DrepInfoRow.credential (row : DrepInfoRow bech32) : Credential := ⟨row.hex.toLower, row.has_script⟩

abbrev DrepTrace (T : Type) (bech32 : Bech32) := List (Exchange T (Request.Answer bech32))

/-- The rows of those known that were asked about, in any order. -/
def HonestInfo (dreps : Dreps) (trace : DrepTrace T bech32) : Prop :=
  ∀ t chunk rows, ⟨t, .info chunk, .ok rows⟩ ∈ trace →
    (∀ row ∈ rows, dreps.known row.credential ∧
      ∃ id ∈ chunk, dreps.credentialOf bech32 id = some row.credential) ∧
    ∀ id ∈ chunk, ∀ c, dreps.credentialOf bech32 id = some c → dreps.known c →
      ∃ row ∈ rows, row.credential = c

/-- Off-chain rows about those that were asked about. -/
def HonestMetadata (dreps : Dreps) (trace : DrepTrace T bech32) : Prop :=
  ∀ t chunk rows, ⟨t, .metadata chunk, .ok rows⟩ ∈ trace → ∀ row ∈ rows, ∀ c,
    dreps.credentialOf bech32 row.drep_id = some c →
      (∃ id ∈ chunk, dreps.credentialOf bech32 id = some c) ∧
        dreps.offChain c = some (drepMetaFields row.meta_json)

/-- An id is answered with the row of its own credential. -/
def OwnRow (dreps : Dreps) (bech32 : Bech32) (drepId : String) (drep : DrepInfo) : Prop :=
  dreps.credentialOf bech32 drepId = some ⟨drep.hex.toLower, drep.hasScript⟩

/-- It shows no name and no image but those of its own credential. -/
def OwnNames (dreps : Dreps) (bech32 : Bech32) (drepId : String) (drep : DrepInfo) : Prop :=
  (drep.name = none ∧ drep.image = none) ∨
    ∃ c fields, dreps.credentialOf bech32 drepId = some c ∧ dreps.offChain c = some fields ∧
      drep.name = fields.name ∧ drep.image = fields.image

/-- The answers, in the order of the ids, are each right for its id. -/
def Answers (right : String → DrepInfo → Prop) (drepIds : List String) (answered : List DrepInfo) :
    Prop :=
  ∃ answer : String → Option DrepInfo, answered = drepIds.filterMap answer ∧
    ∀ id ∈ drepIds, ∀ drep, answer id = some drep → right id drep

/-- Two of the ids have one hash and different kinds. -/
def Clash (dreps : Dreps) (bech32 : Bech32) (drepIds : List String) (about : Credential → Prop) : Prop :=
  ∃ a ∈ drepIds, ∃ b ∈ drepIds, ∃ c c', dreps.credentialOf bech32 a = some c ∧
    dreps.credentialOf bech32 b = some c' ∧ c.hash = c'.hash ∧ c.script ≠ c'.script ∧ about c

section Join

variable {drepIds : List String} {infoByHex : KeyedMap String (DrepInfoRow bech32)}
  {metaByHex : KeyedMap String DrepMetaFields}

theorem answerFor_some {drepId : String} {drep : DrepInfo}
    (answered : answerFor bech32 infoByHex metaByHex drepId = some drep) :
    ∃ hex row, drepCredentialHex bech32 drepId = some hex ∧ infoByHex.get? hex = some row ∧
      drep = withFields (mapDrepInfo row) (metaByHex.get? hex) := by
  obtain ⟨hex, credential, rest⟩ := Option.bind_eq_some_iff.mp answered
  obtain ⟨row, found, same⟩ := Option.bind_eq_some_iff.mp rest
  cases same
  exact ⟨hex, row, credential, found, rfl⟩

theorem credentialOf_some {drepId : String} {c : Credential}
    (names : dreps.credentialOf bech32 drepId = some c) :
    drepCredentialHex bech32 drepId = some c.hash := by
  obtain ⟨hash, found, rfl⟩ := Option.map_eq_some_iff.mp names
  exact found

theorem credentialOf_hash (dreps : Dreps) {drepId hash : String}
    (found : drepCredentialHex bech32 drepId = some hash) :
    ∃ script, dreps.credentialOf bech32 drepId = some ⟨hash, script⟩ :=
  ⟨_, by rw [Dreps.credentialOf, found]; rfl⟩

end Join

section Runs

variable {attempts : ReadAttempts} {bodyLimit : Nat} {cache : Option CacheView} {drepIds : List String}
  {trace : DrepTrace T bech32} {P : Request → Prop}

theorem batch_runs {request : Request} {rows : request.Rows bech32}
    (runs : (batch bech32 attempts request).Runs trace (.ok rows)) :
    ∃ t, ⟨t, request, .ok rows⟩ ∈ trace := by
  obtain ⟨t, answer, member, rfl⟩ := read_asked runs
  exact ⟨t, member⟩

/-- The rows by credential are those of the batches that the ids were sent in. -/
theorem drepInfoByHex_runs {infoByHex : KeyedMap String (DrepInfoRow bech32)}
    (runs : (drepInfoByHex bech32 attempts bodyLimit drepIds).Runs trace (.ok infoByHex)) :
    ∃ rows : List (DrepInfoRow bech32),
      infoByHex = .ofEntries (rows.map fun row => (row.hex.toLower, row)) ∧
      (∀ row ∈ rows, ∃ t chunk part, ⟨t, .info chunk, .ok part⟩ ∈ trace ∧ row ∈ part ∧
        chunk ⊆ drepIds) ∧
      ∀ id ∈ drepIds, ∃ t chunk part, ⟨t, .info chunk, .ok part⟩ ∈ trace ∧ id ∈ chunk ∧
        part ⊆ rows := by
  obtain ⟨first, _, rows, rfl, sent, rfl, same⟩ := Async.runs_bind_ok.mp runs
  cases same
  refine ⟨rows, rfl, ?_, ?_⟩
  · intro row member
    obtain ⟨chunk, part, run, inside, found, sub, ran⟩ := batchAll_row sent member
    obtain ⟨t, asked⟩ := batch_runs ran
    exact ⟨t, chunk, part, List.mem_append_left _ (sub.subset asked), found, inside⟩
  · intro id member
    obtain ⟨chunk, part, run, found, inside, sub, ran⟩ := batchAll_item sent member
    obtain ⟨t, asked⟩ := batch_runs ran
    exact ⟨t, chunk, part, List.mem_append_left _ (sub.subset asked), found, inside⟩

/-- The fields of a row that came back in a batch of names. -/
def Written (trace : DrepTrace T bech32) (hex : String) (fields : DrepMetaFields) : Prop :=
  ∃ t chunk rows, ⟨t, .metadata chunk, .ok rows⟩ ∈ trace ∧
    (hex, fields) ∈ metadataEntries bech32 rows

theorem Written.mono {part : DrepTrace T bech32} {hex : String} {fields : DrepMetaFields}
    (written : Written part hex fields) (sub : part ⊆ trace) : Written trace hex fields := by
  obtain ⟨t, chunk, rows, member, entry⟩ := written
  exact ⟨t, chunk, rows, sub member, entry⟩

theorem loadMetadata_runs {byHex metaByHex : KeyedMap String DrepMetaFields}
    {chunks : List (List String)} {hex : String} {fields : DrepMetaFields}
    (runs : (loadMetadata bech32 attempts byHex chunks).Runs trace (.ok metaByHex))
    (found : metaByHex.get? hex = some fields) :
    byHex.get? hex = some fields ∨ Written trace hex fields := by
  induction chunks generalizing byHex trace with
  | nil =>
    cases runs.2
    exact .inl found
  | cons chunk chunks ih =>
    obtain ⟨first, rest, rows, rfl, loaded, later⟩ := Async.runs_bind_ok.mp runs
    obtain known | written := ih later
    · obtain entry | before := KeyedMap.get?_setAll_some known
      · obtain ⟨_, answered, same⟩ | ⟨_, _, _, -, -, -, same⟩ := Async.runs_tryCatch.mp loaded
        · cases same
          obtain ⟨t, asked⟩ := batch_runs answered
          exact .inr ⟨t, chunk, rows, List.mem_append_left _ asked, entry⟩
        · cases same
          cases entry
      · exact .inl before
    · exact .inr (written.mono (List.subset_append_right _ _))

/-- What is found of a credential was known to the cache or came back in a batch. -/
theorem drepMetadataByHex_runs {metaByHex : KeyedMap String DrepMetaFields} {hex : String}
    {fields : DrepMetaFields}
    (runs : (drepMetadataByHex bech32 attempts bodyLimit cache drepIds).Runs trace (.ok metaByHex))
    (found : metaByHex.get? hex = some fields) :
    cache.bind (·.metadata hex) = some fields ∨ Written trace hex fields := by
  unfold drepMetadataByHex at runs
  dsimp only at runs
  split at runs
  · cases runs.2
    exact .inl (peekMetadata_hit found)
  · obtain ⟨_, rest, chunks, rfl, ⟨rfl, -⟩, loaded⟩ := Async.runs_bind_ok.mp runs
    exact (loadMetadata_runs loaded found).imp_left peekMetadata_hit

/-- What a call that returns has found, and what it makes of it. -/
theorem getDrepInfo_runs {answered : List DrepInfo}
    (runs : (getDrepInfo bech32 attempts bodyLimit cache drepIds).Runs trace (.ok answered)) :
    ∃ (rows : List (DrepInfoRow bech32)) (metaByHex : KeyedMap String DrepMetaFields),
      answered = drepIds.filterMap
        (answerFor bech32 (.ofEntries (rows.map fun row => (row.hex.toLower, row))) metaByHex) ∧
      (∀ row ∈ rows, ∃ t chunk part, ⟨t, .info chunk, .ok part⟩ ∈ trace ∧ row ∈ part ∧
        chunk ⊆ drepIds) ∧
      (∀ id ∈ drepIds, ∃ t chunk part, ⟨t, .info chunk, .ok part⟩ ∈ trace ∧ id ∈ chunk ∧
        part ⊆ rows) ∧
      ∀ hex fields, metaByHex.get? hex = some fields →
        cache.bind (·.metadata hex) = some fields ∨ Written trace hex fields := by
  unfold getDrepInfo drepInfoByIds at runs
  split at runs
  case isTrue none =>
    cases runs.2
    rw [List.length_eq_zero_iff.mp none]
    refine ⟨[], .empty, rfl, ?_, ?_, fun hex fields found => by simp at found⟩
    · exact fun row listed => absurd listed List.not_mem_nil
    · exact fun id member => absurd member List.not_mem_nil
  case isFalse =>
    obtain ⟨first, _, ⟨infoByHex, metaByHex⟩, rfl, pair, rfl, same⟩ := Async.runs_bind_ok.mp runs
    cases same
    obtain ⟨⟨part, sub, info⟩, part', sub', names⟩ := Async.both_joined pair
    obtain ⟨rows, rfl, came, sent⟩ := drepInfoByHex_runs info
    rw [List.append_nil]
    refine ⟨rows, metaByHex, rfl, ?_, ?_, ?_⟩
    · intro row member
      obtain ⟨t, chunk, answer, asked, there⟩ := came row member
      exact ⟨t, chunk, answer, sub.subset asked, there⟩
    · intro id member
      obtain ⟨t, chunk, answer, asked, there⟩ := sent id member
      exact ⟨t, chunk, answer, sub.subset asked, there⟩
    · intro hex fields found
      exact (drepMetadataByHex_runs names found).imp_right fun written => written.mono sub'.subset

/-- Names are asked for only of the ids. -/
def NamesOf (drepIds : List String) : Request → Prop
  | .metadata chunk => chunk ⊆ drepIds
  | _ => True

theorem asks_read {load : DrepRead bech32 α} (once : load.Asks P) : (read attempts load).Asks P := by
  rw [read, readAgain_eq]
  exact Async.asks_retrying once _

theorem asks_batch {request : Request} (asked : P request) : (batch bech32 attempts request).Asks P :=
  asks_read ⟨asked, fun _ => Async.asks_settled _⟩

theorem asks_batchAll {Item Row : Type} {body : BodyBuilder Item}
    {send : List Item → DrepRead bech32 (List Row)} (each : ∀ chunk, (send chunk).Asks P)
    (items : List Item) : (batchAll body send bodyLimit items).Asks P := by
  have packed (limit : Nat) : (sendPacked body send items limit).Asks P := by
    refine Async.asks_bind (Async.asks_settled _) fun chunks => ?_
    refine Async.asks_bind (asks_promiseAll fun call member => ?_) fun _ => Async.asks_settled _
    obtain ⟨chunk, -, rfl⟩ := List.mem_map.mp member
    exact each chunk
  unfold batchAll
  split
  · exact Async.asks_settled _
  · refine Async.asks_tryCatch (packed bodyLimit) fun e => ?_
    split
    · exact Async.asks_settled _
    · split
      · exact Async.asks_settled _
      · exact packed _

theorem asks_loadMetadata {byHex : KeyedMap String DrepMetaFields} {chunks : List (List String)}
    (inside : ∀ chunk ∈ chunks, chunk ⊆ drepIds) :
    (loadMetadata bech32 attempts byHex chunks).Asks (NamesOf drepIds) := by
  induction chunks generalizing byHex with
  | nil => exact Async.asks_settled _
  | cons chunk chunks ih =>
    refine Async.asks_bind (Async.asks_tryCatch ?_ fun _ => Async.asks_settled _) fun rows => ?_
    · exact asks_batch (inside chunk List.mem_cons_self)
    · exact ih fun other member => inside other (List.mem_cons_of_mem _ member)

theorem asks_getDrepInfo :
    (getDrepInfo bech32 attempts bodyLimit cache drepIds).Asks (NamesOf drepIds) := by
  unfold getDrepInfo drepInfoByIds
  split
  · exact Async.asks_settled _
  · refine Async.asks_bind (Async.asks_both ?_ ?_) fun _ => Async.asks_settled _
    · refine Async.asks_bind (asks_batchAll (fun chunk => asks_batch trivial) _) fun _ =>
        Async.asks_settled _
    · unfold drepMetadataByHex
      dsimp only
      split
      · exact Async.asks_settled _
      · cases packed : packBySize (peekMetadata bech32 cache drepIds).2 drepIdsBody bodyLimit with
        | error e => exact trivial
        | ok chunks =>
          refine asks_loadMetadata fun chunk member => ?_
          have missing : chunk ⊆ (peekMetadata bech32 cache drepIds).2 := by
            rw [← packBySize_flatten packed]
            exact fun id => List.mem_flatten_of_mem member
          exact fun id inside => peekMetadata_missing (missing inside)

/-- The names that a call asks for are of ids that it is asked about. -/
theorem getDrepInfo_metadata {outcome : Except Failure (List DrepInfo)}
    (runs : (getDrepInfo bech32 attempts bodyLimit cache drepIds).Runs trace outcome) {t : T}
    {chunk : List String} {rows : List DrepMetadataRow}
    (member : ⟨t, .metadata chunk, .ok rows⟩ ∈ trace) : chunk ⊆ drepIds :=
  asks_getDrepInfo.only runs _ member

end Runs

section Calls

/-- One call of `getDrepInfo`: what it was asked, what the cache handed it, and its run. -/
structure DrepCall (T : Type) (bech32 : Bech32) (attempts : ReadAttempts) where
  bodyLimit : Nat
  drepIds : List String
  cache : Option CacheView
  trace : DrepTrace T bech32
  outcome : Except Failure (List DrepInfo)
  runs : (getDrepInfo bech32 attempts bodyLimit cache drepIds).Runs trace outcome

variable {attempts : ReadAttempts} {calls : List (DrepCall T bech32 attempts)}
  {call : DrepCall T bech32 attempts}

/-- Every name in the cache was written by one of the calls. -/
def CacheWritten (calls : List (DrepCall T bech32 attempts)) : Prop :=
  ∀ call ∈ calls, ∀ view ∈ call.cache, ∀ hex fields, view.metadata hex = some fields →
    ∃ writer ∈ calls, Written writer.trace hex fields

/-- The upstream answers each call for what it is asked, in any order. -/
def HonestCalls (dreps : Dreps) (calls : List (DrepCall T bech32 attempts)) : Prop :=
  ∀ call ∈ calls, HonestInfo dreps call.trace ∧ HonestMetadata dreps call.trace

/-- The ids of all the calls. -/
def allIds (calls : List (DrepCall T bech32 attempts)) : List String := calls.flatMap DrepCall.drepIds

/-- A name written for a hash is that of a credential that one of the calls asks about. -/
theorem written_credential (honest : HonestCalls dreps calls) {hex : String} {fields : DrepMetaFields}
    {writer : DrepCall T bech32 attempts} (member : writer ∈ calls)
    (written : Written writer.trace hex fields) :
    ∃ id ∈ allIds calls, ∃ c, dreps.credentialOf bech32 id = some c ∧ c.hash = hex ∧
      dreps.offChain c = some fields := by
  obtain ⟨t, chunk, rows, answered, entry⟩ := written
  obtain ⟨row, listed, same⟩ := List.mem_filterMap.mp entry
  obtain ⟨hash, credential, same⟩ := Option.map_eq_some_iff.mp same
  cases same
  obtain ⟨script, names⟩ := credentialOf_hash dreps credential
  obtain ⟨⟨id, asked, about⟩, told⟩ := (honest writer member).2 t chunk rows answered row listed _ names
  have inside := getDrepInfo_metadata writer.runs answered asked
  exact ⟨id, List.mem_flatMap.mpr ⟨writer, member, inside⟩, _, about, rfl, told⟩

/-- Ids of which no two have one hash and different kinds have one credential for a hash. -/
theorem same_credential {drepIds : List String} (clear : ¬ Clash dreps bech32 drepIds fun _ => True)
    {id id' : String} (member : id ∈ drepIds) (member' : id' ∈ drepIds) {c c' : Credential}
    (names : dreps.credentialOf bech32 id = some c) (names' : dreps.credentialOf bech32 id' = some c')
    (same : c.hash = c'.hash) : c = c' := by
  by_contra other
  refine clear ⟨id, member, id', member', c, c', names, names', same, fun kind => other ?_, trivial⟩
  obtain ⟨hash, script⟩ := c
  obtain ⟨hash', script'⟩ := c'
  cases (show hash = hash' from same)
  exact congrArg (Credential.mk hash) kind

/-- Where no two ids of the calls have one hash and different kinds, each is answered with its
own row and its own names. -/
theorem calls_right (honest : HonestCalls dreps calls) (cached : CacheWritten calls)
    (clear : ¬ Clash dreps bech32 (allIds calls) fun _ => True) (member : call ∈ calls)
    {answered : List DrepInfo} (returned : call.outcome = .ok answered) :
    Answers (fun id drep => OwnRow dreps bech32 id drep ∧ OwnNames dreps bech32 id drep) call.drepIds
      answered := by
  obtain ⟨rows, metaByHex, rfl, came, -, found⟩ := getDrepInfo_runs (returned ▸ call.runs)
  refine ⟨_, rfl, fun id asked drep answer => ?_⟩
  obtain ⟨hex, row, credential, joined, rfl⟩ := answerFor_some answer
  obtain ⟨script, names⟩ := credentialOf_hash dreps credential
  have listed : id ∈ allIds calls := List.mem_flatMap.mpr ⟨call, member, asked⟩
  constructor
  · obtain written | none := KeyedMap.get?_setAll_some joined
    · obtain ⟨row', there, same⟩ := List.mem_map.mp written
      cases same
      obtain ⟨t, chunk, part, answeredPart, inside, chunkAsked⟩ := came row there
      obtain ⟨-, id', asked', about⟩ := ((honest call member).1 t chunk part answeredPart).1 row inside
      have listed' : id' ∈ allIds calls := List.mem_flatMap.mpr ⟨call, member, chunkAsked asked'⟩
      exact names.trans (congrArg some (same_credential clear listed listed' names about rfl))
    · cases none
  · cases known : metaByHex.get? hex with
    | none => exact .inl ⟨rfl, rfl⟩
    | some fields =>
      have origin : ∃ writer ∈ calls, Written writer.trace hex fields := by
        obtain hit | written := found hex fields known
        · obtain ⟨view, there, hit⟩ := Option.bind_eq_some_iff.mp hit
          exact cached call member view there hex fields hit
        · exact ⟨call, member, written⟩
      obtain ⟨writer, there, written⟩ := origin
      obtain ⟨id', listed', c, about, same, told⟩ := written_credential honest there written
      have one := same_credential clear listed listed' names about same.symm
      exact .inr ⟨c, fields, one ▸ names, told, rfl, rfl⟩

/-- A credential that is known has its hash answered. -/
theorem known_answered {rows : List (DrepInfoRow bech32)} {trace : DrepTrace T bech32}
    {drepIds : List String} (honest : HonestInfo dreps trace)
    (sent : ∀ id ∈ drepIds, ∃ t chunk part, ⟨t, .info chunk, .ok part⟩ ∈ trace ∧ id ∈ chunk ∧
      part ⊆ rows) {id : String} (member : id ∈ drepIds) {c : Credential}
    (names : dreps.credentialOf bech32 id = some c) (known : dreps.known c) :
    ∃ row, (KeyedMap.ofEntries (rows.map fun row => (row.hex.toLower, row))).get? c.hash = some row := by
  obtain ⟨t, chunk, part, answered, inside, kept⟩ := sent id member
  obtain ⟨row, there, rfl⟩ := (honest t chunk part answered).2 id inside c names known
  exact KeyedMap.get?_setAll_isSome ⟨_, List.mem_map_of_mem (kept there), rfl⟩

/-- As many answers about a hash as there are ids that name it leave no such id without one. -/
theorem answers_all {drepIds : List String} {answer answer' : String → Option DrepInfo} {hash : String}
    (same : drepIds.filterMap answer = drepIds.filterMap answer')
    (every : ∀ id ∈ drepIds, drepCredentialHex bech32 id = some hash → (answer id).isSome)
    (about : ∀ id ∈ drepIds, ∀ drep, answer id = some drep →
      drepCredentialHex bech32 id = some drep.hex.toLower)
    (about' : ∀ id ∈ drepIds, ∀ drep, answer' id = some drep →
      drepCredentialHex bech32 id = some drep.hex.toLower) :
    ∀ id ∈ drepIds, drepCredentialHex bech32 id = some hash → (answer' id).isSome := by
  have part {f : String → Option DrepInfo} (about : ∀ id ∈ drepIds, ∀ drep, f id = some drep →
      drepCredentialHex bech32 id = some drep.hex.toLower) :
      (drepIds.filterMap f).filter (fun drep => drep.hex.toLower = hash) =
        (drepIds.filter fun id => drepCredentialHex bech32 id = some hash).filterMap f := by
    rw [List.filter_filterMap, List.filterMap_filter]
    refine List.filterMap_congr fun id member => ?_
    cases answered : f id with
    | none => simp
    | some drep => simp [Option.filter, about id member drep answered]
  have all : ((drepIds.filter fun id => drepCredentialHex bech32 id = some hash).filterMap
      answer).length = (drepIds.filter fun id => drepCredentialHex bech32 id = some hash).length := by
    rw [List.filterMap_length_eq_length]
    intro id member
    obtain ⟨member, names⟩ := List.mem_filter.mp member
    exact every id member (of_decide_eq_true names)
  rw [← part about, same, part about', List.filterMap_length_eq_length] at all
  exact fun id member names => all id (List.mem_filter.mpr ⟨member, decide_eq_true names⟩)

/-- Each id is answered with its own row unless two ids have one hash and different kinds, and
one of the two is known. -/
theorem rows_right_iff {drepIds : List String} {answered : List DrepInfo} {trace : DrepTrace T bech32}
    {bodyLimit : Nat} {cache : Option CacheView} (honest : HonestInfo dreps trace)
    (runs : (getDrepInfo bech32 attempts bodyLimit cache drepIds).Runs trace (.ok answered)) :
    Answers (OwnRow dreps bech32) drepIds answered ↔ ¬ Clash dreps bech32 drepIds dreps.known := by
  obtain ⟨rows, metaByHex, rfl, came, sent, -⟩ := getDrepInfo_runs runs
  generalize indexed : KeyedMap.ofEntries (rows.map fun row => (row.hex.toLower, row)) = infoByHex
  have joined {hex : String} {row : DrepInfoRow bech32} (found : infoByHex.get? hex = some row) :
      row ∈ rows ∧ hex = row.hex.toLower := by
    rw [← indexed] at found
    obtain written | none := KeyedMap.get?_setAll_some found
    · obtain ⟨row', there, same⟩ := List.mem_map.mp written
      cases same
      exact ⟨there, rfl⟩
    · cases none
  constructor
  · rintro ⟨answer, same, right⟩ ⟨a, inA, b, inB, c, c', namesA, namesB, sameHash, kinds, known⟩
    obtain ⟨row, found⟩ := known_answered honest sent inA namesA known
    rw [indexed] at found
    have only (id : String) (member : id ∈ drepIds) (credential : Credential)
        (names : dreps.credentialOf bech32 id = some credential) (hash : credential.hash = c.hash) :
        credential.script = row.has_script := by
      have answered : (answer id).isSome := by
        refine answers_all same ?_ ?_ ?_ id member (hash ▸ credentialOf_some names)
        · intro id' _ named
          simp [answerFor, named, found]
        · intro id' _ drep answered
          obtain ⟨hex, row', named, found', rfl⟩ := answerFor_some answered
          exact named.trans (congrArg some (joined found').2)
        · exact fun id' member' drep answered => credentialOf_some (right id' member' drep answered)
      obtain ⟨drep, answered⟩ := Option.isSome_iff_exists.mp answered
      have own := right id member drep answered
      cases names.symm.trans own
      have listed : drep ∈ drepIds.filterMap (answerFor bech32 infoByHex metaByHex) :=
        same ▸ List.mem_filterMap.mpr ⟨id, member, answered⟩
      obtain ⟨id', -, answered'⟩ := List.mem_filterMap.mp listed
      obtain ⟨hex, row', -, found', rfl⟩ := answerFor_some answered'
      cases (joined found').2
      have hex : row'.hex.toLower = c.hash := hash
      rw [hex, found] at found'
      cases found'
      rfl
    exact kinds ((only a inA c namesA rfl).trans (only b inB c' namesB sameHash.symm).symm)
  · intro clear
    refine ⟨_, rfl, fun id asked drep answer => ?_⟩
    obtain ⟨hex, row, credential, found, rfl⟩ := answerFor_some answer
    obtain ⟨there, rfl⟩ := joined found
    obtain ⟨script, names⟩ := credentialOf_hash dreps credential
    obtain ⟨t, chunk, part, answered, inside, chunkAsked⟩ := came row there
    obtain ⟨known, id', asked', about⟩ := (honest t chunk part answered).1 row inside
    by_contra other
    refine clear ⟨id', chunkAsked asked', id, asked, _, _, about, names, rfl, fun kind => other ?_, known⟩
    exact names.trans (congrArg some (congrArg (Credential.mk _) kind.symm))

end Calls

/-- Each DRep returned is that of the id it is returned for, with the names of that id, in every
session of calls none of whose ids have one hash and different kinds; and a call returns the
rows of its ids exactly where no two of its own, one of them known, do. -/
theorem drepAnswers_own {T : Type} (bech32 : Bech32) (attempts : ReadAttempts) (dreps : Dreps)
    (calls : List (DrepCall T bech32 attempts)) (honest : HonestCalls dreps calls)
    (cached : CacheWritten calls) :
    (¬ Clash dreps bech32 (allIds calls) (fun _ => True) → ∀ call ∈ calls, ∀ answered,
      call.outcome = .ok answered →
        Answers (fun id drep => OwnRow dreps bech32 id drep ∧ OwnNames dreps bech32 id drep)
          call.drepIds answered) ∧
    ∀ call ∈ calls, ∀ answered, call.outcome = .ok answered →
      (Answers (OwnRow dreps bech32) call.drepIds answered ↔
        ¬ Clash dreps bech32 call.drepIds dreps.known) := by
  constructor
  · exact fun clear call member answered returned => calls_right honest cached clear member returned
  · exact fun call member answered returned =>
      rows_right_iff (honest call member).1 (returned ▸ call.runs)

section OneHash

/-- The script whose hash is that of the key. -/
def siblingDrep : String := "drep1yvqqqqqqqqqqqqqqqqqqqqqqqqqqqqqqqqqqqqqqqqqqqqq770f95"

/-- The other script, by its id without a header. -/
def bareDrep : String := "drep1llllllllllllllllllllllllllllllllllllllllllll7ppt0vn"

/-- The codec on the ids of a key and a script of one hash, and on both ids of another script. -/
def fourIds : Bech32 := knownBech32 [keyDrep, siblingDrep, scriptDrep, bareDrep]

theorem keyDrep_decoded : drepBytes fourIds keyDrep = some (0x22 :: List.replicate 28 0) ∧
    drepCredentialHex fourIds keyDrep = some zeroHash :=
  ⟨keyDrep_bytes (by simp), zeroHash_toLower ▸ keyDrep_hash (by simp)⟩

theorem scriptDrep_decoded : drepBytes fourIds scriptDrep = some (0x23 :: List.replicate 28 255) ∧
    drepCredentialHex fourIds scriptDrep = some fullHash :=
  ⟨scriptDrep_bytes (by simp), fullHash_toLower ▸ scriptDrep_hash (by simp)⟩

theorem siblingDrep_decoded : drepBytes fourIds siblingDrep = some (0x23 :: List.replicate 28 0) ∧
    drepCredentialHex fourIds siblingDrep = some zeroHash := by
  have bytes : drepBytes fourIds siblingDrep = some (0x23 :: List.replicate 28 0) :=
    drepBytes_known (by simp) (by set_option maxRecDepth 4000 in decide)
  refine ⟨bytes, ?_⟩
  rw [drepCredentialHex, bytes]
  rfl

theorem bareDrep_decoded : drepBytes fourIds bareDrep = some (List.replicate 28 255) ∧
    drepCredentialHex fourIds bareDrep = some fullHash := by
  have bytes : drepBytes fourIds bareDrep = some (List.replicate 28 255) :=
    drepBytes_known (by simp) (by set_option maxRecDepth 4000 in decide)
  refine ⟨bytes, ?_⟩
  rw [drepCredentialHex, bytes]
  rfl

def keyInfo : DrepInfoRow fourIds := infoRow keyDrep zeroHash false
  (keyDrep_decoded.2.trans (congrArg some zeroHash_toLower.symm))

def siblingInfo : DrepInfoRow fourIds := infoRow siblingDrep zeroHash true
  (siblingDrep_decoded.2.trans (congrArg some zeroHash_toLower.symm))

def scriptInfo : DrepInfoRow fourIds := infoRow scriptDrep fullHash true
  (scriptDrep_decoded.2.trans (congrArg some fullHash_toLower.symm))

/-- All three are registered. -/
def threeRows : List (DrepInfoRow fourIds) :=
  [keyInfo, siblingInfo, scriptInfo]

/-- The key has a document, and an id without a header is taken for that of a script. -/
def fourDreps : Dreps where
  kindOf _ := true
  known c := ∃ row ∈ threeRows, row.credential = c
  offChain c := if c = ⟨zeroHash, false⟩ then some keyFields else none

def rowsAbout (drepIds : List String) : List (DrepInfoRow fourIds) :=
  threeRows.filter fun row => drepIds.any fun id => fourDreps.credentialOf fourIds id = some row.credential

def documentsAbout (drepIds : List String) : List DrepMetadataRow :=
  if drepIds.any fun id => fourDreps.credentialOf fourIds id = some ⟨zeroHash, false⟩ then
    [⟨keyDrep, some (givenName "Key")⟩] else []

/-- The ids asked about, and those of them that no name was known of. -/
def askedAbout (drepIds missing : List String) : DrepTrace Unit fourIds :=
  [⟨(), .info drepIds, .ok (rowsAbout drepIds)⟩, ⟨(), .metadata missing, .ok (documentsAbout missing)⟩]

theorem keyDrep_credential : fourDreps.credentialOf fourIds keyDrep = some ⟨zeroHash, false⟩ := by
  rw [Dreps.credentialOf, statedKind, keyDrep_decoded.1, keyDrep_decoded.2]
  rfl

theorem siblingDrep_credential : fourDreps.credentialOf fourIds siblingDrep = some ⟨zeroHash, true⟩ := by
  rw [Dreps.credentialOf, statedKind, siblingDrep_decoded.1, siblingDrep_decoded.2]
  rfl

theorem scriptDrep_credential : fourDreps.credentialOf fourIds scriptDrep = some ⟨fullHash, true⟩ := by
  rw [Dreps.credentialOf, statedKind, scriptDrep_decoded.1, scriptDrep_decoded.2]
  rfl

theorem bareDrep_credential : fourDreps.credentialOf fourIds bareDrep = some ⟨fullHash, true⟩ := by
  rw [Dreps.credentialOf, statedKind, bareDrep_decoded.1, bareDrep_decoded.2]
  rfl

theorem hashes_apart : zeroHash ≠ fullHash := by decide

theorem keyInfo_hex : keyInfo.hex.toLower = zeroHash := zeroHash_toLower

theorem siblingInfo_hex : siblingInfo.hex.toLower = zeroHash := zeroHash_toLower

theorem scriptInfo_hex : scriptInfo.hex.toLower = fullHash := fullHash_toLower

theorem keyInfo_credential : keyInfo.credential = ⟨zeroHash, false⟩ :=
  congrArg (Credential.mk · false) keyInfo_hex

theorem siblingInfo_credential : siblingInfo.credential = ⟨zeroHash, true⟩ :=
  congrArg (Credential.mk · true) siblingInfo_hex

theorem scriptInfo_credential : scriptInfo.credential = ⟨fullHash, true⟩ :=
  congrArg (Credential.mk · true) scriptInfo_hex

/-- The rows about the key and the other script, whichever forms of id ask for them. -/
theorem rowsAbout_two {drepIds : List String}
    (asked : ∀ id ∈ drepIds, id = keyDrep ∨ id = bareDrep ∨ id = scriptDrep)
    (key : keyDrep ∈ drepIds) (script : bareDrep ∈ drepIds) :
    rowsAbout drepIds = [keyInfo, scriptInfo] := by
  have keys : (drepIds.any fun id =>
      fourDreps.credentialOf fourIds id = some keyInfo.credential) = true :=
    List.any_eq_true.mpr ⟨_, key, by simp [keyDrep_credential, keyInfo_credential]⟩
  have scripts : (drepIds.any fun id =>
      fourDreps.credentialOf fourIds id = some scriptInfo.credential) = true :=
    List.any_eq_true.mpr ⟨_, script, by simp [bareDrep_credential, scriptInfo_credential]⟩
  have siblings : (drepIds.any fun id =>
      fourDreps.credentialOf fourIds id = some siblingInfo.credential) = false := by
    refine List.any_eq_false.mpr fun id member => ?_
    rw [siblingInfo_credential]
    obtain rfl | rfl | rfl := asked id member
    · simp [keyDrep_credential]
    · simp [bareDrep_credential, hashes_apart.symm]
    · simp [scriptDrep_credential, hashes_apart.symm]
  simp only [rowsAbout, threeRows, List.filter_cons, List.filter_nil, keys, siblings, scripts, if_true,
    Bool.false_eq_true, if_false]

theorem documentsAbout_key {drepIds : List String} (asked : keyDrep ∈ drepIds) :
    documentsAbout drepIds = [⟨keyDrep, some (givenName "Key")⟩] := by
  have about : (drepIds.any fun id => fourDreps.credentialOf fourIds id = some ⟨zeroHash, false⟩) = true :=
    List.any_eq_true.mpr ⟨_, asked, by rw [keyDrep_credential]; exact decide_eq_true rfl⟩
  rw [documentsAbout, if_pos about]

theorem askedAbout_honest (drepIds missing : List String) :
    HonestInfo fourDreps (askedAbout drepIds missing) ∧
      HonestMetadata fourDreps (askedAbout drepIds missing) := by
  constructor
  · intro t chunk rows member
    obtain info | metadata := List.mem_pair.mp member
    · cases info
      constructor
      · intro row listed
        obtain ⟨there, asked⟩ := List.mem_filter.mp listed
        obtain ⟨id, inside, same⟩ := List.any_eq_true.mp asked
        exact ⟨⟨row, there, rfl⟩, id, inside, of_decide_eq_true same⟩
      · rintro id inside c names ⟨row, there, rfl⟩
        exact ⟨row, List.mem_filter.mpr
          ⟨there, List.any_eq_true.mpr ⟨id, inside, decide_eq_true names⟩⟩, rfl⟩
    · cases metadata
  · intro t chunk rows member row listed c names
    obtain info | metadata := List.mem_pair.mp member
    · cases info
    · cases metadata
      obtain ⟨asked, here⟩ := List.mem_ite_nil_right.mp listed
      obtain rfl := List.mem_singleton.mp here
      cases names.symm.trans keyDrep_credential
      obtain ⟨id, inside, same⟩ := List.any_eq_true.mp asked
      have told : fourDreps.offChain ⟨zeroHash, false⟩ = some keyFields := by simp [fourDreps]
      exact ⟨⟨id, inside, of_decide_eq_true same⟩, told⟩

theorem siblings_clash : Clash fourDreps fourIds [keyDrep, siblingDrep] fourDreps.known :=
  ⟨keyDrep, by simp, siblingDrep, by simp, _, _, keyDrep_credential, siblingDrep_credential, rfl,
    Bool.false_ne_true, _, List.mem_cons_self, keyInfo_credential⟩

/-- A request for a key and for a script of one hash is not answered with the row of each. -/
theorem drepAnswers_crossed :
    ¬ ∀ (bech32 : Bech32) (dreps : Dreps) (attempts : ReadAttempts) (bodyLimit : Nat)
      (drepIds : List String) (trace : DrepTrace Unit bech32) (answered : List DrepInfo),
      HonestInfo dreps trace → HonestMetadata dreps trace →
      (getDrepInfo bech32 attempts bodyLimit none drepIds).Runs trace (.ok answered) →
      Answers (OwnRow dreps bech32) drepIds answered := by
  intro always
  obtain ⟨info, names⟩ := askedAbout_honest [keyDrep, siblingDrep] [keyDrep, siblingDrep]
  have packed : packBySize [keyDrep, siblingDrep] drepIdsBody 5120 = .ok [[keyDrep, siblingDrep]] := by
    decide
  have left : peekMetadata fourIds none [keyDrep, siblingDrep] = (.empty, [keyDrep, siblingDrep]) :=
    peekMetadata_uncached (by simp [keyDrep_decoded.2, siblingDrep_decoded.2])
  have runs : (getDrepInfo fourIds .single 5120 none [keyDrep, siblingDrep]).Runs
      (askedAbout [keyDrep, siblingDrep] [keyDrep, siblingDrep]) _ :=
    drepInfoByIds_lone () () (by decide) packed (congrArg Prod.snd left) (by decide) packed
  have own := always fourIds fourDreps .single 5120 [keyDrep, siblingDrep] _ _ info names runs
  exact (rows_right_iff info runs).mp own siblings_clash

/-- What is published of the key, with its name, and of the other script. -/
def namedKey : DrepInfo := withFields (mapDrepInfo keyInfo) (some keyFields)

def otherScript : DrepInfo := mapDrepInfo scriptInfo

/-- The name of the key, once it has been read. -/
def nameCached : CacheView := ⟨none, none, fun hex => if hex = zeroHash then some keyFields else none⟩

theorem keyEntries_four :
    metadataEntries fourIds [⟨keyDrep, some (givenName "Key")⟩] = [(zeroHash, keyFields)] :=
  keyEntries (by simp)

/-- The rows about the key and the other script, and the name, as they are joined. -/
def twoRows : KeyedMap String (DrepInfoRow fourIds) :=
  .ofEntries ([keyInfo, scriptInfo].map fun row => (row.hex.toLower, row))

def keyName : KeyedMap String DrepMetaFields := KeyedMap.empty.set zeroHash keyFields

theorem answerFor_key {drepId : String} (names : drepCredentialHex fourIds drepId = some zeroHash) :
    answerFor fourIds twoRows keyName drepId = some namedKey := by
  have row : twoRows.get? zeroHash = some keyInfo := by
    simp [twoRows, KeyedMap.ofEntries, KeyedMap.get?_set, keyInfo_hex, scriptInfo_hex, hashes_apart]
  have name : keyName.get? zeroHash = some keyFields := KeyedMap.get?_set_self _ _ _
  rw [answerFor, names, Option.bind_eq_bind, Option.bind_some, row, Option.bind_eq_bind,
    Option.bind_some, name]
  rfl

theorem answerFor_script {drepId : String} (names : drepCredentialHex fourIds drepId = some fullHash) :
    answerFor fourIds twoRows keyName drepId = some otherScript := by
  have row : twoRows.get? fullHash = some scriptInfo := by
    simp [twoRows, KeyedMap.ofEntries, keyInfo_hex, scriptInfo_hex]
  have name : keyName.get? fullHash = none := KeyedMap.get?_set_of_ne _ _ hashes_apart.symm
  rw [answerFor, names, Option.bind_eq_bind, Option.bind_some, row, Option.bind_eq_bind,
    Option.bind_some, name]
  rfl

theorem firstCall_runs : (getDrepInfo fourIds .single 5120 none [keyDrep, bareDrep]).Runs
    (askedAbout [keyDrep, bareDrep] [keyDrep, bareDrep]) (.ok [namedKey, otherScript]) := by
  have packed : packBySize [keyDrep, bareDrep] drepIdsBody 5120 = .ok [[keyDrep, bareDrep]] := by
    decide
  have left : peekMetadata fourIds none [keyDrep, bareDrep] = (.empty, [keyDrep, bareDrep]) :=
    peekMetadata_uncached (by simp [keyDrep_decoded.2, bareDrep_decoded.2])
  have joined : joinRows fourIds [keyDrep, bareDrep]
      (.ofEntries ((rowsAbout [keyDrep, bareDrep]).map fun row => (row.hex.toLower, row)))
      ((peekMetadata fourIds none [keyDrep, bareDrep]).1.setAll
        (metadataEntries fourIds (documentsAbout [keyDrep, bareDrep]))) = [namedKey, otherScript] := by
    rw [rowsAbout_two (by simp) (by simp) (by simp), left, documentsAbout_key (by simp), keyEntries_four]
    change joinRows fourIds [keyDrep, bareDrep] twoRows keyName = _
    rw [joinRows, List.filterMap_cons_some (answerFor_key keyDrep_decoded.2),
      List.filterMap_cons_some (answerFor_script bareDrep_decoded.2), List.filterMap_nil]
  rw [← joined]
  exact drepInfoByIds_lone () () (by decide) packed (congrArg Prod.snd left) (by decide) packed

theorem laterCall_runs :
    (getDrepInfo fourIds .single 5120 (some nameCached) [scriptDrep, keyDrep, bareDrep]).Runs
      (askedAbout [scriptDrep, keyDrep, bareDrep] [scriptDrep, bareDrep])
      (.ok [otherScript, namedKey, otherScript]) := by
  have packed : packBySize [scriptDrep, keyDrep, bareDrep] drepIdsBody 5120 =
      .ok [[scriptDrep, keyDrep, bareDrep]] := by decide
  have packed' : packBySize [scriptDrep, bareDrep] drepIdsBody 5120 = .ok [[scriptDrep, bareDrep]] := by
    decide
  have left : peekMetadata fourIds (some nameCached) [scriptDrep, keyDrep, bareDrep] =
      (KeyedMap.empty.set zeroHash keyFields, [scriptDrep, bareDrep]) := by
    have unknown : (some nameCached).bind (fun view => view.metadata fullHash) = none := by
      simp [nameCached, hashes_apart.symm]
    have known : (some nameCached).bind (fun view => view.metadata zeroHash) = some keyFields := by
      simp [nameCached]
    rw [peekMetadata, List.foldl_cons, peekId_missing scriptDrep_decoded.2 unknown, List.foldl_cons,
      peekId_hit keyDrep_decoded.2 known, List.foldl_cons, peekId_missing bareDrep_decoded.2 unknown]
    rfl
  have documents : documentsAbout [scriptDrep, bareDrep] = [] := by
    simp [documentsAbout, scriptDrep_credential, bareDrep_credential, hashes_apart.symm]
  have joined : joinRows fourIds [scriptDrep, keyDrep, bareDrep]
      (.ofEntries ((rowsAbout [scriptDrep, keyDrep, bareDrep]).map fun row => (row.hex.toLower, row)))
      ((peekMetadata fourIds (some nameCached) [scriptDrep, keyDrep, bareDrep]).1.setAll
        (metadataEntries fourIds (documentsAbout [scriptDrep, bareDrep]))) =
      [otherScript, namedKey, otherScript] := by
    rw [rowsAbout_two (by simp) (by simp) (by simp), left, documents]
    change joinRows fourIds [scriptDrep, keyDrep, bareDrep] twoRows keyName = _
    rw [joinRows, List.filterMap_cons_some (answerFor_script scriptDrep_decoded.2),
      List.filterMap_cons_some (answerFor_key keyDrep_decoded.2),
      List.filterMap_cons_some (answerFor_script bareDrep_decoded.2), List.filterMap_nil]
  rw [← joined]
  exact drepInfoByIds_lone () () (by decide) packed (congrArg Prod.snd left) (by decide) packed'

/-- Two calls that share the cache. -/
def session : List (DrepCall Unit fourIds .single) :=
  [⟨5120, [keyDrep, bareDrep], none, _, _, firstCall_runs⟩,
    ⟨5120, [scriptDrep, keyDrep, bareDrep], some nameCached, _, _, laterCall_runs⟩]

theorem session_honest : HonestCalls fourDreps session := by
  intro call member
  obtain rfl | rfl := List.mem_pair.mp member
  · exact askedAbout_honest _ _
  · exact askedAbout_honest _ _

/-- The name in the cache is the one that the first call has read. -/
theorem session_written : CacheWritten session := by
  intro call member view cached hex fields found
  obtain rfl | rfl := List.mem_pair.mp member
  · cases cached
  · cases cached
    obtain ⟨rfl, same⟩ := Option.ite_none_right_eq_some.mp found
    cases same
    refine ⟨_, List.mem_cons_self, (), [keyDrep, bareDrep], _, List.mem_cons_of_mem _ List.mem_cons_self, ?_⟩
    rw [documentsAbout_key List.mem_cons_self, keyEntries_four]
    exact List.mem_cons_self

theorem session_clear : ¬ Clash fourDreps fourIds (allIds session) fun _ => True := by
  have kinds : ∀ id ∈ allIds session, ∀ c, fourDreps.credentialOf fourIds id = some c →
      c = ⟨zeroHash, false⟩ ∨ c = ⟨fullHash, true⟩ := by
    intro id member c names
    have one : id = keyDrep ∨ id = bareDrep ∨ id = scriptDrep := by
      simp [allIds, session] at member
      tauto
    obtain rfl | rfl | rfl := one
    · exact .inl (Option.some.inj (names.symm.trans keyDrep_credential))
    · exact .inr (Option.some.inj (names.symm.trans bareDrep_credential))
    · exact .inr (Option.some.inj (names.symm.trans scriptDrep_credential))
  rintro ⟨a, inA, b, inB, c, c', namesA, namesB, same, different, -⟩
  obtain rfl | rfl := kinds a inA c namesA <;> obtain rfl | rfl := kinds b inB c' namesB
  · exact different rfl
  · exact hashes_apart same
  · exact hashes_apart same.symm
  · exact different rfl

/-- Both calls answer each id with its own row and its own name, whichever form the id has. -/
theorem drepAnswers_own_session :
    Answers (fun id drep => OwnRow fourDreps fourIds id drep ∧ OwnNames fourDreps fourIds id drep)
        [keyDrep, bareDrep] [namedKey, otherScript] ∧
      Answers (fun id drep => OwnRow fourDreps fourIds id drep ∧ OwnNames fourDreps fourIds id drep)
        [scriptDrep, keyDrep, bareDrep] [otherScript, namedKey, otherScript] := by
  have own := (drepAnswers_own fourIds .single fourDreps session session_honest session_written).1
    session_clear
  exact ⟨own _ List.mem_cons_self _ rfl, own _ (List.mem_cons_of_mem _ List.mem_cons_self) _ rfl⟩

end OneHash

end WalletBackend.Koios.Governance
