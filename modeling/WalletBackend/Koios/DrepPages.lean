import WalletBackend.Cache.Typed
import WalletBackend.Domain.KnownBech32
import WalletBackend.Koios.Governance
import WalletBackend.Koios.MetadataLoads
import WalletBackend.Koios.Packing
import WalletBackend.Koios.StaticState
import WalletBackend.Library.Hex

/-! A page of the DRep list is the same whether it is cut from the whole membership, which a
cache keeps, or from as much of it as the page takes. -/
namespace WalletBackend.Koios

section StaticScan
open Interaction CursorPaging

variable {Row Id Out : Type} [DecidableEq Id] {list : ScannedList Row Id Out} {rows rest : List Row}
  {after : Option Id}

/-- What comes after the row of the cursor, in the order of the list. -/
def rowsAfter (id : Row → Id) (after : Option Id) (rows : List Row) : List Row :=
  match after with
  | none => rows
  | some cursor => (rows.dropWhile fun row => id row ≠ cursor).tail

/-- The cursor is the last row of a front of the list. -/
theorem rowsAfter_append {id : Row → Id} {front : List Row} {last : Row}
    (nodup : (rows.map id).Nodup) (split : rows = front ++ rest) (ends : front.getLast? = some last) :
    rowsAfter id (some (id last)) rows = rest := by
  obtain ⟨before, rfl⟩ := List.getLast?_eq_some_iff.mp ends
  subst split
  rw [rowsAfter, List.append_assoc, List.dropWhile_append_of_pos]
  · simp
  · intro row member
    rw [List.append_assoc, List.map_append, List.nodup_append] at nodup
    have other := nodup.2.2 (id row) (List.mem_map_of_mem member) (id last) (by simp)
    simpa using other

/-- The pages of a list that does not change. -/
def ServesList (list : ScannedList Row Id Out) (rows : List Row)
    (up : (request : ListRequest Id) → ListAnswer Row Id request) : Prop :=
  ∀ limit after, up ⟨list.path, limit, after⟩ = .ok ((rowsAfter list.id after rows).take limit)

/-- As much of the whole as was needed. -/
def Enough (needed : Option Nat) (whole part : List Out) : Prop :=
  part <+: whole ∧ (part = whole ∨ ∃ n ∈ needed, n ≤ part.length)

theorem getRows_gives {attempts : ReadAttempts} {up : (request : ListRequest Id) → ListAnswer Row Id request}
    (serves : ServesList list rows up) (limit : Nat) (after : Option Id)
    (outcome : Except Failure (List Row)) :
    Async.Gives up (getRows attempts ⟨list.path, limit, after⟩) outcome ↔
      outcome = .ok ((rowsAfter list.id after rows).take limit) := by
  refine read_gives (fun result => ?_) outcome
  rw [Async.gives_bind_of fun _ => Async.gives_ask, serves]
  exact Async.gives_ofExcept

/-- A scan of a list that its permitted pages cover returns enough of what it keeps. -/
theorem scan_enough {attempts : ReadAttempts} {needed : Option Nat} {more : Nat} {front : List Row}
    {found : List Out} {up : (request : ListRequest Id) → ListAnswer Row Id request}
    (positive : 0 < list.pageSize) (nodup : (rows.map list.id).Nodup) (serves : ServesList list rows up)
    (split : rows = front ++ rest) (cursor : rowsAfter list.id after rows = rest)
    (read : found = front.filterMap list.kept) (bound : rest.length ≤ more * list.pageSize)
    {outcome : Except Failure (List Out)}
    (gives : Async.Gives up (list.scan attempts needed more after found) outcome) :
    ∃ part, outcome = .ok part ∧ Enough needed (rows.filterMap list.kept) part := by
  induction more generalizing after found front rest with
  | zero =>
    obtain rfl : rest = [] := List.length_eq_zero_iff.mp (by omega)
    rw [ScannedList.scan, Async.gives_bind_of (getRows_gives serves 1 after), cursor] at gives
    refine ⟨found, Async.gives_pure.mp gives, ?_⟩
    rw [split, List.append_nil, read]
    exact ⟨List.prefix_refl _, .inl rfl⟩
  | succ more ih =>
    rw [ScannedList.scan, Async.gives_bind_of (getRows_gives serves list.pageSize after), cursor] at gives
    have cut : rows = (front ++ rest.take list.pageSize) ++ rest.drop list.pageSize := by
      rw [split, List.append_assoc, List.take_append_drop]
    have known : found ++ (rest.take list.pageSize).filterMap list.kept =
        (front ++ rest.take list.pageSize).filterMap list.kept := by
      rw [read, List.filterMap_append]
    dsimp only at gives
    by_cases short : (rest.take list.pageSize).length < list.pageSize
    · rw [if_pos short] at gives
      refine ⟨_, Async.gives_pure.mp gives, ?_⟩
      rw [List.length_take] at short
      rw [List.take_of_length_le (by omega), read, ← List.filterMap_append, ← split]
      exact ⟨List.prefix_refl _, .inl rfl⟩
    · rw [if_neg short] at gives
      obtain ⟨last, ends⟩ := full_page positive short
      simp only [ends] at gives
      by_cases done : needed.any (· ≤ (found ++ (rest.take list.pageSize).filterMap list.kept).length)
      · rw [if_pos done] at gives
        refine ⟨_, Async.gives_pure.mp gives, ?_, .inr ?_⟩
        · rw [known]
          conv_rhs => rw [cut, List.filterMap_append]
          exact List.prefix_append _ _
        · simpa [Option.any_eq_true] using done
      · rw [if_neg done] at gives
        refine ih cut ?_ known ?_ gives
        · refine rowsAfter_append nodup cut ?_
          rw [List.getLast?_append, ends]
          rfl
        · rw [List.length_drop, Nat.succ_mul] at *
          omega

end StaticScan

namespace Governance
open Interaction Containers

/-- The DReps as the upstream lists them. -/
structure DrepRegistry where
  rows : List (DrepListRow String)
  distinct : (rows.map DrepListRow.drep_id).Nodup
  covered : rows.length ≤ DREP_LIST_MAX_PAGES * DREP_LIST_PAGE_SIZE

def DrepRegistry.registered (registry : DrepRegistry) : List String :=
  registry.rows.filterMap drepList.kept

/-- An upstream whose list of DReps is the registry. -/
def Lists {bech32 : Bech32} (registry : DrepRegistry)
    (up : (request : Request) → request.Answer bech32) : Prop :=
  ServesList drepList registry.rows fun request => up (.list request)

/-- What a cache hands out of the membership was read from the registry. -/
def CacheView.Membership (registry : DrepRegistry) (view : CacheView) : Prop :=
  (∀ handed ∈ view.membership, handed = .ok registry.registered)

section Membership

variable {bech32 : Bech32} {attempts : ReadAttempts} {registry : DrepRegistry}
  {up : (request : Request) → request.Answer bech32} {params : DrepListParams}
  {outcome : Except Failure (List String)}

theorem scanRegistered_enough (lists : Lists registry up) {needed : Option Nat}
    (gives : Async.Gives up (scanRegistered bech32 attempts needed) outcome) :
    ∃ part, outcome = .ok part ∧ Enough needed registry.registered part := by
  have start : rowsAfter (@drepList String).id none registry.rows = registry.rows := rfl
  have scanned := (Async.gives_relay Request.list fun _ => id).mp gives
  exact scan_enough (show 0 < DREP_LIST_PAGE_SIZE by decide) registry.distinct lists
    (List.nil_append _).symm start rfl registry.covered scanned

/-- A page is cut alike from the whole and from enough of it. -/
theorem pageOf_enough {whole part : List String}
    (enough : Enough (some (params.offset + params.limit)) whole part) :
    pageOf params part = pageOf params whole := by
  obtain ⟨⟨rest, split⟩, same | ⟨n, same, upTo⟩⟩ := enough
  · rw [same]
  · cases same
    rw [← split]
    rw [pageOf, pageOf, List.take_append_of_le_length upTo]

/-- With a cache and without one, the page is of the ids that are registered. -/
theorem membership_page (lists : Lists registry up) {cache : Option CacheView}
    (read : ∀ view ∈ cache, view.Membership registry)
    (gives : Async.Gives up (membership bech32 attempts cache params) outcome) :
    ∃ ids, outcome = .ok ids ∧ pageOf params ids = pageOf params registry.registered := by
  cases cache with
  | none =>
    obtain ⟨part, same, enough⟩ := scanRegistered_enough lists gives
    exact ⟨part, same, pageOf_enough enough⟩
  | some view =>
    have handed := read view rfl
    unfold membership at gives
    cases known : view.membership with
    | some membership =>
      simp only [known] at gives
      exact ⟨_, (Async.gives_ofExcept.mp gives).trans (handed _ known), rfl⟩
    | none =>
      simp only [known] at gives
      have quiet (e : Failure) :
          ¬ Async.Gives up (scanRegistered bech32 attempts none) (.error e) := by
        intro failed
        obtain ⟨part, same, -⟩ := scanRegistered_enough lists failed
        cases same
      obtain ⟨part, same, -, whole | ⟨n, none, -⟩⟩ :=
        scanRegistered_enough lists (Async.gives_tryCatch_quiet quiet gives)
      · exact ⟨part, same, congrArg _ whole⟩
      · cases none

end Membership

section Hydration

variable {bech32 : Bech32} {attempts : ReadAttempts} {bodyLimit : Nat} {cache : Option CacheView}
  {up : (request : Request) → request.Answer bech32} {drepIds : List String}

theorem loadMetadata_quiet {byHex : KeyedMap String DrepMetaFields} {chunks : List (List String)}
    (e : Failure) : ¬ Async.Gives up (loadMetadata bech32 attempts byHex chunks) (.error e) := by
  induction chunks generalizing byHex with
  | nil => exact fun failed => nomatch Async.gives_pure.mp failed
  | cons chunk chunks ih =>
    intro failed
    obtain ⟨rows, -, later⟩ | ⟨e', caught, -⟩ := Async.gives_bind.mp failed
    · exact ih later
    · exact Async.quiet_tryCatch (fun _ _ recovered => nomatch Async.gives_pure.mp recovered) e' caught

/-- Where the ids can be packed at all, the names cannot fail the call. -/
theorem drepMetadataByHex_quiet {chunks : List (List String)}
    (packed : packBySize drepIds drepIdsBody bodyLimit = .ok chunks) (e : Failure) :
    ¬ Async.Gives up (drepMetadataByHex bech32 attempts bodyLimit cache drepIds) (.error e) := by
  intro failed
  unfold drepMetadataByHex at failed
  dsimp only at failed
  split at failed
  · exact nomatch Async.gives_pure.mp failed
  · obtain ⟨chunks', missing⟩ := packBySize_fits fun id member =>
      BodyBuilder.fits_iff.mpr (packBySize_all_fit packed id (peekMetadata_missing member))
    rw [missing] at failed
    obtain ⟨_, -, later⟩ | ⟨_, same, -⟩ := Async.gives_bind.mp failed
    · exact loadMetadata_quiet e later
    · cases Async.gives_ofExcept.mp same

/-- Ids that cannot be packed fail the call at once. -/
theorem drepInfoByHex_unpacked (some : drepIds.length ≠ 0) {e : Failure}
    (refused : packBySize drepIds drepIdsBody bodyLimit = .error e) :
    drepInfoByHex bech32 attempts bodyLimit drepIds = .settled (.error e) := by
  obtain ⟨message, rfl⟩ := packBySize_error refused
  unfold drepInfoByHex batchAll
  rw [if_neg some, packAdaptively, sendPacked, refused]
  rfl

theorem drepInfoByIds_gives (some : drepIds.length ≠ 0) {chunks : List (List String)}
    (packed : packBySize drepIds drepIdsBody bodyLimit = .ok chunks)
    {outcome : Except Failure (List DrepInfo)} :
    Async.Gives up (drepInfoByIds bech32 attempts bodyLimit cache drepIds) outcome ↔
      (∃ infoByHex metaByHex,
        Async.Gives up (drepInfoByHex bech32 attempts bodyLimit drepIds) (.ok infoByHex) ∧
        Async.Gives up (drepMetadataByHex bech32 attempts bodyLimit cache drepIds) (.ok metaByHex) ∧
        outcome = .ok (joinRows bech32 drepIds infoByHex metaByHex)) ∨
      ∃ e, Async.Gives up (drepInfoByHex bech32 attempts bodyLimit drepIds) (.error e) ∧
        outcome = .error e := by
  rw [drepInfoByIds, if_neg some, Async.gives_bind]
  simp only [Async.gives_both_quiet (drepMetadataByHex_quiet packed)]
  constructor
  · rintro (⟨_, ⟨infoByHex, metaByHex, left, right, same⟩ | ⟨_, -, same⟩, tail⟩ |
      ⟨e, ⟨_, _, -, -, same⟩ | ⟨_, left, same⟩, failed⟩)
    · cases same
      exact .inl ⟨infoByHex, metaByHex, left, right, Async.gives_pure.mp tail⟩
    · cases same
    · cases same
    · cases same
      exact .inr ⟨e, left, failed.symm⟩
  · rintro (⟨infoByHex, metaByHex, left, right, rfl⟩ | ⟨e, left, rfl⟩)
    · exact .inl ⟨_, .inl ⟨infoByHex, metaByHex, left, right, rfl⟩, Async.gives_pure.mpr rfl⟩
    · exact .inr ⟨e, .inr ⟨e, left, rfl⟩, rfl⟩

/-- Without their names, the rows do not depend on which names were found. -/
theorem joinRows_onChain (infoByHex : KeyedMap String (DrepInfoRow bech32))
    (metaByHex metaByHex' : KeyedMap String DrepMetaFields) :
    (joinRows bech32 drepIds infoByHex metaByHex).map DrepInfo.onChain =
      (joinRows bech32 drepIds infoByHex metaByHex').map DrepInfo.onChain := by
  rw [joinRows, joinRows, List.map_filterMap, List.map_filterMap]
  refine List.filterMap_congr fun id _ => ?_
  unfold answerFor
  cases drepCredentialHex bech32 id with
  | none => rfl
  | some hex =>
    cases found : infoByHex.get? hex with
    | none => simp [found]
    | some row => simp [found, withFields, DrepInfo.onChain]

/-- What the chain says in an answer. -/
def onChain (outcome : Except Failure (List DrepInfo)) : Except Failure (List DrepInfo) :=
  outcome.map (List.map DrepInfo.onChain)

/-- What a cache knows of names does not change which rows are returned. -/
theorem drepInfoByIds_onChain (cache' : Option CacheView) {outcome : Except Failure (List DrepInfo)}
    (gives : Async.Gives up (drepInfoByIds bech32 attempts bodyLimit cache drepIds) outcome) :
    ∃ outcome', Async.Gives up (drepInfoByIds bech32 attempts bodyLimit cache' drepIds) outcome' ∧
      onChain outcome' = onChain outcome := by
  by_cases none : drepIds.length = 0
  · simp only [drepInfoByIds, if_pos none] at gives ⊢
    exact ⟨outcome, gives, rfl⟩
  · cases packed : packBySize drepIds drepIdsBody bodyLimit with
    | error e =>
      refine ⟨outcome, ?_, rfl⟩
      simp only [drepInfoByIds, if_neg none, drepInfoByHex_unpacked none packed] at gives ⊢
      exact gives
    | ok chunks =>
      obtain ⟨infoByHex, metaByHex, left, -, rfl⟩ | ⟨e, failed, rfl⟩ :=
        (drepInfoByIds_gives none packed).mp gives
      · obtain ⟨result, right⟩ := Async.exists_gives up
          (drepMetadataByHex bech32 attempts bodyLimit cache' drepIds)
        cases result with
        | error e => exact absurd right (drepMetadataByHex_quiet packed e)
        | ok metaByHex' =>
          refine ⟨_, (drepInfoByIds_gives none packed).mpr (.inl ⟨infoByHex, metaByHex', left, right, rfl⟩),
            ?_⟩
          exact congrArg Except.ok (joinRows_onChain _ _ _)
      · exact ⟨_, (drepInfoByIds_gives none packed).mpr (.inr ⟨e, failed, rfl⟩), rfl⟩

/-- Ids that one body holds are read by one request, and those without a known name by another. -/
theorem drepInfoByIds_lone {T : Type} {missing : List String} {infos : List (DrepInfoRow bech32)}
    {documents : List DrepMetadataRow} (t t' : T) (some : drepIds.length ≠ 0)
    (packed : packBySize drepIds drepIdsBody bodyLimit = .ok [drepIds])
    (left : (peekMetadata bech32 cache drepIds).2 = missing) (some' : missing.length ≠ 0)
    (packed' : packBySize missing drepIdsBody bodyLimit = .ok [missing]) :
    (drepInfoByIds bech32 .single bodyLimit cache drepIds).Runs
      [⟨t, .info drepIds, .ok infos⟩, ⟨t', .metadata missing, .ok documents⟩]
      (.ok (joinRows bech32 drepIds (.ofEntries (infos.map fun row => (row.hex.toLower, row)))
        ((peekMetadata bech32 cache drepIds).1.setAll (metadataEntries bech32 documents)))) := by
  have rows : (drepInfoByHex bech32 .single bodyLimit drepIds).Runs [⟨t, .info drepIds, .ok infos⟩]
      (.ok (.ofEntries (infos.map fun row => (row.hex.toLower, row)))) := by
    refine Async.runs_bind_ok.mpr ⟨[_], [], infos, rfl, batchAll_lone some packed ?_, rfl, rfl⟩
    exact ⟨t, _, [], rfl, rfl, rfl⟩
  have names : (drepMetadataByHex bech32 .single bodyLimit cache drepIds).Runs
      [⟨t', .metadata missing, .ok documents⟩]
      (.ok ((peekMetadata bech32 cache drepIds).1.setAll (metadataEntries bech32 documents))) := by
    unfold drepMetadataByHex
    dsimp only
    rw [left, if_neg some']
    refine Async.runs_bind_ok.mpr ⟨[], [_], [missing], rfl, ⟨rfl, packed'⟩, ?_⟩
    refine Async.runs_bind_ok.mpr ⟨[_], [], documents, rfl, Async.runs_tryCatch.mpr (.inl ?_), rfl, rfl⟩
    exact ⟨documents, ⟨t', _, [], rfl, rfl, rfl⟩, rfl⟩
  rw [drepInfoByIds, if_neg some]
  exact Async.runs_bind_ok.mpr ⟨[_, _], [], _, rfl, Async.runs_both rows names, rfl, rfl⟩

end Hydration

section Names

variable {bech32 : Bech32} {attempts : ReadAttempts} {bodyLimit : Nat} {cache : Option CacheView}
  {up : (request : Request) → request.Answer bech32} {drepIds : List String}
  {offChain : String → Option DrepMetaFields}

/-- An upstream that answers for the names of those it is asked about. -/
def TellsNames (bech32 : Bech32) (offChain : String → Option DrepMetaFields)
    (up : (request : Request) → request.Answer bech32) : Prop :=
  ∀ chunk, ∃ rows, up (.metadata chunk) = .ok rows ∧
    (∀ entry ∈ metadataEntries bech32 rows, offChain entry.1 = some entry.2) ∧
    ∀ id ∈ chunk, ∀ hex, drepCredentialHex bech32 id = some hex → (offChain hex).isSome →
      ∃ entry ∈ metadataEntries bech32 rows, entry.1 = hex

/-- The names that a cache holds are those that the upstream tells. -/
def CacheView.Names (offChain : String → Option DrepMetaFields) (view : CacheView) : Prop :=
  ∀ hex fields, view.metadata hex = some fields → offChain hex = some fields

/-- The names are those that the upstream tells. -/
def Told (offChain : String → Option DrepMetaFields) (byHex : KeyedMap String DrepMetaFields) : Prop :=
  ∀ hex fields, byHex.get? hex = some fields → offChain hex = some fields

theorem Told.setAll {byHex : KeyedMap String DrepMetaFields} {entries : List (String × DrepMetaFields)}
    (told : Told offChain byHex) (entriesTold : ∀ entry ∈ entries, offChain entry.1 = some entry.2) :
    Told offChain (byHex.setAll entries) := by
  intro hex fields found
  obtain written | before := KeyedMap.get?_setAll_some found
  · exact entriesTold _ written
  · exact told hex fields before

theorem batch_metadata_gives {chunk : List String} {rows : List DrepMetadataRow}
    (answered : up (.metadata chunk) = .ok rows) (outcome : Except Failure (List DrepMetadataRow)) :
    Async.Gives up (batch bech32 attempts (.metadata chunk)) outcome ↔ outcome = .ok rows := by
  refine read_gives (fun result => ?_) outcome
  rw [Async.gives_bind_of fun _ => Async.gives_ask, answered]
  exact Async.gives_ofExcept

/-- The loop finds the names of all that it asks about, and loses none. -/
theorem loadMetadata_told (tells : TellsNames bech32 offChain up)
    {byHex metaByHex : KeyedMap String DrepMetaFields} {chunks : List (List String)}
    (told : Told offChain byHex)
    (gives : Async.Gives up (loadMetadata bech32 attempts byHex chunks) (.ok metaByHex)) :
    Told offChain metaByHex ∧
      (∀ hex, (byHex.get? hex).isSome → (metaByHex.get? hex).isSome) ∧
      ∀ chunk ∈ chunks, ∀ id ∈ chunk, ∀ hex, drepCredentialHex bech32 id = some hex →
        (offChain hex).isSome → (metaByHex.get? hex).isSome := by
  induction chunks generalizing byHex with
  | nil =>
    cases Async.gives_pure.mp gives
    exact ⟨told, fun _ known => known, nofun⟩
  | cons chunk chunks ih =>
    obtain ⟨rows, answered, right, complete⟩ := tells chunk
    rw [loadMetadata, Async.gives_bind_of fun _ =>
      Async.gives_tryCatch_of (batch_metadata_gives answered)] at gives
    obtain ⟨all, kept, found⟩ := ih (told.setAll right) gives
    have grown (hex : String) (known : (byHex.get? hex).isSome) :
        ((byHex.setAll (metadataEntries bech32 rows)).get? hex).isSome := by
      rw [KeyedMap.get?_setAll, Option.isSome_or, known, Bool.or_true]
    refine ⟨all, fun hex known => kept hex (grown hex known), ?_⟩
    intro chunk' member id inside hex credential some
    obtain rfl | member := List.mem_cons.mp member
    · obtain ⟨fields, there⟩ := KeyedMap.get?_setAll_isSome (m := byHex)
        (complete id inside hex credential some)
      exact kept hex (Option.isSome_iff_exists.mpr ⟨fields, there⟩)
    · exact found chunk' member id inside hex credential some

/-- Of each id, what the upstream tells of its name is found. -/
theorem drepMetadataByHex_told (tells : TellsNames bech32 offChain up)
    (names : ∀ view ∈ cache, view.Names offChain) {metaByHex : KeyedMap String DrepMetaFields}
    (gives : Async.Gives up (drepMetadataByHex bech32 attempts bodyLimit cache drepIds) (.ok metaByHex))
    {id hex : String} (member : id ∈ drepIds) (credential : drepCredentialHex bech32 id = some hex) :
    metaByHex.get? hex = offChain hex := by
  have hits : Told offChain (peekMetadata bech32 cache drepIds).1 := by
    intro hex fields found
    obtain ⟨view, there, hit⟩ := Option.bind_eq_some_iff.mp (peekMetadata_hit found)
    exact names view there hex fields hit
  have covered : ((peekMetadata bech32 cache drepIds).1.get? hex).isSome ∨ _ :=
    peekMetadata_covers member credential
  have enough : Told offChain metaByHex ∧ ((offChain hex).isSome → (metaByHex.get? hex).isSome) := by
    unfold drepMetadataByHex at gives
    dsimp only at gives
    split at gives
    case isTrue none =>
      cases Async.gives_pure.mp gives
      rw [List.length_eq_zero_iff.mp none] at covered
      exact ⟨hits, fun _ => covered.resolve_right List.not_mem_nil⟩
    case isFalse =>
      obtain ⟨chunks, packed, loaded⟩ | ⟨_, -, same⟩ := Async.gives_bind.mp gives
      · obtain ⟨all, kept, found⟩ := loadMetadata_told tells hits loaded
        refine ⟨all, fun some => ?_⟩
        obtain hit | missing := covered
        · exact kept hex hit
        · rw [← packBySize_flatten (Async.gives_ofExcept.mp packed).symm] at missing
          obtain ⟨chunk, there, inside⟩ := List.mem_flatten.mp missing
          exact found chunk there id inside hex credential some
      · cases same
  cases found : metaByHex.get? hex with
  | some fields => exact (enough.1 hex fields found).symm
  | none =>
    cases told : offChain hex with
    | none => rfl
    | some fields =>
      have there := enough.2 (by rw [told]; rfl)
      rw [found] at there
      cases there

/-- Rows are joined alike with whatever was found, where it was what the upstream tells. -/
theorem joinRows_congr {infoByHex : KeyedMap String (DrepInfoRow bech32)}
    {metaByHex metaByHex' : KeyedMap String DrepMetaFields}
    (same : ∀ id ∈ drepIds, ∀ hex, drepCredentialHex bech32 id = some hex →
      metaByHex.get? hex = metaByHex'.get? hex) :
    joinRows bech32 drepIds infoByHex metaByHex = joinRows bech32 drepIds infoByHex metaByHex' := by
  refine List.filterMap_congr fun id member => ?_
  unfold answerFor
  cases credential : drepCredentialHex bech32 id with
  | none => rfl
  | some hex =>
    simp only [Option.bind_eq_bind, Option.bind_some, same id member hex credential]

/-- Where the upstream tells the names, a cache of them changes nothing. -/
theorem drepInfoByIds_cached (tells : TellsNames bech32 offChain up)
    (names : ∀ view ∈ cache, view.Names offChain) (cache' : Option CacheView)
    (names' : ∀ view ∈ cache', view.Names offChain) {outcome : Except Failure (List DrepInfo)}
    (gives : Async.Gives up (drepInfoByIds bech32 attempts bodyLimit cache drepIds) outcome) :
    Async.Gives up (drepInfoByIds bech32 attempts bodyLimit cache' drepIds) outcome := by
  by_cases none : drepIds.length = 0
  · simp only [drepInfoByIds, if_pos none] at gives ⊢
    exact gives
  · cases packed : packBySize drepIds drepIdsBody bodyLimit with
    | error e =>
      simp only [drepInfoByIds, if_neg none, drepInfoByHex_unpacked none packed] at gives ⊢
      exact gives
    | ok chunks =>
      obtain ⟨infoByHex, metaByHex, left, right, rfl⟩ | ⟨e, failed, rfl⟩ :=
        (drepInfoByIds_gives none packed).mp gives
      · obtain ⟨result, right'⟩ := Async.exists_gives up
          (drepMetadataByHex bech32 attempts bodyLimit cache' drepIds)
        cases result with
        | error e => exact absurd right' (drepMetadataByHex_quiet packed e)
        | ok metaByHex' =>
          refine (drepInfoByIds_gives none packed).mpr (.inl ⟨infoByHex, metaByHex', left, right', ?_⟩)
          refine congrArg Except.ok (joinRows_congr fun id member hex credential => ?_)
          rw [drepMetadataByHex_told tells names right member credential,
            drepMetadataByHex_told tells names' right' member credential]
      · exact (drepInfoByIds_gives none packed).mpr (.inr ⟨e, failed, rfl⟩)

end Names

section Stored
open Cache

def DREP_MEMBERSHIP_KEY : String := "gov:drep-membership"

/-- What the governance reads keep in the cache. -/
inductive Stored where
  | membership (drepIds : List String)
  | metadata (fields : DrepMetaFields)

/-- A value under a key of the governance reads is what the upstream tells. -/
def Fits (registry : DrepRegistry) (offChain : String → Option DrepMetaFields) (key : String)
    (value : Stored) : Prop :=
  (key = DREP_MEMBERSHIP_KEY → value = .membership registry.registered) ∧
    ∀ hex, key = MetadataKind.drep.key hex → ∃ fields, value = .metadata fields ∧
      offChain hex = some fields

/-- A load of the membership is a scan, and names are written from the rows of a batch. -/
def Writes (bech32 : Bech32) (attempts : ReadAttempts) (up : (request : Request) → request.Answer bech32)
    (cache : MemoryCache Stored Failure Unit) : Event Stored Failure Unit → Prop
  | .answer id result => ∀ attempt, cache.attempts id = some attempt →
      attempt.key = DREP_MEMBERSHIP_KEY ∧
        ∃ ids, Async.Gives up (scanRegistered bech32 attempts none) ids ∧
          result = ids.map Stored.membership
  | .setIfGeneration key value _ _ => ∃ chunk rows, up (.metadata chunk) = .ok rows ∧
      ∃ entry ∈ metadataEntries bech32 rows,
        key = MetadataKind.drep.key entry.1 ∧ value = .metadata entry.2
  | .set .. => False
  | _ => True

/-- What a call is handed by the cache: the membership when it reads it, the names later. -/
def viewOf (atRead atPeek : MemoryCache Stored Failure Unit) : CacheView where
  membership := (atRead.peek DREP_MEMBERSHIP_KEY).bind fun
    | .membership ids => some (.ok ids)
    | .metadata _ => none
  stale := none
  metadata hex := (atPeek.peek (MetadataKind.drep.key hex)).bind fun
    | .metadata fields => some fields
    | .membership _ => none

variable {bech32 : Bech32} {attempts : ReadAttempts} {registry : DrepRegistry}
  {offChain : String → Option DrepMetaFields} {up : (request : Request) → request.Answer bech32}
  {cache : MemoryCache Stored Failure Unit}

theorem metadataKey_eq (hex : String) : MetadataKind.drep.key hex = "gov:drep-meta:" ++ hex := rfl

theorem membershipKey_ne (hex : String) : DREP_MEMBERSHIP_KEY ≠ MetadataKind.drep.key hex := by
  intro same
  rw [metadataKey_eq] at same
  have chars := congrArg (fun key : String => key.toList[11]?) same
  simp [DREP_MEMBERSHIP_KEY, String.toList_append] at chars

theorem metadataKey_injective {hex hex' : String}
    (same : MetadataKind.drep.key hex = MetadataKind.drep.key hex') : hex = hex' := by
  rw [metadataKey_eq, metadataKey_eq] at same
  exact (String.append_right_inj _).mp same

/-- What the service writes fits. -/
theorem Writes.brings (lists : Lists registry up) (tells : TellsNames bech32 offChain up)
    {event : Event Stored Failure Unit} (writes : Writes bech32 attempts up cache event) :
    cache.Brings (Fits registry offChain) (fun _ _ _ => True) event := by
  cases event with
  | answer id result =>
    cases result with
    | error e => exact trivial
    | ok value =>
      intro attempt known
      obtain ⟨isMembership, ids, scanned, same⟩ := writes attempt known
      obtain ⟨part, rfl, -, whole | ⟨n, none, -⟩⟩ := scanRegistered_enough lists scanned
      · cases same
        refine ⟨fun _ => congrArg Stored.membership whole, fun hex other => ?_⟩
        exact absurd (isMembership.symm.trans other) (membershipKey_ne hex)
      · cases none
  | setIfGeneration key value ttlMs generation =>
    obtain ⟨chunk, rows, answered, entry, member, rfl, rfl⟩ := writes
    obtain ⟨rows', answered', told, -⟩ := tells chunk
    cases answered.symm.trans answered'
    refine ⟨fun other => absurd other.symm (membershipKey_ne entry.1), fun hex same => ?_⟩
    exact ⟨entry.2, rfl, metadataKey_injective same ▸ told entry member⟩
  | set => exact writes.elim
  | _ => trivial

/-- A cache that the service alone has written tells what the upstream does. -/
theorem viewOf_tells (lists : Lists registry up) (tells : TellsNames bech32 offChain up)
    {maxEntries now : Nat} {events later : List (Event Stored Failure Unit)}
    (first : Machine.Along MemoryCache.apply (Writes bech32 attempts up)
      (createMemoryCache maxEntries now) (events ++ later)) :
    (viewOf (Machine.run MemoryCache.apply (createMemoryCache maxEntries now) events)
        (Machine.run MemoryCache.apply (createMemoryCache maxEntries now) (events ++ later))).Membership
        registry ∧
      (viewOf (Machine.run MemoryCache.apply (createMemoryCache maxEntries now) events)
        (Machine.run MemoryCache.apply (createMemoryCache maxEntries now) (events ++ later))).Names
        offChain := by
  have typed {events : List (Event Stored Failure Unit)}
      (along : Machine.Along MemoryCache.apply (Writes bech32 attempts up)
        (createMemoryCache maxEntries now) events) :
      (Machine.run MemoryCache.apply (createMemoryCache maxEntries now) events).Typed
        (Fits registry offChain) fun _ _ _ => True := by
    refine Machine.run_invariant (P := fun cache : MemoryCache Stored Failure Unit =>
      cache.Typed (Fits registry offChain) fun _ _ _ => True) ?_ along (MemoryCache.create_typed _ _)
    exact fun cache event writes typed =>
      typed.effect (MemoryCache.apply_effect cache event) (writes.brings lists tells)
  constructor
  · intro handed known
    obtain ⟨value, found, same⟩ := Option.bind_eq_some_iff.mp known
    have fits := (typed (Machine.along_append.mp first).1).peek found
    rw [fits.1 rfl] at same
    cases same
    rfl
  · intro hex fields known
    obtain ⟨value, found, same⟩ := Option.bind_eq_some_iff.mp known
    obtain ⟨fields', rfl, told⟩ := ((typed first).peek found).2 hex rfl
    cases same
    exact told

end Stored

section Pages

variable {bech32 : Bech32} {attempts : ReadAttempts} {bodyLimit : Nat} {registry : DrepRegistry}
  {up : (request : Request) → request.Answer bech32} {params : DrepListParams}

/-- The ids of a page, hydrated. -/
def hydratePage (bech32 : Bech32) (attempts : ReadAttempts) (bodyLimit : Nat)
    (cache : Option CacheView) (page : List String) : DrepRead bech32 (List DrepInfo) := do
  let hydrated ← drepInfoByIds bech32 attempts bodyLimit cache page
  pure (hydrated.filter fun drep => drep.status = .registered)

theorem getDrepList_gives (lists : Lists registry up) {cache : Option CacheView}
    (read : ∀ view ∈ cache, view.Membership registry) {outcome : Except Failure (List DrepInfo)} :
    Async.Gives up (getDrepList bech32 attempts bodyLimit cache params) outcome ↔
      Async.Gives up (hydratePage bech32 attempts bodyLimit cache (pageOf params registry.registered))
        outcome := by
  refine Async.gives_bind_alike fun result gives => ?_
  obtain ⟨ids, same, page⟩ := membership_page lists read gives
  exact ⟨ids, same, by rw [page]; rfl⟩

/-- What a page drops depends on what the chain says alone. -/
theorem filter_onChain (dreps : List DrepInfo) :
    (dreps.filter fun drep => drep.status = .registered).map DrepInfo.onChain =
      (dreps.map DrepInfo.onChain).filter fun drep => drep.status = .registered := by
  rw [List.filter_map]
  rfl

theorem hydratePage_onChain {page : List String} {cache : Option CacheView} (cache' : Option CacheView)
    {outcome : Except Failure (List DrepInfo)}
    (gives : Async.Gives up (hydratePage bech32 attempts bodyLimit cache page) outcome) :
    ∃ outcome', Async.Gives up (hydratePage bech32 attempts bodyLimit cache' page) outcome' ∧
      onChain outcome' = onChain outcome := by
  obtain ⟨dreps, first, rest⟩ | ⟨e, failed, rfl⟩ := Async.gives_bind.mp gives
  · obtain ⟨outcome', first', same⟩ := drepInfoByIds_onChain cache' first
    cases outcome' with
    | error e => cases same
    | ok dreps' =>
      cases Async.gives_pure.mp rest
      refine ⟨_, Async.gives_bind.mpr (.inl ⟨dreps', first', Async.gives_pure.mpr rfl⟩), ?_⟩
      have inner : dreps'.map DrepInfo.onChain = dreps.map DrepInfo.onChain := Except.ok.inj same
      exact congrArg Except.ok (by rw [filter_onChain, filter_onChain, inner])
  · obtain ⟨outcome', failed', same⟩ := drepInfoByIds_onChain cache' failed
    cases outcome' with
    | ok dreps' => cases same
    | error e' => exact ⟨_, Async.gives_bind.mpr (.inr ⟨e', failed', rfl⟩), same⟩

theorem hydratePage_cached {page : List String} {offChain : String → Option DrepMetaFields}
    (tells : TellsNames bech32 offChain up) {cache cache' : Option CacheView}
    (names : ∀ view ∈ cache, view.Names offChain) (names' : ∀ view ∈ cache', view.Names offChain) :
    Async.SameAnswer up (hydratePage bech32 attempts bodyLimit cache page)
      (hydratePage bech32 attempts bodyLimit cache' page) := by
  have same (result : Except Failure (List DrepInfo)) :
      Async.Gives up (drepInfoByIds bech32 attempts bodyLimit cache page) result ↔
        Async.Gives up (drepInfoByIds bech32 attempts bodyLimit cache' page) result := by
    constructor
    · exact drepInfoByIds_cached tells names cache' names'
    · exact drepInfoByIds_cached tells names' cache names
  intro outcome
  simp only [hydratePage, Async.gives_bind, same]

/-- A page of the DRep list has the same DReps in the same order with a cache and without one,
whatever the registry, the offset and the limit; with their names where the upstream tells
them. -/
theorem getDrepList_cached (bech32 : Bech32) (attempts : ReadAttempts) (bodyLimit : Nat)
    (registry : DrepRegistry) (up : (request : Request) → request.Answer bech32)
    (lists : Lists registry up) (view : CacheView) (read : view.Membership registry)
    (params : DrepListParams) :
    (∀ outcome, Async.Gives up (getDrepList bech32 attempts bodyLimit (some view) params) outcome →
      ∃ outcome', Async.Gives up (getDrepList bech32 attempts bodyLimit none params) outcome' ∧
        onChain outcome' = onChain outcome) ∧
    (∀ outcome, Async.Gives up (getDrepList bech32 attempts bodyLimit none params) outcome →
      ∃ outcome', Async.Gives up (getDrepList bech32 attempts bodyLimit (some view) params) outcome' ∧
        onChain outcome' = onChain outcome) ∧
    ∀ offChain, TellsNames bech32 offChain up → view.Names offChain →
      Async.SameAnswer up (getDrepList bech32 attempts bodyLimit (some view) params)
        (getDrepList bech32 attempts bodyLimit none params) := by
  have cached : ∀ other ∈ some view, other.Membership registry := by
    rintro _ ⟨⟩
    exact read
  have uncached : ∀ other ∈ (none : Option CacheView), other.Membership registry := nofun
  simp only [getDrepList_gives lists cached, getDrepList_gives lists uncached, Async.SameAnswer]
  refine ⟨fun outcome => hydratePage_onChain none, fun outcome => hydratePage_onChain (some view), ?_⟩
  intro offChain tells names
  refine hydratePage_cached tells ?_ nofun
  rintro _ ⟨⟩
  exact names

end Pages

section Example
open Cache

def keyDrep : String := "drep1ygqqqqqqqqqqqqqqqqqqqqqqqqqqqqqqqqqqqqqqqqqqqqq7vlc9n"
def retiredDrep : String := "drep1ygg3zyg3zyg3zyg3zyg3zyg3zyg3zyg3zyg3zyg3zyg3zyg42v5vz"
def scriptDrep : String := "drep1y0llllllllllllllllllllllllllllllllllllllllllllcl5wdc0"

/-- The codec on the three ids. -/
def threeIds : Bech32 := knownBech32 [scriptDrep, retiredDrep, keyDrep]

def zeroHash : String := toHex (List.replicate 28 0)
def fullHash : String := toHex (List.replicate 28 255)

theorem toLower_toHex (bytes : List UInt8) : (toHex bytes).toLower = toHex bytes := by
  rw [← String.toList_inj, toList_toLower, toHex, String.toList_ofList, List.map_flatMap]
  congr 1
  funext byte
  have high : byte.toNat / 16 < 16 := by
    have small := byte.toNat_lt
    omega
  have low : byte.toNat % 16 < 16 := Nat.mod_lt _ (by decide)
  rw [List.map_cons, List.map_singleton, Hex.toLower_digitChar high, Hex.toLower_digitChar low]

theorem zeroHash_toLower : zeroHash.toLower = zeroHash := toLower_toHex _

theorem fullHash_toLower : fullHash.toLower = fullHash := toLower_toHex _

theorem drepBytes_known {known : List String} {id : String} {bytes : List UInt8} (member : id ∈ known)
    (apart : (id.toList.map Char.toLower = id.toList ∧ id.length ≤ BECH32_LIMIT) ∧
      (takeApart id).hrp = "drep" ∧ regroup (takeApart id).words = bytes) :
    drepBytes (knownBech32 known) id = some bytes := by
  obtain ⟨⟨lower, short⟩, part, words⟩ := apart
  rw [drepBytes, decodeUnsafe_of_mem member lower short]
  exact (if_pos part).trans (congrArg some words)

theorem keyDrep_bytes {known : List String} (member : keyDrep ∈ known) :
    drepBytes (knownBech32 known) keyDrep = some (0x22 :: List.replicate 28 0) :=
  drepBytes_known member (by set_option maxRecDepth 4000 in decide)

theorem scriptDrep_bytes {known : List String} (member : scriptDrep ∈ known) :
    drepBytes (knownBech32 known) scriptDrep = some (0x23 :: List.replicate 28 255) :=
  drepBytes_known member (by set_option maxRecDepth 4000 in decide)

theorem keyDrep_hash {known : List String} (member : keyDrep ∈ known) :
    drepCredentialHex (knownBech32 known) keyDrep = some zeroHash.toLower := by
  rw [zeroHash_toLower, drepCredentialHex, keyDrep_bytes member]
  rfl

theorem scriptDrep_hash {known : List String} (member : scriptDrep ∈ known) :
    drepCredentialHex (knownBech32 known) scriptDrep = some fullHash.toLower := by
  rw [fullHash_toLower, drepCredentialHex, scriptDrep_bytes member]
  rfl

theorem keyDrep_agrees : drepCredentialHex threeIds keyDrep = some zeroHash.toLower :=
  keyDrep_hash (by simp)

theorem scriptDrep_agrees : drepCredentialHex threeIds scriptDrep = some fullHash.toLower :=
  scriptDrep_hash (by simp)

/-- One DRep that has retired between two that are registered. -/
def threeDreps : DrepRegistry where
  rows := [⟨scriptDrep, true⟩, ⟨retiredDrep, false⟩, ⟨keyDrep, true⟩]
  distinct := by decide
  covered := by decide

/-- The row of a registered DRep. -/
def infoRow {bech32 : Bech32} (id hash : String) (script : Bool)
    (agrees : drepCredentialHex bech32 id = some hash.toLower) : DrepInfoRow bech32 where
  drep_id := id
  hex := hash
  has_script := script
  drep_status := .registered
  active := true
  deposit := none
  amount := none
  expires_epoch_no := none
  meta_url := none
  meta_hash := none
  agrees := agrees

def keyRow : DrepInfoRow threeIds := infoRow keyDrep zeroHash false keyDrep_agrees

def scriptRow : DrepInfoRow threeIds := infoRow scriptDrep fullHash true scriptDrep_agrees

/-- A document that gives a name. -/
def givenName (name : String) : Json :=
  .object fun key => if key = "body" then
    some (.object fun inner => if inner = "givenName" then some (.string name) else none) else none

def keyFields : DrepMetaFields := ⟨some "Key", none⟩

/-- An upstream that lists the three, and has rows of those registered and a document of one. -/
def servesThree : (request : Request) → request.Answer threeIds
  | .list request => .ok ((rowsAfter DrepListRow.drep_id request.after threeDreps.rows).take request.limit)
  | .info chunk => .ok ((if scriptDrep ∈ chunk then [scriptRow] else []) ++
      if keyDrep ∈ chunk then [keyRow] else [])
  | .metadata chunk => .ok (if chunk.any fun id => drepCredentialHex threeIds id = some zeroHash then
      [⟨keyDrep, some (givenName "Key")⟩] else [])

/-- The names that it tells. -/
def namesThree (hex : String) : Option DrepMetaFields := if hex = zeroHash then some keyFields else none

theorem keyEntries {known : List String} (member : keyDrep ∈ known) :
    metadataEntries (knownBech32 known) [⟨keyDrep, some (givenName "Key")⟩] =
      [(zeroHash, keyFields)] := by
  have told : drepMetaFields (some (givenName "Key")) = keyFields := rfl
  simp [metadataEntries, keyDrep_hash member, zeroHash_toLower, told]

theorem keyEntries_three :
    metadataEntries threeIds [⟨keyDrep, some (givenName "Key")⟩] = [(zeroHash, keyFields)] :=
  keyEntries (by simp)

theorem servesThree_tells : TellsNames threeIds namesThree servesThree := by
  intro chunk
  refine ⟨_, rfl, fun entry member => ?_, fun id asked hex credential known => ?_⟩
  · split at member
    case isTrue =>
      rw [keyEntries_three, List.mem_singleton] at member
      rw [member]
      exact if_pos rfl
    case isFalse => cases member
  · have same : hex = zeroHash := by
      by_contra other
      rw [namesThree, if_neg other] at known
      cases known
    have about : chunk.any fun id => drepCredentialHex threeIds id = some zeroHash :=
      List.any_eq_true.mpr ⟨id, asked, decide_eq_true (credential.trans (congrArg some same))⟩
    rw [if_pos about, keyEntries_three]
    exact ⟨_, List.mem_singleton_self _, same.symm⟩

/-- The membership is loaded through the cache, and after that a name is written to it. -/
def membershipLoad : List (Event Stored Failure Unit) :=
  [.read DREP_MEMBERSHIP_KEY (.ofTtl 300000) () 0, .startLoad 0,
    .answer 0 (.ok (.membership [scriptDrep, keyDrep])), .handle 0, .finish 0]

def nameWrite : List (Event Stored Failure Unit) :=
  [.setIfGeneration (MetadataKind.drep.key zeroHash) (.metadata keyFields) DREP_METADATA_TTL_MS 0]

theorem servesThree_lists : Lists threeDreps servesThree := fun _ _ => rfl

theorem membershipLoad_writes : Machine.Along MemoryCache.apply (Writes threeIds .single servesThree)
    (createMemoryCache 10 0) (membershipLoad ++ nameWrite) := by
  refine ⟨trivial, trivial, fun attempt known => ?_, trivial, trivial, ?_, trivial⟩
  · obtain ⟨ids, gives⟩ := Async.exists_gives servesThree (scanRegistered threeIds .single none)
    obtain ⟨part, rfl, -, whole | ⟨n, none, -⟩⟩ := scanRegistered_enough servesThree_lists gives
    · cases Option.some.inj known
      exact ⟨rfl, _, gives, whole ▸ rfl⟩
    · cases none
  · refine ⟨[keyDrep], _, rfl, (zeroHash, keyFields), ?_, rfl, rfl⟩
    rw [if_pos (by simp [keyDrep_agrees, zeroHash_toLower]), keyEntries_three]
    exact List.mem_singleton_self _

/-- What a call is handed that reads the membership before the name is there, and the name after. -/
def cachedThree : CacheView :=
  viewOf (Machine.run MemoryCache.apply (createMemoryCache 10 0) membershipLoad)
    (Machine.run MemoryCache.apply (createMemoryCache 10 0) (membershipLoad ++ nameWrite))

/-- The second page, from the membership and the name in the cache and from a scan. -/
theorem getDrepList_cached_second :
    cachedThree.membership = some (.ok [scriptDrep, keyDrep]) ∧
      cachedThree.metadata zeroHash = some keyFields ∧
      Async.SameAnswer servesThree
        (getDrepList threeIds .single 5120 (some cachedThree) ⟨1, 1⟩)
        (getDrepList threeIds .single 5120 none ⟨1, 1⟩) ∧
      Async.Gives servesThree (getDrepList threeIds .single 5120 none ⟨1, 1⟩)
        (.ok [withFields (mapDrepInfo keyRow) (some keyFields)]) := by
  obtain ⟨membership, names⟩ :=
    viewOf_tells servesThree_lists servesThree_tells membershipLoad_writes
  refine ⟨rfl, rfl, (getDrepList_cached threeIds .single 5120 threeDreps servesThree servesThree_lists
    cachedThree membership ⟨1, 1⟩).2.2 namesThree servesThree_tells names, ?_⟩
  apply (getDrepList_gives servesThree_lists (by simp)).mpr
  have page : pageOf ⟨1, 1⟩ threeDreps.registered = [keyDrep] := rfl
  have row : servesThree (.info [keyDrep]) = .ok [keyRow] := by
    simp [servesThree, keyDrep, scriptDrep]
  have packed : packBySize [keyDrep] drepIdsBody 5120 = .ok [[keyDrep]] := by decide
  have left : peekMetadata threeIds none [keyDrep] = (.empty, [keyDrep]) :=
    peekMetadata_uncached (by simp [keyDrep_agrees])
  have joined : joinRows threeIds [keyDrep]
      (.ofEntries ([keyRow].map fun row => (row.hex.toLower, row)))
      ((peekMetadata threeIds none [keyDrep]).1.setAll
        (metadataEntries threeIds [⟨keyDrep, some (givenName "Key")⟩])) =
      [withFields (mapDrepInfo keyRow) (some keyFields)] := by
    simp [joinRows, answerFor, keyDrep_agrees, zeroHash_toLower, left, keyEntries_three, keyRow, infoRow,
      KeyedMap.ofEntries]
  have document : servesThree (.metadata [keyDrep]) = .ok [⟨keyDrep, some (givenName "Key")⟩] := by
    rw [servesThree, if_pos (by simp [keyDrep_agrees, zeroHash_toLower])]
  have ran : (drepInfoByIds threeIds .single 5120 none [keyDrep]).Runs
      [⟨(), .info [keyDrep], .ok [keyRow]⟩,
        ⟨(), .metadata [keyDrep], .ok [⟨keyDrep, some (givenName "Key")⟩]⟩]
      (.ok [withFields (mapDrepInfo keyRow) (some keyFields)]) :=
    joined ▸ drepInfoByIds_lone () () (by decide) packed (congrArg Prod.snd left) (by decide) packed
  rw [page]
  refine ⟨_, fun exchange member => ?_, Async.runs_bind_ok.mpr ⟨_, [], _, (List.append_nil _).symm, ran,
    rfl, rfl⟩⟩
  obtain rfl | rfl := List.mem_pair.mp member
  · exact row.symm
  · exact document.symm

end Example

end Governance
end WalletBackend.Koios
