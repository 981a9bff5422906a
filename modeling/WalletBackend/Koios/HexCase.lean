import WalletBackend.Domain.Casing
import WalletBackend.Koios.Assets
import WalletBackend.Koios.Packing
import WalletBackend.Koios.RefLookups
import WalletBackend.Koios.StaticState

/-! The joins of the Koios driver look rows up by keys in lowercase, but file them under keys
as the rows spell them. A row in another case is about the same output or token and is not
found. -/
namespace WalletBackend.Koios
open Interaction Containers

section Static

variable {Req : Type} {Resp : Req → Type} {Item Row : Type} {body : BodyBuilder Item}
  {send : List Item → Async Resp Failure (List Row)} {up : (q : Req) → Resp q}
  {answer : List Item → List Row} {bodyLimit : Nat} {items : List Item}

/-- Requests that are all answered at once bring the rows of each body, in order. -/
theorem gives_batchAll (sends : ∀ chunk result,
      Async.Gives up (send chunk) result ↔ result = .ok (answer chunk))
    {chunks : List (List Item)} (packed : packBySize items body bodyLimit = .ok chunks)
    (outcome : Except Failure (List Row)) :
    Async.Gives up (batchAll body send bodyLimit items) outcome ↔
      outcome = .ok (chunks.flatMap answer) := by
  have once (result : Except Failure (List Row)) :
      Async.Gives up (sendPacked body send items bodyLimit) result ↔
        result = .ok (chunks.flatMap answer) := by
    rw [sendPacked, packed, Async.gives_bind_of fun _ => Async.gives_ofExcept,
      Async.gives_bind_of (gives_promiseAll fun chunk _ => sends chunk), List.flatMap_def]
    exact Async.gives_pure
  unfold batchAll
  split
  case isTrue none =>
    rw [packBySize, if_pos none] at packed
    cases packed
    exact Async.gives_pure
  case isFalse => exact Async.gives_tryCatch_of once

end Static

namespace Refs

/-- The row with its hash and the units on it in lowercase. -/
def UtxoInfoRow.lowered (row : UtxoInfoRow) : UtxoInfoRow :=
  { row with
    tx_hash := row.tx_hash.toLower
    asset_list := row.asset_list.map fun assets => assets.map fun asset =>
      { asset with policy_id := asset.policy_id.toLower, asset_name := asset.asset_name.toLower } }

/-- An output whatever the case of its hash and of the units on it. -/
def ResolvedOutput.lowered (output : ResolvedOutput) : ResolvedOutput :=
  { output with
    txHash := output.txHash.toLower
    assets := output.assets.map fun asset =>
      { asset with policyId := asset.policyId.toLower, assetName := asset.assetName.toLower } }

/-- What a row is about, whatever its case. -/
def UtxoInfoRow.names (row : UtxoInfoRow) : String := row.toUtxoRow.rowKey.toLower

/-- Some row spells the output in lowercase, and the last to do so tells of it what the last
row about it tells. -/
def Aligned (rows : List UtxoInfoRow) (ref : String) : Prop :=
  ∀ row, lastOf UtxoInfoRow.names rows ref.toLower = some row →
    ∃ row', lastOf (fun row => row.toUtxoRow.rowKey) rows ref.toLower = some row' ∧
      (mapResolved row').lowered = (mapResolved row).lowered

variable (attempts : ReadAttempts) (bodyLimit : Nat) (refs : List String)
  (answer : List String → List UtxoInfoRow)

/-- The rows that come back for the references. -/
def returned : List UtxoInfoRow :=
  match packBySize refs utxoRefsBody bodyLimit with
  | .ok chunks => chunks.flatMap answer
  | .error _ => []

/-- Whatever the case of the rows, an output that a row is about is returned, and the outputs
returned are those of an answer in lowercase. -/
def CaseBlind : Prop :=
  ∀ outcome outcome',
    Async.Gives (fun chunk => .ok (answer chunk)) (getUtxosByRef attempts bodyLimit refs) outcome →
    Async.Gives (fun chunk => .ok ((answer chunk).map UtxoInfoRow.lowered))
      (getUtxosByRef attempts bodyLimit refs) outcome' →
    ∀ ref ∈ refs, (∃ row ∈ returned bodyLimit refs answer, row.names = ref.toLower) →
      (∃ items, outcome = .ok items ∧ ∃ item ∈ items, item.ref.key.toLower = ref.toLower) ∧
      outcome.map (List.map ResolvedOutput.lowered) =
        outcome'.map (List.map ResolvedOutput.lowered)

section Join

variable {attempts bodyLimit refs answer}

theorem gives_getUtxosByRef {chunks : List (List String)}
    (packed : packBySize refs utxoRefsBody bodyLimit = .ok chunks)
    (outcome : Except Failure (List ResolvedOutput)) :
    Async.Gives (fun chunk => .ok (answer chunk)) (getUtxosByRef attempts bodyLimit refs) outcome ↔
      outcome = .ok (joinRefs refs (chunks.flatMap answer)) := by
  unfold getUtxosByRef
  split
  case isTrue none =>
    rw [List.length_eq_zero_iff.mp none]
    exact Async.gives_pure
  case isFalse =>
    have sends (chunk : List String) (result : Except Failure (List UtxoInfoRow)) :
        Async.Gives (fun asked => (.ok (answer asked) : Answer asked)) (batch attempts chunk)
          result ↔ result = .ok (answer chunk) := by
      refine read_gives (fun result => ?_) result
      rw [Async.gives_bind_of fun _ => Async.gives_ask]
      exact Async.gives_ofExcept
    rw [Async.gives_bind_of (gives_batchAll sends packed)]
    exact Async.gives_pure

theorem mapResolved_lowered (row : UtxoInfoRow) :
    (mapResolved row.lowered).lowered = (mapResolved row).lowered := by
  have assets : ((mapAssets row.lowered.asset_list).map fun asset =>
      ({ asset with
        policyId := asset.policyId.toLower, assetName := asset.assetName.toLower } : Asset)) =
      (mapAssets row.asset_list).map fun asset =>
        { asset with policyId := asset.policyId.toLower, assetName := asset.assetName.toLower } := by
    cases listed : row.asset_list with
    | none => simp [UtxoInfoRow.lowered, listed, mapAssets]
    | some items =>
      simp [UtxoInfoRow.lowered, listed, mapAssets, mapAsset, toLower_toLower]
  simp only [ResolvedOutput.lowered, mapResolved, mapUtxo, assets]
  simp only [UtxoInfoRow.lowered, toLower_toLower]

theorem joinRefs_eq (refs : List String) (rows : List UtxoInfoRow) :
    joinRefs refs rows = refs.filterMap fun ref =>
      (lastOf (fun row => row.toUtxoRow.rowKey) rows ref.toLower).map mapResolved := by
  refine List.filterMap_congr fun ref _ => ?_
  rw [KeyedMap.ofEntries, KeyedMap.get?_setAll_rows, Option.map_id']
  simp

/-- Once in lowercase, a row is found under what it is about. -/
theorem lastOf_lowered (rows : List UtxoInfoRow) (ref : String) :
    lastOf (fun row => row.toUtxoRow.rowKey) (rows.map UtxoInfoRow.lowered) ref =
      (lastOf UtxoInfoRow.names rows ref).map UtxoInfoRow.lowered := by
  have key : (fun row : UtxoInfoRow => row.toUtxoRow.rowKey) ∘ UtxoInfoRow.lowered =
      UtxoInfoRow.names := funext fun row => (OutputRef.toLower_key row.keyset).symm
  rw [lastOf_map, key]

/-- Two answers that differ in the case of their rows are joined alike where each output is
spelled in lowercase by a row that tells of it what the last row does. -/
theorem joinRefs_alike_iff (refs : List String) (rows : List UtxoInfoRow) :
    (joinRefs refs rows).map ResolvedOutput.lowered =
        (joinRefs refs (rows.map UtxoInfoRow.lowered)).map ResolvedOutput.lowered ↔
      ∀ ref ∈ refs, Aligned rows ref := by
  rw [joinRefs_eq, joinRefs_eq, filterMap_alike_iff]
  · refine forall₂_congr fun ref _ => ?_
    rw [lastOf_lowered]
    unfold Aligned
    cases named : lastOf UtxoInfoRow.names rows ref.toLower with
    | none => simp [lastOf_of_spelled (toLower_toLower ref) named]
    | some row =>
      cases lastOf (fun row => row.toUtxoRow.rowKey) rows ref.toLower with
      | none => simp
      | some row' => simp [mapResolved_lowered]
  · intro ref _ found
    rw [lastOf_lowered, Option.isSome_map, Option.isSome_map]
    cases named : lastOf UtxoInfoRow.names rows ref.toLower with
    | none =>
      rw [lastOf_of_spelled (toLower_toLower ref) named] at found
      cases found
    | some row => rfl

/-- The lookup is blind to case exactly where each output asked for is spelled in lowercase
as well. -/
theorem caseBlind_iff (attempts : ReadAttempts) (bodyLimit : Nat) (refs : List String)
    (answer : List String → List UtxoInfoRow) :
    CaseBlind attempts bodyLimit refs answer ↔
      ∀ ref ∈ refs, Aligned (returned bodyLimit refs answer) ref := by
  unfold CaseBlind returned
  cases packed : packBySize refs utxoRefsBody bodyLimit with
  | error e =>
    refine iff_of_true ?_ ?_
    · rintro _ _ - - ref - ⟨row, member, -⟩
      cases member
    · intro ref _ row none
      cases none
  | ok chunks =>
    simp only [gives_getUtxosByRef packed, ← List.map_flatMap]
    have alike := joinRefs_alike_iff refs (chunks.flatMap answer)
    constructor
    · intro blind ref asked row named
      obtain ⟨member, about⟩ := lastOf_some named
      obtain ⟨-, same⟩ := blind _ _ rfl rfl ref asked ⟨row, member, about⟩
      exact alike.mp (Except.ok.inj same) ref asked row named
    · rintro aligned _ _ rfl rfl ref asked ⟨row, member, about⟩
      refine ⟨⟨_, rfl, ?_⟩, congrArg Except.ok (alike.mpr aligned)⟩
      obtain ⟨last, named⟩ := lastOf_exists member about
      obtain ⟨row', spelled, -⟩ := aligned ref asked last named
      refine ⟨mapResolved row', ?_, ?_⟩
      · rw [joinRefs_eq]
        exact List.mem_filterMap.mpr ⟨ref, asked, by rw [spelled]; rfl⟩
      · have key : row'.rowKey = ref.toLower := (lastOf_some spelled).2
        rw [show (mapResolved row').ref.key = row'.rowKey from rfl, key, toLower_toLower]

end Join

end Refs

namespace Assets

def AssetInfoRow.lowered (row : AssetInfoRow) : AssetInfoRow :=
  { row with policy_id := row.policy_id.toLower, asset_name := row.asset_name.toLower }

/-- A token whatever the case of what names it. -/
def lowered (token : TokenMetadata) : TokenMetadata :=
  { token with
    subject := token.subject.toLower
    policyId := token.policyId.toLower
    assetName := token.assetName.toLower }

/-- What a row is about, whatever its case. -/
def AssetInfoRow.names (row : AssetInfoRow) : String := row.subject.toLower

/-- What a row tells, unless mapping it throws. -/
def tokenOf (row : AssetInfoRow) : Option TokenMetadata := (mapTokenMetadata row).toOption

/-- What is found for a subject: the last row that spells it, or what is cached. -/
def found (hits : String → Option TokenMetadata) (rows : List AssetInfoRow) (subject : String) :
    Option TokenMetadata :=
  ((lastOf AssetInfoRow.subject rows subject).bind tokenOf).or (hits subject)

/-- The last row that spells the token in lowercase, or else a cached token, tells what the
last row about it tells in lowercase. -/
def Aligned (hits : String → Option TokenMetadata) (rows : List AssetInfoRow) (subject : String) :
    Prop :=
  ∀ row, lastOf AssetInfoRow.names rows subject = some row →
    ∃ token told,
      found hits rows subject = some token ∧
      tokenOf row.lowered = some told ∧ lowered token = lowered told

/-- No row makes the mapping throw, as it is or in lowercase. -/
def Mapped (rows : List AssetInfoRow) : Prop :=
  ∀ row ∈ rows, (tokenOf row).isSome ∧ (tokenOf row.lowered).isSome

variable (attempts : ReadAttempts) (bodyLimit : Nat) (hits : String → Option TokenMetadata)
  (subjects : List String) (answer : List (String × String) → List AssetInfoRow)

def normalized : List String := subjects.map String.toLower

/-- What is asked for. -/
def missing : List (String × String) := (peekSubjects hits (normalized subjects)).2.map pairOf

/-- The rows that come back for the subjects. -/
def returned : List AssetInfoRow :=
  match packBySize (missing hits subjects) assetListBody bodyLimit with
  | .ok chunks => chunks.flatMap answer
  | .error _ => []

/-- Some row is about a subject that was asked about. -/
def Told (rows : List AssetInfoRow) : Prop :=
  ∃ subject ∈ normalized subjects, ∃ row ∈ rows, row.names = subject

/-- Whatever the case of the rows, a token that a row is about is returned, and the tokens
returned are those of an answer in lowercase. -/
def CaseBlind : Prop :=
  ∀ outcome outcome',
    Async.Gives (fun chunk => .ok (answer chunk))
      (getTokenMetadata attempts bodyLimit hits subjects) outcome →
    Async.Gives (fun chunk => .ok ((answer chunk).map AssetInfoRow.lowered))
      (getTokenMetadata attempts bodyLimit hits subjects) outcome' →
    ∀ subject ∈ normalized subjects,
      (∃ row ∈ returned bodyLimit hits subjects answer, row.names = subject) →
      (∃ items, outcome = .ok items ∧ ∃ item ∈ items, item.subject.toLower = subject) ∧
      outcome.map (List.map lowered) = outcome'.map (List.map lowered)

/-- What the join makes of the rows. -/
def tokensFrom (rows : List AssetInfoRow) : Except Failure (List TokenMetadata) :=
  (fileRows rows).map fun entries =>
    (normalized subjects).filterMap
      ((peekSubjects hits (normalized subjects)).1.setAll entries).get?

section Join

variable {attempts bodyLimit hits subjects answer}

theorem gives_getTokenMetadata {chunks : List (List (String × String))}
    (packed : packBySize (missing hits subjects) assetListBody bodyLimit = .ok chunks)
    (outcome : Except Failure (List TokenMetadata)) :
    Async.Gives (fun chunk => .ok (answer chunk))
        (getTokenMetadata attempts bodyLimit hits subjects) outcome ↔
      outcome = tokensFrom hits subjects (chunks.flatMap answer) := by
  have nothing (none : (peekSubjects hits (normalized subjects)).2.length = 0) :
      tokensFrom hits subjects (chunks.flatMap answer) = .ok ((normalized subjects).filterMap
        (peekSubjects hits (normalized subjects)).1.get?) := by
    have empty : (missing hits subjects).length = 0 := by rw [missing, List.length_map, none]
    rw [packBySize, if_pos empty] at packed
    cases packed
    rfl
  unfold getTokenMetadata
  split
  case isTrue none =>
    rw [List.length_eq_zero_iff.mp none] at nothing ⊢
    rw [nothing rfl]
    exact Async.gives_pure
  case isFalse =>
    by_cases none : (peekSubjects hits (normalized subjects)).2.length = 0
    · rw [nothing none]
      simp only [normalized] at none
      simp only [none, if_true]
      exact Async.gives_pure
    · have sends (chunk : List (String × String)) (result : Except Failure (List AssetInfoRow)) :
          Async.Gives (fun asked => (.ok (answer asked) : Answer asked)) (batch attempts chunk)
            result ↔ result = .ok (answer chunk) := by
        refine read_gives (fun result => ?_) result
        rw [Async.gives_bind_of fun _ => Async.gives_ask]
        exact Async.gives_ofExcept
      simp only [normalized] at none
      simp only [none, if_false]
      refine (Async.gives_bind_of (gives_batchAll sends packed)).trans ?_
      unfold tokensFrom
      cases fileRows (chunks.flatMap answer) with
      | error e => exact Async.gives_bind_fails fun _ => Async.gives_ofExcept
      | ok entries =>
        rw [Async.gives_bind_of fun _ => Async.gives_ofExcept,
          Async.gives_bind_of fun _ => Async.gives_pure]
        exact Async.gives_pure

/-- Of the subjects, what is cached is found. -/
theorem get?_peekSubjects {hits : String → Option TokenMetadata} {subjects : List String}
    {subject : String} (asked : subject ∈ subjects) :
    (peekSubjects hits subjects).1.get? subject = hits subject := by
  have sound (token : TokenMetadata)
      (found : (peekSubjects hits subjects).1.get? subject = some token) :
      hits subject = some token := by
    refine List.foldlRecOn (motive := fun state : KeyedMap String TokenMetadata × List String =>
      state.1.get? subject = some token → hits subject = some token) subjects (peekSubject hits)
      (by simp) ?_ found
    intro state known other _ found
    unfold peekSubject at found
    split at found
    case h_1 hit here =>
      rw [KeyedMap.get?_set] at found
      split at found
      case isTrue same =>
        cases found
        exact same ▸ here
      case isFalse => exact known found
    case h_2 => exact known found
  have complete : (hits subject).isSome → ((peekSubjects hits subjects).1.get? subject).isSome := by
    refine foldl_establishes (f := peekSubject hits)
      (P := fun state other => (hits other).isSome → (state.1.get? other).isSome) ?_ ?_ subjects
      (.empty, []) subject asked
    · intro state other hit
      obtain ⟨token, here⟩ := Option.isSome_iff_exists.mp hit
      simp [peekSubject, here]
    · intro state other later known hit
      unfold peekSubject
      split
      · rw [KeyedMap.get?_set]
        split
        · rfl
        · exact known hit
      · exact known hit
  cases found : (peekSubjects hits subjects).1.get? subject with
  | some token => exact (sound token found).symm
  | none =>
    cases hit : hits subject with
    | none => rfl
    | some token =>
      have there := complete (by rw [hit]; rfl)
      rw [found] at there
      cases there

theorem fileRows_ok {rows : List AssetInfoRow} :
    (∃ entries, fileRows rows = .ok entries) ↔ ∀ row ∈ rows, (tokenOf row).isSome := by
  induction rows with
  | nil => simp [fileRows]
  | cons row rows ih =>
    rw [List.forall_mem_cons, ← ih, tokenOf, fileRows]
    cases mapTokenMetadata row with
    | error e => simp [Except.toOption, Bind.bind, Except.bind]
    | ok token =>
      cases fileRows rows <;> simp [Except.toOption, Bind.bind, Except.bind]

/-- The last row of a subject is found, or what was there before. -/
theorem get?_fileRows {rows : List AssetInfoRow} {entries : List (String × TokenMetadata)}
    (filed : fileRows rows = .ok entries) (m : KeyedMap String TokenMetadata) (subject : String) :
    (m.setAll entries).get? subject =
      ((lastOf AssetInfoRow.subject rows subject).bind tokenOf).or (m.get? subject) := by
  have mapped := fileRows_ok.mp ⟨entries, filed⟩
  induction rows generalizing entries m with
  | nil =>
    cases filed
    rfl
  | cons row rows ih =>
    obtain ⟨here, later⟩ := List.forall_mem_cons.mp mapped
    obtain ⟨rest, filedRest⟩ := fileRows_ok.mpr later
    obtain ⟨token, told⟩ := Option.isSome_iff_exists.mp here
    have mappedRow : mapTokenMetadata row = .ok token := by
      unfold tokenOf at told
      cases mapped : mapTokenMetadata row with
      | error e =>
        rw [mapped] at told
        cases told
      | ok token' =>
        rw [mapped] at told
        cases told
        rfl
    rw [fileRows, mappedRow, filedRest] at filed
    cases filed
    rw [KeyedMap.setAll_cons, ih filedRest _ later, lastOf_cons, KeyedMap.get?_set]
    cases found : lastOf AssetInfoRow.subject rows subject with
    | some last =>
      obtain ⟨token', told'⟩ := Option.isSome_iff_exists.mp (later last (lastOf_some found).1)
      simp [told']
    | none =>
      by_cases same : row.subject = subject
      · simp [same, told]
      · simp [same, Ne.symm same]

theorem tokensFrom_eq {rows : List AssetInfoRow} (mapped : ∀ row ∈ rows, (tokenOf row).isSome) :
    tokensFrom hits subjects rows = .ok ((normalized subjects).filterMap (found hits rows)) := by
  obtain ⟨entries, filed⟩ := fileRows_ok.mpr mapped
  rw [tokensFrom, filed]
  refine congrArg Except.ok (List.filterMap_congr fun subject asked => ?_)
  rw [get?_fileRows filed, get?_peekSubjects asked, found]

theorem mapped_of_tokensFrom {rows : List AssetInfoRow} {items : List TokenMetadata}
    (returned : tokensFrom hits subjects rows = .ok items) :
    ∀ row ∈ rows, (tokenOf row).isSome := by
  unfold tokensFrom at returned
  cases filed : fileRows rows with
  | error e =>
    rw [filed] at returned
    cases returned
  | ok entries => exact fileRows_ok.mp ⟨entries, filed⟩

theorem tokenOf_subject {row : AssetInfoRow} {token : TokenMetadata}
    (told : tokenOf row = some token) : token.subject = row.subject := by
  unfold tokenOf mapTokenMetadata at told
  dsimp only at told
  split at told
  case isTrue =>
    cases told
    rfl
  case isFalse =>
    cases cip25 : extractCip25 row.minting_tx_metadata row.policy_id row.asset_name with
    | error e =>
      rw [cip25] at told
      cases told
    | ok found =>
      rw [cip25] at told
      cases found with
      | some minted =>
        cases told
        rfl
      | none =>
        cases cip68 : extractCip68 row.cip68_metadata row.policy_id row.asset_name with
        | some datum =>
          simp only [cip68, Bind.bind, Except.bind] at told
          cases told
          rfl
        | none =>
          simp only [cip68, Bind.bind, Except.bind] at told
          cases told
          rfl

theorem subject_lowered (row : AssetInfoRow) : row.lowered.subject = row.names := by
  rw [AssetInfoRow.names, AssetInfoRow.subject, AssetInfoRow.subject, toLower_append]
  rfl

/-- Once in lowercase, a row is found under what it is about. -/
theorem found_lowered (rows : List AssetInfoRow) (subject : String) :
    found hits (rows.map AssetInfoRow.lowered) subject =
      ((lastOf AssetInfoRow.names rows subject).bind fun row => tokenOf row.lowered).or
        (hits subject) := by
  have key : AssetInfoRow.subject ∘ AssetInfoRow.lowered = AssetInfoRow.names :=
    funext subject_lowered
  rw [found, lastOf_map, key, Option.bind_map]
  rfl

theorem spelled_of_asked {rows : List AssetInfoRow} {subject : String}
    (asked : subject ∈ normalized subjects)
    (unknown : lastOf AssetInfoRow.names rows subject = none) :
    lastOf AssetInfoRow.subject rows subject = none := by
  obtain ⟨requested, -, rfl⟩ := List.mem_map.mp asked
  exact lastOf_of_spelled (toLower_toLower requested) unknown

/-- Two answers that differ in the case of their rows are joined alike where each token is
spelled in lowercase, or cached, as the last row about it tells. -/
theorem tokens_alike_iff {rows : List AssetInfoRow} (mapped : Mapped rows) :
    (tokensFrom hits subjects rows).map (List.map lowered) =
        (tokensFrom hits subjects (rows.map AssetInfoRow.lowered)).map (List.map lowered) ↔
      ∀ subject ∈ normalized subjects, Aligned hits rows subject := by
  have mappedLowered : ∀ row ∈ rows.map AssetInfoRow.lowered, (tokenOf row).isSome := by
    intro row member
    obtain ⟨spelled, there, rfl⟩ := List.mem_map.mp member
    exact (mapped spelled there).2
  rw [tokensFrom_eq fun row member => (mapped row member).1, tokensFrom_eq mappedLowered]
  simp only [Except.map, Except.ok.injEq]
  rw [filterMap_alike_iff]
  · refine forall₂_congr fun subject asked => ?_
    rw [found_lowered]
    unfold Aligned
    cases named : lastOf AssetInfoRow.names rows subject with
    | none => simp [found, spelled_of_asked asked named]
    | some row =>
      obtain ⟨told, tells⟩ := Option.isSome_iff_exists.mp (mapped row (lastOf_some named).1).2
      cases found hits rows subject with
      | none => simp [tells]
      | some token => simp [tells]
  · intro subject asked known
    rw [found_lowered]
    cases named : lastOf AssetInfoRow.names rows subject with
    | none =>
      rw [found, spelled_of_asked asked named] at known
      exact known
    | some row =>
      obtain ⟨told, tells⟩ := Option.isSome_iff_exists.mp (mapped row (lastOf_some named).1).2
      simp [tells]

/-- The lookup is blind to case exactly where, once a row is about a subject, no row makes the
mapping throw and each token that a row is about is spelled in lowercase as well, or cached. -/
theorem caseBlind_iff (attempts : ReadAttempts) (bodyLimit : Nat)
    (hits : String → Option TokenMetadata) (subjects : List String)
    (answer : List (String × String) → List AssetInfoRow) :
    CaseBlind attempts bodyLimit hits subjects answer ↔
      (Told subjects (returned bodyLimit hits subjects answer) →
        Mapped (returned bodyLimit hits subjects answer) ∧
        ∀ subject ∈ normalized subjects,
          Aligned hits (returned bodyLimit hits subjects answer) subject) := by
  unfold CaseBlind returned
  cases packed : packBySize (missing hits subjects) assetListBody bodyLimit with
  | error e =>
    refine iff_of_true ?_ ?_
    · rintro _ _ - - subject - ⟨row, member, -⟩
      cases member
    · rintro ⟨subject, -, row, member, -⟩
      cases member
  | ok chunks =>
    simp only [gives_getTokenMetadata packed, ← List.map_flatMap]
    constructor
    · rintro blind ⟨subject, asked, row, member, about⟩
      obtain ⟨⟨items, returned, -⟩, same⟩ := blind _ _ rfl rfl subject asked ⟨row, member, about⟩
      have mapped : Mapped (chunks.flatMap answer) := by
        intro row member
        refine ⟨mapped_of_tokensFrom returned row member, ?_⟩
        rw [returned] at same
        cases outcome : tokensFrom hits subjects
            ((chunks.flatMap answer).map AssetInfoRow.lowered) with
        | error e =>
          rw [outcome] at same
          cases same
        | ok items' => exact mapped_of_tokensFrom outcome row.lowered (List.mem_map_of_mem member)
      exact ⟨mapped, (tokens_alike_iff mapped).mp same⟩
    · rintro aligned _ _ rfl rfl subject asked ⟨row, member, about⟩
      obtain ⟨mapped, each⟩ := aligned ⟨subject, asked, row, member, about⟩
      refine ⟨⟨_, tokensFrom_eq fun row member => (mapped row member).1, ?_⟩,
        (tokens_alike_iff mapped).mpr each⟩
      obtain ⟨last, named⟩ := lastOf_exists member about
      obtain ⟨token, told, known, tells, same⟩ := each subject asked last named
      refine ⟨token, List.mem_filterMap.mpr ⟨subject, asked, known⟩, ?_⟩
      calc token.subject.toLower
        _ = told.subject.toLower := congrArg TokenMetadata.subject same
        _ = last.names.toLower := by rw [tokenOf_subject tells, subject_lowered]
        _ = last.names := toLower_toLower last.subject
        _ = subject := (lastOf_some named).2

end Join

end Assets

/-- The joins of rows by output and by token are blind to the case of the rows exactly where
each item that a row is about is spelled in lowercase as well, by a row that tells of it what
the last row about it tells. -/
theorem hexCase_iff (attempts : ReadAttempts) (bodyLimit : Nat) :
    (∀ refs answer, Refs.CaseBlind attempts bodyLimit refs answer ↔
      ∀ ref ∈ refs, Refs.Aligned (Refs.returned bodyLimit refs answer) ref) ∧
    (∀ hits subjects answer, Assets.CaseBlind attempts bodyLimit hits subjects answer ↔
      (Assets.Told subjects (Assets.returned bodyLimit hits subjects answer) →
        Assets.Mapped (Assets.returned bodyLimit hits subjects answer) ∧
        ∀ subject ∈ Assets.normalized subjects,
          Assets.Aligned hits (Assets.returned bodyLimit hits subjects answer) subject)) :=
  ⟨Refs.caseBlind_iff attempts bodyLimit, Assets.caseBlind_iff attempts bodyLimit⟩

/-- A reference to an output whose hash its row spells in uppercase. -/
def shoutedRef : String := String.ofList (List.replicate 64 'a') ++ "#0"

theorem million_digits : isDigits "1000000" = true := by decide

def shoutedOutput : Refs.UtxoInfoRow :=
  { tx_hash := String.ofList (List.replicate 64 'A')
    tx_index := 0
    address := "addr_test1"
    block_height := 1
    value := .digits "1000000" million_digits
    asset_list := none
    datum_hash := none
    inline_datum := none
    reference_script := none
    is_spent := false }

/-- A token whose policy its row spells in uppercase. -/
def shoutedSubject : String := String.ofList (List.replicate 56 'b') ++ "616263"

def shoutedToken : Assets.AssetInfoRow :=
  { policy_id := String.ofList (List.replicate 56 'B')
    asset_name := "616263"
    asset_name_ascii := some "abc"
    fingerprint := "asset1"
    total_supply := .digits "1" (by decide)
    name := some "A token"
    ticker := none
    description := none
    url := none
    decimals := none
    minting_tx_metadata := none
    cip68_metadata := none }

/-- Neither is returned, though a row is about it. -/
theorem shouted_missed :
    ¬ Refs.CaseBlind .single KOIOS_BODY_LIMIT_BYTES [shoutedRef] (fun _ => [shoutedOutput]) ∧
      ¬ Assets.CaseBlind .single KOIOS_BODY_LIMIT_BYTES (fun _ => none) [shoutedSubject]
        (fun _ => [shoutedToken]) := by
  constructor
  · rw [Refs.caseBlind_iff]
    intro aligned
    have returned : Refs.returned KOIOS_BODY_LIMIT_BYTES [shoutedRef] (fun _ => [shoutedOutput]) =
        [shoutedOutput] := rfl
    have lower : shoutedRef.toLower = shoutedRef := by
      rw [← String.toList_inj, toList_toLower]
      decide
    have about : shoutedOutput.names = shoutedRef := by
      rw [Refs.UtxoInfoRow.names, ← String.toList_inj, toList_toLower]
      decide
    have unspelled : shoutedOutput.toUtxoRow.rowKey ≠ shoutedRef := by decide
    rw [returned] at aligned
    obtain ⟨row, spelled, -⟩ := aligned shoutedRef List.mem_cons_self shoutedOutput
      (by simp [lastOf, lower, about])
    simp [lastOf, lower, unspelled] at spelled
  · rw [Assets.caseBlind_iff]
    intro aligned
    have lower : shoutedSubject.toLower = shoutedSubject := by
      rw [← String.toList_inj, toList_toLower]
      decide
    have normalized : Assets.normalized [shoutedSubject] = [shoutedSubject] :=
      congrArg (fun subject => [subject]) lower
    have returned : Assets.returned KOIOS_BODY_LIMIT_BYTES (fun _ => none) [shoutedSubject]
        (fun _ => [shoutedToken]) = [shoutedToken] := by
      unfold Assets.returned Assets.missing
      rw [normalized]
      rfl
    have about : shoutedToken.names = shoutedSubject := by
      rw [Assets.AssetInfoRow.names, ← String.toList_inj, toList_toLower]
      decide
    have unspelled : shoutedToken.subject ≠ shoutedSubject := by decide
    rw [returned, normalized] at aligned
    obtain ⟨-, each⟩ := aligned
      ⟨shoutedSubject, by rw [normalized]; exact List.mem_cons_self, shoutedToken,
        List.mem_cons_self, about⟩
    obtain ⟨token, told, known, -⟩ := each shoutedSubject List.mem_cons_self shoutedToken
      (by simp [lastOf, about])
    simp [Assets.found, lastOf, unspelled] at known

end WalletBackend.Koios
