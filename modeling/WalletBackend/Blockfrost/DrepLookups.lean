import WalletBackend.Blockfrost.GovernanceLists
import WalletBackend.Domain.Casing
import WalletBackend.Koios.DrepKinds
import WalletBackend.Library.Hex

/-! DReps by id: the credential that is published is the one that the id encodes, as it is with the
other driver, and each answer comes from the lookups of its own id. -/
namespace WalletBackend.Blockfrost.Governance
open Interaction

section Credential

theorem toHex_eq (bytes : List UInt8) : toHex bytes = String.ofList (Hex.encode bytes) := rfl

/-- The header of a CIP-129 id. -/
def headerByte (hasScript : Bool) : UInt8 :=
  if hasScript then CIP129_DREP_SCRIPT_HEADER else CIP129_DREP_KEY_HEADER

theorem headerOf_eq (hasScript : Bool) : headerOf hasScript = toHex [headerByte hasScript] := by
  cases hasScript
  · decide
  · decide

/-- A text that spells bytes in either case. -/
structure Spells (hex : String) (bytes : List UInt8) : Prop where
  lower : hex.toLower = toHex bytes

namespace Spells

variable {hex : String} {bytes : List UInt8} (spells : Spells hex bytes)

include spells

theorem chars : hex.toList.map Char.toLower = Hex.encode bytes := by
  rw [← toList_toLower, spells.lower, toHex_eq, String.toList_ofList]

theorem length : hex.toList.length = 2 * bytes.length := Hex.length_of_spelled spells.chars

theorem digits : hex.toList.all Hex.isDigit = true := Hex.all_isDigit_of_spelled spells.chars

theorem bare_iff : isBareCredential hex = true ↔ bytes.length = DREP_CREDENTIAL_BYTES := by
  rw [isBareCredential, spells.digits, Bool.and_true, beq_iff_eq, spells.length, DREP_CREDENTIAL_BYTES]
  omega

/-- The first two digits are those of the header. -/
theorem headed {header : UInt8} {credential : List UInt8} (split : bytes = header :: credential)
    (length : bytes.length = CIP129_DREP_BYTES) :
    ∃ first rest, headedCredential? hex = some (first, rest) ∧ first.toLower = toHex [header] ∧
      rest.toLower = toHex credential := by
  have size : hex.toList.length = 58 := by
    rw [spells.length, length]
    rfl
  have chars := spells.chars
  rw [split, Hex.encode_cons] at chars
  refine ⟨String.ofList (hex.toList.take 2), String.ofList (hex.toList.drop 2), ?_, ?_, ?_⟩
  · rw [headedCredential?, size, spells.digits]
    rfl
  · apply String.toList_inj.mp
    rw [toList_toLower, String.toList_ofList, List.map_take, chars, toHex_eq, String.toList_ofList]
    rfl
  · apply String.toList_inj.mp
    rw [toList_toLower, String.toList_ofList, List.map_drop, chars, toHex_eq, String.toList_ofList]
    rfl

end Spells

theorem toHex_injective {bytes bytes' : List UInt8} (same : toHex bytes = toHex bytes') :
    bytes = bytes' := by
  rw [toHex_eq, toHex_eq] at same
  exact Hex.encode_injective (String.ofList_injective same)

/-- An id with a credential is of 28 bytes, or of 29 with a header. -/
theorem drepCredentialHex_cases {bech32 : Bech32} {id hash : String} {bytes : List UInt8}
    (decodes : drepBytes bech32 id = some bytes) (found : drepCredentialHex bech32 id = some hash) :
    bytes.length = DREP_CREDENTIAL_BYTES ∧ hash = toHex bytes ∨
      ∃ header credential, bytes = header :: credential ∧ bytes.length = CIP129_DREP_BYTES ∧
        hash = toHex credential := by
  rw [drepCredentialHex, decodes] at found
  simp only [Option.bind_eq_bind, Option.bind_some] at found
  split at found
  case isTrue length =>
    obtain ⟨header, head, found⟩ := Option.bind_eq_some_iff.mp found
    obtain ⟨credential, split⟩ := List.head?_eq_some_iff.mp head
    split at found
    case isTrue => cases found
    case isFalse =>
      cases found
      exact .inr ⟨header, credential, split, length, by rw [split, List.tail_cons]⟩
  case isFalse =>
    split at found
    case isTrue length =>
      cases found
      exact .inl ⟨length, rfl⟩
    case isFalse => cases found

theorem transform_real {row : RawDrepRow} (real : isPseudoDrep row.drep_id = false) {parsed : DrepRow}
    (transformed : row.transform = .ok parsed) :
    normalizeDrepCredential row.hex row.has_script = .ok parsed.hex ∧ parsed.drep_id = row.drep_id := by
  rw [RawDrepRow.transform, dif_neg (ne_true_of_eq_false real)] at transformed
  split at transformed
  case h_1 hex normalized =>
    cases transformed
    exact ⟨normalized, rfl⟩
  case h_2 => cases transformed

theorem transform_isOk {row : RawDrepRow} (real : isPseudoDrep row.drep_id = false) {hex : String}
    (normalized : normalizeDrepCredential row.hex row.has_script = .ok hex) :
    ∃ parsed, row.transform = .ok parsed := by
  rw [RawDrepRow.transform, dif_neg (ne_true_of_eq_false real)]
  split
  case h_1 => exact ⟨_, rfl⟩
  case h_2 failed => cases normalized.symm.trans failed

/-- What is made of a text that spells the bytes of an id. -/
theorem normalize_spelled {hex : String} {bytes : List UInt8} (spells : Spells hex bytes)
    (hasScript : Bool) :
    (bytes.length = DREP_CREDENTIAL_BYTES → normalizeDrepCredential hex hasScript = .ok hex) ∧
    ∀ header credential, bytes = header :: credential → bytes.length = CIP129_DREP_BYTES →
      (header = headerByte hasScript → ∃ rest, normalizeDrepCredential hex hasScript = .ok rest ∧
        rest.toLower = toHex credential) ∧
      (header ≠ headerByte hasScript →
        ∃ issue, normalizeDrepCredential hex hasScript = .error issue) := by
  constructor
  · intro length
    rw [normalizeDrepCredential, if_pos (spells.bare_iff.mpr length)]
  · intro header credential split length
    have headed : ¬ isBareCredential hex = true := by
      rw [spells.bare_iff, length]
      decide
    obtain ⟨first, rest, found, sameHeader, sameRest⟩ := spells.headed split length
    rw [normalizeDrepCredential, if_neg headed, found]
    constructor
    · intro agrees
      refine ⟨rest, ?_, sameRest⟩
      simp only [sameHeader, agrees, headerOf_eq, ne_eq, not_true_eq_false, if_false]
    · intro other
      have differs : toHex [header] ≠ toHex [headerByte hasScript] := fun same =>
        other (List.singleton_inj.mp (toHex_injective same))
      simp only [sameHeader, headerOf_eq, ne_eq, differs, not_false_eq_true, if_true]
      exact ⟨_, rfl⟩

/-- Where the hex of a row spells what its id encodes, the row is read if and only if the id has no
header or has that of the kind which the row states. The credential published is then the one that
the other driver publishes for the id, whichever case either upstream writes it in. -/
theorem credential_agrees (bech32 : Bech32) (row : RawDrepRow) (bytes : List UInt8)
    (other : Koios.Governance.DrepInfoRow bech32) (real : isPseudoDrep row.drep_id = false)
    (decodes : drepBytes bech32 row.drep_id = some bytes) (spelled : row.hex.toLower = toHex bytes)
    (same : other.drep_id = row.drep_id) :
    ((∃ parsed, row.transform = .ok parsed) ↔
      bytes.length = DREP_CREDENTIAL_BYTES ∨ bytes.head? = some (headerByte row.has_script)) ∧
    ∀ parsed, row.transform = .ok parsed →
      parsed.hex.toLower = other.hex.toLower ∧ parsed.drep_id = other.drep_id := by
  obtain ⟨bare, headed⟩ := normalize_spelled ⟨spelled⟩ row.has_script
  have agrees := other.agrees
  rw [same] at agrees ⊢
  obtain ⟨length, hash⟩ | ⟨header, credential, split, length, hash⟩ :=
    drepCredentialHex_cases decodes agrees
  · refine ⟨iff_of_true (transform_isOk real (bare length)) (.inl length), fun parsed read => ?_⟩
    obtain ⟨normalized, id⟩ := transform_real real read
    rw [bare length] at normalized
    rw [← Except.ok.inj normalized]
    exact ⟨spelled.trans hash.symm, id⟩
  · obtain ⟨accepted, refused⟩ := headed header credential split length
    have headerIff : bytes.length = DREP_CREDENTIAL_BYTES ∨
        bytes.head? = some (headerByte row.has_script) ↔ header = headerByte row.has_script := by
      rw [length, split, List.head?_cons, Option.some.injEq]
      exact or_iff_right (by decide)
    rw [headerIff]
    constructor
    · constructor
      · rintro ⟨parsed, read⟩
        by_contra differs
        obtain ⟨issue, failed⟩ := refused differs
        cases failed.symm.trans (transform_real real read).1
      · intro agree
        obtain ⟨rest, normalized, -⟩ := accepted agree
        exact transform_isOk real normalized
    · intro parsed read
      obtain ⟨normalized, id⟩ := transform_real real read
      refine ⟨?_, id⟩
      by_cases agree : header = headerByte row.has_script
      · obtain ⟨rest, normalized', lower⟩ := accepted agree
        rw [← Except.ok.inj (normalized'.symm.trans normalized)]
        exact lower.trans hash.symm
      · obtain ⟨issue, failed⟩ := refused agree
        cases failed.symm.trans normalized

section Witness

open Koios.Governance (keyDrep threeIds zeroHash zeroHash_toLower keyRow)

/-- The DRep of the key whose hash is all zeros, with its header, as Blockfrost reports it. -/
def headedRow : RawDrepRow :=
  ⟨keyDrep, "22" ++ zeroHash, .digits "12" powerText_digits, false, false, false⟩

/-- It is published with the hash alone, as by the other driver. -/
theorem headedRow_read : ∃ parsed, headedRow.transform = .ok parsed ∧
    parsed.hex.toLower = zeroHash ∧ parsed.drep_id = keyDrep := by
  have spelled : headedRow.hex.toLower = toHex (CIP129_DREP_KEY_HEADER :: List.replicate 28 0) := by
    apply String.toList_inj.mp
    rw [toList_toLower]
    decide
  obtain ⟨reads, publishes⟩ := credential_agrees threeIds headedRow
    (CIP129_DREP_KEY_HEADER :: List.replicate 28 0) keyRow (by decide)
    (by set_option maxRecDepth 4000 in decide) spelled rfl
  obtain ⟨parsed, read⟩ := reads.mpr (.inr rfl)
  obtain ⟨hash, id⟩ := publishes parsed read
  exact ⟨parsed, read, hash.trans zeroHash_toLower, id⟩

end Witness

end Credential

section Lookups

variable {T : Type} {trace part : List (Exchange T Request.Answer)} {id drepDeposit : String}

/-- What comes of the lookups of one id. -/
inductive Looked (trace : List (Exchange T Request.Answer)) (drepDeposit id : String) :
    Option DrepInfo → Prop where
  | unknown {t} (asked : ⟨t, .drep id, .ok none⟩ ∈ trace) : Looked trace drepDeposit id none
  | pseudo {t row} (asked : ⟨t, .drep id, .ok (some row)⟩ ∈ trace)
      (pseudo : (isPseudoDrep id || isPseudoDrep row.drep_id) = true) : Looked trace drepDeposit id none
  | named {t t' row anchor} (asked : ⟨t, .drep id, .ok (some row)⟩ ∈ trace)
      (real : (isPseudoDrep id || isPseudoDrep row.drep_id) = false)
      (document : ⟨t', .drepMetadata id, .ok anchor⟩ ∈ trace) :
      Looked trace drepDeposit id (some (mapDrepInfo row drepDeposit (drepMetaFields anchor)))
  /-- The document cannot be read. -/
  | unnamed {t t' row failure} (asked : ⟨t, .drep id, .ok (some row)⟩ ∈ trace)
      (real : (isPseudoDrep id || isPseudoDrep row.drep_id) = false)
      (document : ⟨t', .drepMetadata id, .error failure⟩ ∈ trace) :
      Looked trace drepDeposit id (some (mapDrepInfo row drepDeposit .none))

theorem Looked.mono {found : Option DrepInfo} (looked : Looked part drepDeposit id found)
    (sub : part.Sublist trace) : Looked trace drepDeposit id found := by
  cases looked with
  | unknown asked => exact .unknown (sub.subset asked)
  | pseudo asked pseudo => exact .pseudo (sub.subset asked) pseudo
  | named asked real document => exact .named (sub.subset asked) real (sub.subset document)
  | unnamed asked real document => exact .unnamed (sub.subset asked) real (sub.subset document)

/-- What is published of a DRep that was looked up. -/
structure Published (drep : DrepInfo) : Prop where
  credential : isBareCredential drep.hex = true
  real : isPseudoDrep drep.drepId = false
  known : drep.status ≠ .not_registered

theorem published_mapDrepInfo {row : DrepRow} {fields : DrepMetaFields}
    (real : isPseudoDrep row.drep_id = false) : Published (mapDrepInfo row drepDeposit fields) := by
  refine ⟨row.credential real, real, ?_⟩
  rw [mapDrepInfo]
  split
  · exact nofun
  · exact nofun

theorem Looked.published {drep : DrepInfo} (looked : Looked trace drepDeposit id (some drep)) :
    Published drep := by
  cases looked with
  | named _ real => exact published_mapDrepInfo (Bool.or_eq_false_iff.mp real).2
  | unnamed _ real => exact published_mapDrepInfo (Bool.or_eq_false_iff.mp real).2

/-- The document is read after the row, and its failure is no failure of the lookup. -/
theorem drepAnchor_runs {outcome : Except Failure DrepMetaFields}
    (runs : (drepAnchor id).Runs trace outcome) :
    (∃ t anchor, ⟨t, .drepMetadata id, .ok anchor⟩ ∈ trace ∧ outcome = .ok (drepMetaFields anchor)) ∨
      ∃ t failure, ⟨t, .drepMetadata id, .error failure⟩ ∈ trace ∧ outcome = .ok .none := by
  obtain ⟨fields, returned, rfl⟩ | ⟨first, rest, failure, rfl, failed, recovered⟩ :=
    Async.runs_tryCatch.mp runs
  · obtain ⟨asked, tail, anchor, rfl, found, mapped⟩ := Async.runs_bind_ok.mp returned
    obtain ⟨t, rfl⟩ := runs_getOrUndefined.mp found
    obtain ⟨rfl, same⟩ := mapped
    exact .inl ⟨t, anchor, List.mem_cons_self, same.symm⟩
  · obtain ⟨asked, tail, anchor, -, -, mapped⟩ | ⟨e, found, same⟩ := Async.runs_bind.mp failed
    · cases mapped.2
    · cases same
      obtain ⟨t, rfl⟩ := runs_getOrUndefined.mp found
      obtain ⟨rfl, same⟩ := recovered
      exact .inr ⟨t, failure, List.mem_cons_self, same.symm⟩

theorem lookupDrep_returns {found : Option DrepInfo}
    (runs : (lookupDrep drepDeposit id).Runs trace (.ok found)) : Looked trace drepDeposit id found := by
  obtain ⟨first, rest, row, rfl, asked, continued⟩ := Async.runs_bind_ok.mp runs
  obtain ⟨t, rfl⟩ := runs_getOrUndefined.mp asked
  cases row with
  | none =>
    cases continued.2
    exact .unknown List.mem_cons_self
  | some row =>
    cases pseudo : isPseudoDrep id || isPseudoDrep row.drep_id with
    | true =>
      simp only [pseudo, if_true] at continued
      cases continued.2
      exact .pseudo List.mem_cons_self pseudo
    | false =>
      simp only [pseudo, Bool.false_eq_true, if_false] at continued
      obtain ⟨anchored, tail, fields, rfl, read, mapped⟩ := Async.runs_bind_ok.mp continued
      cases mapped.2
      obtain ⟨t', anchor, document, same⟩ | ⟨t', failure, document, same⟩ := drepAnchor_runs read
      · cases same
        exact .named List.mem_cons_self pseudo
          (List.mem_append_right _ (List.mem_append_left _ document))
      · cases same
        exact .unnamed List.mem_cons_self pseudo
          (List.mem_append_right _ (List.mem_append_left _ document))

theorem lookupDrep_fails {failure : Failure}
    (runs : (lookupDrep drepDeposit id).Runs trace (.error failure)) :
    ∃ t, ⟨t, .drep id, .error failure⟩ ∈ trace := by
  obtain ⟨first, rest, row, rfl, -, continued⟩ | ⟨e, failed, same⟩ := Async.runs_bind.mp runs
  · cases row with
    | none => cases continued.2
    | some row =>
      cases pseudo : isPseudoDrep id || isPseudoDrep row.drep_id with
      | true =>
        simp only [pseudo, if_true] at continued
        cases continued.2
      | false =>
        simp only [pseudo, Bool.false_eq_true, if_false] at continued
        obtain ⟨_, _, _, -, -, mapped⟩ | ⟨e, read, -⟩ := Async.runs_bind.mp continued
        · cases mapped.2
        · obtain ⟨_, _, -, same⟩ | ⟨_, _, -, same⟩ := drepAnchor_runs read
          · cases same
          · cases same
  · cases same
    obtain ⟨t, rfl⟩ := runs_getOrUndefined.mp failed
    exact ⟨t, List.mem_cons_self⟩

/-- How a read of DReps by id fails: the parameters are not to be had, or the lookup of one of the
ids fails. -/
inductive LookupFailed (trace : List (Exchange T Request.Answer)) (ids : List String) :
    Failure → Prop where
  | parameters {t failure} (asked : ⟨t, .latestParameters, .error failure⟩ ∈ trace) :
      LookupFailed trace ids failure
  | noParameters {t} {path : String} (asked : ⟨t, .latestParameters, .ok none⟩ ∈ trace) :
      LookupFailed trace ids
        (.provider s!"blockfrost returned 404 for {path}" (some 404) none)
  | drep {t id failure} (member : id ∈ ids) (asked : ⟨t, .drep id, .error failure⟩ ∈ trace) :
      LookupFailed trace ids failure

theorem governanceParams_runs {outcome : Except Failure String}
    (runs : governanceParams.Runs trace outcome) :
    (∃ t row, trace = [⟨t, .latestParameters, .ok (some row)⟩] ∧ outcome = .ok row.deposit) ∨
      ∃ failure, outcome = .error failure ∧ ∀ ids, LookupFailed trace ids failure := by
  obtain ⟨first, rest, row, rfl, read, mapped⟩ | ⟨failure, read, rfl⟩ := Async.runs_bind.mp runs
  · obtain ⟨t, rfl⟩ := runs_get_ok.mp read
    obtain ⟨rfl, rfl⟩ := mapped
    exact .inl ⟨t, row, rfl, rfl⟩
  · obtain ⟨t, rfl⟩ | ⟨t, rfl, rfl⟩ := runs_get_error read
    · exact .inr ⟨_, rfl, fun _ => .parameters List.mem_cons_self⟩
    · exact .inr ⟨_, rfl, fun _ => .noParameters List.mem_cons_self⟩

/-- What a read of DReps by id comes to. -/
inductive DrepsRead (trace : List (Exchange T Request.Answer)) (ids : List String) :
    Except Failure (List DrepInfo) → Prop where
  | nothing (empty : ids = []) (silent : trace = []) : DrepsRead trace ids (.ok [])
  | found {t row looked} (asked : ⟨t, .latestParameters, .ok (some row)⟩ ∈ trace)
      (each : List.Forall₂ (Looked trace row.deposit) ids looked) :
      DrepsRead trace ids (.ok looked.reduceOption)
  | failed {failure} (why : LookupFailed trace ids failure) : DrepsRead trace ids (.error failure)

/-- However its requests and their answers interleave, a read of DReps by id returns for each id, in
the order of the ids, what the lookups of that very id came to. An id without a DRep is left out,
no DRep is published without a credential of 28 bytes, and a document that cannot be read costs
neither its DRep nor the read, which fails with a lookup of the deposit or of an id alone. -/
theorem getDrepInfo_lookups (ids : List String) (trace : List (Exchange T Request.Answer))
    (outcome : Except Failure (List DrepInfo)) (runs : (getDrepInfo ids).Runs trace outcome) :
    DrepsRead trace ids outcome ∧
      ∀ dreps, outcome = .ok dreps → dreps.length ≤ ids.length ∧ ∀ drep ∈ dreps, Published drep := by
  have read : DrepsRead trace ids outcome := by
    rw [getDrepInfo] at runs
    split at runs
    case isTrue empty =>
      obtain ⟨rfl, rfl⟩ := runs
      exact .nothing (List.length_eq_zero_iff.mp empty) rfl
    case isFalse =>
      obtain ⟨first, rest, deposit, rfl, params, continued⟩ | ⟨failure, params, rfl⟩ :=
        Async.runs_bind.mp runs
      · obtain ⟨t, row, rfl, same⟩ | ⟨failure, same, -⟩ := governanceParams_runs params
        · cases same
          obtain ⟨looked, pause, found, rfl, mapped, rfl, rfl⟩ | ⟨failure, failed, rfl⟩ :=
            Async.runs_bind.mp continued
          · have inside : looked.Sublist ([⟨t, .latestParameters, .ok (some row)⟩] ++ (looked ++ [])) := by
              rw [List.append_nil]
              exact List.sublist_append_right ..
            refine .found List.mem_cons_self ((fanOut_each mapped).imp ?_)
            rintro id result ⟨-, -, part, sub, ran⟩
            exact (lookupDrep_returns ran).mono (sub.trans inside)
          · obtain ⟨i, bound, part, sub, ran⟩ := fanOut_fails failed
            obtain ⟨t', asked⟩ := lookupDrep_fails ran
            exact .failed (.drep (List.getElem_mem bound)
              (List.mem_append_right _ (sub.subset asked)))
        · cases same
      · obtain ⟨_, _, -, same⟩ | ⟨failure', same, why⟩ := governanceParams_runs params
        · cases same
        · cases same
          exact .failed (why ids)
  refine ⟨read, ?_⟩
  rintro dreps rfl
  cases read with
  | nothing empty =>
    exact ⟨Nat.zero_le _, nofun⟩
  | @found t row looked asked each =>
    refine ⟨(List.reduceOption_length_le looked).trans each.length_eq.ge, fun drep member => ?_⟩
    obtain ⟨i, bound, there⟩ := List.getElem_of_mem (List.reduceOption_mem_iff.mp member)
    have pair := (List.forall₂_iff_get.mp each).2 i (each.length_eq ▸ bound) bound
    simp only [List.get_eq_getElem, there] at pair
    exact pair.published

/-- The lookups of three ids: the option to abstain, a DRep whose document cannot be read, and an id
that is not known. -/
def lookedUp : List (Exchange Unit Request.Answer) :=
  [⟨(), .latestParameters, .ok (some ⟨some (.digits "12" powerText_digits)⟩)⟩,
    ⟨(), .drep "drep_always_abstain", .ok (some abstainRow)⟩,
    ⟨(), .drep "drep1voting", .ok (some (credentialRow "drep1voting" false))⟩,
    ⟨(), .drepMetadata "drep1voting", .error (.timeout "blockfrost request timed out")⟩,
    ⟨(), .drep "drep1gone", .ok none⟩]

/-- What is published of the one that is a DRep. -/
def voting : DrepInfo := mapDrepInfo (credentialRow "drep1voting" false) "12" .none

theorem lookedUp_runs :
    (getDrepInfo ["drep_always_abstain", "drep1voting", "drep1gone"]).Runs lookedUp (.ok [voting]) := by
  have abstain : (lookupDrep "12" "drep_always_abstain").Runs
      [⟨(), .drep "drep_always_abstain", .ok (some abstainRow)⟩] (.ok none) :=
    Async.runs_bind_ok.mpr ⟨_, [], _, (List.append_nil _).symm, runs_getOrUndefined.mpr ⟨(), rfl⟩,
      rfl, rfl⟩
  have unread : (drepAnchor "drep1voting").Runs
      [⟨(), .drepMetadata "drep1voting", .error (.timeout "blockfrost request timed out")⟩]
      (.ok .none) := by
    refine Async.runs_tryCatch.mpr (.inr ⟨[_], [], .timeout "blockfrost request timed out", rfl, ?_,
      rfl, rfl⟩)
    exact Async.runs_bind.mpr (.inr ⟨_, runs_getOrUndefined.mpr ⟨(), rfl⟩, rfl⟩)
  have found : (lookupDrep "12" "drep1voting").Runs
      [⟨(), .drep "drep1voting", .ok (some (credentialRow "drep1voting" false))⟩,
        ⟨(), .drepMetadata "drep1voting", .error (.timeout "blockfrost request timed out")⟩]
      (.ok (some voting)) := by
    refine Async.runs_bind_ok.mpr ⟨[_], [_], some (credentialRow "drep1voting" false), rfl,
      runs_getOrUndefined.mpr ⟨(), rfl⟩, ?_⟩
    exact Async.runs_bind_ok.mpr ⟨[_], [], .none, rfl, unread, rfl, rfl⟩
  have missing : (lookupDrep "12" "drep1gone").Runs [⟨(), .drep "drep1gone", .ok none⟩] (.ok none) :=
    Async.runs_bind_ok.mpr ⟨_, [], none, (List.append_nil _).symm, runs_getOrUndefined.mpr ⟨(), rfl⟩,
      rfl, rfl⟩
  have deposit : governanceParams.Runs
      [⟨(), .latestParameters, .ok (some ⟨some (.digits "12" powerText_digits)⟩)⟩] (.ok "12") :=
    Async.runs_bind_ok.mpr ⟨[_], [], ⟨some (.digits "12" powerText_digits)⟩, rfl,
      runs_get_ok.mpr ⟨(), rfl⟩, rfl, rfl⟩
  rw [getDrepInfo, if_neg (by decide)]
  refine Async.runs_bind_ok.mpr ⟨[_], _, "12", rfl, deposit, ?_⟩
  refine Async.runs_bind_ok.mpr ⟨_, [], [none, some voting, none], (List.append_nil _).symm, ?_, rfl, rfl⟩
  exact runs_fanOut [(_, none), (_, some voting), (_, none)] (by decide)
    (.cons abstain (.cons found (.cons missing .nil))) rfl rfl

theorem voting_published :
    DrepsRead lookedUp ["drep_always_abstain", "drep1voting", "drep1gone"] (.ok [voting]) ∧
      Published voting := by
  obtain ⟨read, published⟩ := getDrepInfo_lookups _ lookedUp _ lookedUp_runs
  exact ⟨read, (published _ rfl).2 voting (List.mem_singleton_self voting)⟩

end Lookups
end WalletBackend.Blockfrost.Governance
