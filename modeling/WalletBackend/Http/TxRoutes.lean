import WalletBackend.Blockfrost.RefLookups
import WalletBackend.Domain.Casing
import WalletBackend.Koios.RefLookups
import WalletBackend.Providers.Submission

/-! The bodies that the routes of `tx.ts` take: a transaction to submit, and references to outputs to
look up. Whatever spelling a caller has chosen, the driver is handed one that denotes the same. -/
namespace WalletBackend.Http

def SUBMIT_BODY_ERROR : String := "body must be \x7b \"cbor\": \"<hex-encoded transaction>\" \x7d"

def UTXO_REFS_BODY_ERROR : String :=
  "body must be \x7b \"refs\": [\"<txHash>#<index>\", ...] \x7d (1 to 100)"

/-- A member of the body, if that is an object. -/
def bodyMember (body : Option Json) (key : String) : Option Json :=
  match body with
  | some (.object property) => property key
  | _ => none

section Submit

/-- `/^([0-9a-fA-F]{2})+$/`. -/
def isWholeBytes : List Char → Bool
  | [high, low] => Hex.isDigit high && Hex.isDigit low
  | high :: low :: rest => Hex.isDigit high && Hex.isDigit low && isWholeBytes rest
  | _ => false

/-- `submitBody`. -/
def submitBody (body : Option Json) : Option String :=
  match bodyMember body "cbor" with
  | some (.string cbor) => if isWholeBytes cbor.toList then some cbor else none
  | _ => none

/-- `/v1/tx/submit`, up to the request of the driver. -/
def txSubmit (submitTx : String → Except BadRequest Submission) (body : Option Json) :
    Except BadRequest Submission :=
  match submitBody body with
  | none => .error ⟨SUBMIT_BODY_ERROR⟩
  | some cbor => submitTx cbor

/-- The transaction that a body carries. -/
def Carries (body : Option Json) (bytes : List UInt8) : Prop :=
  ∃ cbor, bodyMember body "cbor" = some (.string cbor) ∧ SpellsBytes cbor bytes ∧ bytes ≠ []

theorem isWholeBytes_iff (chars : List Char) :
    isWholeBytes chars = true ↔ chars ≠ [] ∧ (Hex.decode chars).isSome = true := by
  induction chars using isWholeBytes.induct with
  | case1 high low =>
    rw [Hex.decode_isSome, isWholeBytes]
    simp
  | case2 high low rest more ih =>
    have some_ : rest ≠ [] := fun empty => more (by rw [empty])
    rw [isWholeBytes]
    · rw [Bool.and_eq_true, ih, Hex.decode_isSome, Hex.decode_isSome, List.length_cons,
        List.length_cons, Nat.add_assoc, Nat.add_mod_right, List.all_cons, List.all_cons]
      simp [some_]
      tauto
    · exact more
  | case3 chars short long =>
    match chars with
    | [] => simp [isWholeBytes]
    | [c] => simp [isWholeBytes, Hex.decode]
    | [high, low] => exact absurd rfl (short high low)
    | high :: low :: third :: rest => exact absurd rfl (long high low (third :: rest))

/-- What passes the check of the route is the hex of some bytes. -/
theorem submitBody_some {body : Option Json} {cbor : String} :
    submitBody body = some cbor ↔ bodyMember body "cbor" = some (.string cbor) ∧
      ∃ bytes, bytes ≠ [] ∧ SpellsBytes cbor bytes := by
  have whole : isWholeBytes cbor.toList = true ↔ ∃ bytes, bytes ≠ [] ∧ SpellsBytes cbor bytes := by
    rw [isWholeBytes_iff, Option.isSome_iff_exists]
    constructor
    · rintro ⟨some_, bytes, read⟩
      refine ⟨bytes, ?_, spelled_iff.mpr read⟩
      rintro rfl
      exact some_ (List.map_eq_nil_iff.mp (Hex.encode_decode read).symm)
    · rintro ⟨bytes, some_, spelled⟩
      refine ⟨fun empty => ?_, bytes, spelled_iff.mp spelled⟩
      have read := spelled_iff.mp spelled
      rw [empty] at read
      exact some_ (Option.some.inj read).symm
  rw [submitBody]
  constructor
  · intro taken
    split at taken
    case h_1 cbor' member =>
      obtain ⟨whole', same⟩ := Option.ite_none_right_eq_some.mp taken
      cases same
      exact ⟨member, whole.mp whole'⟩
    case h_2 => cases taken
  · rintro ⟨member, bytes⟩
    rw [member]
    exact if_pos (whole.mpr bytes)

theorem Carries.unique {body : Option Json} {bytes bytes' : List UInt8} (carries : Carries body bytes)
    (carries' : Carries body bytes') : bytes = bytes' := by
  obtain ⟨cbor, member, spelled, -⟩ := carries
  obtain ⟨cbor', member', spelled', -⟩ := carries'
  rw [member] at member'
  cases member'
  exact Hex.encode_injective (spelled.symm.trans spelled')

/-- A body is submitted if and only if it carries a transaction, and then exactly the bytes of that go
out, whichever driver sends them: none is lost on the way, and the driver refuses nothing that
the route has let through. -/
theorem txSubmit_exact (path : String) (body : Option Json) :
    (∀ submission, txSubmit (submitTo path) body = .ok submission ↔
      ∃ bytes, Carries body bytes ∧ submission = ⟨path, bytes, "application/cbor"⟩) ∧
    (∀ refusal, txSubmit (submitTo path) body = .error refusal ↔
      refusal = ⟨SUBMIT_BODY_ERROR⟩ ∧ ¬ ∃ bytes, Carries body bytes) ∧
    ∀ bytes bytes', Carries body bytes → Carries body bytes' → bytes = bytes' := by
  refine ⟨fun submission => ?_, fun refusal => ?_, fun _ _ => Carries.unique⟩
  · rw [txSubmit]
    cases taken : submitBody body with
    | none =>
      refine iff_of_false nofun ?_
      rintro ⟨bytes, ⟨cbor, member, spelled, some_⟩, -⟩
      rw [submitBody_some.mpr ⟨member, bytes, some_, spelled⟩] at taken
      cases taken
    | some cbor =>
      have member := (submitBody_some.mp taken).1
      refine submitTo_ok.trans (exists_congr fun bytes => ?_)
      constructor
      · rintro ⟨some_, spelled, same⟩
        exact ⟨⟨cbor, member, spelled, some_⟩, same⟩
      · rintro ⟨⟨cbor', member', spelled, some_⟩, same⟩
        rw [member] at member'
        cases member'
        exact ⟨some_, spelled, same⟩
  · rw [txSubmit]
    cases taken : submitBody body with
    | none =>
      have nothing : ¬ ∃ bytes, Carries body bytes := by
        rintro ⟨bytes, cbor, member, spelled, some_⟩
        rw [submitBody_some.mpr ⟨member, bytes, some_, spelled⟩] at taken
        cases taken
      simp only [Except.error.injEq, nothing, not_false_eq_true, and_true]
      exact eq_comm
    | some cbor =>
      obtain ⟨member, bytes, some_, spelled⟩ := submitBody_some.mp taken
      have sent : submitTo path cbor = .ok ⟨path, bytes, "application/cbor"⟩ :=
        submitTo_ok.mpr ⟨bytes, some_, spelled, rfl⟩
      refine iff_of_false (fun refused => ?_) fun ⟨_, nothing⟩ => ?_
      · cases sent.symm.trans refused
      · exact nothing ⟨bytes, cbor, member, spelled, some_⟩

end Submit

section References

/-- The classes of the characters of an alternative of a pattern, in order. -/
abbrev Alternative := List (Char × Char)

def Alternative.accepts : Alternative → List Char → Bool
  | [], [] => true
  | (low, high) :: classes, c :: rest => (low ≤ c && c ≤ high) && Alternative.accepts classes rest
  | _, _ => false

def DIGIT : Char × Char := ('0', '9')

def MAX_OUTPUT_INDEX : Nat := 32767

/-- What `UTXO_REF` has after the `#`, where `[0-9]{1,4}` is four alternatives. -/
def OUTPUT_INDEX : List Alternative :=
  [[DIGIT], [DIGIT, DIGIT], [DIGIT, DIGIT, DIGIT], [DIGIT, DIGIT, DIGIT, DIGIT],
    [('0', '0'), DIGIT, DIGIT, DIGIT, DIGIT],
    [('1', '2'), DIGIT, DIGIT, DIGIT, DIGIT],
    [('3', '3'), ('0', '1'), DIGIT, DIGIT, DIGIT],
    [('3', '3'), ('2', '2'), ('0', '6'), DIGIT, DIGIT],
    [('3', '3'), ('2', '2'), ('7', '7'), ('0', '5'), DIGIT],
    [('3', '3'), ('2', '2'), ('7', '7'), ('6', '6'), ('0', '7')]]

/-- `UTXO_REF`. -/
def isUtxoRef (ref : String) : Bool :=
  let hash := ref.toList.take 64
  hash.length == 64 && hash.all Hex.isDigit &&
    match ref.toList.drop 64 with
    | '#' :: index => OUTPUT_INDEX.any fun alternative => alternative.accepts index
    | _ => false

def normalizeUtxoRef (ref : String) : Option String :=
  if ¬ isUtxoRef ref then none
  else
    let index := Nat.ofDigitChars 10 (ref.toList.drop 65) 0
    if maxSafeInteger < index ∨ MAX_OUTPUT_INDEX < index then none
    else some (OutputRef.key ((String.ofList (ref.toList.take 64)).toLower, index))

/-- `z.array(z.string())`. -/
def strings : List Json → Option (List String)
  | [] => some []
  | .string value :: rest => (strings rest).map (value :: ·)
  | _ :: _ => none

/-- `utxoRefsBody`. -/
def utxoRefsBody (body : Option Json) : Option (List String) :=
  match bodyMember body "refs" with
  | some (.array items) => (strings items).filter fun refs => 1 ≤ refs.length && refs.length ≤ 100
  | _ => none

/-- The references that are read, and those that are not, in the order of the body. -/
def sortRefs : List String → List String × List String
  | [] => ([], [])
  | ref :: refs =>
      match normalizeUtxoRef ref with
      | none => ((sortRefs refs).1, ref :: (sortRefs refs).2)
      | some normalized => (normalized :: (sortRefs refs).1, (sortRefs refs).2)

def badRefs (bad : List String) : BadRequest :=
  ⟨"refs must be \"<64-char tx hash>#<output index>\": " ++ ", ".intercalate (bad.take 3)⟩

/-- `/v1/tx/utxos`, up to the call of the driver. -/
def txUtxos (body : Option Json) : Except BadRequest (List String) :=
  match utxoRefsBody body with
  | none => .error ⟨UTXO_REFS_BODY_ERROR⟩
  | some refs =>
      let (normalizedRefs, bad) := sortRefs refs
      if 0 < bad.length then .error (badRefs bad) else .ok normalizedRefs

end References

end WalletBackend.Http
