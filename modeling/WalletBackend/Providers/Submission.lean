import WalletBackend.Http.AccountRoutes
import WalletBackend.Library.Hex

/-! `submitTx` of both drivers, which differ in the path alone. The transaction arrives in hex and goes
out as bytes, and `Buffer.from` is lenient with what is no hex. -/
namespace WalletBackend
open Http (BadRequest)

/-- A write, as it is handed to the client of the driver. -/
structure Submission where
  path : String
  body : List UInt8
  contentType : String
  deriving DecidableEq

/-- `Buffer.from(text, 'hex')`: it stops without notice where the hex does. -/
def bufferFromHex (text : String) : List UInt8 := Hex.decodeUpTo text.toList

/-- `submitTx`, up to the request. -/
def submitTo (path cborHex : String) : Except BadRequest Submission :=
  if cborHex.toList ≠ [] ∧ cborHex.toList.all Hex.isDigit = true ∧ cborHex.length % 2 = 0 then
    .ok ⟨path, bufferFromHex cborHex, "application/cbor"⟩
  else .error ⟨"transaction must be a hex-encoded CBOR string"⟩

namespace Koios

def submitTx (cborHex : String) : Except BadRequest Submission := submitTo "/submittx" cborHex

end Koios

namespace Blockfrost

def submitTx (cborHex : String) : Except BadRequest Submission := submitTo "/tx/submit" cborHex

end Blockfrost

/-- The text is hex of `bytes`, in either case. -/
def SpellsBytes (text : String) (bytes : List UInt8) : Prop :=
  text.toList.map Char.toLower = Hex.encode bytes

theorem spelled_iff {text : String} {bytes : List UInt8} :
    SpellsBytes text bytes ↔ Hex.decode text.toList = some bytes :=
  Hex.decode_eq_some_iff.symm

/-- What passes the check is a text of bytes, and all of them go out. -/
theorem submitTo_ok {path cborHex : String} {submission : Submission} :
    submitTo path cborHex = .ok submission ↔ ∃ bytes, bytes ≠ [] ∧ SpellsBytes cborHex bytes ∧
      submission = ⟨path, bytes, "application/cbor"⟩ := by
  rw [submitTo, bufferFromHex]
  constructor
  · intro sent
    split at sent
    case isTrue hex =>
      cases sent
      obtain ⟨some_, digits, even⟩ := hex
      have readable : (Hex.decode cborHex.toList).isSome = true := by
        rw [Hex.decode_isSome, digits, Bool.and_true, decide_eq_true_eq, String.length_toList]
        exact even
      obtain ⟨bytes, read⟩ := Option.isSome_iff_exists.mp readable
      refine ⟨bytes, ?_, spelled_iff.mpr read, by rw [Hex.decodeUpTo_of_decode read]⟩
      rintro rfl
      have written := Hex.encode_decode read
      exact some_ (List.map_eq_nil_iff.mp written.symm)
    case isFalse => cases sent
  · rintro ⟨bytes, some_, spelled, rfl⟩
    have read := spelled_iff.mp spelled
    have readable := congrArg Option.isSome read
    rw [Hex.decode_isSome, Option.isSome_some, Bool.and_eq_true, decide_eq_true_eq,
      String.length_toList] at readable
    have nonempty : cborHex.toList ≠ [] := by
      intro empty
      rw [empty] at read
      exact some_ (Option.some.inj read).symm
    rw [if_pos ⟨nonempty, readable.2, readable.1⟩, Hex.decodeUpTo_of_decode read]

end WalletBackend
