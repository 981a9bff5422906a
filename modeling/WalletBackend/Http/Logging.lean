import Mathlib.Data.List.Basic
import WalletBackend.Domain.ByronAddress
import WalletBackend.Library.Hex
import WalletBackend.Library.Rewriting

/-! What may be written to the log: paths and messages without the identifiers of a wallet. -/
namespace WalletBackend.Http

def REDACTED : List Char := "[redacted]".toList
def MAX_DECODE_PASSES : Nat := 3

/-- `\w`. -/
def isWord (c : Char) : Bool := c.isAlphanum || c == '_'

/-- What follows a word that is spelled in any case. -/
def afterWord : (word text : List Char) → Option (List Char)
  | [], text => some text
  | w :: word, c :: text => if c.toLower = w then afterWord word text else none
  | _ :: _, [] => none

/-- What follows `(?:kind|…)(?:_test)?1`. -/
def afterHrp (kinds : List String) (text : List Char) : Option (List Char) :=
  kinds.findSome? fun kind => do
    let rest ← afterWord kind.toList text
    afterWord ['1'] ((afterWord "_test".toList rest).getD rest)

/-! ### Decoding -/

/-- A piece of an encoded component: itself, or the octet of an escape. -/
inductive Piece where
  | char (c : Char)
  | octet (value : Nat)

def hexValue (c : Char) : Nat :=
  if c.isDigit then c.toNat - '0'.toNat else c.toLower.toNat - 'a'.toNat + 10

def pieces : List Char → Option (List Piece)
  | [] => some []
  | '%' :: high :: low :: rest =>
      if Hex.isDigit high && Hex.isDigit low then
        (pieces rest).map (.octet (16 * hexValue high + hexValue low) :: ·)
      else none
  | '%' :: _ => none
  | c :: rest => (pieces rest).map (.char c :: ·)

/-- The character of a multibyte sequence, unless it is longer than it must be, a surrogate or no
code point at all. -/
def utf8Char (least lead : Nat) (trail : List Nat) : Option Char :=
  let code := trail.foldl (fun code octet => 64 * code + octet % 64) lead
  if (trail.all fun octet => octet / 64 == 2) && least ≤ code && decide code.isValidChar then
    some (.ofNat code)
  else none

def assemble : List Piece → Option (List Char)
  | [] => some []
  | .char c :: rest => (assemble rest).map (c :: ·)
  | .octet a :: rest =>
      if a < 0x80 then (assemble rest).map (Char.ofNat a :: ·)
      else
        match rest with
        | .octet b :: rest =>
            if a / 32 = 6 then do
              let c ← utf8Char 0x80 (a % 32) [b]
              (assemble rest).map (c :: ·)
            else
              match rest with
              | .octet b' :: rest =>
                  if a / 16 = 14 then do
                    let c ← utf8Char 0x800 (a % 16) [b, b']
                    (assemble rest).map (c :: ·)
                  else
                    match rest with
                    | .octet b'' :: rest =>
                        if a / 8 = 30 then do
                          let c ← utf8Char 0x10000 (a % 8) [b, b', b'']
                          (assemble rest).map (c :: ·)
                        else none
                    | _ => none
              | _ => none
        | _ => none

/-- `none` is a URIError. -/
def decodeURIComponent (text : List Char) : Option (List Char) := (pieces text).bind assemble

/-- `/%[0-9a-fA-F]{2}/`. -/
def hasEscape : List Char → Bool
  | '%' :: high :: low :: rest =>
      (Hex.isDigit high && Hex.isDigit low) || hasEscape (high :: low :: rest)
  | _ :: rest => hasEscape rest
  | [] => false

/-! ### Paths -/

/-- `/^stake(_test)?1[0-9a-z]+$/i`. -/
def isStakeAddress (text : List Char) : Bool :=
  match afterHrp ["stake"] text with
  | some rest => !rest.isEmpty && rest.all Char.isAlphanum
  | none => false

/-- `/^[0-9a-fA-F]{64}$/`. -/
def isTxHash (text : List Char) : Bool := text.length == 64 && text.all Hex.isDigit

/-- The loop of `scrubSegment`, with the passes that are left. -/
def scrubDecoded (segment : List Char) : (passes : Nat) → (decoded : List Char) → List Char
  | 0, _ => REDACTED
  | passes + 1, decoded =>
      match decodeURIComponent decoded with
      | none => REDACTED
      | some decoded =>
          if isStakeAddress decoded || isTxHash decoded then REDACTED
          else if !hasEscape decoded then segment
          else scrubDecoded segment passes decoded

def scrubSegment (segment : List Char) : List Char :=
  scrubDecoded segment MAX_DECODE_PASSES segment

def scrubPath (url : List Char) : List Char :=
  let parts := url.splitOn '?'
  let scrubbed := ['/'].intercalate (((parts.head?.getD []).splitOn '/').map scrubSegment)
  match parts.tail.head? with
  | none => scrubbed
  | some query => scrubbed ++ '?' :: query

/-! ### Messages -/

/-- `\b`. -/
def isBoundary (before after : Option Char) : Bool := before.any isWord != after.any isWord

/-- `/\b(?:stake|addr)(?:_test)?1[0-9a-z]{20,}/i`, with the length of the match. -/
def WALLET_BECH32 (before : Option Char) (text : List Char) : Option Nat :=
  if isBoundary before text.head? then
    (afterHrp ["stake", "addr"] text).bind fun rest =>
      let run := rest.takeWhile Char.isAlphanum
      if 20 ≤ run.length then some (text.length - rest.length + run.length) else none
  else none

/-- `/\b[0-9a-f]{64}\b/i`. -/
def HASH_HEX (before : Option Char) (text : List Char) : Option Nat :=
  if isBoundary before text.head? && isTxHash (text.take 64) && isBoundary text[63]? text[64]? then
    some 64
  else none

/-- `[1-9A-HJ-NP-Za-km-z]`. -/
def isBase58 (c : Char) : Bool :=
  ('1' ≤ c && c ≤ '9') || ('A' ≤ c && c ≤ 'H') || ('J' ≤ c && c ≤ 'N') || ('P' ≤ c && c ≤ 'Z') ||
    ('a' ≤ c && c ≤ 'k') || ('m' ≤ c && c ≤ 'z')

/-- `/\b[1-9A-HJ-NP-Za-km-z]{40,}\b/`. A shorter run than the longest ends inside a word. -/
def BYRON_CANDIDATE (before : Option Char) (text : List Char) : Option Nat :=
  let run := text.takeWhile isBase58
  if isBoundary before text.head? && decide (40 ≤ run.length) &&
      isBoundary run.getLast? text[run.length]? then
    some run.length
  else none

def scrubMessage (base58 : String → Option (List UInt8)) (message : List Char) : List Char :=
  let message := Rewriting.replaceAll WALLET_BECH32 (fun _ => REDACTED) message
  let message := Rewriting.replaceAll HASH_HEX (fun _ => REDACTED) message
  Rewriting.replaceAll BYRON_CANDIDATE
    (fun candidate =>
      if Byron.isByronAddress base58 (String.ofList candidate) then REDACTED else candidate)
    message


end WalletBackend.Http
