import WalletBackend.Domain.Numbers
import WalletBackend.Library.Binary64
import WalletBackend.Library.IpText

/-! The `TRUST_PROXY` setting of `config/index.ts`: which hosts may name the client. -/
namespace WalletBackend.Config

open IpText

structure ConfigError where
  message : String
  deriving DecidableEq

inductive Family where
  | four
  | six
  deriving DecidableEq

def Family.width : Family → Nat
  | .four => 32
  | .six => 128

/-- `isIP`, with `none` for 0; and `new URL('http://[address]').hostname`, without the brackets,
with `none` for a throw. -/
structure Platform where
  isIP : List Char → Option Family
  hostname : List Char → Option (List Char)

def MIN_TRUSTED_PREFIX : Nat := 8
def IPV4_MAPPED_PREFIX : List Nat := [0, 0, 0, 0, 0, 0, 0, 0, 0, 0, 0xff, 0xff, 0, 0, 0, 0]
def IPV4_MAPPED_PREFIX_BITS : Nat := 96

/-- `Number.parseInt(text, 16)` of a text without blanks, sign or `0x`, with `none` for NaN. -/
def parseHex (text : List Char) : Option Nat :=
  let digits := text.takeWhile fun c => (hexDigit c).isSome
  if digits = [] then none else some (hexNumber digits)

def ipv6Bytes (platform : Platform) (address : List Char) : Option (List Nat) := do
  let canonical ← platform.hostname address
  let parts := splitDouble canonical
  let headGroups := partsOf (parts.head?.getD [])
  let tail := parts[1]?
  let tailGroups := partsOf (tail.getD [])
  let missing : Int := 8 - headGroups.length - tailGroups.length
  if (match tail with | none => missing != 0 | some _ => decide (missing < 0)) then none
  else do
    let groups := headGroups ++ (List.replicate missing.toNat ['0'] ++ tailGroups)
    let values ← groups.mapM parseHex
    some (values.flatMap fun value => [value / 256 % 256, value % 256])

def sharesPrefix (left right : List Nat) (bits : Nat) : Bool :=
  (List.range bits).all fun bit =>
    let mask := 0x80 >>> (bit &&& 7)
    (left[bit >>> 3]?.getD 0) &&& mask == (right[bit >>> 3]?.getD 0) &&& mask

def unzoned (address : List Char) : List Char := address.takeWhile (· != '%')

/-- The number behind the slash, if there is one. -/
def readPrefix (family : Family) : (rawPrefix : Option (List Char)) → Option (Option Nat)
  | none => some none
  | some rawPrefix =>
      let value := Nat.ofDigitChars 10 rawPrefix 0
      if rawPrefix = [] ∨ ¬ rawPrefix.all Char.isDigit then none
      else if maxSafeInteger < value ∨ family.width < value then none
      else some (some value)

/-- An IPv6 entry inside the mapped block as the IPv4 entry it means; none that contains it. -/
def unmapped (platform : Platform) (address : List Char) (prefixLength : Option Nat) :
    Option (List Char × Option Nat) :=
  match ipv6Bytes platform (unzoned address) with
  | none => some (address, prefixLength)
  | some bytes =>
      let width := prefixLength.getD 128
      if IPV4_MAPPED_PREFIX_BITS < width then
        if sharesPrefix bytes IPV4_MAPPED_PREFIX IPV4_MAPPED_PREFIX_BITS then
          some (dotted ((bytes.drop 12).take 4),
            prefixLength.map fun length => length - IPV4_MAPPED_PREFIX_BITS)
        else some (address, prefixLength)
      else if sharesPrefix bytes IPV4_MAPPED_PREFIX width then none
      else some (address, prefixLength)

def entryText (address : List Char) : (prefixLength : Option Nat) → List Char
  | none => address
  | some length => address ++ '/' :: Nat.toDigits 10 length

def normalizeParts (platform : Platform) (address : List Char) (rawPrefix : Option (List Char)) :
    Option (List Char) := do
  let family ← platform.isIP address
  let prefixLength ← readPrefix family rawPrefix
  let entry ←
    if family = .six then unmapped platform address prefixLength else some (address, prefixLength)
  if entry.2.any (· < MIN_TRUSTED_PREFIX) then none else some (entryText entry.1 entry.2)

/-- The callback of `proxies.map`, with `none` for `reject()`. -/
def normalizeProxy (platform : Platform) (proxy : List Char) : Option (List Char) :=
  let parts := proxy.splitOn '/'
  if parts[2]?.isSome then none
  else normalizeParts platform (parts.head?.getD []) parts[1]?

def rejection (proxy : List Char) : ConfigError where
  message :=
    "invalid TRUST_PROXY entry \"" ++ String.ofList proxy ++
      "\"; use comma-separated IP addresses or CIDR ranges, none wider than a /" ++
      toString MIN_TRUSTED_PREFIX

def trim (text : List Char) : List Char :=
  (text.dropWhile Binary64.isWhiteSpace).rdropWhile Binary64.isWhiteSpace

def proxies (raw : List Char) : List (List Char) :=
  ((raw.splitOn ',').map trim).filter (!·.isEmpty)

def acceptProxy (platform : Platform) (proxy : List Char) : Except ConfigError (List Char) :=
  match normalizeProxy platform proxy with
  | none => .error (rejection proxy)
  | some entry => .ok entry

def parseTrustedProxies (platform : Platform) (raw : List Char) :
    Except ConfigError (List (List Char)) := do
  let normalized ← (proxies raw).mapM (acceptProxy platform)
  pure normalized.eraseDups

end WalletBackend.Config
