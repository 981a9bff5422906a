import WalletBackend.Domain.Casing
import WalletBackend.Library.Numerals
import WalletBackend.Library.UrlText

/-! Signed URLs of `nftcdn.ts`. The key stays with the service: whoever is given a URL can use it, and
it leads nowhere but to the media of the asset that it was signed for. -/
namespace WalletBackend.Media
open UrlText

def NFTCDN_SIZES : List Nat := [32, 64, 128, 256, 512, 1024]
def MAX_SIZE : Nat := 1024

/-- `/^(?=.{1,63}$)[a-z0-9](?:[a-z0-9-]*[a-z0-9])?$/`, as the configuration has checked. -/
def isDnsLabel (text : String) : Bool :=
  let edge (c : Char) := c.isDigit || ('a' ≤ c && c ≤ 'z')
  1 ≤ text.length && text.length ≤ 63 && text.toList.all (fun c => edge c || c == '-') &&
    text.toList.head?.all edge && text.toList.getLast?.all edge

structure NftcdnConfig where
  subdomain : String
  secretKeyBase64 : String
  label : isDnsLabel subdomain = true

/-- HMAC-SHA256 of a text under the key that a secret encodes. -/
abbrev Hmac := String → List Char → List UInt8

structure NftcdnSigner where
  imageUrl : String → Option Nat → String
  metadataUrl : String → String

/-- The smallest size that fits, or the largest there is. -/
def snapSize (requested : Nat) : Nat :=
  (NFTCDN_SIZES.find? fun size => requested ≤ size).getD MAX_SIZE

def FINGERPRINT_BYTES : Nat := 20

def isAssetFingerprint (bech32 : Bech32) (value : String) : Bool :=
  (bech32.decodeUnsafe value 90).any fun decoded =>
    decoded.hrp == "asset" &&
      (bech32.fromWordsUnsafe decoded.words).any fun bytes => bytes.length == FINGERPRINT_BYTES

section Sign

variable (hmac : Hmac) (config : NftcdnConfig)

def hostOf (fingerprint : String) : List Char :=
  fingerprint.toList ++ '.' :: config.subdomain.toList ++ ".nftcdn.io".toList

/-- `tk` comes last, and is empty in what is signed. -/
def sign (fingerprint route : String) (params : List (List Char × List Char)) : String :=
  let target := "https://".toList ++ hostOf config fingerprint ++ route.toList
  let unsigned := target ++ '?' :: serialize (params ++ [("tk".toList, [])])
  let token := base64url (hmac config.secretKeyBase64 unsigned)
  String.ofList (target ++ '?' :: serialize (params ++ [("tk".toList, token)]))

def sizeParams (size : Option Nat) : List (List Char × List Char) :=
  match size with
  | none => []
  | some size => [("size".toList, (toString (snapSize size)).toList)]

def createNftcdnSigner : NftcdnSigner where
  imageUrl fingerprint size := sign hmac config fingerprint "/image" (sizeParams size)
  metadataUrl fingerprint := sign hmac config fingerprint "/metadata" []

/-- The published check: `tk` comes last, and signs the URL up to it. -/
def verifies (secret : String) (url : List Char) : Bool :=
  match (pairs (query url)).getLast? with
  | some (name, token) =>
      name == "tk".toList &&
        token == base64url (hmac secret (url.take (url.length - token.length)))
  | none => false

/-- A URL of the asset that NFTCDN takes, at a host of its own. -/
structure Genuine (fingerprint route : String) (params : List (List Char × List Char)) (url : String) :
    Prop where
  scheme : "https://".toList <+: url.toList
  labels : (authority url.toList).splitOn '.' =
    [fingerprint.toList, config.subdomain.toList, "nftcdn".toList, "io".toList]
  route : UrlText.path url.toList = route.toList
  params : ∃ token, pairs (query url.toList) = params ++ [("tk".toList, token)]
  signed : verifies hmac config.secretKeyBase64 url.toList = true

end Sign

section Sizes

theorem snapSize_mem (requested : Nat) : snapSize requested ∈ NFTCDN_SIZES := by
  rw [snapSize]
  cases found : NFTCDN_SIZES.find? fun size => requested ≤ size with
  | none => decide
  | some size => exact List.mem_of_find?_eq_some found

/-- No size below the one that is served would do. -/
theorem snapSize_least {requested size : Nat} (offered : size ∈ NFTCDN_SIZES) (fits : requested ≤ size) :
    requested ≤ snapSize requested ∧ snapSize requested ≤ size := by
  have sorted : NFTCDN_SIZES.Pairwise (· ≤ ·) := by decide
  rw [snapSize]
  cases found : NFTCDN_SIZES.find? fun size => requested ≤ size with
  | none => exact absurd (decide_eq_true fits) (List.find?_eq_none.mp found size offered)
  | some first =>
    obtain ⟨enough, before, rest, split, small⟩ := List.find?_eq_some_iff_append.mp found
    refine ⟨of_decide_eq_true enough, ?_⟩
    rw [split] at offered sorted
    obtain earlier | here := List.mem_append.mp offered
    · have short := small size earlier
      rw [decide_eq_true fits] at short
      cases short
    · obtain rfl | later := List.mem_cons.mp here
      · exact Nat.le_refl _
      · exact List.rel_of_pairwise_cons (List.pairwise_append.mp sorted).2.1 later

end Sizes

section Fingerprints

variable {bech32 : Bech32} {config : NftcdnConfig}

theorem isPlain_alphanum {c : Char} (letter : c.isAlphanum = true) : isPlain c = true := by
  rw [isPlain, letter, Bool.true_or]

/-- A fingerprint is letters and digits, so it is one label of a host. -/
theorem fingerprint_letters (documented : bech32.Documented) {value : String}
    (valid : isAssetFingerprint bech32 value = true) : ∀ c ∈ value.toList, c.isAlphanum = true := by
  simp only [isAssetFingerprint, Option.any_eq_true, Bool.and_eq_true, beq_iff_eq] at valid
  obtain ⟨decoded, found, hrp, -⟩ := valid
  obtain ⟨data, spelled, alphanumeric⟩ := documented.shape _ _ _ found
  rw [hrp] at spelled
  have chars := congrArg String.toList spelled
  rw [toList_toLower, String.toList_append, String.toList_append] at chars
  intro c member
  have lower : c.toLower.isAlphanum = true := by
    have there : c.toLower ∈ "asset".toList ++ "1".toList ++ data.toList :=
      chars ▸ List.mem_map_of_mem member
    obtain front | back := List.mem_append.mp there
    · have known : ∀ c ∈ "asset".toList ++ "1".toList, c.isAlphanum = true :=
        List.all_eq_true.mp (by decide)
      exact known _ front
    · exact alphanumeric _ back
  obtain same | capital := charToLower_eq c
  · rwa [same] at lower
  · have each : ∀ n < 91, 65 ≤ n → (Char.ofNat n).isAlphanum = true := by decide
    have letter := each c.toNat (by omega) capital.1
    rwa [Char.ofNat_toNat] at letter

end Fingerprints

section Genuine

variable {hmac : Hmac} {config : NftcdnConfig}

theorem subdomain_clean {c : Char} (other : c = '.' ∨ c = '/') : c ∉ config.subdomain.toList := by
  have label := config.label
  simp only [isDnsLabel, Bool.and_eq_true] at label
  intro member
  have letter := List.all_eq_true.mp label.1.1.2 c member
  obtain rfl | rfl := other
  · exact absurd letter (by decide)
  · exact absurd letter (by decide)

theorem letters_clean {fingerprint : String} (letters : ∀ c ∈ fingerprint.toList, c.isAlphanum = true)
    {c : Char} (other : c.isAlphanum = false) : c ∉ fingerprint.toList :=
  fun member => absurd (letters c member) (ne_true_of_eq_false other)

theorem hostOf_clean {fingerprint : String}
    (letters : ∀ c ∈ fingerprint.toList, c.isAlphanum = true) : '/' ∉ hostOf config fingerprint := by
  have zone : '/' ∉ ".nftcdn.io".toList := by decide
  rw [hostOf]
  intro member
  obtain front | back := List.mem_append.mp member
  · obtain own | sub := List.mem_append.mp front
    · exact letters_clean letters (by decide) own
    · obtain same | later := List.mem_cons.mp sub
      · exact absurd same (by decide)
      · exact subdomain_clean (.inr rfl) later
  · exact zone back

theorem hostOf_labels {fingerprint : String}
    (letters : ∀ c ∈ fingerprint.toList, c.isAlphanum = true) :
    (hostOf config fingerprint).splitOn '.' =
      [fingerprint.toList, config.subdomain.toList, "nftcdn".toList, "io".toList] := by
  have joined (own sub : List Char) : own ++ '.' :: sub ++ ".nftcdn.io".toList =
      ['.'].intercalate [own, sub, "nftcdn".toList, "io".toList] := by
    simp [List.intercalate_cons_cons]
  have apart : ∀ label ∈ [fingerprint.toList, config.subdomain.toList, "nftcdn".toList, "io".toList],
      '.' ∉ label := by
    simp only [List.forall_mem_cons]
    exact ⟨letters_clean letters (by decide), subdomain_clean (.inl rfl), by decide, by decide, nofun⟩
  rw [hostOf, joined]
  exact List.splitOn_intercalate '.' apart (List.cons_ne_nil _ _)

/-- The text that is signed. -/
def unsignedOf (config : NftcdnConfig) (fingerprint route : String)
    (params : List (List Char × List Char)) : List Char :=
  "https://".toList ++ hostOf config fingerprint ++ route.toList ++
    '?' :: serialize (params ++ [("tk".toList, [])])

def tokenOf (hmac : Hmac) (config : NftcdnConfig) (fingerprint route : String)
    (params : List (List Char × List Char)) : List Char :=
  base64url (hmac config.secretKeyBase64 (unsignedOf config fingerprint route params))

variable {fingerprint route : String} {params : List (List Char × List Char)}

theorem toList_sign : (sign hmac config fingerprint route params).toList =
    "https://".toList ++ hostOf config fingerprint ++ route.toList ++
      '?' :: serialize (params ++ [("tk".toList, tokenOf hmac config fingerprint route params)]) := by
  unfold sign tokenOf unsignedOf
  simp only [String.toList_ofList]

/-- The signature follows what it signs. -/
theorem sign_chars : (sign hmac config fingerprint route params).toList =
    unsignedOf config fingerprint route params ++ tokenOf hmac config fingerprint route params := by
  have token : Plain (tokenOf hmac config fingerprint route params) := base64url_plain _
  have regroup (front serialized last : List Char) :
      front ++ '?' :: (serialized ++ last) = (front ++ '?' :: serialized) ++ last :=
    (List.append_assoc front ('?' :: serialized) last).symm
  rw [toList_sign, serialize_last params _ token]
  exact regroup ("https://".toList ++ hostOf config fingerprint ++ route.toList)
    (serialize (params ++ [("tk".toList, [])])) (tokenOf hmac config fingerprint route params)

/-- The same, by the parts of a URL. -/
theorem sign_parts {rest : List Char} (rooted : route.toList = '/' :: rest) :
    (sign hmac config fingerprint route params).toList =
      "https://".toList ++ hostOf config fingerprint ++ '/' :: rest ++
        '?' :: serialize (params ++ [("tk".toList, tokenOf hmac config fingerprint route params)]) := by
  rw [toList_sign, rooted]

theorem sign_genuine (letters : ∀ c ∈ fingerprint.toList, c.isAlphanum = true)
    (plain : ∀ param ∈ params, Plain param.1 ∧ Plain param.2) {rest : List Char}
    (rooted : route.toList = '/' :: rest) (clean : '?' ∉ rest) :
    Genuine hmac config fingerprint route params (sign hmac config fingerprint route params) := by
  obtain ⟨host, path, query⟩ := parts_eq (hostOf_clean letters) clean
  rw [← sign_parts rooted] at host path query
  have name : Plain "tk".toList := List.all_eq_true.mp (by decide)
  have read : pairs (UrlText.query (sign hmac config fingerprint route params).toList) =
      params ++ [("tk".toList, tokenOf hmac config fingerprint route params)] := by
    rw [query]
    refine pairs_serialize (by simp) fun param member => ?_
    obtain earlier | last := List.mem_append.mp member
    · exact plain param earlier
    · rw [List.mem_singleton.mp last]
      exact ⟨name, base64url_plain _⟩
  refine ⟨?_, ?_, path.trans rooted.symm, ⟨_, read⟩, ?_⟩
  · rw [sign_parts rooted, List.append_assoc, List.append_assoc]
    exact List.prefix_append ..
  · rw [host]
    exact hostOf_labels letters
  · have front : (sign hmac config fingerprint route params).toList.take
        ((sign hmac config fingerprint route params).toList.length -
          (tokenOf hmac config fingerprint route params).length) =
        unsignedOf config fingerprint route params := by
      rw [sign_chars, List.length_append, Nat.add_sub_cancel, List.take_left]
    rw [verifies, read, List.getLast?_concat]
    simp only [front, beq_self_eq_true, Bool.true_and]
    exact beq_iff_eq.mpr rfl

end Genuine

end WalletBackend.Media
