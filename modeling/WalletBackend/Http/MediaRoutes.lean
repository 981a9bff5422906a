import WalletBackend.Http.Spelling
import WalletBackend.Koios.Assets
import WalletBackend.Media.Nftcdn

/-! The routes of `media.ts`: signed URLs for a batch of assets, and a redirect for one. Whatever
caller names, no URL leaves the service that leads elsewhere than to the media of an asset. -/
namespace WalletBackend.Http
open Media
open JsonTree (Value)

inductive MediaError where
  | badRequest (message : String)
  | featureUnavailable (message : String)

def MAX_BATCH : Nat := 100

def MEDIA_UNAVAILABLE : String :=
  "asset media is not configured on this deployment: NFTCDN_SUBDOMAIN and NFTCDN_KEY are " ++
    "unset. The token metadata from /v1/assets/info still carries the raw on-chain image " ++
    "URI (usually ipfs://), which a client can resolve through a gateway of its own."

def MEDIA_BODY_ERROR : String :=
  "body must be \x7b \"fingerprints\": [<asset1...>, ...] (1 to 100), \"size\": <optional> \x7d"

def badFingerprints (bad : List String) : MediaError :=
  .badRequest ("not CIP-14 asset fingerprints: " ++ ", ".intercalate (bad.take 3) ++
    if 3 < bad.length then ", …" else "")

/-- A size that is given is coerced to a number. -/
def sizeParam : Option Value → Option (Option Nat)
  | none => some none
  | some value =>
      ((value.toNumber?.bind Koios.Assets.safeCount).filter fun size =>
        1 ≤ size && size ≤ 4096).map some

structure MediaRequest where
  fingerprints : List String
  size : Option Nat
  deriving DecidableEq

def fingerprintList : Option Value → Option (List String)
  | some (.array items) =>
      (items.mapM fun item : Value => item.string?.filter (· ≠ "")).filter fun fingerprints =>
        1 ≤ fingerprints.length && fingerprints.length ≤ MAX_BATCH
  | _ => none

/-- `mediaBody`. -/
def mediaBody : Option Value → Option MediaRequest
  | some (.object entries) => do
      let fingerprints ← fingerprintList (entries.lookup "fingerprints")
      let size ← sizeParam (entries.lookup "size")
      some ⟨fingerprints, size⟩
  | _ => none

structure MediaItem where
  fingerprint : String
  size : Option Nat
  image : String
  metadata : String

def requireSigner (signer : Option NftcdnSigner) : Except MediaError NftcdnSigner :=
  match signer with
  | some nftcdn => .ok nftcdn
  | none => .error (.featureUnavailable MEDIA_UNAVAILABLE)

def mediaItem (nftcdn : NftcdnSigner) (size : Option Nat) (fingerprint : String) : MediaItem where
  fingerprint := fingerprint
  size := size.map snapSize
  image := nftcdn.imageUrl fingerprint size
  metadata := nftcdn.metadataUrl fingerprint

/-- `/v1/assets/media`. -/
def assetsMedia (bech32 : Bech32) (signer : Option NftcdnSigner) (body : Option Value) :
    Except MediaError (List MediaItem) := do
  let nftcdn ← requireSigner signer
  match mediaBody body with
  | none => .error (.badRequest MEDIA_BODY_ERROR)
  | some request =>
      let bad := request.fingerprints.filter fun fingerprint => !isAssetFingerprint bech32 fingerprint
      if 0 < bad.length then .error (badFingerprints bad)
      else .ok (request.fingerprints.map (mediaItem nftcdn request.size))

/-- `/v1/assets/:fingerprint/image`, to where it redirects. -/
def assetImage (bech32 : Bech32) (signer : Option NftcdnSigner) (fingerprint : String)
    (size : Option Value) : Except MediaError String := do
  let nftcdn ← requireSigner signer
  if isAssetFingerprint bech32 fingerprint then
    match sizeParam size with
    | none => .error (.badRequest "size must be a positive integer")
    | some size => .ok (nftcdn.imageUrl fingerprint size)
  else .error (.badRequest "fingerprint must be a CIP-14 asset fingerprint (asset1...)")

section Signed

variable {bech32 : Bech32} {hmac : Hmac} {config : NftcdnConfig}

theorem sizeParams_plain (size : Option Nat) :
    ∀ param ∈ sizeParams size, UrlText.Plain param.1 ∧ UrlText.Plain param.2 := by
  cases size with
  | none => nofun
  | some size =>
    intro param member
    rw [List.mem_singleton.mp member]
    constructor
    · have name : "size".toList.all UrlText.isPlain = true := by decide
      exact List.all_eq_true.mp name
    · intro c digit
      rw [Numerals.toList_toString] at digit
      have numeral := Numerals.isDigit_of_mem digit
      exact isPlain_alphanum (by rw [Char.isAlphanum, numeral, Bool.or_true])

theorem imageUrl_genuine (documented : bech32.Documented) {fingerprint : String}
    (valid : isAssetFingerprint bech32 fingerprint = true) (size : Option Nat) :
    Genuine hmac config fingerprint "/image" (sizeParams size)
      ((createNftcdnSigner hmac config).imageUrl fingerprint size) :=
  sign_genuine (fingerprint_letters documented valid) (sizeParams_plain size) rfl (by decide)

theorem metadataUrl_genuine (documented : bech32.Documented) {fingerprint : String}
    (valid : isAssetFingerprint bech32 fingerprint = true) :
    Genuine hmac config fingerprint "/metadata" []
      ((createNftcdnSigner hmac config).metadataUrl fingerprint) :=
  sign_genuine (fingerprint_letters documented valid) nofun rfl (by decide)

theorem assetsMedia_ok {nftcdn : NftcdnSigner} {body : Option Value} {items : List MediaItem} :
    assetsMedia bech32 (some nftcdn) body = .ok items ↔ ∃ request, mediaBody body = some request ∧
      (∀ fingerprint ∈ request.fingerprints, isAssetFingerprint bech32 fingerprint = true) ∧
      items = request.fingerprints.map (mediaItem nftcdn request.size) := by
  simp only [assetsMedia, requireSigner, Bind.bind, Except.bind]
  cases parsed : mediaBody body with
  | none => simp
  | some request =>
    simp only [Option.some.injEq, exists_eq_left']
    split
    case isTrue some_ =>
      obtain ⟨bad, member⟩ := List.exists_mem_of_length_pos some_
      obtain ⟨there, refused⟩ := List.mem_filter.mp member
      refine iff_of_false nofun fun ⟨all, _⟩ => ?_
      rw [all bad there] at refused
      cases refused
    case isFalse none =>
      have all : ∀ fingerprint ∈ request.fingerprints, isAssetFingerprint bech32 fingerprint = true := by
        intro fingerprint there
        by_contra refused
        exact none (List.length_pos_of_mem (List.mem_filter.mpr
          ⟨there, by rw [Bool.eq_false_iff.mpr refused]; rfl⟩))
      rw [Except.ok.injEq, and_iff_right all]
      exact eq_comm

theorem assetImage_ok {nftcdn : NftcdnSigner} {fingerprint : String} {size : Option Value}
    {location : String} : assetImage bech32 (some nftcdn) fingerprint size = .ok location ↔
      isAssetFingerprint bech32 fingerprint = true ∧
        ∃ size', sizeParam size = some size' ∧ location = nftcdn.imageUrl fingerprint size' := by
  simp only [assetImage, requireSigner, Bind.bind, Except.bind]
  by_cases valid : isAssetFingerprint bech32 fingerprint = true
  · rw [if_pos valid, and_iff_right valid]
    cases sizeParam size with
    | none => simp
    | some size' =>
      simp only [Except.ok.injEq, Option.some.injEq, exists_eq_left']
      exact eq_comm
  · rw [if_neg valid]
    exact iff_of_false nofun fun ⟨holds, _⟩ => valid holds

/-- A batch is answered if all of it are fingerprints, in its own order. Each URL is one that NFTCDN
takes, at the host of the asset it stands next to, in the smallest size that will do; and so is the
one that an image is redirected to. -/
theorem media_genuine (documented : bech32.Documented) (hmac : Hmac) (config : NftcdnConfig) :
    (∀ body items, assetsMedia bech32 (some (createNftcdnSigner hmac config)) body = .ok items ↔
      ∃ request, mediaBody body = some request ∧
        (∀ fingerprint ∈ request.fingerprints, isAssetFingerprint bech32 fingerprint = true) ∧
        items = request.fingerprints.map (mediaItem (createNftcdnSigner hmac config) request.size)) ∧
    (∀ size fingerprint, isAssetFingerprint bech32 fingerprint = true →
      let item := mediaItem (createNftcdnSigner hmac config) size fingerprint
      Genuine hmac config fingerprint "/image" (sizeParams size) item.image ∧
      Genuine hmac config fingerprint "/metadata" [] item.metadata ∧
      ∀ asked, size = some asked → ∃ served ∈ NFTCDN_SIZES, item.size = some served ∧
        ∀ other ∈ NFTCDN_SIZES, asked ≤ other → asked ≤ served ∧ served ≤ other) ∧
    ∀ fingerprint size location,
      assetImage bech32 (some (createNftcdnSigner hmac config)) fingerprint size = .ok location →
        ∃ size', sizeParam size = some size' ∧
          Genuine hmac config fingerprint "/image" (sizeParams size') location := by
  refine ⟨fun body items => assetsMedia_ok, fun size fingerprint valid => ?_, ?_⟩
  · refine ⟨imageUrl_genuine documented valid size, metadataUrl_genuine documented valid, ?_⟩
    rintro asked rfl
    exact ⟨_, snapSize_mem asked, rfl, fun other => snapSize_least⟩
  · intro fingerprint size location redirected
    obtain ⟨valid, size', parsed, rfl⟩ := assetImage_ok.mp redirected
    exact ⟨size', parsed, imageUrl_genuine documented valid size'⟩

end Signed

def pictured : String := "asset1rjklcrnsdzqp65wjgrg55sy9723kw09mlgvlc3"

theorem preprod_label : isDnsLabel "preprod" = true := by
  decide

def picturedConfig : NftcdnConfig := ⟨"preprod", "c2VjcmV0", preprod_label⟩

def sketched : String := "asset1nl0puwxmhas8fawxp8nx4e2q3wekg969n2auw3"

theorem pictured_documented : (knownBech32 [pictured, sketched]).Documented := by
  refine knownBech32_documented fun text member => ?_
  obtain rfl | rfl := List.mem_pair.mp member
  · exact ⟨"rjklcrnsdzqp65wjgrg55sy9723kw09mlgvlc3", by decide, by decide⟩
  · exact ⟨"nl0puwxmhas8fawxp8nx4e2q3wekg969n2auw3", by decide, by decide⟩

def picturedSigner : NftcdnSigner :=
  createNftcdnSigner (fun _ text => [UInt8.ofNat text.length]) picturedConfig

/-- Two assets, in a size that is not offered. -/
def picturedBody : Value :=
  .object [("fingerprints", .array [.string sketched, .string pictured]), ("size", .string "100")]

theorem picturedBody_read : mediaBody (some picturedBody) = some ⟨[sketched, pictured], some 100⟩ := by
  decide +kernel

/-- Both are answered for, in the order asked and in the next size that is offered. -/
theorem pictured_genuine : ∃ items,
    assetsMedia (knownBech32 [pictured, sketched]) (some picturedSigner) (some picturedBody) = .ok items ∧
      items.map MediaItem.fingerprint = [sketched, pictured] ∧
      items.map MediaItem.size = [some 128, some 128] ∧
      ∀ item ∈ items,
        Genuine (fun _ text => [UInt8.ofNat text.length]) picturedConfig item.fingerprint "/image"
          (sizeParams (some 100)) item.image ∧
        Genuine (fun _ text => [UInt8.ofNat text.length]) picturedConfig item.fingerprint "/metadata" []
          item.metadata := by
  obtain ⟨answers, items, -⟩ := media_genuine pictured_documented
    (fun _ text => [UInt8.ofNat text.length]) picturedConfig
  have valid : ∀ fingerprint ∈ [sketched, pictured],
      isAssetFingerprint (knownBech32 [pictured, sketched]) fingerprint = true := by
    set_option maxRecDepth 4000 in decide
  refine ⟨_, (answers _ _).mpr ⟨_, picturedBody_read, valid, rfl⟩, rfl, rfl, fun item member => ?_⟩
  obtain ⟨fingerprint, asked, rfl⟩ := List.mem_map.mp member
  obtain ⟨image, metadata, -⟩ := items (some 100) fingerprint (valid fingerprint asked)
  exact ⟨image, metadata⟩

end WalletBackend.Http
