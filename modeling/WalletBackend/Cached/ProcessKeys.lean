import WalletBackend.Blockfrost.PoolPages
import WalletBackend.Cached.Provider
import WalletBackend.Cached.Scoped
import WalletBackend.Koios.DrepPages
import WalletBackend.Library.Hex
import WalletBackend.Prices.Activity
import WalletBackend.Prices.Coingecko
import WalletBackend.RemoteConfig.Service

/-! The keys of the one cache of the process, which the providers, the prices and the remote
configuration share. What its type parameter says of a value is not checked there: it holds as long
as no two readers ever meet under one key. -/
namespace WalletBackend.Cached
open Cache Koios
open Blockfrost.Pools (rankingKey pageKey epochChars epochText_toList)

/-- `/^[A-Za-z0-9]{1,15}$/`. -/
def isTicker (text : String) : Bool :=
  1 ≤ text.length && text.length ≤ 15 && text.toList.all Char.isAlphanum

/-- A page of pools, as the route lets it be asked for. -/
structure PageRequest where
  params : PoolListParams
  valid : params.ticker.all isTicker = true

/-- `/^[0-9a-fA-F]{56}([0-9a-fA-F]{2}){0,32}$/`. -/
def isTokenSubject (text : String) : Bool :=
  text.toList.all Hex.isDigit && 56 ≤ text.length && text.length ≤ 120 && text.length % 2 = 0

structure TokenSubject where
  text : String
  valid : isTokenSubject text = true

/-- What is kept in place of the address of a pool: a hash of it, in hex. -/
structure PoolIdentity where
  text : String
  digits : text.toList.all Hex.isDigit = true

/-- The `kind` and the `range` of candles. -/
inductive CandleUse where
  | history (range : Prices.PriceRange)
  | activity (window : Prices.PriceWindow)
  deriving DecidableEq

/-- What a driver, or the decorator around it, reads through its view. -/
inductive ProviderRequest where
  | tip
  | protocolParams (epoch : Nat)
  | ranking (epoch : Nat)
  | page (request : PageRequest) (epoch : Option Nat)
  | drepMembership
  | metadata (kind : MetadataKind) (name : String)

/-- What is read through the cache of the process. The pool of a token is also kept under the subject
that an upstream row names, which is not checked. -/
inductive ProcessRequest where
  | provider (config : AppConfig) (request : ProviderRequest)
  | adaPrice (currencies : List Prices.CurrencyCode)
  | adaHistory (range : Prices.PriceRange) (currency : Prices.CurrencyCode)
  | tokenPool (network : Network) (subject : String)
  | candles (network : Network) (subject : TokenSubject) (pool : PoolIdentity) (use : CandleUse)
  | remoteConfig

def windowText : Prices.PriceWindow → String
  | .h24 => "24h"
  | .d7 => "7d"
  | .d30 => "30d"

def CandleUse.text : CandleUse → String
  | .history range => "history:" ++ range.text
  | .activity window => "activity:" ++ windowText window

/-- `ohlcvCacheKey`, of the identity of a pool. -/
def ohlcvCacheKey (cacheNamespace subject identity : String) (use : CandleUse) : String :=
  "price:token:ohlcv:" ++ cacheNamespace ++ ":" ++ subject ++ ":pool:" ++ identity ++ ":" ++ use.text

def ProviderRequest.key : ProviderRequest → String
  | .tip => TIP_CACHE_KEY
  | .protocolParams epoch => protocolParamsKey epoch
  | .ranking epoch => rankingKey epoch
  | .page request epoch => pageKey request.params epoch
  | .drepMembership => Koios.Governance.DREP_MEMBERSHIP_KEY
  | .metadata kind name => kind.key name

def ProcessRequest.key : ProcessRequest → String
  | .provider config request => config.start ++ request.key
  | .adaPrice currencies => Prices.adaPriceKey currencies
  | .adaHistory range currency => Prices.adaHistoryKey range currency
  | .tokenPool network subject => Prices.poolCacheKey network.text subject
  | .candles network subject pool use => ohlcvCacheKey network.text subject.text pool.text use
  | .remoteConfig => RemoteConfig.CACHE_KEY

/-- The requests that one answer serves alike: prices in the same currencies, in whatever order and
as often, and a history whose currency is spelled in whatever case. -/
inductive Alike : ProcessRequest → ProcessRequest → Prop where
  | same (request : ProcessRequest) : Alike request request
  | currencies {currencies others : List Prices.CurrencyCode} (perm : currencies.Perm others) :
      Alike (.adaPrice currencies) (.adaPrice others)
  | spelling {range : Prices.PriceRange} {currency other : Prices.CurrencyCode}
      (lower : currency.text.toLower = other.text.toLower) :
      Alike (.adaHistory range currency) (.adaHistory range other)

section Segments

/-- The parts of a key between its colons. A name may hold more of them. -/
def ProviderRequest.segments : ProviderRequest → List (List Char)
  | .tip => ["chain".toList, "tip".toList]
  | .protocolParams epoch => ["chain".toList, "protocol-params".toList, Nat.toDigits 10 epoch]
  | .ranking epoch => ["pools".toList, "ranking".toList, Nat.toDigits 10 epoch]
  | .page request epoch => ["pools".toList, "page".toList, epochChars epoch,
      (request.params.ticker.getD "").toList, Nat.toDigits 10 request.params.offset,
      Nat.toDigits 10 request.params.limit]
  | .drepMembership => ["gov".toList, "drep-membership".toList]
  | .metadata .token subject => "asset".toList :: "meta".toList :: subject.toList.splitOn ':'
  | .metadata .drep hex => "gov".toList :: "drep-meta".toList :: hex.toList.splitOn ':'

theorem join_cons {first : List Char} {parts : List (List Char)} (more : parts ≠ []) :
    [':'].intercalate (first :: parts) = first ++ ':' :: [':'].intercalate parts := by
  obtain ⟨next, rest, rfl⟩ := List.exists_cons_of_ne_nil more
  rw [List.intercalate_cons_cons, List.append_assoc]
  rfl

theorem ProviderRequest.key_segments (request : ProviderRequest) :
    request.key.toList = [':'].intercalate request.segments := by
  cases request with
  | tip => rfl
  | protocolParams epoch =>
    simp [key, segments, protocolParamsKey, PROTOCOL_PARAMS_KEYS]
  | ranking epoch =>
    have spelled : rankingKey epoch = "pools:ranking:" ++ toString epoch := rfl
    simp [key, segments, spelled]
  | page request epoch =>
    have spelled : pageKey request.params epoch = "pools:page:" ++ (epoch.map toString).getD "none" ++
      ":" ++ request.params.ticker.getD "" ++ ":" ++ toString request.params.offset ++ ":" ++
      toString request.params.limit := rfl
    simp [key, segments, spelled, epochText_toList]
  | drepMembership => rfl
  | metadata kind name =>
    have whole : [':'].intercalate (name.toList.splitOn ':') = name.toList :=
      List.intercalate_splitOn ':'
    cases kind with
    | token => simp [key, segments, MetadataKind.key, join_cons, List.splitOn_ne_nil, whole]
    | drep => simp [key, segments, MetadataKind.key, join_cons, List.splitOn_ne_nil, whole]

def CandleUse.segments : CandleUse → List (List Char)
  | .history range => ["history".toList, range.text.toList]
  | .activity window => ["activity".toList, (windowText window).toList]

/-- The codes of a price, as the key has them. -/
def sortedCodes (currencies : List Prices.CurrencyCode) : List String :=
  (currencies.map Prices.CurrencyCode.text).mergeSort fun a b => decide (a ≤ b)

def ProcessRequest.segments : ProcessRequest → List (List Char)
  | .provider config request => "provider".toList :: config.provider.text.toList ::
      config.network.text.toList :: request.segments
  | .adaPrice currencies => ["price".toList, "ada".toList, (",".intercalate (sortedCodes currencies)).toList]
  | .adaHistory range currency => ["price".toList, "ada".toList, "history".toList, range.text.toList,
      currency.text.toLower.toList]
  | .tokenPool network subject => "price".toList :: "token".toList :: "pool".toList ::
      network.text.toList :: subject.toList.splitOn ':'
  | .candles network subject pool use => ["price".toList, "token".toList, "ohlcv".toList,
      network.text.toList, subject.text.toList, "pool".toList, pool.text.toList] ++ use.segments
  | .remoteConfig => ["config".toList, "remote".toList]

theorem ProviderRequest.segments_ne_nil (request : ProviderRequest) : request.segments ≠ [] := by
  cases request with
  | metadata kind => cases kind <;> exact List.cons_ne_nil _ _
  | _ => exact List.cons_ne_nil _ _

theorem ProcessRequest.key_segments (request : ProcessRequest) :
    request.key.toList = [':'].intercalate request.segments := by
  cases request with
  | provider config request =>
    simp [key, segments, AppConfig.start, join_cons, request.segments_ne_nil, request.key_segments]
  | adaPrice currencies => simp [key, segments, Prices.adaPriceKey, sortedCodes]
  | adaHistory range currency =>
    have joined (a b : String) : ("price:ada:history:" ++ a ++ ":" ++ b).toList = [':'].intercalate
        ["price".toList, "ada".toList, "history".toList, a.toList, b.toList] := by simp
    exact joined range.text currency.text.toLower
  | tokenPool network subject =>
    have joined (a b : String) : ("price:token:pool:" ++ a ++ ":" ++ b).toList = [':'].intercalate
        ("price".toList :: "token".toList :: "pool".toList :: a.toList :: b.toList.splitOn ':') := by
      have whole : [':'].intercalate (b.toList.splitOn ':') = b.toList := List.intercalate_splitOn ':'
      simp [join_cons, List.splitOn_ne_nil, whole]
    exact joined network.text subject
  | candles network subject pool use =>
    have joined (a b c d e : String) : ("price:token:ohlcv:" ++ a ++ ":" ++ b ++ ":pool:" ++ c ++ ":" ++
        (d ++ ":" ++ e)).toList = [':'].intercalate ["price".toList, "token".toList, "ohlcv".toList,
          a.toList, b.toList, "pool".toList, c.toList, d.toList, e.toList] := by simp
    cases use with
    | history range => exact joined network.text subject.text pool.text "history" range.text
    | activity window => exact joined network.text subject.text pool.text "activity" (windowText window)
  | remoteConfig => rfl

theorem clean_digits (n : Nat) : ':' ∉ Nat.toDigits 10 n := Numerals.not_mem_toDigits rfl n

theorem clean_hex {text : List Char} (digits : text.all Hex.isDigit = true) : ':' ∉ text :=
  fun member => absurd (List.all_eq_true.mp digits ':' member) (by decide)

theorem TokenSubject.clean (subject : TokenSubject) : ':' ∉ subject.text.toList := by
  have valid := subject.valid
  simp only [isTokenSubject, Bool.and_eq_true] at valid
  exact clean_hex valid.1.1.1

theorem PageRequest.clean (request : PageRequest) :
    ':' ∉ (request.params.ticker.getD "").toList := by
  have valid := request.valid
  cases named : request.params.ticker with
  | none => decide
  | some ticker =>
    rw [named, Option.all_some, isTicker, Bool.and_eq_true] at valid
    exact fun member => absurd (List.all_eq_true.mp valid.2 ':' member) (by decide)

theorem clean_letters {text : String} (letters : text.toList.all Char.isAlpha = true) :
    ':' ∉ text.toList ∧ ':' ∉ text.toLower.toList := by
  constructor
  · exact fun member => absurd (List.all_eq_true.mp letters ':' member) (by decide)
  · rw [toList_toLower]
    intro member
    obtain ⟨c, inside, lower⟩ := List.mem_map.mp member
    obtain same | capital := charToLower_eq c
    · rw [same] at lower
      exact absurd (List.all_eq_true.mp letters c inside) (by rw [lower]; decide)
    · have each : ∀ n < 91, 65 ≤ n → (Char.ofNat n).toLower ≠ ':' := by decide
      have other := each c.toNat (by omega) capital.1
      rw [Char.ofNat_toNat] at other
      exact other lower

theorem CurrencyCode.clean (currency : Prices.CurrencyCode) :
    ':' ∉ currency.text.toList ∧ ':' ∉ currency.text.toLower.toList := by
  have valid := currency.valid
  rw [Prices.isCurrencyCode, Bool.and_eq_true] at valid
  exact clean_letters valid.2

theorem ProviderRequest.clean (request : ProviderRequest) :
    ∀ segment ∈ request.segments, ':' ∉ segment := by
  have names (name : String) : ∀ segment ∈ name.toList.splitOn ':', ':' ∉ segment :=
    fun segment member => (Splitting.mem_splitOn member).1
  cases request with
  | tip => decide
  | protocolParams epoch => simpa [segments] using clean_digits epoch
  | ranking epoch => simpa [segments] using clean_digits epoch
  | page request epoch =>
    simp only [segments, List.forall_mem_cons]
    exact ⟨by decide, by decide, Blockfrost.Pools.epochChars_clean epoch, request.clean,
      clean_digits _, clean_digits _, nofun⟩
  | drepMembership => decide
  | metadata kind name =>
    cases kind with
    | token =>
      simp only [segments, List.forall_mem_cons]
      exact ⟨by decide, by decide, names name⟩
    | drep =>
      simp only [segments, List.forall_mem_cons]
      exact ⟨by decide, by decide, names name⟩

theorem Network.clean (network : Network) : ':' ∉ network.text.toList := by
  cases network <;> decide

theorem PriceRange.clean (range : Prices.PriceRange) : ':' ∉ range.text.toList := by
  cases range <;> decide

theorem windowText_clean (window : Prices.PriceWindow) : ':' ∉ (windowText window).toList := by
  cases window <;> decide

theorem sortedCodes_clean (currencies : List Prices.CurrencyCode) :
    ∀ code ∈ sortedCodes currencies, ':' ∉ code.toList := by
  intro code member
  obtain ⟨currency, -, rfl⟩ := List.mem_map.mp ((List.mergeSort_perm _ _).mem_iff.mp member)
  exact (CurrencyCode.clean currency).1

theorem ProcessRequest.clean (request : ProcessRequest) :
    ∀ segment ∈ request.segments, ':' ∉ segment := by
  cases request with
  | provider config request =>
    simp only [segments, List.forall_mem_cons]
    refine ⟨by decide, ?_, Network.clean _, request.clean⟩
    cases config.provider <;> decide
  | adaPrice currencies =>
    simp only [segments, List.forall_mem_cons]
    refine ⟨by decide, by decide, ?_, nofun⟩
    rw [String.toList_intercalate]
    intro member
    obtain comma | ⟨part, inside, colon⟩ := Splitting.mem_intercalate member
    · exact absurd comma (by decide)
    · obtain ⟨code, there, rfl⟩ := List.mem_map.mp inside
      exact sortedCodes_clean currencies code there colon
  | adaHistory range currency =>
    simp only [segments, List.forall_mem_cons]
    exact ⟨by decide, by decide, by decide, PriceRange.clean range, (CurrencyCode.clean currency).2, nofun⟩
  | tokenPool network subject =>
    simp only [segments, List.forall_mem_cons]
    exact ⟨by decide, by decide, by decide, Network.clean network,
      fun segment member => (Splitting.mem_splitOn member).1⟩
  | candles network subject pool use =>
    simp only [segments, List.forall_mem_append, List.forall_mem_cons]
    refine ⟨⟨by decide, by decide, by decide, Network.clean network, subject.clean, by decide,
      clean_hex pool.digits, nofun⟩, ?_⟩
    cases use with
    | history range =>
      simp only [CandleUse.segments, List.forall_mem_cons]
      exact ⟨by decide, PriceRange.clean range, nofun⟩
    | activity window =>
      simp only [CandleUse.segments, List.forall_mem_cons]
      exact ⟨by decide, windowText_clean window, nofun⟩
  | remoteConfig => decide

theorem ProcessRequest.segments_ne_nil (request : ProcessRequest) : request.segments ≠ [] := by
  cases request <;> exact List.cons_ne_nil _ _

/-- A key can be taken apart at its colons. -/
theorem segments_of_key {request other : ProcessRequest} (same : request.key = other.key) :
    request.segments = other.segments := by
  have chars := congrArg String.toList same
  rw [request.key_segments, other.key_segments] at chars
  rw [← List.splitOn_intercalate ':' request.clean request.segments_ne_nil, chars,
    List.splitOn_intercalate ':' other.clean other.segments_ne_nil]

end Segments

section Apart

variable {a b : List Char} {as bs : List (List Char)}

theorem splitOn_inj (same : a.splitOn ':' = b.splitOn ':') : a = b := by
  exact (List.intercalate_splitOn ':').symm.trans
    ((congrArg [':'].intercalate same).trans (List.intercalate_splitOn ':'))

theorem PageRequest.eq_of_params {request other : PageRequest}
    (ticker : (request.params.ticker.getD "").toList = (other.params.ticker.getD "").toList)
    (offset : request.params.offset = other.params.offset)
    (limit : request.params.limit = other.params.limit) : request = other := by
  have spoken {params : PoolListParams} (valid : params.ticker.all isTicker = true) :
      params.ticker ≠ some "" := by
    intro empty
    rw [empty] at valid
    exact absurd valid (by decide)
  have texts := String.toList_inj.mp ticker
  obtain ⟨⟨count, start, name⟩, valid⟩ := request
  obtain ⟨⟨count', start', name'⟩, valid'⟩ := other
  have some_ne := spoken valid
  have some_ne' := spoken valid'
  obtain rfl : name = name' := by
    cases name <;> cases name' <;> simp_all
  obtain rfl : start = start' := offset
  obtain rfl : count = count' := limit
  rfl

/-- The readers of a driver's view, by the two parts their keys open with. -/
inductive ProviderKind where
  | tip
  | protocolParams
  | ranking
  | page
  | drepMembership
  | metadata (kind : MetadataKind)
  deriving DecidableEq

def ProviderKind.opening : ProviderKind → List (List Char)
  | .tip => ["chain".toList, "tip".toList]
  | .protocolParams => ["chain".toList, "protocol-params".toList]
  | .ranking => ["pools".toList, "ranking".toList]
  | .page => ["pools".toList, "page".toList]
  | .drepMembership => ["gov".toList, "drep-membership".toList]
  | .metadata .token => ["asset".toList, "meta".toList]
  | .metadata .drep => ["gov".toList, "drep-meta".toList]

def ProviderRequest.kind : ProviderRequest → ProviderKind
  | .tip => .tip
  | .protocolParams _ => .protocolParams
  | .ranking _ => .ranking
  | .page _ _ => .page
  | .drepMembership => .drepMembership
  | .metadata kind _ => .metadata kind

theorem ProviderKind.opening_inj {kind other : ProviderKind} (same : kind.opening = other.opening) :
    kind = other := by
  rcases kind with _ | _ | _ | _ | _ | _ | _ <;> rcases other with _ | _ | _ | _ | _ | _ | _ <;>
    first | rfl | exact absurd same (by decide)

theorem ProviderRequest.take_segments (request : ProviderRequest) :
    request.segments.take 2 = request.kind.opening := by
  cases request with
  | metadata kind => cases kind <;> rfl
  | _ => rfl

theorem ProviderRequest.eq_of_segments {request other : ProviderRequest}
    (same : request.segments = other.segments) : request = other := by
  have kinds : request.kind = other.kind := by
    refine ProviderKind.opening_inj ?_
    rw [← request.take_segments, same, other.take_segments]
  have rest := congrArg (List.drop 2) same
  cases request with
  | tip =>
    cases other with
    | tip => rfl
    | _ => cases kinds
  | protocolParams epoch =>
    cases other with
    | protocolParams other => exact congrArg _ (Numerals.toDigits_injective (List.cons.inj rest).1)
    | _ => cases kinds
  | ranking epoch =>
    cases other with
    | ranking other => exact congrArg _ (Numerals.toDigits_injective (List.cons.inj rest).1)
    | _ => cases kinds
  | page request epoch =>
    cases other with
    | page other epoch' =>
      obtain ⟨epochs, rest⟩ := List.cons.inj rest
      obtain ⟨tickers, rest⟩ := List.cons.inj rest
      obtain ⟨offsets, rest⟩ := List.cons.inj rest
      obtain ⟨limits, -⟩ := List.cons.inj rest
      rw [Blockfrost.Pools.epochChars_injective epochs, PageRequest.eq_of_params tickers
        (Numerals.toDigits_injective offsets) (Numerals.toDigits_injective limits)]
    | _ => cases kinds
  | drepMembership =>
    cases other with
    | drepMembership => rfl
    | _ => cases kinds
  | metadata kind name =>
    cases other with
    | metadata kind' name' =>
      cases kinds
      have names : name.toList.splitOn ':' = name'.toList.splitOn ':' := by
        cases kind <;> exact rest
      rw [String.toList_inj.mp (splitOn_inj names)]
    | _ => cases kinds

theorem ProviderName.text_inj {provider other : ProviderName}
    (same : provider.text.toList = other.text.toList) : provider = other := by
  cases provider <;> cases other <;> first | rfl | exact absurd same (by decide)

theorem Network.text_inj {network other : Network}
    (same : network.text.toList = other.text.toList) : network = other := by
  cases network <;> cases other <;> first | rfl | exact absurd same (by decide)

theorem PriceRange.text_inj {range other : Prices.PriceRange}
    (same : range.text.toList = other.text.toList) : range = other := by
  cases range <;> cases other <;> first | rfl | exact absurd same (by decide)

theorem windowText_inj {window other : Prices.PriceWindow}
    (same : (windowText window).toList = (windowText other).toList) : window = other := by
  cases window <;> cases other <;> first | rfl | exact absurd same (by decide)

theorem CandleUse.eq_of_segments {use other : CandleUse} (same : use.segments = other.segments) :
    use = other := by
  cases use with
  | history range =>
    cases other with
    | history other => exact congrArg _ (PriceRange.text_inj (List.cons.inj (List.cons.inj same).2).1)
    | activity => exact absurd (List.cons.inj same).1 (by decide)
  | activity window =>
    cases other with
    | history => exact absurd (List.cons.inj same).1 (by decide)
    | activity other => exact congrArg _ (windowText_inj (List.cons.inj (List.cons.inj same).2).1)

theorem sortedCodes_perm (currencies : List Prices.CurrencyCode) :
    (sortedCodes currencies).Perm (currencies.map Prices.CurrencyCode.text) :=
  List.mergeSort_perm _ _

theorem sortedCodes_letters {currencies : List Prices.CurrencyCode} {code : String}
    (member : code ∈ sortedCodes currencies) :
    code.toList ≠ [] ∧ code.toList.all Char.isAlpha = true := by
  obtain ⟨currency, -, rfl⟩ := List.mem_map.mp ((sortedCodes_perm currencies).mem_iff.mp member)
  have valid := currency.valid
  simp only [Prices.isCurrencyCode, Bool.and_eq_true, decide_eq_true_eq] at valid
  refine ⟨?_, valid.2⟩
  intro empty
  have long : 2 ≤ currency.text.toList.length := String.length_toList ▸ valid.1.1
  rw [empty] at long
  exact absurd long (by decide)

/-- Codes that are joined by commas are found again between them. -/
theorem splitOn_sortedCodes (currencies : List Prices.CurrencyCode) :
    ((",".intercalate (sortedCodes currencies)).toList.splitOn ',').filter (· ≠ []) =
      (sortedCodes currencies).map String.toList := by
  have each : ∀ code ∈ (sortedCodes currencies).map String.toList,
      code ≠ [] ∧ code.all Char.isAlpha = true := by
    rintro _ member
    obtain ⟨code, there, rfl⟩ := List.mem_map.mp member
    exact sortedCodes_letters there
  rw [String.toList_intercalate]
  generalize (sortedCodes currencies).map String.toList = codes at each ⊢
  cases codes with
  | nil => decide
  | cons first others =>
    have clean : ∀ code ∈ first :: others, ',' ∉ code := fun code there comma =>
      absurd (List.all_eq_true.mp (each code there).2 ',' comma) (by decide)
    have split : ([','].intercalate (first :: others)).splitOn ',' = first :: others :=
      List.splitOn_intercalate ',' clean (List.cons_ne_nil _ _)
    have comma : ",".toList = [','] := rfl
    rw [comma, split]
    exact List.filter_eq_self.mpr fun code there => decide_eq_true (each code there).1

theorem perm_of_codes {currencies others : List Prices.CurrencyCode}
    (same : (",".intercalate (sortedCodes currencies)).toList =
      (",".intercalate (sortedCodes others)).toList) : currencies.Perm others := by
  have lists : (sortedCodes currencies).map String.toList = (sortedCodes others).map String.toList := by
    rw [← splitOn_sortedCodes, same, splitOn_sortedCodes]
  have texts : sortedCodes currencies = sortedCodes others :=
    List.map_injective_iff.mpr (fun _ _ => String.toList_inj.mp) lists
  have perm : (currencies.map Prices.CurrencyCode.text).Perm (others.map Prices.CurrencyCode.text) :=
    (sortedCodes_perm currencies).symm.trans (texts ▸ sortedCodes_perm others)
  have injective : Function.Injective Prices.CurrencyCode.text := by
    rintro ⟨text, _⟩ ⟨_, _⟩ rfl
    rfl
  exact (List.map_perm_map_iff injective).mp perm

/-- Requests that share a key are alike. -/
theorem alike_of_key {request other : ProcessRequest} (same : request.key = other.key) :
    Alike request other := by
  have parts := segments_of_key same
  cases request with
  | provider config request =>
    cases other with
    | provider config' other =>
      obtain ⟨names, rest⟩ := List.cons.inj (List.cons.inj parts).2
      obtain ⟨networks, own⟩ := List.cons.inj rest
      obtain ⟨provider, network⟩ := config
      obtain ⟨provider', network'⟩ := config'
      obtain rfl : provider = provider' := ProviderName.text_inj names
      obtain rfl : network = network' := Network.text_inj networks
      obtain rfl : request = other := ProviderRequest.eq_of_segments own
      exact .same _
    | _ => exact absurd (List.cons.inj parts).1 (by decide)
  | adaPrice currencies =>
    cases other with
    | adaPrice others =>
      exact .currencies (perm_of_codes (List.cons.inj (List.cons.inj (List.cons.inj parts).2).2).1)
    | adaHistory => cases (List.cons.inj (List.cons.inj (List.cons.inj parts).2).2).2
    | tokenPool => exact absurd (List.cons.inj (List.cons.inj parts).2).1 (by decide)
    | candles => exact absurd (List.cons.inj (List.cons.inj parts).2).1 (by decide)
    | _ => exact absurd (List.cons.inj parts).1 (by decide)
  | adaHistory range currency =>
    cases other with
    | adaPrice => cases (List.cons.inj (List.cons.inj (List.cons.inj parts).2).2).2
    | adaHistory range' other =>
      obtain ⟨ranges, rest⟩ := List.cons.inj (List.cons.inj (List.cons.inj (List.cons.inj parts).2).2).2
      obtain rfl : range = range' := PriceRange.text_inj ranges
      exact .spelling (String.toList_inj.mp (List.cons.inj rest).1)
    | tokenPool => exact absurd (List.cons.inj (List.cons.inj parts).2).1 (by decide)
    | candles => exact absurd (List.cons.inj (List.cons.inj parts).2).1 (by decide)
    | _ => exact absurd (List.cons.inj parts).1 (by decide)
  | tokenPool network subject =>
    cases other with
    | adaPrice => exact absurd (List.cons.inj (List.cons.inj parts).2).1 (by decide)
    | adaHistory => exact absurd (List.cons.inj (List.cons.inj parts).2).1 (by decide)
    | tokenPool network' other =>
      obtain ⟨networks, rest⟩ := List.cons.inj (List.cons.inj (List.cons.inj (List.cons.inj parts).2).2).2
      rw [Network.text_inj networks, String.toList_inj.mp (splitOn_inj rest)]
      exact .same _
    | candles => exact absurd (List.cons.inj (List.cons.inj (List.cons.inj parts).2).2).1 (by decide)
    | _ => exact absurd (List.cons.inj parts).1 (by decide)
  | candles network subject pool use =>
    cases other with
    | adaPrice => exact absurd (List.cons.inj (List.cons.inj parts).2).1 (by decide)
    | adaHistory => exact absurd (List.cons.inj (List.cons.inj parts).2).1 (by decide)
    | tokenPool => exact absurd (List.cons.inj (List.cons.inj (List.cons.inj parts).2).2).1 (by decide)
    | candles network' subject' pool' use' =>
      obtain ⟨networks, rest⟩ := List.cons.inj (List.cons.inj (List.cons.inj (List.cons.inj parts).2).2).2
      obtain ⟨subjects, rest⟩ := List.cons.inj rest
      obtain ⟨-, rest⟩ := List.cons.inj rest
      obtain ⟨pools, uses⟩ := List.cons.inj rest
      obtain ⟨text, _⟩ := subject
      obtain ⟨text', _⟩ := subject'
      obtain ⟨identity, _⟩ := pool
      obtain ⟨identity', _⟩ := pool'
      obtain rfl : text = text' := String.toList_inj.mp subjects
      obtain rfl : identity = identity' := String.toList_inj.mp pools
      rw [Network.text_inj networks, CandleUse.eq_of_segments uses]
      exact .same _
    | _ => exact absurd (List.cons.inj parts).1 (by decide)
  | remoteConfig =>
    cases other with
    | remoteConfig => exact .same _
    | _ => exact absurd (List.cons.inj parts).1 (by decide)

end Apart

end WalletBackend.Cached
