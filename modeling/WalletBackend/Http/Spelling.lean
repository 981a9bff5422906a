import WalletBackend.Domain.KnownBech32
import WalletBackend.Http.AddressRoutes
import WalletBackend.Koios.StaticState

/-! The lowercase and the uppercase spelling of one bech32 address, asked of a Koios that
keys on the lowercase spelling alone. -/
namespace WalletBackend.Http
open Interaction Koios StreamMerge

/-- A text in lowercase and in capitals, both of which the codec takes for one address. -/
structure BothSpellings (bech32 : Bech32) (text : String) : Prop where
  lower : text.toLower = text
  same : bech32.decodeUnsafe text.toUpper BECH32_LIMIT = bech32.decodeUnsafe text BECH32_LIMIT
  decodes : (bech32.decodeUnsafe text BECH32_LIMIT).isSome
  different : text.toUpper ≠ text
  plain : ∀ spelled ∈ [text, text.toUpper], Plain spelled
  size : ∀ spelled ∈ [text, text.toUpper], spelled.utf8ByteSize ≤ BECH32_LIMIT

theorem bothSpellings {bech32 : Bech32} (documented : bech32.Documented) {text : String}
    {decoded : Decoded} (lower : text.toLower = text)
    (found : bech32.decodeUnsafe text BECH32_LIMIT = some decoded)
    (hrp : decoded.hrp ∈ KNOWN_PARTS) :
    BothSpellings bech32 text := by
  have letters := hrp_letters hrp
  have found' := documented.uppercase _ _ _ lower found
  have spelled : ∀ spelled ∈ [text, text.toUpper],
      bech32.decodeUnsafe spelled BECH32_LIMIT = some decoded := by
    simp only [List.mem_cons, List.not_mem_nil, or_false, forall_eq_or_imp, forall_eq]
    exact ⟨found, found'⟩
  refine ⟨lower, found'.trans found.symm, ?_, ?_, ?_, ?_⟩
  · rw [found]
    rfl
  · obtain ⟨data, front, -⟩ := documented.shape _ _ _ found
    obtain ⟨c, member, letter⟩ := hrp_capital hrp
    refine toUpper_ne ?_ letter
    rw [← lower, front, String.toList_append, String.toList_append, List.append_assoc]
    exact List.mem_append_left _ member
  · intro text' member quote
    exact (isAddressChar_ascii (documented.letters (spelled text' member) letters _ quote)).2 rfl
  · intro text' member
    rw [size_of_letters (documented.letters (spelled text' member) letters)]
    exact documented.short _ _ _ (spelled text' member)

/-- An address in a table is spelled in lowercase. -/
def Canonical (bech32 : Bech32) (text : String) : Prop :=
  (bech32.decodeUnsafe text BECH32_LIMIT).isSome → text.toLower = text

/-- Koios keys on the lowercase spelling and returns it. -/
structure LowercaseKeys (bech32 : Bech32) (state : KoiosState) : Prop where
  accountTxs : ∀ stakeAddress after, state.accountTxs stakeAddress after ≠ [] →
    Canonical bech32 stakeAddress
  accountInfo : ∀ row ∈ state.accountInfo, Canonical bech32 row.stake_address
  accountRewards : ∀ row ∈ state.accountRewards, Canonical bech32 row.stake_address
  addressInfo : ∀ address ∈ state.addressInfo, Canonical bech32 address
  addressTxs : ∀ address after, state.index.stream [address] after ≠ [] → Canonical bech32 address
  stakes : ∀ held ∈ state.utxos, ∀ stakeAddress ∈ held.stake_address, Canonical bech32 stakeAddress
  addresses : ∀ held ∈ state.utxos, Canonical bech32 held.row.address

/-- Two requests are answered the same. -/
inductive Agree {Req α : Type} {Resp : Req → Type} (up : (q : Req) → Resp q) :
    Except BadRequest (Async Resp Failure α) → Except BadRequest (Async Resp Failure α) → Prop where
  | ok {x y : Async Resp Failure α} (same : Async.SameAnswer up x y) : Agree up (.ok x) (.ok y)
  | refused (e : BadRequest) : Agree up (.error e) (.error e)

theorem agree_ok {Req α : Type} {Resp : Req → Type} {up : (q : Req) → Resp q}
    {x y : Async Resp Failure α} : Agree up (.ok x) (.ok y) ↔ Async.SameAnswer up x y := by
  constructor
  · rintro ⟨same⟩
    exact same
  · exact .ok

section Account

variable {bech32 : Bech32} {network stake : String} {state : KoiosState} {attempts : ReadAttempts}
  {bodyLimit : Nat}

/-- Nothing is held under the capitals. -/
theorem BothSpellings.not_canonical {text : String} (spellings : BothSpellings bech32 text) :
    ¬ Canonical bech32 text.toUpper := by
  intro canonical
  apply spellings.different
  rw [← canonical (spellings.same ▸ spellings.decodes), toUpper_toLower spellings.lower]

theorem stake_spellings (documented : bech32.Documented) (lower : stake.toLower = stake)
    (admitted : isStakeAddressForNetwork bech32 stake network = true) :
    BothSpellings bech32 stake := by
  obtain ⟨decoded, found, hrp⟩ := isStakeAddress_decoded admitted
  apply bothSpellings documented lower found
  rcases hrp with mainnet | testnet
  · simp [mainnet, KNOWN_PARTS]
  · simp [testnet, KNOWN_PARTS]

theorem assertStakeAddress_both (spellings : BothSpellings bech32 stake)
    (admitted : isStakeAddressForNetwork bech32 stake network = true) :
    assertStakeAddress bech32 network stake = .ok stake ∧
      assertStakeAddress bech32 network stake.toUpper = .ok stake.toUpper := by
  have admitted' := (isStakeAddress_congr network spellings.same).trans admitted
  rw [assertStakeAddress, if_pos admitted, assertStakeAddress, if_pos admitted']
  exact ⟨rfl, rfl⟩

variable (documented : bech32.Documented) (lowercase : LowercaseKeys bech32 state)
  (lower : stake.toLower = stake)
  (admitted : isStakeAddressForNetwork bech32 stake network = true)

include documented lower admitted in
/-- The account state asks for the lowercase spelling either way. -/
theorem accountState_agree : Agree state.serve (accountState bech32 network attempts stake)
    (accountState bech32 network attempts stake.toUpper) := by
  have spellings := stake_spellings documented lower admitted
  obtain ⟨left, right⟩ := assertStakeAddress_both spellings admitted
  rw [accountState, left, accountState, right]
  apply Agree.ok
  rw [getAccountState, getAccountState, toUpper_toLower lower, lower]
  exact Async.SameAnswer.refl _

include documented lowercase lower admitted in
theorem accountUtxos_agree_iff : Agree state.servePage (accountUtxos bech32 network attempts stake)
    (accountUtxos bech32 network attempts stake.toUpper) ↔ state.accountUtxos [stake] = [] := by
  have spellings := stake_spellings documented lower admitted
  obtain ⟨left, right⟩ := assertStakeAddress_both spellings admitted
  rw [accountUtxos, left, accountUtxos, right]
  have plain := spellings.plain stake List.mem_cons_self
  have plain' := spellings.plain stake.toUpper (List.mem_cons_of_mem _ List.mem_cons_self)
  have none : state.accountUtxos [stake.toUpper] = [] := by
    rw [KoiosState.accountUtxos, List.map_eq_nil_iff, List.filter_eq_nil_iff]
    intro held member
    simp only [List.mem_singleton, decide_eq_true_eq]
    rintro ⟨_, owner, rfl⟩
    exact spellings.not_canonical (lowercase.stakes held member _ owner)
  refine agree_ok.trans <| Async.sameAnswer_iff
    (fun result => (KoiosState.getAccountUtxos_none plain' none _).mp) ?_
    fun none result => (KoiosState.getAccountUtxos_none plain none _).mp
  intro gives
  exact List.map_eq_nil_iff.mp (KoiosState.getAccountUtxos_gives plain gives).symm

include documented lowercase lower admitted in
theorem accountTxs_agree_iff {after : Option String} {afterBlock : Option Nat}
    (parsed : cursor "after must be a non-negative block height" after = .ok afterBlock) :
    Agree state.serve (accountTxs bech32 network attempts bodyLimit stake after)
      (accountTxs bech32 network attempts bodyLimit stake.toUpper after) ↔
    state.accountTxs stake afterBlock = [] := by
  have spellings := stake_spellings documented lower admitted
  obtain ⟨left, right⟩ := assertStakeAddress_both spellings admitted
  rw [accountTxs, parsed, accountTxs, parsed]
  simp only [left, right, bind, Except.bind, pure, Except.pure]
  have none : state.accountTxs stake.toUpper afterBlock = [] := by
    by_contra some'
    exact spellings.not_canonical (lowercase.accountTxs _ _ some')
  refine agree_ok.trans <| Async.sameAnswer_iff
    (fun result => (KoiosState.getTxHistory_none none _).mp) ?_
    fun none result => (KoiosState.getTxHistory_none none _).mp
  intro gives
  by_contra some'
  exact KoiosState.getTxHistory_some some' gives

include documented lowercase lower admitted in
theorem accountRewards_agree_iff {after : Option String} {afterEpoch : Option Nat}
    (parsed : cursor "after must be a non-negative epoch number" after = .ok afterEpoch) :
    Agree state.serve (accountRewards bech32 network attempts stake after)
      (accountRewards bech32 network attempts stake.toUpper after) ↔
    state.rewardsAfter stake afterEpoch = [] := by
  have spellings := stake_spellings documented lower admitted
  obtain ⟨left, right⟩ := assertStakeAddress_both spellings admitted
  rw [accountRewards, parsed, accountRewards, parsed]
  simp only [left, right, bind, Except.bind, pure, Except.pure]
  have none : state.rewardsAfter stake.toUpper afterEpoch = [] := by
    have nothing : (state.accountRewards.filter fun row => row.stake_address = stake.toUpper) = [] := by
      rw [List.filter_eq_nil_iff]
      intro row member spelled
      have canonical := lowercase.accountRewards row member
      rw [of_decide_eq_true spelled] at canonical
      exact spellings.not_canonical canonical
    rw [KoiosState.rewardsAfter, KoiosState.rewards, nothing]
    rfl
  have empty {text : String} (none : state.rewardsAfter text afterEpoch = [])
      (result : Except Failure (List AccountReward))
      (gives : Async.Gives state.serve (getRewardHistory attempts text afterEpoch) result) :
      result = .ok [] := by
    have page := (KoiosState.getRewardHistory_gives result).mp gives
    rwa [none] at page
  refine agree_ok.trans <| Async.sameAnswer_iff (empty none) ?_ empty
  intro gives
  have page := Except.ok.inj ((KoiosState.getRewardHistory_gives _).mp gives)
  have sorted := List.map_eq_nil_iff.mp page.symm
  exact List.perm_nil.mp (sorted ▸ (List.perm_insertionSort _ _).symm)

end Account

section Address

variable {codecs : AddressCodecs} {network address : String} {state : KoiosState}
  {attempts : ReadAttempts}

theorem isBech32PaymentAddress_decoded {expectedNetworkId : Option Nat}
    (admitted : isBech32PaymentAddress codecs address expectedNetworkId = true) :
    ∃ decoded, codecs.bech32.decodeUnsafe address BECH32_LIMIT = some decoded ∧
      (decoded.hrp = "addr" ∨ decoded.hrp = "addr_test") := by
  simp only [isBech32PaymentAddress, Option.any_eq_true, Bool.and_eq_true, beq_iff_eq] at admitted
  obtain ⟨decoded, found, bytes, -, header, -, ⟨⟨-, hrp⟩, -⟩, -⟩ := admitted
  refine ⟨decoded, found, ?_⟩
  rw [hrp]
  split
  · exact .inl rfl
  · exact .inr rfl

theorem address_spellings (documented : codecs.bech32.Documented) (lower : address.toLower = address)
    {expectedNetworkId : Option Nat}
    (admitted : isBech32PaymentAddress codecs address expectedNetworkId = true) :
    BothSpellings codecs.bech32 address := by
  obtain ⟨decoded, found, hrp⟩ := isBech32PaymentAddress_decoded admitted
  apply bothSpellings documented lower found
  rcases hrp with mainnet | testnet
  · simp [mainnet, KNOWN_PARTS]
  · simp [testnet, KNOWN_PARTS]

theorem isPaymentAddress_both (spellings : BothSpellings codecs.bech32 address)
    {expectedNetworkId : Option Nat}
    (admitted : isBech32PaymentAddress codecs address expectedNetworkId = true) :
    ∀ spelled ∈ [address, address.toUpper],
      isPaymentAddress codecs spelled expectedNetworkId = true := by
  have admitted' : isBech32PaymentAddress codecs address.toUpper expectedNetworkId = true := by
    rw [isBech32PaymentAddress, spellings.same]
    exact admitted
  intro spelled member
  simp only [List.mem_cons, List.not_mem_nil, or_false] at member
  rcases member with rfl | rfl
  · rw [isPaymentAddress, admitted, Bool.true_or]
  · rw [isPaymentAddress, admitted', Bool.true_or]

theorem BothSpellings.nonempty {bech32 : Bech32} {text : String}
    (spellings : BothSpellings bech32 text) :
    ∀ spelled ∈ [text, text.toUpper], isAddressesBody [spelled] = true := by
  have some' : text ≠ "" := by
    intro none
    exact spellings.different ((toUpper_eq_empty.mpr none).trans none.symm)
  intro spelled member
  have filled : spelled ≠ "" := by
    simp only [List.mem_cons, List.not_mem_nil, or_false] at member
    rcases member with rfl | rfl
    · exact some'
    · exact mt toUpper_eq_empty.mp some'
  simp [isAddressesBody, filled]

/-- An address fits in the body of its request, whatever the fields beside it. -/
theorem quoted_fits {before after address : String} (short : address.utf8ByteSize ≤ BECH32_LIMIT)
    (room : before.utf8ByteSize + after.utf8ByteSize ≤ 3900) :
    (quotedBody before after).Fits KOIOS_BODY_LIMIT_BYTES address := by
  have quote : "\"".utf8ByteSize = 1 := by decide
  have brackets : "[".utf8ByteSize = 1 ∧ "]".utf8ByteSize = 1 := by decide
  simp only [BodyBuilder.Fits, BodyBuilder.envelope, BodyBuilder.itemBytes, BodyBuilder.stringify,
    quotedBody, List.map_nil, String.intercalate_nil, String.utf8ByteSize_append, quote,
    brackets.1, brackets.2, String.utf8ByteSize_empty]
  rw [BECH32_LIMIT] at short
  rw [KOIOS_BODY_LIMIT_BYTES, BODY_SAFETY_MARGIN_BYTES]
  omega

theorem addressTxs_fits {afterBlock : Option Nat} (short : address.utf8ByteSize ≤ BECH32_LIMIT)
    (safe : afterBlock.all (· ≤ maxSafeInteger) = true) :
    (addressTxsBody afterBlock).Fits KOIOS_BODY_LIMIT_BYTES address := by
  cases afterBlock with
  | none => exact quoted_fits short (by decide)
  | some block =>
    apply quoted_fits short
    have digits : (toString block).utf8ByteSize ≤ 16 := by
      rw [Nat.toString_eq_ofList_toDigits, ascii_size]
      · rw [Nat.length_toDigits_le_iff (by decide) (by decide)]
        have bound : block ≤ 2 ^ 53 - 1 := of_decide_eq_true safe
        omega
      · intro c member
        have digit := Numerals.isDigit_of_mem member
        rw [Char.isDigit, Bool.and_eq_true, decide_eq_true_eq, decide_eq_true_eq] at digit
        have small : c.val ≤ 127 := Nat.le_trans digit.2 (by decide)
        exact if_pos small
    have front : "\x7b\"_addresses\":".utf8ByteSize = 14 := by decide
    have field : ",\"_after_block_height\":".utf8ByteSize = 23 := by decide
    have brace : "\x7d".utf8ByteSize = 1 := by decide
    simp only [String.utf8ByteSize_append, front, field, brace]
    omega

section Routes

variable (documented : codecs.bech32.Documented) (lowercase : LowercaseKeys codecs.bech32 state)
  (lower : address.toLower = address)
  (admitted : isBech32PaymentAddress codecs address (configuredNetworkId network) = true)

include documented lowercase lower admitted in
theorem addressesUtxos_agree_iff : Agree state.servePage
    (addressesUtxos codecs network attempts KOIOS_BODY_LIMIT_BYTES [address])
    (addressesUtxos codecs network attempts KOIOS_BODY_LIMIT_BYTES [address.toUpper]) ↔
    state.addressUtxos [address] = [] := by
  have spellings := address_spellings documented lower admitted
  have own : address ∈ [address, address.toUpper] := List.mem_cons_self
  have capitals : address.toUpper ∈ [address, address.toUpper] :=
    List.mem_cons_of_mem _ List.mem_cons_self
  have handed (text : String) (member : text ∈ [address, address.toUpper]) :
      addressesUtxos codecs network attempts KOIOS_BODY_LIMIT_BYTES [text] =
        .ok (getUtxosByAddresses attempts KOIOS_BODY_LIMIT_BYTES [text]) := by
    have accepted := isPaymentAddress_both spellings admitted text member
    rw [addressesUtxos, if_neg (not_not.mpr (spellings.nonempty text member)), if_neg]
    · rfl
    · simpa using accepted
  have none {text : String} (member : text ∈ [address, address.toUpper])
      (nothing : state.addressUtxos [text] = []) (result : Except Failure (List ScriptedUtxo))
      (gives : Async.Gives state.servePage
        (getUtxosByAddresses attempts KOIOS_BODY_LIMIT_BYTES [text]) result) : result = .ok [] := by
    refine KoiosState.getUtxosByAddresses_none (List.nodup_singleton _) ?_ ?_ ?_ result gives
    · exact fun _ listed => List.mem_singleton.mp listed ▸ spellings.plain text member
    · intro _ listed
      rw [List.mem_singleton.mp listed]
      exact quoted_fits (spellings.size text member) (by decide)
    · intro held there listed
      have row : held.row ∈ state.addressUtxos [text] :=
        List.mem_map_of_mem (List.mem_filter.mpr ⟨there, decide_eq_true listed⟩)
      rw [nothing] at row
      cases row
  have nothing : state.addressUtxos [address.toUpper] = [] := by
    rw [KoiosState.addressUtxos, List.map_eq_nil_iff, List.filter_eq_nil_iff]
    intro held member
    simp only [List.mem_singleton, decide_eq_true_eq]
    intro spelled
    exact spellings.not_canonical (spelled ▸ lowercase.addresses held member)
  rw [handed _ own, handed _ capitals]
  refine agree_ok.trans <| Async.sameAnswer_iff (none capitals nothing) ?_ (none own)
  intro gives
  have plain : ∀ listed ∈ [address], Plain listed :=
    fun _ listed => List.mem_singleton.mp listed ▸ spellings.plain address own
  have all := KoiosState.getUtxosByAddresses_gives (List.nodup_singleton _) plain gives
  exact List.map_eq_nil_iff.mp (List.nil_perm.mp all)

include documented lowercase lower admitted in
theorem addressesTxs_agree_iff {after : Option Nat}
    (safe : after.all (· ≤ maxSafeInteger) = true) : Agree state.serve
    (addressesTxs codecs network attempts KOIOS_BODY_LIMIT_BYTES [address] after)
    (addressesTxs codecs network attempts KOIOS_BODY_LIMIT_BYTES [address.toUpper] after) ↔
    state.index.stream [address] after = [] := by
  have spellings := address_spellings documented lower admitted
  have own : address ∈ [address, address.toUpper] := List.mem_cons_self
  have capitals : address.toUpper ∈ [address, address.toUpper] :=
    List.mem_cons_of_mem _ List.mem_cons_self
  have handed (text : String) (member : text ∈ [address, address.toUpper]) :
      addressesTxs codecs network attempts KOIOS_BODY_LIMIT_BYTES [text] after =
        .ok (getTxHistoryByAddresses attempts KOIOS_BODY_LIMIT_BYTES [text] after) := by
    have accepted := isPaymentAddress_both spellings admitted text member
    rw [addressesTxs, if_neg, if_neg]
    · rfl
    · simpa using accepted
    · rw [spellings.nonempty text member, safe]
      exact not_not.mpr rfl
  have none {text : String} (member : text ∈ [address, address.toUpper])
      (nothing : state.index.stream [text] after = [])
      (result : Except Failure (List WalletTransaction))
      (gives : Async.Gives state.serve
        (getTxHistoryByAddresses attempts KOIOS_BODY_LIMIT_BYTES [text] after) result) :
      result = .ok [] := by
    refine KoiosState.getTxHistoryByAddresses_none ?_ ?_ result gives
    · intro _ listed
      rw [List.mem_singleton.mp listed]
      exact addressTxs_fits (spellings.size text member) safe
    · intro _ listed
      rw [List.mem_singleton.mp listed]
      exact nothing
  have nothing : state.index.stream [address.toUpper] after = [] := by
    by_contra some'
    exact spellings.not_canonical (lowercase.addressTxs _ _ some')
  rw [handed _ own, handed _ capitals]
  refine agree_ok.trans <| Async.sameAnswer_iff (none capitals nothing) ?_ (none own)
  intro gives
  by_contra some'
  exact KoiosState.getTxHistoryByAddresses_some ⟨address, List.mem_singleton_self _, some'⟩ gives

/-- An answer in which every address is spelled in lowercase. -/
def lowered (route : Except BadRequest (Read (List String))) :
    Except BadRequest (Read (List String)) :=
  route.map fun program => do pure ((← program).map String.toLower)

variable {filterUsedPaymentCredentials : List String → Read (List String)}

include documented lower admitted in
/-- One address is answered with itself, if the table holds it as it was spelled. -/
theorem addressesFilterUsed_one (state : KoiosState) (attempts : ReadAttempts) {text : String}
    (member : text ∈ [address, address.toUpper]) :
    ∃ program, lowered (addressesFilterUsed codecs network attempts KOIOS_BODY_LIMIT_BYTES
        filterUsedPaymentCredentials [text]) = .ok program ∧
      ∀ outcome, Async.Gives state.serve program outcome ↔
        outcome = .ok (([text].filter fun one => one ∈ state.addressInfo).map String.toLower) := by
  have spellings := address_spellings documented lower admitted
  have accepted := isPaymentAddress_both spellings admitted text member
  obtain ⟨decoded, found, hrp⟩ := isBech32PaymentAddress_decoded admitted
  have found' : codecs.bech32.decodeUnsafe text BECH32_LIMIT = some decoded := by
    simp only [List.mem_cons, List.not_mem_nil, or_false] at member
    rcases member with rfl | rfl
    · exact found
    · exact spellings.same.trans found
  have noCredential : paymentCredentialHex codecs text = none := by
    have other : decoded.hrp ≠ "addr_vkh" := by
      rcases hrp with mainnet | testnet
      · rw [mainnet]
        decide
      · rw [testnet]
        decide
    simp only [paymentCredentialHex, found', Option.bind_eq_bind, Option.bind_some, if_pos other]
  have sorted : filterInputs codecs (configuredNetworkId network) ⟨[], []⟩ (distinct [text]) =
      .ok ⟨[], [text]⟩ := by
    change filterInputs codecs _ _ [text] = _
    rw [filterInputs, noCredential]
    simp only [accepted, if_true]
    rfl
  have handed : addressesFilterUsed codecs network attempts KOIOS_BODY_LIMIT_BYTES
      filterUsedPaymentCredentials [text] = .ok (usedInputs attempts KOIOS_BODY_LIMIT_BYTES
        filterUsedPaymentCredentials [text] ⟨[], [text]⟩) := by
    rw [addressesFilterUsed, if_neg (not_not.mpr (spellings.nonempty text member))]
    simp only [sorted, bind, Except.bind]
    rfl
  rw [handed]
  refine ⟨_, rfl, fun outcome => ?_⟩
  have fits : ∀ one ∈ [text], addressInfoBody.Fits KOIOS_BODY_LIMIT_BYTES one := by
    intro _ listed
    rw [List.mem_singleton.mp listed]
    exact quoted_fits (spellings.size text member) (by decide)
  have used (result : Except Failure (List String)) : Async.Gives state.serve
      (filterUsedAddresses attempts KOIOS_BODY_LIMIT_BYTES [text]) result ↔
        result = .ok ([text].filter fun one => one ∈ state.addressInfo) :=
    KoiosState.filterUsedAddresses_gives fits result
  have answered (result : Except Failure (List String)) : Async.Gives state.serve
      (usedInputs attempts KOIOS_BODY_LIMIT_BYTES filterUsedPaymentCredentials [text] ⟨[], [text]⟩)
      result ↔ result = .ok ([text].filter fun one => one ∈ state.addressInfo) := by
    have program : usedInputs attempts KOIOS_BODY_LIMIT_BYTES filterUsedPaymentCredentials [text]
        ⟨[], [text]⟩ = (do
          let sets ← Async.both (filterUsedAddresses attempts KOIOS_BODY_LIMIT_BYTES [text]) (pure [])
          pure ([text].filter fun input => sets.1.contains input)) := rfl
    rw [program, Async.gives_bind_of (Async.gives_both_of (fun result => (used result).mp)
      fun result => Async.gives_pure.mp), Async.gives_pure]
    refine Eq.congr_right (congrArg Except.ok (List.filter_congr fun one member => ?_))
    by_cases listed : one ∈ state.addressInfo
    · simp [listed, member]
    · simp [listed]
  rw [Async.gives_bind_of answered]
  exact Async.gives_pure

include documented lowercase lower admitted in
theorem addressesFilterUsed_agree_iff : Agree state.serve
    (lowered (addressesFilterUsed codecs network attempts KOIOS_BODY_LIMIT_BYTES
      filterUsedPaymentCredentials [address]))
    (lowered (addressesFilterUsed codecs network attempts KOIOS_BODY_LIMIT_BYTES
      filterUsedPaymentCredentials [address.toUpper])) ↔
    address ∉ state.addressInfo := by
  have spellings := address_spellings documented lower admitted
  have own : address ∈ [address, address.toUpper] := List.mem_cons_self
  have capitals : address.toUpper ∈ [address, address.toUpper] :=
    List.mem_cons_of_mem _ List.mem_cons_self
  have absent : address.toUpper ∉ state.addressInfo :=
    fun listed => spellings.not_canonical (lowercase.addressInfo _ listed)
  obtain ⟨left, handed, answer⟩ := addressesFilterUsed_one documented lower admitted
    state attempts own
  obtain ⟨right, handed', answer'⟩ := addressesFilterUsed_one documented lower admitted
    state attempts capitals
  rw [handed, handed']
  have none : ([address.toUpper].filter fun one => one ∈ state.addressInfo).map String.toLower = [] := by
    rw [List.filter_cons_of_neg (by simpa using absent)]
    rfl
  rw [none] at answer'
  refine agree_ok.trans <| Async.sameAnswer_iff (fun result => (answer' result).mp) ?_ ?_
  · intro gives listed
    have same := Except.ok.inj ((answer _).mp gives)
    rw [List.filter_cons_of_pos (by simpa using listed)] at same
    cases same
  · intro absent result gives
    rw [(answer result).mp gives, List.filter_cons_of_neg (by simpa using absent)]
    rfl

end Routes

/-- What the routes accept is written in JSON as it is. -/
theorem isPaymentAddress_plain (documented : codecs.Documented) {expectedNetworkId : Option Nat}
    (accepted : isPaymentAddress codecs address expectedNetworkId = true) : Plain address := by
  rw [isPaymentAddress, Bool.or_eq_true] at accepted
  intro quote
  rcases accepted with bech32 | byron
  · obtain ⟨decoded, found, hrp⟩ := isBech32PaymentAddress_decoded bech32
    have known : decoded.hrp ∈ KNOWN_PARTS := by
      rcases hrp with mainnet | testnet
      · rw [mainnet]
        decide
      · rw [testnet]
        decide
    exact (isAddressChar_ascii (documented.bech32.letters found (hrp_letters known) _ quote)).2 rfl
  · exact absurd (documented.base58 _ byron _ quote) (by decide)

section BothListed

variable {addresses : List String} (documented : codecs.Documented)

include documented in
/-- However the addresses of a request are spelled, each UTxO is answered at most once,
and those of a listed address are. -/
theorem addressesUtxos_once {program : PagedRead UtxoRow String (List ScriptedUtxo)}
    (accepted : addressesUtxos codecs network attempts KOIOS_BODY_LIMIT_BYTES addresses = .ok program)
    {utxos : List ScriptedUtxo} (gives : Async.Gives state.servePage program (.ok utxos)) :
    (utxos.map fun utxo => utxo.toUtxo.ref).Nodup ∧
      ∀ held ∈ state.utxos, held.row.address ∈ addresses → mapUtxo held.row ∈ utxos := by
  rw [addressesUtxos] at accepted
  split at accepted
  case isTrue => cases accepted
  case isFalse =>
    split at accepted
    case isTrue => cases accepted
    case isFalse all =>
      cases accepted
      have plain : ∀ address ∈ distinct addresses, Plain address := by
        intro address member
        have accepted : isPaymentAddress codecs address (configuredNetworkId network) = true :=
          List.all_eq_true.mp (not_not.mp all) address (mem_distinct.mp member)
        exact isPaymentAddress_plain documented accepted
      have perm := KoiosState.getUtxosByAddresses_gives (distinct_nodup addresses) plain gives
      constructor
      · rw [(perm.map _).nodup_iff, List.map_map]
        have keys : ((state.addressUtxos (distinct addresses)).map
            (cursorOf UtxoRow.keyset)).Nodup :=
          (KoiosState.addressUtxos_ordered _).keys_nodup
        exact keys
      · intro held member listed
        apply perm.mem_iff.mpr
        apply List.mem_map_of_mem
        apply List.mem_map_of_mem
        exact List.mem_filter.mpr ⟨member, decide_eq_true (mem_distinct.mpr listed)⟩

/-- The reference of a request is that of its addresses with a stream. -/
theorem reference_keyless {after : Option Nat} {spelled : String}
    (keyless : state.index.stream [spelled] after = []) :
    state.index.reference (distinct addresses) after =
      state.index.reference (addresses.filter (· ≠ spelled)) after := by
  have union : state.index.unionAbove (distinct addresses) after =
      state.index.unionAbove (addresses.filter (· ≠ spelled)) after := by
    refine eq_of_mem_iff unionAbove_ascending unionAbove_ascending fun row => ?_
    rw [mem_unionAbove, mem_unionAbove]
    constructor
    · rintro ⟨address, listed, member⟩
      refine ⟨address, List.mem_filter.mpr ⟨mem_distinct.mp listed, ?_⟩, member⟩
      apply decide_eq_true
      rintro rfl
      rw [keyless] at member
      cases member
    · rintro ⟨address, listed, member⟩
      exact ⟨address, mem_distinct.mpr (List.mem_of_mem_filter listed), member⟩
  rw [AddressIndex.reference, union, AddressIndex.reference]

/-- A spelling that Koios does not key on adds nothing to the history, in which each
transaction is answered once. -/
theorem addressesTxs_once {after : Option Nat} {program : Read (List WalletTransaction)}
    {spelled : String} (keyless : state.index.stream [spelled] after = [])
    (accepted : addressesTxs codecs network attempts KOIOS_BODY_LIMIT_BYTES addresses after =
      .ok program)
    {txs : List WalletTransaction} (gives : Async.Gives state.serve program (.ok txs)) :
    (txs.map WalletTransaction.txHash).Nodup ∧
      txs = (state.index.history.under ((state.index.reference (addresses.filter (· ≠ spelled))
        after).map HistoryRow.tx_hash)).map mapTx := by
  rw [addressesTxs] at accepted
  split at accepted
  case isTrue => cases accepted
  case isFalse body =>
    split at accepted
    case isTrue => cases accepted
    case isFalse =>
      cases accepted
      have some' : distinct addresses ≠ [] := by
        intro none
        have empty : addresses = [] := List.eq_nil_iff_forall_not_mem.mpr fun address member =>
          List.not_mem_nil (none ▸ mem_distinct.mpr member)
        rw [empty] at body
        exact body (by simp [isAddressesBody])
      have page := KoiosState.getTxHistoryByAddresses_gives some' gives
      have union : state.index.reference (distinct addresses) after =
          state.index.reference (addresses.filter (· ≠ spelled)) after := by
        exact reference_keyless keyless
      rw [union] at page
      refine ⟨?_, page⟩
      rw [page, List.map_map]
      exact state.index.history.distinct.sublist (List.filter_sublist.map _)

end BothListed

end Address

/-- What the routes answer to the two spellings of an address. The account state is the
same; every other answer is the same exactly when Koios holds nothing for the address that
the route would have answered. A request that lists both spellings is answered with each
UTxO and each transaction once. -/
theorem spelled_answers_agree_iff {codecs : AddressCodecs} {state : KoiosState}
    (documented : codecs.Documented) (lowercase : LowercaseKeys codecs.bech32 state)
    (network : String) (attempts : ReadAttempts)
    (filterUsedPaymentCredentials : List String → Read (List String)) :
    (∀ stake, stake.toLower = stake →
      isStakeAddressForNetwork codecs.bech32 stake network = true →
      Agree state.serve (accountState codecs.bech32 network attempts stake)
        (accountState codecs.bech32 network attempts stake.toUpper) ∧
      (Agree state.servePage (accountUtxos codecs.bech32 network attempts stake)
        (accountUtxos codecs.bech32 network attempts stake.toUpper) ↔
          state.accountUtxos [stake] = []) ∧
      (∀ after afterBlock,
        cursor "after must be a non-negative block height" after = .ok afterBlock →
        (Agree state.serve
          (accountTxs codecs.bech32 network attempts KOIOS_BODY_LIMIT_BYTES stake after)
          (accountTxs codecs.bech32 network attempts KOIOS_BODY_LIMIT_BYTES stake.toUpper after) ↔
            state.accountTxs stake afterBlock = [])) ∧
      ∀ after afterEpoch,
        cursor "after must be a non-negative epoch number" after = .ok afterEpoch →
        (Agree state.serve (accountRewards codecs.bech32 network attempts stake after)
          (accountRewards codecs.bech32 network attempts stake.toUpper after) ↔
            state.rewardsAfter stake afterEpoch = [])) ∧
    (∀ address, address.toLower = address →
      isBech32PaymentAddress codecs address (configuredNetworkId network) = true →
      (Agree state.serve
        (lowered (addressesFilterUsed codecs network attempts KOIOS_BODY_LIMIT_BYTES
          filterUsedPaymentCredentials [address]))
        (lowered (addressesFilterUsed codecs network attempts KOIOS_BODY_LIMIT_BYTES
          filterUsedPaymentCredentials [address.toUpper])) ↔ address ∉ state.addressInfo) ∧
      (Agree state.servePage
        (addressesUtxos codecs network attempts KOIOS_BODY_LIMIT_BYTES [address])
        (addressesUtxos codecs network attempts KOIOS_BODY_LIMIT_BYTES [address.toUpper]) ↔
          state.addressUtxos [address] = []) ∧
      ∀ after : Option Nat, after.all (· ≤ maxSafeInteger) = true →
        (Agree state.serve
          (addressesTxs codecs network attempts KOIOS_BODY_LIMIT_BYTES [address] after)
          (addressesTxs codecs network attempts KOIOS_BODY_LIMIT_BYTES [address.toUpper] after) ↔
            state.index.stream [address] after = [])) ∧
    ∀ addresses address, address.toLower = address → address ∈ addresses →
      address.toUpper ∈ addresses →
      isBech32PaymentAddress codecs address (configuredNetworkId network) = true →
      (∀ program utxos,
        addressesUtxos codecs network attempts KOIOS_BODY_LIMIT_BYTES addresses = .ok program →
        Async.Gives state.servePage program (.ok utxos) →
          (utxos.map fun utxo => utxo.toUtxo.ref).Nodup ∧
          ∀ held ∈ state.utxos, held.row.address ∈ addresses → mapUtxo held.row ∈ utxos) ∧
      ∀ after program txs,
        addressesTxs codecs network attempts KOIOS_BODY_LIMIT_BYTES addresses after = .ok program →
        Async.Gives state.serve program (.ok txs) →
          (txs.map WalletTransaction.txHash).Nodup ∧
          txs = (state.index.history.under ((state.index.reference
            (addresses.filter (· ≠ address.toUpper)) after).map HistoryRow.tx_hash)).map mapTx := by
  refine ⟨?_, ?_, ?_⟩
  · intro stake lower admitted
    exact ⟨accountState_agree documented.bech32 lower admitted,
      accountUtxos_agree_iff documented.bech32 lowercase lower admitted,
      fun _ _ parsed => accountTxs_agree_iff documented.bech32 lowercase lower admitted parsed,
      fun _ _ parsed => accountRewards_agree_iff documented.bech32 lowercase lower admitted parsed⟩
  · intro address lower admitted
    exact ⟨addressesFilterUsed_agree_iff documented.bech32 lowercase lower admitted,
      addressesUtxos_agree_iff documented.bech32 lowercase lower admitted,
      fun _ safe => addressesTxs_agree_iff documented.bech32 lowercase lower admitted safe⟩
  · intro addresses address lower _ _ admitted
    have spellings := address_spellings documented.bech32 lower admitted
    refine ⟨fun _ _ accepted gives => addressesUtxos_once documented accepted gives, ?_⟩
    intro after program txs accepted gives
    refine addressesTxs_once ?_ accepted gives
    by_contra some'
    exact spellings.not_canonical (lowercase.addressTxs _ _ some')

section Held

def heldStake : String := "stake1uxkptsa4lkr55jleztw43t37vgdn88l6ghclfwuxld2eykgpgvg3f"

def heldAddress : String :=
  "addr1qxqs59lphg8g6qndelq8xwqn60ag3aeyfcp33c2kdp46a09re5df3pzwwmyq946axfcejy5n4x0y99wqpgtp2gd0k09qsgy6pz"

def heldCodecs : AddressCodecs := ⟨knownBech32 [heldStake, heldAddress], fun _ => false⟩

theorem heldCodecs_documented : heldCodecs.Documented := by
  refine ⟨knownBech32_documented ?_, nofun⟩
  simp only [List.mem_cons, List.not_mem_nil, or_false, forall_eq_or_imp, forall_eq]
  constructor
  · exact ⟨"uxkptsa4lkr55jleztw43t37vgdn88l6ghclfwuxld2eykgpgvg3f", by decide, by decide⟩
  · exact ⟨"qxqs59lphg8g6qndelq8xwqn60ag3aeyfcp33c2kdp46a09re5df3pzwwmyq946axfcejy5n4x0y99wqpg" ++
      "tp2gd0k09qsgy6pz", by decide, by decide⟩

/-- A chain without transactions. -/
def emptyIndex : AddressIndex where
  history :=
    { txs := []
      ordered := .nil
      distinct := .nil
      fits := nofun }
  stream _ _ := []
  ordered _ _ := .nil
  counted _ _ := Nat.zero_le _
  known := nofun
  union := by simp
  above := by simp

/-- One UTxO at the address, which belongs to the stake address. -/
def heldState : KoiosState where
  index := emptyIndex
  accountTxs _ _ := []
  listed := nofun
  accountInfo := []
  accountRewards := []
  addressInfo := [heldAddress]
  credentialTxs := []
  utxos := [⟨⟨"7e57", 0, heldAddress, 12, .digits "1000000" (by decide), none, none, none, none⟩,
    some heldStake⟩]
  ordered := List.pairwise_singleton _ _

theorem held_lower : heldStake.toLower = heldStake ∧ heldAddress.toLower = heldAddress := by
  rw [← String.toList_inj, ← String.toList_inj, toList_toLower, toList_toLower]
  decide

theorem heldState_lowercase : LowercaseKeys heldCodecs.bech32 heldState where
  accountTxs _ _ some' := absurd rfl some'
  accountInfo _ member := absurd member List.not_mem_nil
  accountRewards _ member := absurd member List.not_mem_nil
  addressInfo address member _ := List.mem_singleton.mp member ▸ held_lower.2
  addressTxs _ _ some' := absurd rfl some'
  stakes held member stakeAddress owner _ := by
    rw [List.mem_singleton.mp member] at owner
    exact Option.mem_some.mp owner ▸ held_lower.1
  addresses held member _ := List.mem_singleton.mp member ▸ held_lower.2

theorem heldStake_admitted :
    isStakeAddressForNetwork heldCodecs.bech32 heldStake "mainnet" = true := by
  set_option maxRecDepth 4000 in decide

def heldAttempts : ReadAttempts := ReadAttempts.single

theorem held_utxos : heldState.accountUtxos [heldStake] ≠ [] := by
  rw [KoiosState.accountUtxos, Ne, List.map_eq_nil_iff, List.filter_eq_nil_iff]
  intro none
  apply none _ List.mem_cons_self
  exact decide_eq_true ⟨heldStake, rfl, List.mem_cons_self⟩

/-- The held account, asked for in both spellings. -/
theorem held_answers_agree :
    Agree heldState.serve (accountState heldCodecs.bech32 "mainnet" heldAttempts heldStake)
      (accountState heldCodecs.bech32 "mainnet" heldAttempts heldStake.toUpper) ∧
    ¬ Agree heldState.servePage (accountUtxos heldCodecs.bech32 "mainnet" heldAttempts heldStake)
      (accountUtxos heldCodecs.bech32 "mainnet" heldAttempts heldStake.toUpper) := by
  obtain ⟨account, -, -⟩ := spelled_answers_agree_iff heldCodecs_documented heldState_lowercase
    "mainnet" heldAttempts fun _ => pure []
  obtain ⟨state, utxos, -, -⟩ := account heldStake held_lower.1 heldStake_admitted
  exact ⟨state, fun same => held_utxos (utxos.mp same)⟩

/-- In capitals the held account has no UTxOs. -/
theorem capitals_lose_utxos :
    ¬ ∀ (codecs : AddressCodecs) (state : KoiosState) (attempts : ReadAttempts) (stake : String),
      codecs.Documented → LowercaseKeys codecs.bech32 state → stake.toLower = stake →
      isStakeAddressForNetwork codecs.bech32 stake "mainnet" = true →
      Agree state.servePage (accountUtxos codecs.bech32 "mainnet" attempts stake)
        (accountUtxos codecs.bech32 "mainnet" attempts stake.toUpper) := by
  intro claimed
  have same := claimed heldCodecs heldState heldAttempts heldStake
    heldCodecs_documented heldState_lowercase held_lower.1 heldStake_admitted
  exact held_utxos ((accountUtxos_agree_iff heldCodecs_documented.bech32 heldState_lowercase
    held_lower.1 heldStake_admitted).mp same)

end Held

end WalletBackend.Http
