import WalletBackend.Koios.Assets

/-! Which record of a policy's map the metadata of an asset is taken from. The key tried
first is the asset's own, unless its text begins with a byte order mark; but a record that
has nothing to display does not end the search. -/
namespace WalletBackend.Koios.Assets
open JsonTree (Value)

/-- The name as text, every character of it. -/
def textOf (assetNameHex : String) : Option String :=
  (hexBytes assetNameHex.toList).bind fun bytes => String.fromUTF8? bytes.toByteArray

/-- The key that spells the name as the declared version requires: as text, or in version 2
by its bytes. -/
def ownKey (nft : Value) (assetNameHex : String) : Except Failure (Option String) :=
  (declaresVersion2 nft).map fun version2 =>
    if version2 then some assetNameHex else textOf assetNameHex

/-- The policy's map holds a record of the asset's own. -/
structure OwnRecord (minting : Option Value) (policy assetNameHex : String) (nft byPolicy : Value)
    (key : String) : Prop where
  found : policyMap minting policy = some (nft, byPolicy)
  spells : ownKey nft assetNameHex = .ok (some key)
  held : ((byPolicy.ownProperty key).filter Value.isRecord).isSome

/-- Where there is a record of the asset's own, what is resolved is found under its key, and
is what that record says. -/
def Uncrossed (minting : Option Value) (policy assetNameHex : String) : Prop :=
  ∀ nft byPolicy key, OwnRecord minting policy assetNameHex nft byPolicy key →
    ∀ found fields, resolveCip25 minting policy assetNameHex = .ok (some (found, fields)) →
      found = key ∧ (byPolicy.ownProperty key).map cip25Fields = some fields

def BYTE_ORDER_MARK : Char := '\uFEFF'

/-- The own record has something to display and a key that is tried, or no other key that is
tried has a record with something to display. -/
def Undisputed (minting : Option Value) (policy assetNameHex : String) : Prop :=
  ∀ nft byPolicy key, OwnRecord minting policy assetNameHex nft byPolicy key →
    ((declaresVersion2 nft = .ok true ∨ key.toList.head? ≠ some BYTE_ORDER_MARK) ∧
      (displayableUnder byPolicy key).isSome) ∨
    ∀ other, other = assetNameHex ∨ v1TextKey assetNameHex = some other → other ≠ key →
      displayableUnder byPolicy other = none

section Keys

variable {nft byPolicy : Value} {assetNameHex key : String} {keys : List String}

theorem mem_cip25Keys (tried : cip25Keys nft assetNameHex = .ok keys) :
    key ∈ keys ↔ key = assetNameHex ∨ v1TextKey assetNameHex = some key := by
  unfold cip25Keys at tried
  cases version : declaresVersion2 nft with
  | error e =>
    rw [version] at tried
    cases tried
  | ok version2 =>
    rw [version] at tried
    cases tried
    cases version2 <;> simp [or_comm]

/-- Text is decoded from at least one byte. -/
theorem textOf_empty (decoded : textOf assetNameHex = some "") : assetNameHex = "" := by
  obtain ⟨bytes, parsed, read⟩ := Option.bind_eq_some_iff.mp decoded
  have none : bytes = [] := by
    unfold String.fromUTF8? at read
    split at read
    case isTrue valid =>
      have same := congrArg String.toByteArray (Option.some.inj read)
      simpa [String.fromUTF8] using same
    case isFalse => cases read
  subst none
  apply String.toList_inj.mp
  cases digits : assetNameHex.toList with
  | nil => rfl
  | cons high rest =>
    rw [digits] at parsed
    cases rest with
    | nil => cases parsed
    | cons low rest => simp [hexBytes, Option.bind_eq_some_iff] at parsed

/-- Text without a byte order mark is the key of version 1. -/
theorem v1TextKey_of_text (decoded : textOf assetNameHex = some key)
    (bare : key.toList.head? ≠ some BYTE_ORDER_MARK) : v1TextKey assetNameHex = some key := by
  unfold v1TextKey
  split
  case isTrue none =>
    subst none
    have same : textOf "" = some "" := by decide
    rw [same] at decoded
    exact decoded
  case isFalse named =>
    obtain ⟨bytes, parsed, read⟩ := Option.bind_eq_some_iff.mp decoded
    have filled : key ≠ "" := by
      rintro rfl
      exact named (textOf_empty decoded)
    have text : decodeUtf8 bytes = some key := by
      simp only [decodeUtf8, read, Option.bind_eq_bind, Option.bind_some]
      exact if_neg bare
    simp [hexToUtf8, Value.string?, parsed, text, emptyToUndefined, filled]

/-- Text with a byte order mark is not tried as it is. -/
theorem v1TextKey_of_marked (decoded : textOf assetNameHex = some key)
    (marked : key.toList.head? = some BYTE_ORDER_MARK) : v1TextKey assetNameHex ≠ some key := by
  intro same
  unfold v1TextKey at same
  split at same
  case isTrue none =>
    cases same
    cases marked
  case isFalse =>
    obtain ⟨bytes, parsed, read⟩ := Option.bind_eq_some_iff.mp decoded
    have text : decodeUtf8 bytes = some (String.ofList key.toList.tail) := by
      simp only [decodeUtf8, read, Option.bind_eq_bind, Option.bind_some]
      exact if_pos marked
    have shorter : String.ofList key.toList.tail = key := by
      simp only [hexToUtf8, Value.string?, parsed, text, Option.bind_eq_bind, Option.bind_some,
        emptyToUndefined, Option.filter_eq_some_iff] at same
      exact Option.some.inj same.1
    have length := congrArg (fun text : String => text.toList.length) shorter
    cases chars : key.toList with
    | nil =>
      rw [chars] at marked
      cases marked
    | cons c rest => simp [chars] at length

/-- What begins with a byte order mark is no hex. -/
theorem unmarked_of_textOf {text : String} (decoded : textOf assetNameHex = some text) :
    assetNameHex.toList.head? ≠ some BYTE_ORDER_MARK := by
  intro marked
  obtain ⟨bytes, parsed, -⟩ := Option.bind_eq_some_iff.mp decoded
  cases digits : assetNameHex.toList with
  | nil =>
    rw [digits] at marked
    cases marked
  | cons high rest =>
    rw [digits] at marked parsed
    cases marked
    cases rest with
    | nil => cases parsed
    | cons low rest =>
      have none : hexDigitValue BYTE_ORDER_MARK = none := by decide
      simp [hexBytes, none] at parsed

/-- The own key is the first that is tried, or is not tried. -/
theorem ownKey_tried (spells : ownKey nft assetNameHex = .ok (some key))
    (tried : cip25Keys nft assetNameHex = .ok keys) :
    ((declaresVersion2 nft = .ok true ∨ key.toList.head? ≠ some BYTE_ORDER_MARK) ∧
      keys.head? = some key) ∨
    (¬ (declaresVersion2 nft = .ok true ∨ key.toList.head? ≠ some BYTE_ORDER_MARK) ∧ key ∉ keys) := by
  have member : key ∈ keys ↔ _ := mem_cip25Keys tried
  unfold ownKey at spells
  unfold cip25Keys at tried
  cases version : declaresVersion2 nft with
  | error e =>
    rw [version] at spells
    cases spells
  | ok version2 =>
    rw [version] at spells tried
    cases version2 with
    | true =>
      cases spells
      cases tried
      exact .inl ⟨.inl rfl, by simp [List.eraseDups_cons]⟩
    | false =>
      have decoded : textOf assetNameHex = some key := by simpa [Except.map] using spells
      cases tried
      by_cases marked : key.toList.head? = some BYTE_ORDER_MARK
      · refine .inr ⟨by simp [marked], fun inside => ?_⟩
        obtain same | same := member.mp inside
        · exact unmarked_of_textOf decoded (same ▸ marked)
        · exact v1TextKey_of_marked decoded marked same
      · refine .inl ⟨.inr marked, ?_⟩
        simp [v1TextKey_of_text decoded marked, List.eraseDups_cons]

end Keys

section Search

variable {minting : Option Value} {policy assetNameHex : String}

theorem firstDisplayable_some {byPolicy : Value} {keys : List String} {found : String}
    {fields : Cip25Fields} (resolved : firstDisplayable byPolicy keys = some (found, fields)) :
    found ∈ keys ∧ displayableUnder byPolicy found = some fields := by
  obtain ⟨key, member, here⟩ := List.exists_of_findSome?_eq_some resolved
  obtain ⟨fields', shown, same⟩ := Option.map_eq_some_iff.mp here
  cases same
  exact ⟨member, shown⟩

/-- Of an asset with a record of its own, it is known which keys are tried. -/
theorem OwnRecord.resolved {nft byPolicy : Value} {key : String}
    (own : OwnRecord minting policy assetNameHex nft byPolicy key) :
    ∃ keys, cip25Keys nft assetNameHex = .ok keys ∧
      resolveCip25 minting policy assetNameHex = .ok (firstDisplayable byPolicy keys) := by
  have spells := own.spells
  unfold ownKey at spells
  obtain ⟨version2, version⟩ : ∃ version2, declaresVersion2 nft = .ok version2 := by
    cases version : declaresVersion2 nft with
    | error e =>
      rw [version] at spells
      cases spells
    | ok version2 => exact ⟨version2, rfl⟩
  have tried : ∃ keys, cip25Keys nft assetNameHex = .ok keys := by
    unfold cip25Keys
    rw [version]
    exact ⟨_, rfl⟩
  obtain ⟨keys, tried⟩ := tried
  refine ⟨keys, tried, ?_⟩
  simp only [resolveCip25, own.found, tried, Except.map]

/-- What is displayed under an own key is what its record says. -/
theorem OwnRecord.fields {nft byPolicy : Value} {key : String} {fields : Cip25Fields}
    (own : OwnRecord minting policy assetNameHex nft byPolicy key)
    (displayed : displayableUnder byPolicy key = some fields) :
    (byPolicy.ownProperty key).map cip25Fields = some fields := by
  obtain ⟨record, held⟩ := Option.isSome_iff_exists.mp own.held
  obtain ⟨there, -⟩ := Option.filter_eq_some_iff.mp held
  have property : byPolicy.property key = some record := by
    simp only [Value.property, there]
  obtain ⟨shown, -⟩ := Option.filter_eq_some_iff.mp displayed
  rw [property, ← there, held] at shown
  rw [there]
  exact shown

/-- The metadata of an asset that has a record of its own is never that of another key, if
and only if the own record is one to display, or no other is. -/
theorem uncrossed_iff (minting : Option Value) (policy assetNameHex : String) :
    Uncrossed minting policy assetNameHex ↔ Undisputed minting policy assetNameHex := by
  constructor
  · intro uncrossed nft byPolicy key own
    obtain ⟨keys, tried, resolved⟩ := own.resolved
    by_cases disputed : ∃ other, (other = assetNameHex ∨ v1TextKey assetNameHex = some other) ∧
      other ≠ key ∧ (displayableUnder byPolicy other).isSome
    · obtain ⟨other, candidate, -, shown⟩ := disputed
      have inside := (mem_cip25Keys tried).mpr candidate
      cases first : firstDisplayable byPolicy keys with
      | none =>
        have hidden := List.findSome?_eq_none_iff.mp first other inside
        rw [Option.map_eq_none_iff.mp hidden] at shown
        cases shown
      | some entry =>
        obtain ⟨found, fields⟩ := entry
        rw [first] at resolved
        obtain ⟨rfl, -⟩ := uncrossed nft byPolicy key own found fields resolved
        obtain ⟨member, displayed⟩ := firstDisplayable_some first
        obtain ⟨plain, -⟩ | ⟨-, untried⟩ := ownKey_tried own.spells tried
        · exact .inl ⟨plain, by rw [displayed]; rfl⟩
        · exact absurd member untried
    · right
      intro other candidate differs
      by_contra shown
      exact disputed ⟨other, candidate, differs, Option.isSome_iff_ne_none.mpr shown⟩
  · intro undisputed nft byPolicy key own found fields resolved
    obtain ⟨keys, tried, same⟩ := own.resolved
    rw [same] at resolved
    have first := Except.ok.inj resolved
    obtain ⟨member, displayed⟩ := firstDisplayable_some first
    suffices same : found = key from ⟨same, own.fields (same ▸ displayed)⟩
    obtain ⟨plain, shown⟩ | alone := undisputed nft byPolicy key own
    · obtain ⟨-, head⟩ | ⟨marked, -⟩ := ownKey_tried own.spells tried
      · obtain ⟨rest, rfl⟩ := List.head?_eq_some_iff.mp head
        obtain ⟨own, shown⟩ := Option.isSome_iff_exists.mp shown
        rw [firstDisplayable, List.findSome?_cons, shown] at first
        cases first
        rfl
      · exact absurd plain marked
    · by_contra differs
      have hidden := alone found ((mem_cip25Keys tried).mp member) differs
      rw [hidden] at displayed
      cases displayed

/-- A policy with two assets, one named by the hex of the other's name. The record of the
latter says nothing that is displayed. -/
def twoAssets : Value :=
  .object [("721", .object
    [(String.ofList (List.replicate 56 'b'), .object
      [("616263", .object [("name", .string "A different token")]),
       ("abc", .object [("mediaType", .string "image/png")])]),
     ("version", .number 1)])]

theorem twoAssets_crossed :
    ¬ Uncrossed (some twoAssets) (String.ofList (List.replicate 56 'b')) "616263" := by
  intro uncrossed
  have own : OwnRecord (some twoAssets) (String.ofList (List.replicate 56 'b')) "616263" _ _ "abc" := {
    found := rfl
    spells := by decide
    held := by decide }
  have other := uncrossed _ _ "abc" own "616263" ⟨some "A different token", none, none, none⟩
    (by decide)
  exact absurd other.1 (by decide)

end Search

end WalletBackend.Koios.Assets
