import WalletBackend.Domain.Errors
import WalletBackend.Domain.Numbers
import WalletBackend.Domain.Types

/-! The shared Koios schemas and the packing of batch items under the request-body
budget. -/
namespace WalletBackend.Koios

/-- `/^-?(?:0|[1-9]\d*)$/`. -/
def isSignedDigits (s : String) : Bool :=
  match (if s.toList.head? = some '-' then s.toList.tail else s.toList) with
  | [] => false
  | ['0'] => true
  | c :: rest => c != '0' && c.isDigit && rest.all Char.isDigit

/-- `signedNumeric`, for the one amount that goes below zero. -/
inductive SignedNumeric where
  | number (n : Int) (safe : n.natAbs ≤ maxSafeInteger)
  | digits (s : String) (wellFormed : isSignedDigits s = true)
  deriving DecidableEq

/-- `String(value)`. -/
def SignedNumeric.text : SignedNumeric → String
  | .number n _ => toString n
  | .digits s _ => s

/-- `referenceScript`. -/
structure ReferenceScript where
  hash : String
  size : Option Nat
  type : Option String
  bytes : Option String
  deriving DecidableEq

/-- `assetItem`. -/
structure AssetItem where
  policy_id : String
  asset_name : String
  quantity : Numeric
  deriving DecidableEq

def mapAsset (row : AssetItem) : Asset where
  policyId := row.policy_id
  assetName := row.asset_name
  quantity := row.quantity.text

/-- Absent means no native assets. -/
def mapAssets (rows : Option (List AssetItem)) : List Asset :=
  (rows.getD []).map mapAsset

def KOIOS_BODY_LIMIT_BYTES : Nat := 5120
def BODY_SAFETY_MARGIN_BYTES : Nat := 128

/-- `toBody` followed by `JSON.stringify`: the chunk is one array in a fixed
envelope, each item serialized on its own. -/
structure BodyBuilder (Item : Type) where
  before : String
  item : Item → String
  after : String

namespace BodyBuilder

variable {Item : Type}

def stringify (body : BodyBuilder Item) (chunk : List Item) : String :=
  body.before ++ "[" ++ ",".intercalate (chunk.map body.item) ++ "]" ++ body.after

/-- The body with an empty item list. -/
def envelope (body : BodyBuilder Item) : Nat := (body.stringify []).utf8ByteSize

def itemBytes (body : BodyBuilder Item) (item : Item) : Nat := (body.item item).utf8ByteSize

end BodyBuilder

/-- The local variables of `packBySize`. -/
structure Packing (Item : Type) where
  chunks : List (List Item)
  current : List Item
  used : Nat

variable {Item : Type}

/-- One turn of the loop. `limit` is the budget less the margin; a negative limit
admits nothing, and neither does zero. -/
def Packing.add (body : BodyBuilder Item) (budget : Nat) (packing : Packing Item) (item : Item) :
    Except Failure (Packing Item) :=
  let limit := budget - BODY_SAFETY_MARGIN_BYTES
  let itemBytes := body.itemBytes item
  if limit < body.envelope + itemBytes then
    .error (.plain
      s!"koios request item is {itemBytes} bytes, which cannot fit in a {budget}-byte body")
  else
    let separator := if packing.current.length = 0 then 0 else 1
    if 0 < packing.current.length ∧
        limit < body.envelope + packing.used + separator + itemBytes then
      .ok { chunks := packing.chunks ++ [packing.current], current := [item], used := itemBytes }
    else
      .ok { packing with
        current := packing.current ++ [item], used := packing.used + (separator + itemBytes) }

def Packing.addAll (body : BodyBuilder Item) (budget : Nat) :
    Packing Item → List Item → Except Failure (Packing Item)
  | packing, [] => .ok packing
  | packing, item :: items => do addAll body budget (← packing.add body budget item) items

def packBySize (items : List Item) (body : BodyBuilder Item) (budget : Nat) :
    Except Failure (List (List Item)) :=
  if items.length = 0 then .ok []
  else do
    let packing ← Packing.addAll body budget ⟨[], [], 0⟩ items
    pure (if 0 < packing.current.length then packing.chunks ++ [packing.current]
      else packing.chunks)

/-- The items taken in so far, in order. -/
def Packing.items (packing : Packing Item) : List Item := packing.chunks.flatten ++ packing.current

/-- An item fits alone when the loop accepts it at all. -/
def BodyBuilder.Fits (body : BodyBuilder Item) (budget : Nat) (item : Item) : Prop :=
  body.envelope + body.itemBytes item ≤ budget - BODY_SAFETY_MARGIN_BYTES

theorem Packing.add_ok {body : BodyBuilder Item} {budget : Nat} {packing next : Packing Item}
    {item : Item} (ok : packing.add body budget item = .ok next) :
    next.items = packing.items ++ [item] ∧ body.Fits budget item := by
  by_cases exceeds : budget - BODY_SAFETY_MARGIN_BYTES < body.envelope + body.itemBytes item
  · simp only [Packing.add, if_pos exceeds] at ok
    cases ok
  · simp only [Packing.add, if_neg exceeds] at ok
    refine ⟨?_, Nat.le_of_not_lt exceeds⟩
    split at ok
    all_goals split at ok
    all_goals
      cases ok
      simp [Packing.items]

theorem Packing.add_fits {body : BodyBuilder Item} {budget : Nat} (packing : Packing Item)
    {item : Item} (fits : body.Fits budget item) :
    ∃ next, packing.add body budget item = .ok next := by
  simp only [Packing.add, if_neg (Nat.not_lt.mpr fits)]
  split
  all_goals split
  all_goals exact ⟨_, rfl⟩

theorem Packing.addAll_ok {body : BodyBuilder Item} {budget : Nat} {packing next : Packing Item}
    {items : List Item} (ok : packing.addAll body budget items = .ok next) :
    next.items = packing.items ++ items := by
  induction items generalizing packing with
  | nil =>
    cases ok
    rw [List.append_nil]
  | cons item items ih =>
    cases added : packing.add body budget item with
    | error e => simp [addAll, added, bind, Except.bind] at ok
    | ok noted =>
      simp only [addAll, added, bind, Except.bind] at ok
      rw [ih ok, (add_ok added).1, List.append_assoc, List.singleton_append]

theorem Packing.addAll_fits {body : BodyBuilder Item} {budget : Nat} (packing : Packing Item)
    {items : List Item} (fits : ∀ item ∈ items, body.Fits budget item) :
    ∃ next, packing.addAll body budget items = .ok next := by
  induction items generalizing packing with
  | nil => exact ⟨packing, rfl⟩
  | cons item items ih =>
    obtain ⟨noted, added⟩ := packing.add_fits (fits item List.mem_cons_self)
    obtain ⟨next, rest⟩ := ih noted fun item' member => fits item' (List.mem_cons_of_mem _ member)
    exact ⟨next, by simp only [addAll, added, bind, Except.bind, rest]⟩

/-- The chunks are the items in order. -/
theorem packBySize_flatten {items : List Item} {body : BodyBuilder Item} {budget : Nat}
    {chunks : List (List Item)} (ok : packBySize items body budget = .ok chunks) :
    chunks.flatten = items := by
  unfold packBySize at ok
  split at ok
  case isTrue none =>
    cases ok
    exact (List.length_eq_zero_iff.mp none).symm
  case isFalse =>
    cases packed : Packing.addAll body budget ⟨[], [], 0⟩ items with
    | error e => simp [packed, bind, Except.bind] at ok
    | ok packing =>
      simp only [packed, bind, Except.bind, pure, Except.pure, Except.ok.injEq] at ok
      have all : packing.items = items := Packing.addAll_ok packed
      rw [← all, ← ok, Packing.items]
      split
      · simp
      case isFalse none =>
        rw [List.length_eq_zero_iff.mp (Nat.eq_zero_of_not_pos none), List.append_nil]

/-- Items that each fit alone can be packed. -/
theorem packBySize_fits {items : List Item} {body : BodyBuilder Item} {budget : Nat}
    (fits : ∀ item ∈ items, body.Fits budget item) :
    ∃ chunks, packBySize items body budget = .ok chunks := by
  unfold packBySize
  split
  · exact ⟨[], rfl⟩
  · obtain ⟨packing, packed⟩ := Packing.addAll_fits ⟨[], [], 0⟩ fits
    exact ⟨_, by simp only [packed, bind, Except.bind, pure, Except.pure]; rfl⟩

section Sizes

/-- The length of a body as it is sent. -/
def BodyBuilder.length (body : BodyBuilder Item) (chunk : List Item) : Nat :=
  (body.stringify chunk).utf8ByteSize

/-- The items of a chunk with a comma between each two. -/
def BodyBuilder.joinedBytes (body : BodyBuilder Item) (chunk : List Item) : Nat :=
  (",".intercalate (chunk.map body.item)).utf8ByteSize

theorem BodyBuilder.length_eq (body : BodyBuilder Item) (chunk : List Item) :
    body.length chunk = body.envelope + body.joinedBytes chunk := by
  simp only [BodyBuilder.length, envelope, stringify, joinedBytes, String.utf8ByteSize_append,
    List.map_nil, String.intercalate_nil, String.utf8ByteSize_empty]
  omega

/-- One more item costs its own bytes and a separator. -/
theorem BodyBuilder.joinedBytes_concat (body : BodyBuilder Item) (chunk : List Item) (item : Item) :
    body.joinedBytes (chunk ++ [item]) =
      body.joinedBytes chunk + (if chunk.length = 0 then 0 else 1) + body.itemBytes item := by
  cases chunk with
  | nil => simp [joinedBytes, itemBytes]
  | cons first chunk =>
    have comma : ",".utf8ByteSize = 1 := by decide
    rw [joinedBytes, List.map_append, String.intercalate_append_of_ne_nil (by simp) (by simp)]
    simp only [List.map_cons, List.map_nil, String.intercalate_singleton,
      String.utf8ByteSize_append, comma, joinedBytes, itemBytes, List.length_cons,
      Nat.add_eq_zero_iff, Nat.succ_ne_self, and_false, if_false]

/-- What the loop keeps: it counts the bytes of the current chunk, and every chunk stays
within the budget less the margin. -/
structure Packing.Bounded (body : BodyBuilder Item) (budget : Nat) (packing : Packing Item) :
    Prop where
  counted : packing.used = body.joinedBytes packing.current
  chunks : ∀ chunk ∈ packing.chunks, body.length chunk ≤ budget - BODY_SAFETY_MARGIN_BYTES
  current : 0 < packing.current.length →
    body.length packing.current ≤ budget - BODY_SAFETY_MARGIN_BYTES

theorem Packing.Bounded.add {body : BodyBuilder Item} {budget : Nat} {packing next : Packing Item}
    {item : Item} (bounded : packing.Bounded body budget)
    (ok : packing.add body budget item = .ok next) : next.Bounded body budget := by
  have fits := (Packing.add_ok ok).2
  simp only [Packing.add, if_neg (Nat.not_lt.mpr fits)] at ok
  by_cases full : 0 < packing.current.length ∧ budget - BODY_SAFETY_MARGIN_BYTES <
      body.envelope + packing.used + (if packing.current.length = 0 then 0 else 1) +
        body.itemBytes item
  · rw [if_pos full] at ok
    cases ok
    have alone : body.joinedBytes [item] = body.itemBytes item := by
      simp [BodyBuilder.joinedBytes, BodyBuilder.itemBytes]
    refine ⟨alone.symm, ?_, ?_⟩
    · intro chunk member
      rcases List.mem_append.mp member with earlier | last
      · exact bounded.chunks chunk earlier
      · rw [List.mem_singleton.mp last]
        exact bounded.current full.1
    · intro _
      rw [body.length_eq, alone]
      exact fits
  · rw [if_neg full] at ok
    cases ok
    have counted : packing.used + ((if packing.current.length = 0 then 0 else 1) +
        body.itemBytes item) = body.joinedBytes (packing.current ++ [item]) := by
      rw [body.joinedBytes_concat, bounded.counted, Nat.add_assoc]
    refine ⟨counted, bounded.chunks, ?_⟩
    intro _
    rw [body.length_eq]
    change body.envelope + body.joinedBytes (packing.current ++ [item]) ≤ _
    rw [← counted]
    by_cases first : packing.current.length = 0
    · have none' : packing.current = [] := List.length_eq_zero_iff.mp first
      have zero : packing.used = 0 := by
        rw [bounded.counted, none']
        rfl
      rw [zero, if_pos first, Nat.zero_add, Nat.zero_add]
      exact fits
    · rw [if_neg first] at full ⊢
      have within := fun exceeds => full ⟨Nat.pos_of_ne_zero first, exceeds⟩
      omega

theorem Packing.Bounded.addAll {body : BodyBuilder Item} {budget : Nat}
    {packing next : Packing Item} {items : List Item} (bounded : packing.Bounded body budget)
    (ok : packing.addAll body budget items = .ok next) : next.Bounded body budget := by
  induction items generalizing packing with
  | nil =>
    cases ok
    exact bounded
  | cons item items ih =>
    cases added : packing.add body budget item with
    | error e => simp [Packing.addAll, added, bind, Except.bind] at ok
    | ok noted =>
      simp only [Packing.addAll, added, bind, Except.bind] at ok
      exact ih (bounded.add added) ok

/-- Every chunk is sent within the budget less the margin. -/
theorem packBySize_length {items : List Item} {body : BodyBuilder Item} {budget : Nat}
    {chunks : List (List Item)} (ok : packBySize items body budget = .ok chunks) :
    ∀ chunk ∈ chunks, body.length chunk ≤ budget - BODY_SAFETY_MARGIN_BYTES := by
  unfold packBySize at ok
  split at ok
  · cases ok
    exact nofun
  · cases packed : Packing.addAll body budget ⟨[], [], 0⟩ items with
    | error e => simp [packed, bind, Except.bind] at ok
    | ok packing =>
      simp only [packed, bind, Except.bind, pure, Except.pure, Except.ok.injEq] at ok
      have initial : Packing.Bounded body budget (⟨[], [], 0⟩ : Packing Item) :=
        ⟨rfl, nofun, fun impossible => absurd impossible (Nat.lt_irrefl 0)⟩
      have bounded := initial.addAll packed
      rw [← ok]
      intro chunk member
      split at member
      case isTrue some' =>
        rcases List.mem_append.mp member with earlier | last
        · exact bounded.chunks chunk earlier
        · rw [List.mem_singleton.mp last]
          exact bounded.current some'
      case isFalse => exact bounded.chunks chunk member

/-- A larger budget admits what a smaller one does. -/
theorem BodyBuilder.Fits.mono {body : BodyBuilder Item} {budget budget' : Nat} {item : Item}
    (fits : body.Fits budget item) (larger : budget ≤ budget') : body.Fits budget' item := by
  unfold BodyBuilder.Fits at fits ⊢
  omega

end Sizes

end WalletBackend.Koios
