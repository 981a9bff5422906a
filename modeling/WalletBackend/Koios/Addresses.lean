import WalletBackend.Koios.Accounts
import WalletBackend.Koios.AddressHistory

/-! The reads of the Koios provider that are keyed by an address set. -/
namespace WalletBackend.Koios
open Interaction

def mapAddressUtxo : UtxoRow → ScriptedUtxo := mapUtxo

/-- The body of an `/address_info` request. -/
def addressInfoBody : BodyBuilder String := quotedBody "\x7b\"_addresses\":" "\x7d"

/-- The body of an `/address_utxos` request. -/
def addressUtxosBody : BodyBuilder String :=
  quotedBody "\x7b\"_addresses\":" ",\"_extended\":true\x7d"

def ADDRESS_UTXOS_PATH : String := "/address_utxos?order=tx_hash.asc,tx_index.asc"

section Methods

variable (attempts : ReadAttempts) (bodyLimit : Nat) (addresses : List String)

def filterUsedAddresses : Read (List String) :=
  if addresses.length = 0 then pure []
  else do
    let rows ← batchAll addressInfoBody (fun chunk => get attempts (.addressInfo chunk)) bodyLimit
      addresses
    pure (addresses.filter fun address => address ∈ rows)

/-- Each chunk of the packed addresses is read page by page. -/
def pagedBatchAll (path : String) (body : BodyBuilder String) :
    PagedRead UtxoRow String (List UtxoRow) :=
  packAdaptively body (fun chunk => batchAllPages path (body.stringify chunk) attempts
    { rowKey := some UtxoRow.rowKey
      keyset := some UtxoRow.keyset
      verifyConsistency := false }) bodyLimit addresses

def getUtxosByAddresses : PagedRead UtxoRow String (List ScriptedUtxo) :=
  if addresses.length = 0 then pure []
  else do
    let rows ← pagedBatchAll attempts bodyLimit addresses ADDRESS_UTXOS_PATH addressUtxosBody
    pure (rows.map mapAddressUtxo)

end Methods

/-! What a packed body says about the items in it. -/

section Bodies

/-- Text that JSON writes between quotes as it is. -/
def Plain (text : String) : Prop := '"' ∉ text.toList

theorem stringify_quoted (before after : String) (chunk : List String) :
    ((quotedBody before after).stringify chunk).toList = before.toList ++ '[' ::
      ((",".intercalate (chunk.map fun text => "\"" ++ text ++ "\"")).toList ++
        ']' :: after.toList) := by
  simp [BodyBuilder.stringify, quotedBody, String.toList_append]

theorem quoted_cons (text : String) (chunk : List String) :
    (",".intercalate ((text :: chunk).map fun text => "\"" ++ text ++ "\"")).toList =
      '"' :: (text.toList ++ '"' :: (match chunk with
        | [] => []
        | _ => ',' :: (",".intercalate (chunk.map fun text => "\"" ++ text ++ "\"")).toList)) := by
  cases chunk with
  | nil => simp [String.toList_append]
  | cons next chunk =>
    rw [List.map_cons, List.map_cons, String.intercalate_cons_cons]
    simp [String.toList_append]

theorem quoted_injective {chunk chunk' : List String} (plain : ∀ text ∈ chunk, Plain text)
    (plain' : ∀ text ∈ chunk', Plain text)
    (same : (",".intercalate (chunk.map fun text => "\"" ++ text ++ "\"")).toList =
      (",".intercalate (chunk'.map fun text => "\"" ++ text ++ "\"")).toList) : chunk = chunk' := by
  induction chunk generalizing chunk' with
  | nil =>
    cases chunk' with
    | nil => rfl
    | cons text' chunk' =>
      rw [quoted_cons] at same
      simp at same
  | cons text chunk ih =>
    cases chunk' with
    | nil =>
      rw [quoted_cons] at same
      simp at same
    | cons text' chunk' =>
      rw [quoted_cons, quoted_cons] at same
      obtain ⟨first, rest⟩ := Splitting.split_at_separator (plain text List.mem_cons_self)
        (plain' text' List.mem_cons_self) (List.cons.inj same).2
      rw [String.toList_inj.mp first]
      cases chunk with
      | nil =>
        cases chunk' with
        | nil => rfl
        | cons => cases rest
      | cons =>
        cases chunk' with
        | nil => cases rest
        | cons =>
          rw [ih (fun text member => plain text (List.mem_cons_of_mem _ member))
            (fun text member => plain' text (List.mem_cons_of_mem _ member))
            (List.cons.inj rest).2]

/-- The body names its items. -/
theorem stringify_injective {before after : String} {chunk chunk' : List String}
    (plain : ∀ text ∈ chunk, Plain text) (plain' : ∀ text ∈ chunk', Plain text)
    (same : (quotedBody before after).stringify chunk =
      (quotedBody before after).stringify chunk') : chunk = chunk' := by
  have chars := congrArg String.toList same
  rw [stringify_quoted, stringify_quoted] at chars
  have items := (List.cons.inj (List.append_cancel_left chars)).2
  exact quoted_injective plain plain' (List.append_cancel_right items)

end Bodies

end WalletBackend.Koios
