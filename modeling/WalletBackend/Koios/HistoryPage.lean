import WalletBackend.Koios.TxInfo
import WalletBackend.Library.BlockWindow

/-! The page both history paths cut from the thin rows they have listed: the oldest
rows, and the rest of the last one's block. -/
namespace WalletBackend.Koios
open BlockPaging

def HISTORY_PAGE_SIZE : Nat := 50

/-- The page cut from a list: the oldest rows, and the rest of the last one's block. -/
def selectPage (list : List HistoryRow) : List HistoryRow :=
  window HISTORY_PAGE_SIZE HistoryRow.block_height
    (list.insertionSort fun a b => a.block_height ≤ b.block_height)

/-- The thin row of a transaction. -/
def TxInfoRow.thin (tx : TxInfoRow) : HistoryRow where
  tx_hash := tx.tx_hash
  block_height := tx.block_height

variable {history : ChainHistory}

/-- The chain's transactions on the page cut from `list`. -/
def ChainHistory.page (history : ChainHistory) (list : List HistoryRow) : List TxInfoRow :=
  history.under ((selectPage list).map HistoryRow.tx_hash)

@[simp] theorem selectPage_nil : selectPage [] = [] := window_nil

theorem selectPage_subperm (list : List HistoryRow) : (selectPage list).Subperm list :=
  (window_sublist _).subperm.trans (List.perm_insertionSort _ list).subperm

theorem under_nil : history.under [] = [] := by simp [ChainHistory.under]

theorem ordered_txs (history : ChainHistory) : Ordered TxInfoRow.block_height history.txs :=
  history.ordered.imp fun less => by omega

/-- The order in which the list came does not matter to the page. -/
theorem page_perm {list list' : List HistoryRow} (same : list.Perm list') :
    history.page list = history.page list' := by
  have sorted : ∀ rows : List HistoryRow, Ordered HistoryRow.block_height
      (rows.insertionSort fun a b => a.block_height ≤ b.block_height) :=
    List.pairwise_insertionSort _
  have page : (selectPage list).Perm (selectPage list') :=
    window_perm (by decide) ((List.perm_insertionSort _ list).trans
      (same.trans (List.perm_insertionSort _ list').symm)) (sorted list) (sorted list')
  exact List.filter_congr fun tx _ => decide_eq_decide.mpr (page.map HistoryRow.tx_hash).mem_iff

end WalletBackend.Koios
