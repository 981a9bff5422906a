import WalletBackend.Blockfrost.RefLookups
import Mathlib.Order.Basic

/-! What the walk over an address's outputs tells of a collateral output. The list may
change between any two pages; an output that is carried to a page already read, when others
listed ahead of it go, is on no page that is asked for, and is passed for spent. -/
namespace WalletBackend.Blockfrost.Refs
open Interaction

variable {T : Type} {txHash address : String} {outputIndex : Nat}

/-- Two rows about one output. -/
def SameOutput (row other : AddressUtxoRefRow) : Prop :=
  row.tx_hash.toLower = other.tx_hash.toLower ∧ row.output_index = other.output_index

/-- The outputs of an address over time, as they are listed: each once. -/
structure RefHistory (T : Type) where
  listing : T → List AddressUtxoRefRow
  distinct : ∀ t, (listing t).Pairwise fun row other => ¬ SameOutput row other

/-- A page of a list: a hundred rows of it, or a 404 when nothing is listed. -/
def ServesRefs (listing : List AddressUtxoRefRow) (page : Nat) :
    Except Failure (Option (List AddressUtxoRefRow)) → Prop
  | .error _ => True
  | .ok none => listing = []
  | .ok (some rows) => rows = (listing.drop (100 * (page - 1))).take 100

/-- Each page was answered from the list of its instant. -/
def HonestRefs (address : String) (history : RefHistory T)
    (trace : List (Exchange T Endpoint.Answer)) : Prop :=
  ∀ t page answer, ⟨t, .addressUtxoRefs address page, answer⟩ ∈ trace →
    ServesRefs (history.listing t) page answer

namespace RefHistory

variable (history : RefHistory T) (txHash : String) (outputIndex : Nat)

/-- The output is listed at `t`. -/
def Unspent (t : T) : Prop := ∃ row ∈ history.listing t, holds txHash outputIndex row = true

/-- How many rows are listed ahead of the output at `t`. -/
def ahead (t : T) : Nat := (history.listing t).findIdx (holds txHash outputIndex)

end RefHistory

/-- An instant from the first request to the last. -/
def During [LE T] (trace : List (Exchange T Endpoint.Answer)) (t : T) : Prop :=
  ∃ first ∈ trace, ∃ last ∈ trace, first.instant ≤ t ∧ t ≤ last.instant

/-- What is reported spent was absent at some instant of the walk. -/
def SpentOnlyIfAbsent [LE T] (history : RefHistory T) (txHash : String) (outputIndex : Nat)
    (trace : List (Exchange T Endpoint.Answer)) (outcome : Except Failure (Option Bool)) : Prop :=
  outcome = .ok (some true) → ∃ t, During trace t ∧ ¬ history.Unspent txHash outputIndex t

/-- Between two successive requests the output goes from behind the page that was read to
ahead of the one that is read next. -/
def Shifted (history : RefHistory T) (txHash : String) (outputIndex : Nat)
    (trace : List (Exchange T Endpoint.Answer)) : Prop :=
  ∃ before x y after address page, trace = before ++ x :: y :: after ∧
    x.request = .addressUtxoRefs address page ∧
    100 * page ≤ history.ahead txHash outputIndex x.instant ∧
    history.ahead txHash outputIndex y.instant < 100 * page

/-- The last page asked for is short, and the output is listed ahead of it. -/
def LeftBehind (history : RefHistory T) (txHash : String) (outputIndex : Nat)
    (trace : List (Exchange T Endpoint.Answer)) : Prop :=
  ∃ before t address page rows,
    trace = before ++ [⟨t, .addressUtxoRefs address page, .ok (some rows)⟩] ∧
    rows.length < 100 ∧ history.ahead txHash outputIndex t < 100 * (page - 1)

section Pages

variable {history : RefHistory T} {t : T} {page : Nat} {rows : List AddressUtxoRefRow}

/-- The row at the output's position is the output. -/
theorem RefHistory.Unspent.getElem (unspent : history.Unspent txHash outputIndex t) :
    ∃ row, (history.listing t)[history.ahead txHash outputIndex t]? = some row ∧
      holds txHash outputIndex row = true := by
  have bound : history.ahead txHash outputIndex t < (history.listing t).length :=
    List.findIdx_lt_length_of_exists unspent
  exact ⟨_, List.getElem?_eq_getElem bound, List.findIdx_getElem⟩

/-- No row but the one at its position is the output. -/
theorem RefHistory.holds_position {i : Nat} {row : AddressUtxoRefRow}
    (listed : (history.listing t)[i]? = some row) (held : holds txHash outputIndex row = true) :
    history.ahead txHash outputIndex t = i := by
  obtain ⟨bound, rfl⟩ := List.getElem?_eq_some_iff.mp listed
  have upTo : history.ahead txHash outputIndex t ≤ i := by
    refine Nat.le_of_not_lt fun later => ?_
    exact Bool.false_ne_true ((List.not_of_lt_findIdx later).symm.trans held)
  refine Nat.le_antisymm upTo (Nat.le_of_not_lt fun earlier => ?_)
  have inside : history.ahead txHash outputIndex t < (history.listing t).length := by omega
  have first : holds txHash outputIndex
      (history.listing t)[history.ahead txHash outputIndex t] = true :=
    List.findIdx_getElem
  refine List.pairwise_iff_getElem.mp (history.distinct t) _ i (by omega) bound earlier ?_
  simp only [holds, Bool.and_eq_true, beq_iff_eq] at first held
  exact ⟨first.1.trans held.1.symm, first.2.trans held.2.symm⟩

/-- A page that the output is listed on holds it, and no other does. -/
theorem ServesRefs.any_iff (served : ServesRefs (history.listing t) page (.ok (some rows)))
    (unspent : history.Unspent txHash outputIndex t) :
    rows.any (holds txHash outputIndex) = true ↔
      100 * (page - 1) ≤ history.ahead txHash outputIndex t ∧
        history.ahead txHash outputIndex t < 100 * (page - 1) + 100 := by
  have position (i : Nat) : rows[i]? = if i < 100 then (history.listing t)[100 * (page - 1) + i]?
      else none := by
    rw [served, List.getElem?_take, List.getElem?_drop]
  rw [List.any_eq_true]
  constructor
  · rintro ⟨row, member, held⟩
    obtain ⟨i, found⟩ := List.getElem?_of_mem member
    rw [position] at found
    split at found
    · have same := RefHistory.holds_position found held
      omega
    · cases found
  · rintro ⟨from_, upTo⟩
    obtain ⟨row, found, held⟩ := unspent.getElem
    refine ⟨row, List.mem_of_getElem? (i := history.ahead txHash outputIndex t - 100 * (page - 1)) ?_,
      held⟩
    rw [position, if_pos (by omega), show 100 * (page - 1) +
      (history.ahead txHash outputIndex t - 100 * (page - 1)) = history.ahead txHash outputIndex t by
        omega]
    exact found

/-- A short page ends the list. -/
theorem ServesRefs.ends (served : ServesRefs (history.listing t) page (.ok (some rows)))
    (short : rows.length < 100) (unspent : history.Unspent txHash outputIndex t) :
    history.ahead txHash outputIndex t < 100 * (page - 1) + 100 := by
  have bound : history.ahead txHash outputIndex t < (history.listing t).length :=
    List.findIdx_lt_length_of_exists unspent
  have size := congrArg List.length served
  simp only [List.length_take, List.length_drop] at size
  omega

end Pages

section Walk

variable {history : RefHistory T} {trace : List (Exchange T Endpoint.Answer)}
  {remaining page : Nat} {outcome : Except Failure (Option Bool)}

/-- A walk asks for its first page and goes on as the answer has it. -/
inductive Walked (txHash : String) (outputIndex : Nat) (address : String) (remaining page : Nat)
    (outcome : Except Failure (Option Bool)) : List (Exchange T Endpoint.Answer) → Prop where
  | failed (t : T) (e : Failure) (ends : outcome = .error e) :
      Walked txHash outputIndex address remaining page outcome
        [⟨t, .addressUtxoRefs address page, .error e⟩]
  | missing (t : T) (ends : outcome = .ok (some true)) :
      Walked txHash outputIndex address remaining page outcome
        [⟨t, .addressUtxoRefs address page, .ok none⟩]
  | held (t : T) (rows : List AddressUtxoRefRow)
      (found : rows.any (holds txHash outputIndex) = true) (ends : outcome = .ok (some false)) :
      Walked txHash outputIndex address remaining page outcome
        [⟨t, .addressUtxoRefs address page, .ok (some rows)⟩]
  | short (t : T) (rows : List AddressUtxoRefRow)
      (absent : ¬ rows.any (holds txHash outputIndex) = true) (short : rows.length < 100)
      (ends : outcome = .ok (some true)) :
      Walked txHash outputIndex address remaining page outcome
        [⟨t, .addressUtxoRefs address page, .ok (some rows)⟩]
  | full (t : T) (rows : List AddressUtxoRefRow) (rest : List (Exchange T Endpoint.Answer))
      (absent : ¬ rows.any (holds txHash outputIndex) = true) (full : ¬ rows.length < 100)
      (goesOn : (walkCollateral txHash outputIndex address remaining (page + 1)).Runs rest outcome) :
      Walked txHash outputIndex address remaining page outcome
        (⟨t, .addressUtxoRefs address page, .ok (some rows)⟩ :: rest)

theorem walkCollateral_step
    (runs : (walkCollateral txHash outputIndex address (remaining + 1) page).Runs trace outcome) :
    Walked txHash outputIndex address remaining page outcome trace := by
  obtain ⟨first, rest, answer, rfl, asked, goesOn⟩ | ⟨e, failed, ends⟩ := Async.runs_bind.mp runs
  · obtain ⟨t, rfl⟩ := runs_getOrUndefined.mp asked
    cases answer with
    | none =>
      obtain ⟨rfl, ends⟩ := goesOn
      exact .missing t ends.symm
    | some rows =>
      change (if rows.any (holds txHash outputIndex) = true then _ else
        if rows.length < 100 then _ else _ : Read (Option Bool)).Runs _ _ at goesOn
      by_cases found : rows.any (holds txHash outputIndex) = true
      · rw [if_pos found] at goesOn
        obtain ⟨rfl, ends⟩ := goesOn
        exact .held t rows found ends.symm
      · rw [if_neg found] at goesOn
        by_cases short : rows.length < 100
        · rw [if_pos short] at goesOn
          obtain ⟨rfl, ends⟩ := goesOn
          exact .short t rows found short ends.symm
        · rw [if_neg short] at goesOn
          exact .full t rows rest found short goesOn
  · obtain ⟨t, answer, rest, rfl, rfl, rfl⟩ := failed
    exact .failed t e ends.symm

/-- A walk that asks for nothing tells nothing. -/
theorem walkCollateral_asks :
    ¬ (walkCollateral txHash outputIndex address remaining page).Runs
      ([] : List (Exchange T Endpoint.Answer)) (.ok (some true)) := by
  intro runs
  cases remaining with
  | zero => cases runs.2
  | succ remaining => cases walkCollateral_step runs

/-- A walk that passes a listed output for spent leaves it behind. -/
theorem walkCollateral_leaves (honest : HonestRefs address history trace)
    (unspent : ∀ y ∈ trace, history.Unspent txHash outputIndex y.instant)
    (runs : (walkCollateral txHash outputIndex address remaining page).Runs trace (.ok (some true))) :
    LeftBehind history txHash outputIndex trace := by
  induction remaining generalizing page trace with
  | zero => cases runs.2
  | succ remaining ih =>
    cases walkCollateral_step runs with
    | failed t e ends => cases ends
    | missing t ends =>
      have empty : history.listing t = [] := honest t page _ List.mem_cons_self
      obtain ⟨row, member, -⟩ := unspent _ List.mem_cons_self
      exact absurd (empty ▸ member) List.not_mem_nil
    | held t rows found ends => cases ends
    | short t rows absent short ends =>
      have served := honest t page _ List.mem_cons_self
      have listed := unspent _ List.mem_cons_self
      refine ⟨[], t, address, page, rows, rfl, short, Nat.lt_of_not_le fun notAhead => absent ?_⟩
      exact (served.any_iff listed).mpr ⟨notAhead, served.ends short listed⟩
    | full t rows rest absent full goesOn =>
      obtain ⟨before, last, owner, number, short, rfl, left⟩ :=
        ih (fun t page answer member => honest t page answer (List.mem_cons_of_mem _ member))
          (fun y member => unspent y (List.mem_cons_of_mem _ member)) goesOn
      exact ⟨_ :: before, last, owner, number, short, rfl, left⟩

/-- An output that is left behind is passed for spent. -/
theorem walkCollateral_misses (honest : HonestRefs address history trace)
    (unspent : ∀ y ∈ trace, history.Unspent txHash outputIndex y.instant)
    (left : LeftBehind history txHash outputIndex trace)
    (runs : (walkCollateral txHash outputIndex address remaining page).Runs trace outcome) :
    outcome = .ok (some true) := by
  obtain ⟨before, last, owner, number, ending, rfl, short, ahead⟩ := left
  induction remaining generalizing page before with
  | zero => simp [walkCollateral] at runs
  | succ remaining ih =>
    cases before with
    | nil =>
      cases walkCollateral_step runs with
      | held t rows found ends =>
        have served := honest last _ _ List.mem_cons_self
        have listed := unspent _ List.mem_cons_self
        have := (served.any_iff listed).mp found
        omega
      | short t rows absent short ends => exact ends
      | full t rows rest absent full goesOn => exact absurd short full
    | cons x before =>
      generalize all : x :: before ++ [_] = trace at runs
      cases walkCollateral_step runs with
      | full t rows rest absent full goesOn =>
        obtain ⟨rfl, rfl⟩ := List.cons.inj all
        exact ih _ (fun t page answer member => honest t page answer (List.mem_cons_of_mem _ member))
          (fun y member => unspent y (List.mem_cons_of_mem _ member)) goesOn
      | _ => simp at all

/-- A walk that begins no later than the output is listed, and that passes it for spent, goes
by it between two requests. -/
theorem walkCollateral_shifts (honest : HonestRefs address history trace)
    (unspent : ∀ y ∈ trace, history.Unspent txHash outputIndex y.instant)
    (notAhead : ∀ y ∈ trace.head?, 100 * (page - 1) ≤ history.ahead txHash outputIndex y.instant)
    (runs : (walkCollateral txHash outputIndex address remaining page).Runs trace (.ok (some true))) :
    Shifted history txHash outputIndex trace := by
  induction remaining generalizing page trace with
  | zero => cases runs.2
  | succ remaining ih =>
    cases walkCollateral_step runs with
    | failed t e ends => cases ends
    | missing t ends =>
      have empty : history.listing t = [] := honest t page _ List.mem_cons_self
      obtain ⟨row, member, -⟩ := unspent _ List.mem_cons_self
      exact absurd (empty ▸ member) List.not_mem_nil
    | held t rows found ends => cases ends
    | short t rows absent short ends =>
      have served := honest t page _ List.mem_cons_self
      have listed := unspent _ List.mem_cons_self
      exact absurd ((served.any_iff listed).mpr ⟨notAhead _ rfl, served.ends short listed⟩) absent
    | full t rows rest absent full goesOn =>
      have served := honest t page _ List.mem_cons_self
      have listed := unspent _ List.mem_cons_self
      have behind : 100 * page ≤ history.ahead txHash outputIndex t := by
        have first : 100 * (page - 1) ≤ history.ahead txHash outputIndex t := notAhead _ rfl
        have beyond := mt (served.any_iff listed).mpr absent
        omega
      cases rest with
      | nil => exact absurd goesOn walkCollateral_asks
      | cons y rest =>
        by_cases past : history.ahead txHash outputIndex y.instant < 100 * page
        · exact ⟨[], _, y, rest, address, page, rfl, rfl, behind, past⟩
        · obtain ⟨before, x, next, after, owner, number, split, shifted⟩ :=
            ih (fun t page answer member => honest t page answer (List.mem_cons_of_mem _ member))
              (fun y member => unspent y (List.mem_cons_of_mem _ member))
              (by rintro _ ⟨⟩; exact Nat.le_of_not_lt past) goesOn
          exact ⟨_ :: before, x, next, after, owner, number, congrArg _ split, shifted⟩

end Walk

section Outcome

variable [Preorder T] {history : RefHistory T} {trace : List (Exchange T Endpoint.Answer)}
  {outcome : Except Failure (Option Bool)}

theorem During.request {y : Exchange T Endpoint.Answer} (member : y ∈ trace) :
    During trace y.instant :=
  ⟨y, member, y, member, le_rfl, le_rfl⟩

/-- A collateral output that has no recorded consumer is reported spent only if it was absent
at some instant of the walk: when it was, or when the walk does not leave it behind. A walk
that no two requests of which the output goes by does not. -/
theorem collateralSpent_iff (history : RefHistory T) (txHash : String) (outputIndex : Nat)
    (output : UtxoOutputRow) (collateral : output.collateral = true)
    (unconsumed : output.consumed_by_tx = none) (trace : List (Exchange T Endpoint.Answer))
    (outcome : Except Failure (Option Bool)) (honest : HonestRefs output.address history trace)
    (runs : (resolveOutputSpent txHash outputIndex output).Runs trace outcome) :
    (SpentOnlyIfAbsent history txHash outputIndex trace outcome ↔
      (∃ t, During trace t ∧ ¬ history.Unspent txHash outputIndex t) ∨
        ¬ LeftBehind history txHash outputIndex trace) ∧
    (¬ Shifted history txHash outputIndex trace →
      SpentOnlyIfAbsent history txHash outputIndex trace outcome) := by
  have walked : (walkCollateral txHash outputIndex output.address LIST_MAX_PAGES 1).Runs trace
      outcome := by
    simpa [resolveOutputSpent, unconsumed, collateral, resolveCollateralSpent] using runs
  have listed (present : ¬ ∃ t, During trace t ∧ ¬ history.Unspent txHash outputIndex t) :
      ∀ y ∈ trace, history.Unspent txHash outputIndex y.instant := fun y member =>
    not_not.mp fun absent => present ⟨_, During.request member, absent⟩
  constructor
  · constructor
    · intro only
      by_contra! neither
      obtain ⟨present, left⟩ := neither
      have unspent := listed (by simpa using present)
      obtain ⟨t, during, absent⟩ := only (walkCollateral_misses honest unspent left walked)
      exact absent (present t during)
    · rintro (absent | notLeft) rfl
      · exact absent
      · by_contra present
        exact notLeft (walkCollateral_leaves honest (listed present) walked)
  · rintro notShifted rfl
    by_contra present
    refine notShifted (walkCollateral_shifts honest (listed present) (fun _ _ => ?_) walked)
    exact Nat.zero_le _

end Outcome

section CarriedBack

/-- The outputs of one transaction, the earlier of which go one at a time. -/
def leavingOutputs (txHash : String) : RefHistory Nat where
  listing t := (List.range' t (101 - t)).map fun i => ⟨txHash, i⟩
  distinct t := by
    refine List.pairwise_map.mpr ?_
    exact List.Pairwise.imp (fun distinct same => distinct same.2) List.nodup_range'

/-- The first page as of the first instant, and the second as of the next. -/
def carriedWalk (txHash address : String) : List (Exchange Nat Endpoint.Answer) :=
  [⟨0, .addressUtxoRefs address 1, .ok (some ((List.range 100).map fun i => ⟨txHash, i⟩))⟩,
    ⟨1, .addressUtxoRefs address 2, .ok (some [])⟩]

def collateralReturn (address : String) : UtxoOutputRow :=
  { address, amount := [], output_index := 100, collateral := true }

theorem carriedWalk_honest (txHash address : String) :
    HonestRefs address (leavingOutputs txHash) (carriedWalk txHash address) := by
  intro t page answer member
  simp only [carriedWalk, List.mem_cons, List.not_mem_nil, or_false] at member
  obtain member | member := member <;> cases member
  · change _ = List.take 100 (List.drop _ (List.map _ _))
    rw [← List.map_drop, ← List.map_take]
    rfl
  · change _ = List.take 100 (List.drop _ (List.map _ _))
    rw [← List.map_drop, ← List.map_take]
    rfl

theorem carriedWalk_runs (txHash address : String) :
    (resolveOutputSpent txHash 100 (collateralReturn address)).Runs (carriedWalk txHash address)
      (.ok (some true)) := by
  refine Async.runs_bind.mpr (.inl ⟨[_], [_], _, rfl, runs_getOrUndefined.mpr ⟨0, rfl⟩, ?_⟩)
  have absent : (((List.range 100).map fun i => ⟨txHash, i⟩).any (holds txHash 100)) = false := by
    simp only [holds, List.any_map, List.any_eq_false, List.mem_range, Function.comp_apply,
      Bool.and_eq_true, beq_iff_eq, not_and]
    omega
  change (if List.any _ _ = true then _ else if _ then _ else _ : Read (Option Bool)).Runs _ _
  rw [absent, if_neg Bool.false_ne_true, if_neg (by simp [LIST_PAGE_SIZE])]
  refine Async.runs_bind.mpr (.inl ⟨[_], [], _, rfl, runs_getOrUndefined.mpr ⟨1, rfl⟩, ?_⟩)
  exact ⟨rfl, rfl⟩

theorem carriedWalk_unspent {txHash address : String} {t : Nat}
    (during : During (carriedWalk txHash address) t) :
    (leavingOutputs txHash).Unspent txHash 100 t := by
  obtain ⟨first, -, last, member, -, upTo⟩ := during
  have bound : last.instant ≤ 1 := by
    simp only [carriedWalk, List.mem_cons, List.not_mem_nil, or_false] at member
    obtain rfl | rfl := member
    · exact Nat.zero_le 1
    · exact le_rfl
  refine ⟨⟨txHash, 100⟩, List.mem_map.mpr ⟨100, ?_, rfl⟩, by simp [holds]⟩
  rw [List.mem_range'_1]
  omega

/-- The walk leaves behind the output that is carried to its first page. -/
theorem carriedWalk_leaves :
    LeftBehind (leavingOutputs "c0") "c0" 100 (carriedWalk "c0" "addr1") := by
  by_contra notLeft
  have only := (collateralSpent_iff (leavingOutputs "c0") "c0" 100 (collateralReturn "addr1") rfl rfl
    (carriedWalk "c0" "addr1") _ (carriedWalk_honest _ _) (carriedWalk_runs _ _)).1.mpr
    (.inr notLeft)
  obtain ⟨t, during, absent⟩ := only rfl
  exact absent (carriedWalk_unspent during)

/-- An output that is listed throughout is reported spent. -/
theorem carriedWalk_spent :
    ¬ ∀ (history : RefHistory Nat) (txHash : String) (outputIndex : Nat) (output : UtxoOutputRow)
      (trace : List (Exchange Nat Endpoint.Answer)) (outcome : Except Failure (Option Bool)),
      output.collateral = true → output.consumed_by_tx = none →
      HonestRefs output.address history trace →
      (resolveOutputSpent txHash outputIndex output).Runs trace outcome →
      SpentOnlyIfAbsent history txHash outputIndex trace outcome := by
  intro always
  obtain ⟨t, during, absent⟩ :=
    always (leavingOutputs "c0") "c0" 100 (collateralReturn "addr1") (carriedWalk "c0" "addr1") _ rfl
      rfl (carriedWalk_honest _ _) (carriedWalk_runs _ _) rfl
  exact absent (carriedWalk_unspent during)

end CarriedBack

end WalletBackend.Blockfrost.Refs
