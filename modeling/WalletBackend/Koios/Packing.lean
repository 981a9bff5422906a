import WalletBackend.Koios.Schema
import WalletBackend.Library.Splitting
import Mathlib.Data.List.Induction

/-! `packBySize` counts the bytes of what it sends exactly, and sends as few bodies as possible. -/
namespace WalletBackend.Koios

variable {Item : Type} {body : BodyBuilder Item} {budget : Nat}

/-- The serialized body of the chunk is within the budget less the margin. -/
def BodyBuilder.Within (body : BodyBuilder Item) (budget : Nat) (chunk : List Item) : Prop :=
  body.length chunk + BODY_SAFETY_MARGIN_BYTES ≤ budget

namespace BodyBuilder

/-- The array itself takes two bytes. -/
theorem envelope_pos (body : BodyBuilder Item) : 0 < body.envelope := by
  have bracket : "[".utf8ByteSize = 1 := by decide
  simp only [envelope, stringify, String.utf8ByteSize_append, bracket]
  omega

theorem length_singleton (body : BodyBuilder Item) (item : Item) :
    body.length [item] = body.envelope + body.itemBytes item := by
  rw [body.length_eq]
  simp [joinedBytes, itemBytes]

theorem within_iff {chunk : List Item} :
    body.Within budget chunk ↔ body.length chunk ≤ budget - BODY_SAFETY_MARGIN_BYTES := by
  have positive := body.envelope_pos
  have parts := body.length_eq chunk
  unfold Within
  omega

theorem fits_iff {item : Item} : body.Fits budget item ↔ body.Within budget [item] := by
  rw [within_iff, body.length_singleton]
  exact Iff.rfl

/-- The items of a chunk cost their own bytes and a comma between each two. -/
theorem joinedBytes_eq (body : BodyBuilder Item) (chunk : List Item) :
    body.joinedBytes chunk = (chunk.map body.itemBytes).sum + (chunk.length - 1) := by
  induction chunk using List.reverseRecOn with
  | nil => rfl
  | append_singleton chunk item ih =>
    rw [body.joinedBytes_concat, ih]
    cases chunk with
    | nil => simp
    | cons first chunk =>
      rw [if_neg (by simp), List.map_append, List.sum_append, List.length_append]
      simp only [List.map_cons, List.map_nil, List.sum_cons, List.sum_nil, List.length_cons,
        List.length_nil]
      omega

/-- A part of a chunk takes no more than the chunk. -/
theorem Within.part {chunk part : List Item} (inside : part <:+: chunk)
    (within : body.Within budget chunk) : body.Within budget part := by
  obtain ⟨front, rest, rfl⟩ := inside
  unfold Within at within ⊢
  rw [body.length_eq, joinedBytes_eq] at within ⊢
  simp only [List.map_append, List.sum_append, List.length_append] at within
  omega

end BodyBuilder

/-- What the loop keeps: no closed chunk had room for the first item of the next one. -/
structure Packing.Greedy (body : BodyBuilder Item) (budget : Nat) (packing : Packing Item) :
    Prop where
  full : Splitting.Full (body.Within budget) (packing.chunks ++ [packing.current])
  holds : ∀ chunk ∈ packing.chunks, chunk ≠ []
  started : packing.current = [] → packing.chunks = []

theorem Packing.Greedy.add {packing next : Packing Item} {item : Item}
    (greedy : packing.Greedy body budget) (bounded : packing.Bounded body budget)
    (ok : packing.add body budget item = .ok next) : next.Greedy body budget := by
  have fits := (Packing.add_ok ok).2
  simp only [Packing.add, if_neg (Nat.not_lt.mpr fits)] at ok
  by_cases full : 0 < packing.current.length ∧ budget - BODY_SAFETY_MARGIN_BYTES <
      body.envelope + packing.used + (if packing.current.length = 0 then 0 else 1) +
        body.itemBytes item
  · rw [if_pos full] at ok
    cases ok
    have some : packing.current ≠ [] := List.length_pos_iff.mp full.1
    have excess : ¬ body.Within budget (packing.current ++ [item]) := by
      rw [BodyBuilder.within_iff, body.length_eq, body.joinedBytes_concat, ← bounded.counted]
      omega
    refine ⟨greedy.full.open_block excess, ?_, fun none => absurd none (by simp)⟩
    intro chunk member
    obtain earlier | last := List.mem_append.mp member
    · exact greedy.holds chunk earlier
    · rw [List.mem_singleton.mp last]
      exact some
  · rw [if_neg full] at ok
    cases ok
    refine ⟨?_, greedy.holds, fun none => absurd none (by simp)⟩
    by_cases first : packing.current = []
    · change Splitting.Full _ (packing.chunks ++ [packing.current ++ [item]])
      rw [greedy.started first]
      exact Splitting.full_singleton _
    · exact greedy.full.extend first

theorem Packing.Greedy.addAll {packing next : Packing Item} {items : List Item}
    (greedy : packing.Greedy body budget) (bounded : packing.Bounded body budget)
    (ok : packing.addAll body budget items = .ok next) : next.Greedy body budget := by
  induction items generalizing packing with
  | nil =>
    cases ok
    exact greedy
  | cons item items ih =>
    cases added : packing.add body budget item with
    | error e => simp [Packing.addAll, added, bind, Except.bind] at ok
    | ok noted =>
      simp only [Packing.addAll, added, bind, Except.bind] at ok
      exact ih (greedy.add bounded added) (bounded.add added) ok

theorem Packing.addAll_all_fit {packing next : Packing Item} {items : List Item}
    (ok : packing.addAll body budget items = .ok next) : ∀ item ∈ items, body.Fits budget item := by
  induction items generalizing packing with
  | nil => exact nofun
  | cons item items ih =>
    cases added : packing.add body budget item with
    | error e => simp [Packing.addAll, added, bind, Except.bind] at ok
    | ok noted =>
      simp only [Packing.addAll, added, bind, Except.bind] at ok
      intro other member
      obtain rfl | later := List.mem_cons.mp member
      · exact (Packing.add_ok added).2
      · exact ih ok other later

/-- What does not fit is refused with a message alone. -/
theorem Packing.addAll_error {packing : Packing Item} {items : List Item} {e : Failure}
    (refused : packing.addAll body budget items = .error e) : ∃ message, e = .plain message := by
  induction items generalizing packing with
  | nil => cases refused
  | cons item items ih =>
    cases added : packing.add body budget item with
    | ok next =>
      simp only [Packing.addAll, added, bind, Except.bind] at refused
      exact ih refused
    | error e' =>
      simp only [Packing.addAll, added, bind, Except.bind, Except.error.injEq] at refused
      subst refused
      by_cases fits : body.Fits budget item
      · obtain ⟨next, ok⟩ := packing.add_fits fits
        rw [ok] at added
        cases added
      · simp only [Packing.add, if_pos (Nat.lt_of_not_le fits), Except.error.injEq] at added
        exact ⟨_, added.symm⟩

theorem packBySize_error {items : List Item} {e : Failure}
    (refused : packBySize items body budget = .error e) : ∃ message, e = .plain message := by
  unfold packBySize at refused
  split at refused
  · cases refused
  · cases packed : Packing.addAll body budget ⟨[], [], 0⟩ items with
    | ok packing => simp [packed, bind, Except.bind, pure, Except.pure] at refused
    | error e' =>
      simp only [packed, bind, Except.bind, Except.error.injEq] at refused
      exact refused ▸ Packing.addAll_error packed

section Chunks

variable {items : List Item} {chunks : List (List Item)}

theorem Packing.initial_bounded : Packing.Bounded body budget (⟨[], [], 0⟩ : Packing Item) :=
  ⟨rfl, nofun, fun impossible => absurd impossible (Nat.lt_irrefl 0)⟩

theorem Packing.initial_greedy : Packing.Greedy body budget (⟨[], [], 0⟩ : Packing Item) :=
  ⟨Splitting.full_singleton _, nofun, fun _ => rfl⟩

/-- The chunks are those of the loop, the last one included. -/
theorem packBySize_eq (some : items ≠ []) (ok : packBySize items body budget = .ok chunks) :
    ∃ packing : Packing Item, Packing.addAll body budget ⟨[], [], 0⟩ items = .ok packing ∧
      packing.Greedy body budget ∧ packing.current ≠ [] ∧
      chunks = packing.chunks ++ [packing.current] := by
  rw [packBySize, if_neg (by simpa using some)] at ok
  cases packed : Packing.addAll body budget ⟨[], [], 0⟩ items with
  | error e => simp [packed, bind, Except.bind] at ok
  | ok packing =>
    simp only [packed, bind, Except.bind, pure, Except.pure, Except.ok.injEq] at ok
    have greedy := Packing.initial_greedy.addAll Packing.initial_bounded packed
    have opened : packing.current ≠ [] := by
      intro none
      have all : packing.items = items := Packing.addAll_ok packed
      rw [Packing.items, none, greedy.started none] at all
      exact some all.symm
    rw [if_pos (List.length_pos_iff.mpr opened)] at ok
    exact ⟨packing, rfl, greedy, opened, ok.symm⟩

theorem packBySize_all_fit (ok : packBySize items body budget = .ok chunks) :
    ∀ item ∈ items, body.Within budget [item] := by
  intro item member
  obtain ⟨packing, packed, -⟩ := packBySize_eq (List.ne_nil_of_mem member) ok
  exact BodyBuilder.fits_iff.mp (Packing.addAll_all_fit packed item member)

theorem packBySize_nonempty (ok : packBySize items body budget = .ok chunks) :
    ∀ chunk ∈ chunks, chunk ≠ [] := by
  by_cases none : items = []
  · subst none
    cases ok
    exact nofun
  obtain ⟨packing, -, greedy, some, rfl⟩ := packBySize_eq none ok
  intro chunk member
  obtain earlier | last := List.mem_append.mp member
  · exact greedy.holds chunk earlier
  · rw [List.mem_singleton.mp last]
    exact some

theorem packBySize_full (ok : packBySize items body budget = .ok chunks) :
    Splitting.Full (body.Within budget) chunks := by
  by_cases none : items = []
  · subst none
    cases ok
    exact List.isChain_nil
  obtain ⟨packing, -, greedy, -, rfl⟩ := packBySize_eq none ok
  exact greedy.full

/-- Items that fit alone are packed, in order, into nonempty chunks that are within the budget as
they are sent, and into as few as any split in order can be; one that does not fit is refused. -/
theorem packBySize_exact_and_optimal (items : List Item) (body : BodyBuilder Item) (budget : Nat) :
    ((∀ item ∈ items, body.Within budget [item]) →
      ∃ chunks, packBySize items body budget = .ok chunks ∧ (∀ chunk ∈ chunks, chunk ≠ []) ∧
        chunks.flatten = items ∧ (∀ chunk ∈ chunks, body.Within budget chunk) ∧
        ∀ others : List (List Item), others.flatten = items →
          (∀ chunk ∈ others, body.Within budget chunk) → chunks.length ≤ others.length) ∧
    ((∃ item ∈ items, ¬ body.Within budget [item]) →
      ∃ error, packBySize items body budget = .error error) := by
  constructor
  · intro fit
    obtain ⟨chunks, ok⟩ := packBySize_fits fun item member => BodyBuilder.fits_iff.mpr (fit item member)
    have nonempty := packBySize_nonempty ok
    have all := packBySize_flatten ok
    refine ⟨chunks, ok, nonempty, all, ?_, ?_⟩
    · intro chunk member
      exact BodyBuilder.within_iff.mpr (packBySize_length ok chunk member)
    · intro others split within
      exact (packBySize_full ok).length_le [] nonempty
        (fun inside held => held.part inside) (split.trans all.symm) within
  · rintro ⟨item, member, excess⟩
    cases packed : packBySize items body budget with
    | error error => exact ⟨error, rfl⟩
    | ok chunks => exact absurd (packBySize_all_fit packed item member) excess

end Chunks

end WalletBackend.Koios
