import WalletBackend.Blockfrost.AddressCursors

/-! The loop that advances the cursors ends with the oldest page of the merged rows
settled: the page of everything the addresses list. -/
namespace WalletBackend.Blockfrost
open Interaction Containers BlockPaging

section Merge

variable {T : Type} {chain : AddressChain} {afterBlock : Option Nat} {cursor : AddressCursor}
  {trace : List (Exchange T Endpoint.Answer)} {cursors : List AddressCursor}

theorem merged_known (all : ∀ c ∈ cursors, c.Tracks chain afterBlock) :
    cursors.flatMap AddressCursor.rows ⊆ chain.rows := by
  intro row member
  obtain ⟨c, listed, inside⟩ := List.mem_flatMap.mp member
  exact (chain.listed _).subset ((all c listed).rows_sublist.subset inside)

/-- The rows of one address are among the merged rows. -/
theorem rows_subperm (all : ∀ c ∈ cursors, c.Tracks chain afterBlock) (listed : cursor ∈ cursors) :
    cursor.rows.Subperm (arrange (cursors.flatMap AddressCursor.rows)) := by
  have nodup : cursor.rows.Nodup := (all cursor listed).rows_before.imp fun less same => by
    rw [same] at less
    unfold before at less
    omega
  exact List.subperm_of_subset nodup fun row member =>
    (mem_arrange (merged_known all)).mpr (List.mem_flatMap.mpr ⟨cursor, listed, member⟩)

/-- An address that might still hold transactions of the oldest page is far from the
page bound: what it has read lies in the cursor block, before the page fills up, or
in the block that fills it. -/
theorem room_of_needs (all : ∀ c ∈ cursors, c.Tracks chain afterBlock) (listed : cursor ∈ cursors)
    (needs : cursor.needs (mergePage cursors).boundaryBlock = true) :
    cursor.full = true ∧ cursor.page + 1 < LIST_MAX_PAGES := by
  have tracks := all cursor listed
  unfold AddressCursor.needs at needs
  split at needs
  case isTrue => cases needs
  case isFalse going =>
    have full : cursor.full = true := by
      rw [Bool.or_eq_true, not_or] at going
      simpa using going.2
    refine ⟨full, ?_⟩
    have few : cursor.rows.length < HISTORY_PAGE_SIZE - 1 + CROWDED := by
      by_cases short : cursor.rows.length ≤ HISTORY_PAGE_SIZE - 1
      · exact short.trans_lt (Nat.lt_add_of_pos_right (by decide))
      · have bound : HISTORY_PAGE_SIZE - 1 < cursor.rows.length := Nat.lt_of_not_le short
        have found := List.getElem?_eq_getElem bound
        cases final : cursor.rows.getLast? with
        | none =>
          rw [List.getLast?_eq_none_iff.mp final] at bound
          exact absurd bound (Nat.not_lt_zero _)
        | some last =>
          cases ends : (mergePage cursors).boundaryBlock with
          | none =>
            have empty := (boundary_eq_none (by decide)).mp ends
            have inside := (rows_subperm all listed).length_le
            rw [empty, List.length_nil] at inside
            omega
          | some b =>
            rw [ends, final] at needs
            have below := boundary_le (by decide)
              (before_ordered (arrange_before (merged_known all)))
              (before_ordered tracks.rows_before) (rows_subperm all listed) found ends
            exact tracks.length_rows found final ((of_decide_eq_true needs).trans below)
    have size : (cursor.read chain afterBlock).length = LIST_PAGE_SIZE * cursor.page :=
      List.length_take_of_le (of_decide_eq_true (tracks.full.symm.trans full))
    have most := tracks.length_read
    simp only [LIST_PAGE_SIZE, LIST_MAX_PAGES, HISTORY_PAGE_SIZE, CROWDED] at *
    omega

theorem replaceNeeding_map {needs : AddressCursor → Bool} {f : AddressCursor → AddressCursor} :
    replaceNeeding needs cursors ((cursors.filter needs).map f) =
      cursors.map fun c => if needs c then f c else c := by
  induction cursors with
  | nil => rfl
  | cons c cursors ih =>
    by_cases picked : needs c
    · simp [replaceNeeding, picked, ih]
    · have others : (c :: cursors).filter needs = cursors.filter needs := by simp [picked]
      rw [others, List.map_cons, if_neg picked]
      cases rest : (cursors.filter needs).map f with
      | nil =>
        rw [rest] at ih
        rw [replaceNeeding, ← ih]
        cases cursors <;> rfl
      | cons next advanced =>
        rw [rest] at ih
        rw [replaceNeeding, if_neg picked, ih]

/-- Cursors that have settled the oldest page between them. -/
structure Settled (chain : AddressChain) (afterBlock : Option Nat) (addresses : List String)
    (cursors : List AddressCursor) : Prop where
  addresses : cursors.map AddressCursor.address = addresses
  tracks : ∀ c ∈ cursors, c.Tracks chain afterBlock
  settled : ∀ c ∈ cursors, c.needs (mergePage cursors).boundaryBlock = false

/-- The cursors after a round. -/
def turned (chain : AddressChain) (afterBlock : Option Nat) (cursors : List AddressCursor) :
    List AddressCursor :=
  cursors.map fun c =>
    if c.needs (mergePage cursors).boundaryBlock then c.next chain afterBlock else c

theorem turned_tracks (all : ∀ c ∈ cursors, c.Tracks chain afterBlock) :
    ∀ c ∈ turned chain afterBlock cursors, c.Tracks chain afterBlock := by
  intro c member
  obtain ⟨before, listed, rfl⟩ := List.mem_map.mp member
  split
  case isTrue needs =>
    obtain ⟨full, room⟩ := room_of_needs all listed needs
    exact ((all before listed).opens full room).next
  case isFalse => exact all before listed

theorem turned_addresses : (turned chain afterBlock cursors).map AddressCursor.address =
    cursors.map AddressCursor.address := by
  rw [turned, List.map_map]
  refine List.map_congr_left fun c _ => ?_
  simp only [Function.comp_apply]
  split
  · exact c.next_address
  · rfl

theorem turned_pages {c : AddressCursor} (listed : c ∈ cursors)
    (needs : c.needs (mergePage cursors).boundaryBlock = true) :
    (cursors.map AddressCursor.page).sum <
      ((turned chain afterBlock cursors).map AddressCursor.page).sum := by
  rw [turned, List.map_map]
  refine List.sum_lt_sum _ _ (fun c _ => ?_) ⟨c, listed, ?_⟩
  · simp only [Function.comp_apply]
    split
    · exact (Nat.le_succ _).trans_eq c.next_page.symm
    · exact le_refl _
  · simp only [Function.comp_apply, if_pos needs]
    exact (Nat.lt_succ_self _).trans_eq c.next_page.symm

theorem settles_round {T : Type} {trace : List (Exchange T Endpoint.Answer)} {addressFanout : Nat}
    (honest : HonestHistory chain trace) (all : ∀ c ∈ cursors, c.Tracks chain afterBlock) :
    Async.Settles trace (mapWithConcurrency
      (cursors.filter (AddressCursor.needs (mergePage cursors).boundaryBlock)) addressFanout
      fun cursor _ => advanceCursor afterBlock cursor)
      (.ok ((cursors.filter (AddressCursor.needs (mergePage cursors).boundaryBlock)).map
        (AddressCursor.next chain afterBlock))) := by
  refine settles_fanOut_map fun c member _ => ?_
  obtain ⟨listed, needs⟩ := List.mem_filter.mp member
  obtain ⟨full, room⟩ := room_of_needs all listed needs
  exact AddressCursor.settles_advance ((all c listed).opens full room) honest

/-- Within as many rounds as there are pages, the cursors settle the oldest page. -/
theorem settles_settleCursors {T : Type} {trace : List (Exchange T Endpoint.Answer)}
    {addressFanout rounds : Nat} {addresses : List String}
    (honest : HonestHistory chain trace) (same : cursors.map AddressCursor.address = addresses)
    (all : ∀ c ∈ cursors, c.Tracks chain afterBlock)
    (enough : cursors.length * LIST_MAX_PAGES < rounds + (cursors.map AddressCursor.page).sum) :
    ∃ final, Async.Settles trace (settleCursors afterBlock addressFanout rounds cursors)
      (.ok final) ∧ Settled chain afterBlock addresses final := by
  induction rounds generalizing cursors with
  | zero =>
    have most := List.sum_le_card_nsmul (cursors.map AddressCursor.page) LIST_MAX_PAGES
      fun page member => by
        obtain ⟨c, listed, rfl⟩ := List.mem_map.mp member
        exact (all c listed).room.le
    rw [List.length_map, smul_eq_mul] at most
    omega
  | succ rounds ih =>
    by_cases none : (cursors.filter
        (AddressCursor.needs (mergePage cursors).boundaryBlock)).length = 0
    · refine ⟨cursors, ?_, same, all, fun c listed => ?_⟩
      · rw [settleCursors, if_pos none]
        exact Async.settles_pure cursors
      · exact Bool.eq_false_iff.mpr
          (List.filter_eq_nil_iff.mp (List.length_eq_zero_iff.mp none) c listed)
    · obtain ⟨c, member⟩ := List.exists_mem_of_length_pos (Nat.pos_of_ne_zero none)
      obtain ⟨listed, needs⟩ := List.mem_filter.mp member
      have more : _ < ((turned chain afterBlock cursors).map AddressCursor.page).sum :=
        turned_pages listed needs
      obtain ⟨final, settles, settled⟩ := ih (turned_addresses.trans same) (turned_tracks all)
        (by rw [turned, List.length_map]; rw [turned] at more; omega)
      refine ⟨final, ?_, settled⟩
      rw [settleCursors, if_neg none]
      refine (settles_round honest all).bind ?_
      rw [replaceNeeding_map]
      exact settles

/-- What an address lists above the cursor block has been kept, unless the address has
been read past the boundary before. -/
theorem Settled.reaches {addresses : List String}
    (settled : Settled chain afterBlock addresses cursors) {c : AddressCursor} (listed : c ∈ cursors)
    {row : AddressTxRow} (member : row ∈ chain.listing c.address)
    (past : ∀ a ∈ afterBlock, a < row.block_height) :
    row ∈ c.rows ∨ ∃ b ∈ (mergePage cursors).boundaryBlock, ∃ last ∈ c.rows,
      b < last.block_height ∧ last.block_height ≤ row.block_height := by
  have tracks := settled.tracks c listed
  have present : row ∈ chain.from_ c.address afterBlock :=
    List.mem_filter.mpr ⟨member, decide_eq_true fun a given => (past a given).le⟩
  have ordered : (chain.from_ c.address afterBlock).Pairwise before :=
    chain.rows_before.sublist (List.filter_sublist.trans (chain.listed _))
  rw [← List.take_append_drop (LIST_PAGE_SIZE * c.page) (chain.from_ c.address afterBlock)]
    at present ordered
  obtain early | late := List.mem_append.mp present
  · refine .inl ?_
    rw [tracks.rows]
    exact mem_above.mpr ⟨early, past⟩
  · have more : LIST_PAGE_SIZE * c.page ≤ (chain.from_ c.address afterBlock).length := by
      have some := List.length_pos_of_mem late
      rw [List.length_drop] at some
      omega
    have full : c.full = true := tracks.full.trans (decide_eq_true more)
    have quiet := settled.settled c listed
    unfold AddressCursor.needs at quiet
    rw [if_neg (by rw [tracks.done, full]; decide)] at quiet
    split at quiet
    case h_1 b last ends final =>
      have kept := List.mem_of_getLast? final
      refine .inr ⟨b, ends, last, kept, Nat.lt_of_not_le (of_decide_eq_false quiet), ?_⟩
      rw [tracks.rows] at kept
      have less := (List.pairwise_append.mp ordered).2.2 last (mem_above.mp kept).1 row late
      unfold before at less
      omega
    case h_2 => cases quiet

theorem above_known {addresses : List String} :
    above AddressTxRow.block_height afterBlock (addresses.flatMap chain.listing) ⊆ chain.rows := by
  intro row member
  obtain ⟨address, -, inside⟩ := List.mem_flatMap.mp (mem_above.mp member).1
  exact (chain.listed address).subset inside

theorem mem_unionAbove {addresses : List String} {row : AddressTxRow} :
    row ∈ chain.unionAbove addresses afterBlock ↔
      (∃ address ∈ addresses, row ∈ chain.listing address) ∧
        ∀ a ∈ afterBlock, a < row.block_height := by
  rw [AddressChain.unionAbove, mem_arrange above_known, mem_above, List.mem_flatMap]

theorem unionAbove_before {addresses : List String} :
    (chain.unionAbove addresses afterBlock).Pairwise before :=
  arrange_before above_known

/-- Settled cursors hold the page of the union. -/
theorem Settled.page {addresses : List String}
    (settled : Settled chain afterBlock addresses cursors) :
    (mergePage cursors).page = chain.reference addresses afterBlock := by
  have known := merged_known settled.tracks
  have merged := arrange_before known
  have union : (chain.unionAbove addresses afterBlock).Pairwise before := unionAbove_before
  have inside : ∀ row, row ∈ arrange (cursors.flatMap AddressCursor.rows) →
      row ∈ chain.unionAbove addresses afterBlock := by
    intro row member
    obtain ⟨c, listed, kept⟩ := List.mem_flatMap.mp ((mem_arrange known).mp member)
    have tracks := settled.tracks c listed
    refine mem_unionAbove.mpr ⟨⟨c.address, ?_, tracks.rows_sublist.subset kept⟩, ?_⟩
    · rw [← settled.addresses]
      exact List.mem_map_of_mem listed
    · rw [tracks.rows] at kept
      exact (mem_above.mp kept).2
  have reaches : ∀ row, row ∈ chain.unionAbove addresses afterBlock →
      row ∈ arrange (cursors.flatMap AddressCursor.rows) ∨
      ∃ b ∈ (mergePage cursors).boundaryBlock,
        ∃ last ∈ arrange (cursors.flatMap AddressCursor.rows),
          b < last.block_height ∧ last.block_height ≤ row.block_height := by
    intro row member
    obtain ⟨⟨address, present, member⟩, past⟩ := mem_unionAbove.mp member
    rw [← settled.addresses] at present
    obtain ⟨c, listed, rfl⟩ := List.mem_map.mp present
    obtain kept | ⟨b, ends, last, kept, beyond, upTo⟩ := settled.reaches listed member past
    · exact .inl ((mem_arrange known).mpr (List.mem_flatMap.mpr ⟨c, listed, kept⟩))
    · exact .inr ⟨b, ends, last,
        (mem_arrange known).mpr (List.mem_flatMap.mpr ⟨c, listed, kept⟩), beyond, upTo⟩
  change window _ _ (arrange (cursors.flatMap AddressCursor.rows)) = window _ _ _
  cases ends : (mergePage cursors).boundaryBlock with
  | none =>
    rw [eq_of_mem_iff merged union fun row => ⟨inside row, fun member => ?_⟩]
    obtain here | ⟨b, bound, -⟩ := reaches row member
    · exact here
    · rw [ends] at bound
      cases bound
  | some b =>
    have front : ((chain.unionAbove addresses afterBlock).filter fun row => row.block_height ≤ b) =
        (arrange (cursors.flatMap AddressCursor.rows)).filter fun row => row.block_height ≤ b := by
      refine eq_of_mem_iff (union.sublist List.filter_sublist)
        (merged.sublist List.filter_sublist) fun row => ?_
      rw [List.mem_filter, List.mem_filter]
      refine and_congr_left fun upTo => ⟨fun member => ?_, inside row⟩
      obtain here | ⟨b', bound, last, -, beyond, below⟩ := reaches row member
      · exact here
      · rw [ends] at bound
        cases bound
        have upTo : row.block_height ≤ b := of_decide_eq_true upTo
        omega
    by_cases full : HISTORY_PAGE_SIZE ≤ (arrange (cursors.flatMap AddressCursor.rows)).length
    · exact (window_of_front (by decide) (before_ordered union) (before_ordered merged) ends front
        full).symm
    · -- A page that is not filled ends with its last row, so no address was read past it.
      have whole : window HISTORY_PAGE_SIZE AddressTxRow.block_height
          (arrange (cursors.flatMap AddressCursor.rows)) = _ :=
        window_of_length_le (Nat.le_of_not_le full)
      have filtered := window_eq_filter (before_ordered merged) ends
      rw [eq_of_mem_iff merged union fun row => ⟨inside row, fun member => ?_⟩]
      obtain here | ⟨b', bound, last, kept, beyond, -⟩ := reaches row member
      · exact here
      · rw [ends] at bound
        cases bound
        rw [← whole, filtered] at kept
        have upTo : last.block_height ≤ b := of_decide_eq_true (List.mem_filter.mp kept).2
        omega

end Merge

end WalletBackend.Blockfrost
