import WalletBackend.Koios.AddressStreams

/-! The merge of the streams of an address set by their heads, until the first page
of distinct transactions and the rest of its last block are known. -/
namespace WalletBackend.Koios
open Interaction BlockPaging StreamMerge

/-- The local variables of the merge. `distinct` lists the rows of the map by hash
in insertion order. -/
structure HistoryMerge where
  streams : List AddressHistoryStream
  distinct : List HistoryRow
  boundaryBlock : Option Nat

/-- The smallest head with its position, the first of equal ones. -/
def nextHead (next : Option (Nat × HistoryRow)) (position : Nat) :
    List (Option HistoryRow) → Option (Nat × HistoryRow)
  | [] => next
  | none :: heads => nextHead next (position + 1) heads
  | some row :: heads =>
      if next.all fun next => compareAddressTxRows row next.2 < 0 then
        nextHead (some (position, row)) (position + 1) heads
      else nextHead next (position + 1) heads

/-- One turn of the merge, from the heads on. Without a result the loop is left. -/
def HistoryMerge.turn (merge : HistoryMerge)
    (heads : List (AddressHistoryStream × Option HistoryRow)) : Option HistoryMerge :=
  match nextHead none 0 (heads.map Prod.snd) with
  | none => none
  | some (position, row) =>
    if merge.boundaryBlock.any (· < row.block_height) then none
    else
      let streams := (heads.map Prod.fst).modify position AddressHistoryStream.advance
      if merge.distinct.any (·.tx_hash = row.tx_hash) then some { merge with streams }
      else
        let distinct := merge.distinct ++ [row]
        let boundaryBlock :=
          if distinct.length = HISTORY_PAGE_SIZE then some row.block_height
          else merge.boundaryBlock
        some { streams, distinct, boundaryBlock }

/-- The loop. Every turn but the last takes a row, so the row bound of the streams
bounds the turns. -/
def mergeStreams : (turns : Nat) → HistoryMerge → Read (List HistoryRow)
  | 0, _ => throw (.plain "")
  | turns + 1, merge => do
      let heads ← promiseAll (merge.streams.map peekAddressHistoryStream)
      match merge.turn heads with
      | none => pure merge.distinct
      | some next => mergeStreams turns next

theorem nextHead_spec {next : Option (Nat × HistoryRow)} {position : Nat}
    {heads : List (Option HistoryRow)} :
    (nextHead next position heads = none → next = none ∧ ∀ head ∈ heads, head = none) ∧
    ∀ i row, nextHead next position heads = some (i, row) →
      (next = some (i, row) ∨ position ≤ i ∧ heads[i - position]? = some (some row)) ∧
      (∀ found ∈ next, row ≤ found.2) ∧ ∀ other, some other ∈ heads → row ≤ other := by
  induction heads generalizing next position with
  | nil =>
    refine ⟨fun none => ⟨none, nofun⟩, fun i row found => ⟨.inl found, ?_, nofun⟩⟩
    rintro other same
    rw [Option.mem_def] at same
    rw [nextHead, same] at found
    cases found
    exact le_refl _
  | cons head heads ih =>
    have shift : ∀ {i : Nat} {row : HistoryRow}, position + 1 ≤ i ∧
        heads[i - (position + 1)]? = some (some row) →
        position ≤ i ∧ (head :: heads)[i - position]? = some (some row) := by
      rintro i row ⟨later, found⟩
      refine ⟨by omega, ?_⟩
      rw [(by omega : i - position = i - (position + 1) + 1), List.getElem?_cons_succ, found]
    cases head with
    | none =>
      rw [nextHead]
      obtain ⟨nothing, something⟩ := @ih next (position + 1)
      refine ⟨fun absent => ⟨(nothing absent).1, ?_⟩, fun i row found => ?_⟩
      · simpa using (nothing absent).2
      · obtain ⟨from_, upTo, least⟩ := something i row found
        exact ⟨from_.imp id shift, upTo, by simpa using least⟩
    | some row =>
      rw [nextHead]
      split
      case isTrue less =>
        obtain ⟨nothing, something⟩ := @ih (some (position, row)) (position + 1)
        refine ⟨fun absent => (nomatch (nothing absent).1), fun i row' found => ?_⟩
        obtain ⟨from_, upTo, least⟩ := something i row' found
        have first : row' ≤ row := upTo _ rfl
        refine ⟨.inr ?_, fun other same => ?_, fun other member => ?_⟩
        · obtain here | later := from_
          · cases here
            simp
          · exact shift later
        · obtain rfl := Option.mem_def.mp same
          have smaller : row < other.2 := compare_neg.mp (by simpa using less)
          exact first.trans smaller.le
        · obtain same | later := List.mem_cons.mp member
          · cases same
            exact first
          · exact least other later
      case isFalse notLess =>
        obtain ⟨nothing, something⟩ := @ih next (position + 1)
        cases next with
        | none => simp at notLess
        | some found =>
          have greater : found.2 ≤ row := not_lt.mp fun less =>
            notLess (by simpa using compare_neg.mpr less)
          refine ⟨fun absent => (nomatch (nothing absent).1), fun i row' found' => ?_⟩
          obtain ⟨from_, upTo, least⟩ := something i row' found'
          refine ⟨from_.imp id shift, upTo, fun other member => ?_⟩
          obtain same | later := List.mem_cons.mp member
          · cases same
            exact (upTo _ rfl).trans greater
          · exact least other later

/-- The streams read so far and what has been merged of them. -/
structure HistoryMerge.Tracks (index : AddressIndex) (addresses : List String)
    (afterBlock : Option Nat) (union : List HistoryRow) (merge : HistoryMerge) : Prop where
  streams : ∀ stream ∈ merge.streams, stream.Tracks index
  source : ∀ stream ∈ merge.streams,
    stream.addresses ⊆ addresses ∧ stream.afterBlock = afterBlock
  merged : Merged union merge.distinct (merge.streams.map (·.rest index))
  closing : Closing HISTORY_PAGE_SIZE HistoryRow.block_height merge.distinct merge.boundaryBlock
  counted : ∀ stream ∈ merge.streams,
    ∀ row ∈ (stream.content index).take stream.taken, row ∈ merge.distinct

/-- How many rows have been taken from the streams. -/
def HistoryMerge.taken (merge : HistoryMerge) : Nat :=
  (merge.streams.map AddressHistoryStream.taken).sum

/-- Nothing is left up to the boundary. -/
def HistoryMerge.Complete (index : AddressIndex) (merge : HistoryMerge) : Prop :=
  ∀ rest ∈ merge.streams.map (·.rest index), ∀ row ∈ rest,
    ∃ b ∈ merge.boundaryBlock, b < row.block_height

section Turn

variable {index : AddressIndex} {addresses : List String} {afterBlock : Option Nat}
  {union : List HistoryRow} {merge : HistoryMerge}
  {heads : List (AddressHistoryStream × Option HistoryRow)}

/-- The streams and their heads, after a look at each. -/
def Peeked (index : AddressIndex) (stream : AddressHistoryStream)
    (head : AddressHistoryStream × Option HistoryRow) : Prop :=
  stream.Filled index head.1 ∧ head.2 = (stream.rest index).head?

theorem map_eq_of_forall₂ {α β γ : Type} {f : α → γ} {g : β → γ} {xs : List α} {ys : List β}
    (each : List.Forall₂ (fun x y => g y = f x) xs ys) : ys.map g = xs.map f := by
  induction each with
  | nil => rfl
  | cons here _ ih => rw [List.map_cons, List.map_cons, here, ih]

theorem exists_of_forall₂ {α β : Type} {R : α → β → Prop} {xs : List α} {ys : List β}
    (each : List.Forall₂ R xs ys) : ∀ y ∈ ys, ∃ x ∈ xs, R x y := by
  induction each with
  | nil => nofun
  | cons here _ ih =>
    intro y member
    obtain rfl | later := List.mem_cons.mp member
    · exact ⟨_, List.mem_cons_self, here⟩
    · obtain ⟨x, listed, related⟩ := ih y later
      exact ⟨x, List.mem_cons_of_mem _ listed, related⟩

/-- The merge with its streams filled. -/
def HistoryMerge.fill (merge : HistoryMerge)
    (heads : List (AddressHistoryStream × Option HistoryRow)) : HistoryMerge :=
  { merge with streams := heads.map Prod.fst }

theorem fill_rests (peeked : List.Forall₂ (Peeked index) merge.streams heads) :
    (merge.fill heads).streams.map (·.rest index) = merge.streams.map (·.rest index) := by
  rw [HistoryMerge.fill, List.map_map]
  exact map_eq_of_forall₂ (peeked.imp fun _ _ seen => seen.1.rest)

theorem fill_taken (peeked : List.Forall₂ (Peeked index) merge.streams heads) :
    (merge.fill heads).taken = merge.taken := by
  rw [HistoryMerge.taken, HistoryMerge.fill, List.map_map]
  exact congrArg List.sum (map_eq_of_forall₂ (peeked.imp fun _ _ seen => seen.1.taken))

theorem fill_heads (peeked : List.Forall₂ (Peeked index) merge.streams heads) :
    heads.map Prod.snd = (merge.fill heads).streams.map fun stream => (stream.rest index).head? := by
  rw [map_eq_of_forall₂ (peeked.imp fun _ _ seen => seen.2)]
  simpa [Function.comp_def] using (congrArg (List.map List.head?) (fill_rests peeked)).symm

theorem fill_ready (peeked : List.Forall₂ (Peeked index) merge.streams heads) :
    ∀ stream ∈ (merge.fill heads).streams, stream.Ready := by
  intro stream member
  obtain ⟨head, listed, rfl⟩ := List.mem_map.mp member
  obtain ⟨_, -, seen⟩ := exists_of_forall₂ peeked head listed
  exact seen.1.ready

/-- Looking at the heads changes nothing that the merge depends on. -/
theorem HistoryMerge.Tracks.fill (tracks : merge.Tracks index addresses afterBlock union)
    (peeked : List.Forall₂ (Peeked index) merge.streams heads) :
    (merge.fill heads).Tracks index addresses afterBlock union := by
  have from_ : ∀ stream ∈ (merge.fill heads).streams, ∃ before ∈ merge.streams,
      before.Filled index stream := by
    intro stream member
    obtain ⟨head, listed, rfl⟩ := List.mem_map.mp member
    obtain ⟨before, present, seen⟩ := exists_of_forall₂ peeked head listed
    exact ⟨before, present, seen.1⟩
  refine ⟨fun stream member => ?_, fun stream member => ?_, ?_, tracks.closing,
    fun stream member => ?_⟩
  · obtain ⟨before, -, filled⟩ := from_ stream member
    exact filled.tracks
  · obtain ⟨before, present, filled⟩ := from_ stream member
    rw [filled.addresses, filled.afterBlock]
    exact tracks.source before present
  · rw [fill_rests peeked]
    exact tracks.merged
  · obtain ⟨before, present, filled⟩ := from_ stream member
    rw [filled.content, filled.taken]
    exact tracks.counted before present

theorem sum_map_modify {α : Type} {f : α → α} {g : α → Nat} {xs : List α} {i : Nat} {x : α}
    (found : xs[i]? = some x) (one : g (f x) = g x + 1) :
    ((xs.modify i f).map g).sum = (xs.map g).sum + 1 := by
  induction xs generalizing i with
  | nil => cases found
  | cons y ys ih =>
    cases i with
    | zero =>
      obtain rfl : y = x := by simpa using found
      simp [one]
      omega
    | succ i =>
      have rest := ih (by simpa using found)
      simp [rest]
      omega

theorem modify_eq_set {α : Type} {f : α → α} {xs : List α} {i : Nat} {x : α}
    (found : xs[i]? = some x) : xs.modify i f = xs.set i (f x) := by
  induction xs generalizing i with
  | nil => cases found
  | cons y ys ih =>
    cases i with
    | zero =>
      obtain rfl : y = x := by simpa using found
      rfl
    | succ i => simp [ih (by simpa using found)]

/-- The head at `position` is `row`, and no stream has a smaller one. -/
structure HistoryMerge.Next (index : AddressIndex) (merge : HistoryMerge) (position : Nat)
    (row : HistoryRow) (stream : AddressHistoryStream) : Prop where
  here : merge.streams[position]? = some stream
  head : stream.rest index = row :: stream.advance.rest index
  more : stream.index < stream.rows.length
  least : ∀ other ∈ merge.streams.map (·.rest index), ∀ head ∈ other.head?, row ≤ head

theorem HistoryMerge.Next.leastHead {position : Nat} {row : HistoryRow}
    {stream : AddressHistoryStream} (next : merge.Next index position row stream) :
    LeastHead (merge.streams.map (·.rest index)) position row (stream.advance.rest index) :=
  ⟨by rw [List.getElem?_map, next.here, ← next.head]; rfl, next.least⟩

theorem exists_next (tracks : merge.Tracks index addresses afterBlock union)
    (ready : ∀ stream ∈ merge.streams, stream.Ready) {position : Nat} {row : HistoryRow}
    (found : nextHead none 0 (merge.streams.map fun stream => (stream.rest index).head?) =
      some (position, row)) : ∃ stream, merge.Next index position row stream := by
  obtain ⟨absent | ⟨-, at_⟩, -, least⟩ := nextHead_spec.2 position row found
  · cases absent
  rw [Nat.sub_zero, List.getElem?_map, Option.map_eq_some_iff] at at_
  obtain ⟨stream, here, head⟩ := at_
  have member := List.mem_of_getElem? here
  have inStep := tracks.streams stream member
  have shown := inStep.head (ready stream member)
  rw [head] at shown
  obtain ⟨more, -⟩ := List.getElem?_eq_some_iff.mp shown
  refine ⟨stream, here, ?_, more, fun other listed first same => ?_⟩
  · have rest : stream.advance.rest index = (stream.rest index).tail := by
      rw [AddressHistoryStream.rest, inStep.taken_advance more, AddressHistoryStream.rest,
        List.tail_drop]
      rfl
    rw [rest]
    exact (List.cons_head?_tail head).symm
  · obtain ⟨stream', present, rfl⟩ := List.mem_map.mp listed
    exact least first (List.mem_map.mpr ⟨stream', present, same⟩)

/-- What a turn makes of the merge when `row` is the head at `position`. -/
def HistoryMerge.merged (merge : HistoryMerge) (position : Nat) (row : HistoryRow) :
    HistoryMerge where
  streams := merge.streams.modify position AddressHistoryStream.advance
  distinct := take merge.distinct row
  boundaryBlock := close HISTORY_PAGE_SIZE HistoryRow.block_height merge.distinct
    merge.boundaryBlock row

theorem HistoryMerge.Next.tracks {position : Nat} {row : HistoryRow} {stream : AddressHistoryStream}
    (tracks : merge.Tracks index addresses afterBlock union)
    (next : merge.Next index position row stream)
    (inside : ∀ b ∈ merge.boundaryBlock, row.block_height ≤ b) :
    (merge.merged position row).Tracks index addresses afterBlock union ∧
      (merge.merged position row).taken = merge.taken + 1 ∧
      (merge.merged position row).streams.length = merge.streams.length := by
  have present := List.mem_of_getElem? next.here
  have inStep := tracks.streams stream present
  have moved : (merge.merged position row).streams =
      merge.streams.set position stream.advance := modify_eq_set next.here
  have from_ : ∀ other ∈ (merge.merged position row).streams,
      other ∈ merge.streams ∨ other = stream.advance := fun other member =>
    List.mem_or_eq_of_mem_set (moved ▸ member)
  refine ⟨?_, sum_map_modify next.here (inStep.taken_advance next.more), List.length_modify ..⟩
  · refine ⟨fun other member => ?_, fun other member => ?_, ?_, ?_, fun other member => ?_⟩
    · obtain old | rfl := from_ other member
      · exact tracks.streams other old
      · exact inStep.advance next.more
    · obtain old | rfl := from_ other member
      · exact tracks.source other old
      · exact tracks.source stream present
    · rw [moved, List.map_set]
      exact tracks.merged.step next.leastHead
    · refine tracks.closing.step (by decide) block_height_monotone (fun earlier member => ?_) inside
      refine tracks.merged.below earlier member _ (List.mem_map_of_mem present) row ?_
      rw [next.head]
      exact List.mem_cons_self
    · intro counted listed
      obtain old | rfl := from_ other member
      · exact mem_take.mpr (.inl (tracks.counted other old counted listed))
      · have upTo : (stream.content index).take (stream.taken + 1) =
            (stream.content index).take stream.taken ++ [row] := by
          have rest : (stream.content index).drop stream.taken = _ := next.head
          rw [List.take_add, rest]
          rfl
        rw [inStep.taken_advance next.more] at listed
        change counted ∈ (stream.content index).take (stream.taken + 1) at listed
        rw [upTo] at listed
        obtain before | last := List.mem_append.mp listed
        · exact mem_take.mpr (.inl (tracks.counted stream present counted before))
        · exact mem_take.mpr (.inr (List.mem_singleton.mp last))

/-- A turn takes one row, or the page is complete. -/
theorem turn_spec (tracks : merge.Tracks index addresses afterBlock union)
    (hashes : ∀ a ∈ union, ∀ b ∈ union, a.tx_hash = b.tx_hash → a = b)
    (peeked : List.Forall₂ (Peeked index) merge.streams heads) :
    (merge.turn heads = none ∧ merge.Complete index) ∨
    ∃ next, merge.turn heads = some next ∧ next.Tracks index addresses afterBlock union ∧
      next.taken = merge.taken + 1 ∧ next.streams.length = merge.streams.length := by
  have filled := tracks.fill peeked
  have rests := fill_rests peeked
  cases found : nextHead none 0 (heads.map Prod.snd) with
  | none =>
    refine .inl ⟨by rw [HistoryMerge.turn, found], fun rest member row inside => ?_⟩
    have empty := (nextHead_spec.1 found).2
    rw [fill_heads peeked] at empty
    rw [← rests] at member
    obtain ⟨stream, listed, rfl⟩ := List.mem_map.mp member
    have none := empty _ (List.mem_map.mpr ⟨stream, listed, rfl⟩)
    rw [List.head?_eq_none_iff.mp none] at inside
    cases inside
  | some least =>
    obtain ⟨position, row⟩ := least
    obtain ⟨stream, next⟩ := exists_next filled (fill_ready peeked) (fill_heads peeked ▸ found)
    by_cases beyond : merge.boundaryBlock.any (· < row.block_height) = true
    · refine .inl ⟨by rw [HistoryMerge.turn, found]; exact if_pos beyond, ?_⟩
      intro rest member later inside
      obtain ⟨b, closed, less⟩ : ∃ b, merge.boundaryBlock = some b ∧ b < row.block_height := by
        simpa [Option.any_eq_true] using beyond
      rw [← rests] at member
      have upTo := next.leastHead.le filled.merged.ascending member inside
      exact ⟨b, closed, less.trans_le (block_height_monotone upTo)⟩
    · have inside : ∀ b ∈ merge.boundaryBlock, row.block_height ≤ b := by
        intro b closed
        rw [Option.mem_def.mp closed] at beyond
        simpa using beyond
      have member : row ∈ union := by
        refine (filled.merged.covers row).mpr (.inr ⟨_, List.mem_map_of_mem
          (List.mem_of_getElem? next.here), ?_⟩)
        rw [next.head]
        exact List.mem_cons_self
      have known : merge.distinct.any (·.tx_hash = row.tx_hash) = true ↔ row ∈ merge.distinct := by
        rw [List.any_eq_true]
        constructor
        · rintro ⟨other, listed, same⟩
          have there := (tracks.merged.covers other).mpr (.inl listed)
          rwa [← hashes other there row member (of_decide_eq_true same)]
        · exact fun listed => ⟨row, listed, decide_eq_true rfl⟩
      obtain ⟨inStep, count, size⟩ := next.tracks filled inside
      refine .inr ⟨(merge.fill heads).merged position row, ?_, inStep,
        count.trans (by rw [fill_taken peeked]), size.trans ?_⟩
      case refine_2 =>
        rw [HistoryMerge.fill, List.length_map]
        exact peeked.length_eq.symm
      simp only [HistoryMerge.turn, found, if_neg beyond]
      by_cases old : row ∈ merge.distinct
      · rw [if_pos (known.mpr old)]
        simp [HistoryMerge.merged, HistoryMerge.fill, take, close, old]
      · rw [if_neg (fun again => old (known.mp again))]
        simp [HistoryMerge.merged, HistoryMerge.fill, take, close, old]
        rfl

end Turn

section Loop

variable {T : Type} {index : AddressIndex} {addresses : List String} {afterBlock : Option Nat}
  {union : List HistoryRow} {merge : HistoryMerge} {trace : List (Exchange T Endpoint.Answer)}

theorem HistoryMerge.Tracks.taken_le (tracks : merge.Tracks index addresses afterBlock union) :
    merge.taken ≤ merge.streams.length * HISTORY_MAX_LIST_ROWS := by
  have each : ∀ count ∈ merge.streams.map AddressHistoryStream.taken,
      count ≤ HISTORY_MAX_LIST_ROWS := by
    intro count member
    obtain ⟨stream, listed, rfl⟩ := List.mem_map.mp member
    exact (tracks.streams stream listed).taken_le
  simpa [HistoryMerge.taken] using List.sum_le_card_nsmul _ _ each

/-- A stream has more rows than the bound, and those up to the bound all belong on
the page. -/
def Unsettled (index : AddressIndex) (addresses : List String) (afterBlock : Option Nat)
    (page : List HistoryRow) : Prop :=
  ∃ chunk, chunk ⊆ addresses ∧ HISTORY_MAX_LIST_ROWS < (index.stream chunk afterBlock).length ∧
    ∀ row ∈ (index.stream chunk afterBlock).take HISTORY_MAX_LIST_ROWS, row ∈ page

theorem peeks_run (tracks : merge.Tracks index addresses afterBlock union)
    (honest : HonestAddresses index trace) {heads : List (AddressHistoryStream × Option HistoryRow)}
    (runs : (promiseAll (merge.streams.map peekAddressHistoryStream)).Runs trace (.ok heads)) :
    List.Forall₂ (Peeked index) merge.streams heads := by
  refine (List.forall₂_iff_get.mpr ⟨(promiseAll_runs runs).length_eq, fun i bound bound' => ?_⟩)
  obtain ⟨part, sub, ran⟩ := (List.forall₂_iff_get.mp (promiseAll_runs runs)).2 i bound bound'
  obtain ⟨next, same, filled⟩ | ⟨e, same, -⟩ := peek_runs
    (tracks.streams _ (List.get_mem _ _)) (honest.sub sub) ran
  · have seen := Except.ok.inj same
    exact ⟨by rw [seen]; exact filled, by rw [seen]⟩
  · cases same

/-- A merge that returns has the page; one that fails on an upstream that answers has
met a stream that was not settled within the bound. -/
theorem mergeStreams_runs {turns : Nat} {outcome : Except Failure (List HistoryRow)}
    (tracks : merge.Tracks index addresses afterBlock union)
    (hashes : ∀ a ∈ union, ∀ b ∈ union, a.tx_hash = b.tx_hash → a = b)
    (ordered : union.Pairwise (· < ·)) (honest : HonestAddresses index trace)
    (enough : merge.streams.length * HISTORY_MAX_LIST_ROWS < turns + merge.taken)
    (runs : (mergeStreams turns merge).Runs trace outcome) :
    outcome = .ok (window HISTORY_PAGE_SIZE HistoryRow.block_height union) ∨
    ∃ e, outcome = .error e ∧ (AnswersAddresses trace → e = AddressHistoryStream.overflow ∧
      Unsettled index addresses afterBlock
        (window HISTORY_PAGE_SIZE HistoryRow.block_height union)) := by
  induction turns generalizing merge trace with
  | zero =>
    have most := tracks.taken_le
    omega
  | succ turns ih =>
    obtain ⟨first, rest, heads, rfl, peeks, tail⟩ | ⟨e, peeks, rfl⟩ := Async.runs_bind.mp runs
    · have peeked := peeks_run tracks (honest.sub (List.sublist_append_left first rest)) peeks
      have later := List.sublist_append_right first rest
      obtain ⟨leave, complete⟩ | ⟨next, go, inStep, count, size⟩ :=
        turn_spec tracks hashes peeked
      · rw [leave] at tail
        obtain ⟨-, rfl⟩ := tail
        rw [tracks.merged.window_eq (by decide) block_height_monotone ordered tracks.closing
          complete]
        exact .inl rfl
      · rw [go] at tail
        obtain returned | ⟨e, failed, cause⟩ :=
          ih inStep (honest.sub later) (by rw [size, count]; omega) tail
        · exact .inl returned
        · exact .inr ⟨e, failed, fun answers => cause (answers.sub later)⟩
    · refine .inr ⟨e, rfl, fun answers => ?_⟩
      obtain ⟨stream, listed, part, sub, ran⟩ := promiseAll_fails peeks
      obtain ⟨_, same, -⟩ | ⟨_, same, exceeds⟩ :=
        peek_runs (tracks.streams stream listed) (honest.sub sub) ran
      · cases same
      · cases same
        obtain ⟨refused, full, more⟩ := exceeds (answers.sub sub)
        obtain ⟨part, source⟩ := tracks.source stream listed
        rw [AddressHistoryStream.content, source] at more
        refine ⟨refused, stream.addresses, part, more, fun row member => ?_⟩
        refine tracks.merged.subset_window (by decide) block_height_monotone ordered
          tracks.closing (tracks.counted stream listed row ?_)
        rw [full, AddressHistoryStream.content, source]
        exact member

end Loop

end WalletBackend.Koios
