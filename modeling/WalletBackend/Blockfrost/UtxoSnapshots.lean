import WalletBackend.Blockfrost.Account
import WalletBackend.Blockfrost.Addresses
import WalletBackend.Library.Snapshot

/-! Every UTxO answer is a snapshot. The upstream may change between any two page
requests; what it answers is a page of its listing at that instant. Two walks
that agree pin an instant between them, and the short last page counts it. -/
namespace WalletBackend.Blockfrost
open Interaction Snapshots

variable {T : Type} [LinearOrder T] {A : Type} {owner : UtxoOwner}

/-- The unspent outputs of one owner over time, as the upstream lists them: each
output once, and none back after it has left. -/
structure UtxoHistory (T : Type) [LinearOrder T] (A : Type) where
  listing : T → List (UtxoRow A)
  distinct : ∀ t, ((listing t).map UtxoRow.ref).Nodup
  noReturn : ∀ ref, {t | ref ∈ (listing t).map UtxoRow.ref}.OrdConnected

def UtxoHistory.refs (history : UtxoHistory T A) : History T OutputRef where
  members t := (history.listing t).map UtxoRow.ref
  distinct := history.distinct
  noReturn := history.noReturn

/-- An answer to a page request computed from `listing`: its hundred elements, a
404 when there is nothing to list, or a failure that says nothing. -/
def Serves (listing : List (UtxoRow A)) (page : Nat) :
    Except Failure (Option (List (UtxoRow A))) → Prop
  | .error _ => True
  | .ok none => listing = []
  | .ok (some rows) => rows = (listing.drop (100 * (page - 1))).take 100

/-- Each page request about `owner` was answered from the listing of its instant. -/
def Honest (owner : UtxoOwner) (history : UtxoHistory T owner.AddressField)
    (trace : List (Exchange T Endpoint.Answer)) : Prop :=
  ∀ t page answer, ⟨t, .utxos owner page, answer⟩ ∈ trace → Serves (history.listing t) page answer

/-- A page request about `owner` was answered at `t`. -/
def PageAnswered (owner : UtxoOwner) (trace : List (Exchange T Endpoint.Answer)) (t : T) : Prop :=
  ∃ page answer, ⟨t, .utxos owner page, answer⟩ ∈ trace

/-- `utxos` are the outputs `owner` had at the instant of one of its page
requests, each once, with the data of a row the upstream listed for it. -/
def SnapshotOf (owner : UtxoOwner) (addressOf : owner.AddressField → String)
    (history : UtxoHistory T owner.AddressField) (trace : List (Exchange T Endpoint.Answer))
    (utxos : List Utxo) : Prop :=
  ∃ t, PageAnswered owner trace t ∧
    (utxos.map Utxo.ref).Perm ((history.listing t).map UtxoRow.ref) ∧
    ∀ utxo ∈ utxos, ∃ s row, PageAnswered owner trace s ∧ row ∈ history.listing s ∧
      MapsTo addressOf row utxo

theorem Honest.sublist {history : UtxoHistory T owner.AddressField}
    {part trace : List (Exchange T Endpoint.Answer)} (honest : Honest owner history trace)
    (sub : part.Sublist trace) : Honest owner history part :=
  fun t page answer member => honest t page answer (sub.subset member)

omit [LinearOrder T] in
theorem PageAnswered.mono {part trace : List (Exchange T Endpoint.Answer)} {t : T}
    (answered : PageAnswered owner part t) (sub : part.Sublist trace) :
    PageAnswered owner trace t := by
  obtain ⟨page, answer, member⟩ := answered
  exact ⟨page, answer, sub.subset member⟩

/-- In a chronological trace nothing in the first part is later than the second. -/
theorem PageAnswered.le {first second : List (Exchange T Endpoint.Answer)} {s t : T}
    (ordered : Chronological (first ++ second)) (early : PageAnswered owner first s)
    (late : PageAnswered owner second t) : s ≤ t := by
  obtain ⟨_, _, member₁⟩ := early
  obtain ⟨_, _, member₂⟩ := late
  exact (List.pairwise_append.mp ordered).2.2 _ member₁ _ member₂

/-- What a completed walk knows about the listings it was answered from. `last` is
the instant of its last request, where a short page bounds the whole listing. -/
structure WalkReads (owner : UtxoOwner) (history : UtxoHistory T owner.AddressField)
    (trace : List (Exchange T Endpoint.Answer))
    (already rows : List (UtxoRow owner.AddressField)) (needsVerification : Bool)
    (sightings : List (Sighting T OutputRef)) (last : T) : Prop where
  answered : PageAnswered owner trace last
  keys : rows.map UtxoRow.ref = already.map UtxoRow.ref ++ sightings.flatMap Sighting.keys
  seen : ∀ x ∈ sightings, PageAnswered owner trace x.instant ∧ x.instant ≤ last ∧
    ∀ k ∈ x.keys, k ∈ history.refs.members x.instant
  listed : ∀ row ∈ rows, row ∈ already ∨
    ∃ s, PageAnswered owner trace s ∧ row ∈ history.listing s
  count : (history.listing last).length ≤ rows.length
  whole : needsVerification = false → rows = history.listing last

theorem Serves.subset {listing rows : List (UtxoRow A)} {page : Nat}
    (served : Serves listing page (.ok (some rows))) : rows ⊆ listing := by
  rw [Serves] at served
  rw [served]
  exact fun row member => List.mem_of_mem_drop (List.mem_of_mem_take member)

/-- A page that is not full ends the listing. -/
theorem Serves.short {listing rows : List (UtxoRow A)} {page : Nat}
    (served : Serves listing page (.ok (some rows))) (short : rows.length < UTXO_PAGE_SIZE) :
    listing.length ≤ 100 * (page - 1) + rows.length := by
  have size := congrArg List.length served
  simp only [List.length_take, List.length_drop] at size
  simp only [UTXO_PAGE_SIZE] at short
  omega

theorem Serves.full {listing rows : List (UtxoRow A)} {page : Nat}
    (served : Serves listing page (.ok (some rows))) (full : ¬ rows.length < UTXO_PAGE_SIZE) :
    rows.length = 100 := by
  have size := congrArg List.length served
  simp only [List.length_take, List.length_drop] at size
  simp only [UTXO_PAGE_SIZE] at full
  omega

theorem Serves.whole {listing rows : List (UtxoRow A)}
    (served : Serves listing 1 (.ok (some rows))) (short : rows.length < UTXO_PAGE_SIZE) :
    rows = listing := by
  have size := served.short short
  have all : rows = listing.take 100 := by simpa [Serves] using served
  rw [all, List.take_of_length_le]
  simp only [UTXO_PAGE_SIZE] at short
  omega

/-- The walk that ends with `pageRows` at `t`. -/
theorem WalkReads.stop {history : UtxoHistory T owner.AddressField}
    {trace : List (Exchange T Endpoint.Answer)} {t : T}
    (already pageRows : List (UtxoRow owner.AddressField)) (needsVerification : Bool)
    (answered : PageAnswered owner trace t) (listed : pageRows ⊆ history.listing t)
    (count : (history.listing t).length ≤ (already ++ pageRows).length)
    (whole : needsVerification = false → already ++ pageRows = history.listing t) :
    WalkReads owner history trace already (already ++ pageRows) needsVerification
      [⟨t, pageRows.map UtxoRow.ref⟩] t where
  answered := answered
  keys := by simp
  seen := by
    intro x member
    obtain rfl := List.mem_singleton.mp member
    refine ⟨answered, le_refl _, fun k key => ?_⟩
    obtain ⟨row, member, rfl⟩ := List.mem_map.mp key
    exact List.mem_map_of_mem (listed member)
  listed := by
    intro row member
    obtain old | new := List.mem_append.mp member
    · exact .inl old
    · exact .inr ⟨t, answered, listed new⟩
  count := count
  whole := whole

/-- The walk that goes on after a full page `pageRows` at `t`. -/
theorem WalkReads.next {history : UtxoHistory T owner.AddressField}
    {rest : List (Exchange T Endpoint.Answer)} {head : Exchange T Endpoint.Answer}
    {already pageRows rows : List (UtxoRow owner.AddressField)} {needsVerification : Bool}
    {sightings : List (Sighting T OutputRef)} {last : T}
    (reads : WalkReads owner history rest (already ++ pageRows) rows needsVerification
      sightings last)
    (answered : PageAnswered owner (head :: rest) head.instant)
    (ordered : Chronological (head :: rest)) (listed : pageRows ⊆ history.listing head.instant) :
    WalkReads owner history (head :: rest) already rows needsVerification
      (⟨head.instant, pageRows.map UtxoRow.ref⟩ :: sightings) last where
  answered := reads.answered.mono (List.sublist_cons_self _ _)
  keys := by simp [reads.keys]
  seen := by
    intro x member
    obtain rfl | member := List.mem_cons.mp member
    · refine ⟨answered, ?_, fun k key => ?_⟩
      · obtain ⟨_, _, member⟩ := reads.answered
        exact (List.pairwise_cons.mp ordered).1 _ member
      · obtain ⟨row, member, rfl⟩ := List.mem_map.mp key
        exact List.mem_map_of_mem (listed member)
    · obtain ⟨seen, before, keys⟩ := reads.seen x member
      exact ⟨seen.mono (List.sublist_cons_self _ _), before, keys⟩
  listed := by
    intro row member
    obtain old | ⟨s, seen, listedAt⟩ := reads.listed row member
    · obtain old | new := List.mem_append.mp old
      · exact .inl old
      · exact .inr ⟨_, answered, listed new⟩
    · exact .inr ⟨s, seen.mono (List.sublist_cons_self _ _), listedAt⟩
  count := reads.count
  whole := reads.whole

theorem scanPages_reads {changed exceeded : Failure} {history : UtxoHistory T owner.AddressField}
    {remaining page : Nat} {acc : ScanRows owner.AddressField}
    {trace : List (Exchange T Endpoint.Answer)} {scan : UtxoScan owner.AddressField}
    (runs : (scanPages owner changed exceeded remaining page acc).Runs trace (.ok scan))
    (honest : Honest owner history trace) (ordered : Chronological trace) (positive : 1 ≤ page)
    (full : acc.rows.length = 100 * (page - 1)) :
    ∃ sightings last, WalkReads owner history trace acc.rows scan.found.rows
      scan.needsVerification sightings last := by
  induction remaining generalizing page acc trace with
  | zero =>
    rw [scanPages, Async.runs_bind_ok] at runs
    obtain ⟨_, rest, answer, rfl, asked, tail⟩ := runs
    obtain ⟨t, rfl⟩ := runs_getOrUndefined.mp asked
    have served := honest t page _ List.mem_cons_self
    have answered : PageAnswered owner (⟨t, .utxos owner page, .ok answer⟩ :: rest) t :=
      ⟨page, _, List.mem_cons_self⟩
    have ends : (history.listing t).length ≤ acc.rows.length →
        ∃ sightings last, WalkReads owner history
          (⟨t, .utxos owner page, .ok answer⟩ :: rest) acc.rows acc.rows true sightings last := by
      intro count
      have reads := WalkReads.stop acc.rows [] true answered (List.nil_subset _) (by simpa using count) (by simp)
      rw [List.append_nil] at reads
      exact ⟨_, _, reads⟩
    cases answer with
    | none =>
      obtain ⟨rfl, same⟩ := tail
      cases same
      exact ends (by rw [show history.listing t = [] from served]; exact Nat.zero_le _)
    | some probe =>
      by_cases empty : probe.length = 0
      · simp only [if_pos empty] at tail
        obtain ⟨rfl, same⟩ := tail
        cases same
        refine ends ?_
        have bound := served.short (by rw [empty]; decide)
        omega
      · simp only [if_neg empty] at tail
        exact nomatch tail.2
  | succ remaining ih =>
    rw [scanPages, Async.runs_bind_ok] at runs
    obtain ⟨_, rest, answer, rfl, asked, tail⟩ := runs
    obtain ⟨t, rfl⟩ := runs_getOrUndefined.mp asked
    have served := honest t page _ List.mem_cons_self
    have answered : PageAnswered owner (⟨t, .utxos owner page, .ok answer⟩ :: rest) t :=
      ⟨page, _, List.mem_cons_self⟩
    cases answer with
    | none =>
      by_cases first : page = 1
      · simp only [if_pos first] at tail
        obtain ⟨rfl, same⟩ := tail
        cases same
        have fresh : acc.rows = [] := List.length_eq_zero_iff.mp (by omega)
        have empty : history.listing t = [] := served
        have reads := WalkReads.stop [] [] false answered (List.nil_subset _) (by rw [empty]; exact le_refl _) (fun _ => empty.symm)
        rw [fresh]
        exact ⟨_, _, reads⟩
      · simp only [if_neg first] at tail
        exact nomatch tail.2
    | some pageRows =>
      by_cases short : pageRows.length < UTXO_PAGE_SIZE
      · simp only [if_pos short] at tail
        obtain ⟨rfl, same⟩ := tail
        cases same
        have bound := served.short short
        have reads := WalkReads.stop acc.rows pageRows (decide (page > 1)) answered served.subset (by rw [List.length_append]; omega) (by
            intro single
            obtain rfl : page = 1 := by
              simp only [decide_eq_false_iff_not] at single
              omega
            rw [List.length_eq_zero_iff.mp full, List.nil_append]
            exact served.whole short)
        exact ⟨_, _, by simpa using reads⟩
      · simp only [if_neg short] at tail
        have size := served.full short
        obtain ⟨sightings, last, reads⟩ := ih tail
          (honest.sublist (List.sublist_cons_self _ _)) (List.pairwise_cons.mp ordered).2
          (by omega) (by rw [ScanRows.append_rows, List.length_append, full, size]; omega)
        rw [ScanRows.append_rows] at reads
        exact ⟨_, _, reads.next answered ordered served.subset⟩

/-- What a complete walk of one owner has read. -/
def Walked (owner : UtxoOwner) (history : UtxoHistory T owner.AddressField)
    (trace : List (Exchange T Endpoint.Answer)) (scan : UtxoScan owner.AddressField) : Prop :=
  ∃ sightings last, WalkReads owner history trace [] scan.found.rows scan.needsVerification
    sightings last

theorem scanUtxos_walked {changed exceeded : Failure} {maxPages : Nat}
    {history : UtxoHistory T owner.AddressField} {trace : List (Exchange T Endpoint.Answer)}
    {scan : UtxoScan owner.AddressField}
    (runs : (scanUtxos owner maxPages changed exceeded).Runs trace (.ok scan))
    (honest : Honest owner history trace) (ordered : Chronological trace) :
    Walked owner history trace scan :=
  scanPages_reads runs honest ordered (le_refl 1) rfl

/-- `rows` are the outputs `owner` had at the instant of one of its page requests. -/
def PinnedRows (owner : UtxoOwner) (history : UtxoHistory T owner.AddressField)
    (trace : List (Exchange T Endpoint.Answer)) (rows : List (UtxoRow owner.AddressField)) : Prop :=
  ∃ t, PageAnswered owner trace t ∧
    (rows.map UtxoRow.ref).Perm ((history.listing t).map UtxoRow.ref) ∧
    ∀ row ∈ rows, ∃ s, PageAnswered owner trace s ∧ row ∈ history.listing s

theorem PinnedRows.mono {history : UtxoHistory T owner.AddressField}
    {part trace : List (Exchange T Endpoint.Answer)} {rows : List (UtxoRow owner.AddressField)}
    (pinned : PinnedRows owner history part rows) (sub : part.Sublist trace) :
    PinnedRows owner history trace rows := by
  obtain ⟨t, answered, same, listed⟩ := pinned
  refine ⟨t, answered.mono sub, same, fun row member => ?_⟩
  obtain ⟨s, seen, listed⟩ := listed row member
  exact ⟨s, seen.mono sub, listed⟩

/-- One page that needs no verification is the listing of its instant. -/
theorem Walked.pinned_single {history : UtxoHistory T owner.AddressField}
    {trace : List (Exchange T Endpoint.Answer)} {scan : UtxoScan owner.AddressField}
    (walked : Walked owner history trace scan) (single : scan.needsVerification = false) :
    PinnedRows owner history trace scan.found.rows := by
  obtain ⟨sightings, last, reads⟩ := walked
  have whole := reads.whole single
  exact ⟨last, reads.answered, by rw [whole], fun row member =>
    ⟨last, reads.answered, whole ▸ member⟩⟩

theorem agree_iff {previous current : UtxoScan A} :
    agree previous current = true ↔ previous.found.hasDuplicate = false ∧
      current.found.hasDuplicate = false ∧ previous.found.keys = current.found.keys := by
  simp [agree, sameKeys, and_assoc]

/-- Equal keys are equal output references. -/
theorem refs_of_keys {left right : ScanRows A} (same : left.keys = right.keys) :
    left.rows.map UtxoRow.ref = right.rows.map UtxoRow.ref := by
  rw [left.keys_rows, right.keys_rows] at same
  apply List.map_injective_iff.mpr OutputRef.key_injective
  rw [List.map_map, List.map_map]
  exact same

/-- Two consecutive walks that agree pin the instant at which the first ended. -/
theorem Walked.pinned_agree {history : UtxoHistory T owner.AddressField}
    {first second : List (Exchange T Endpoint.Answer)} {previous current : UtxoScan owner.AddressField}
    (walked₁ : Walked owner history first previous) (walked₂ : Walked owner history second current)
    (ordered : Chronological (first ++ second)) (agrees : agree previous current = true) :
    PinnedRows owner history (first ++ second) current.found.rows := by
  obtain ⟨-, unique, keys⟩ := agree_iff.mp agrees
  obtain ⟨sightings₁, last, reads₁⟩ := walked₁
  obtain ⟨sightings₂, last₂, reads₂⟩ := walked₂
  have refs := refs_of_keys keys
  have nodup : (current.found.rows.map UtxoRow.ref).Nodup := by
    have distinct := current.found.duplicate unique
    rw [current.found.keys_rows] at distinct
    exact List.Nodup.of_map OutputRef.key (by rw [List.map_map]; exact distinct)
  have size : previous.found.rows.length = current.found.rows.length := by
    simpa using congrArg List.length refs
  have pins : (current.found.rows.map UtxoRow.ref).Perm (history.refs.members last) := by
    refine agreement_pins nodup (by rw [← refs, reads₁.keys]; rfl) (by rw [reads₂.keys]; rfl)
      (fun x member => (reads₁.seen x member).2.2) (fun x member => (reads₂.seen x member).2.2)
      (fun x member => (reads₁.seen x member).2.1)
      (fun x member => reads₁.answered.le ordered (reads₂.seen x member).1) ?_
    simpa [UtxoHistory.refs, size] using reads₁.count
  refine ⟨last, reads₁.answered.mono (List.sublist_append_left _ _), pins, fun row member => ?_⟩
  obtain old | ⟨s, seen, listed⟩ := reads₂.listed row member
  · exact absurd old List.not_mem_nil
  · exact ⟨s, seen.mono (List.sublist_append_right _ _), listed⟩

section Reads

variable {changed exceeded : Failure} {maxPages : Nat}
  {history : UtxoHistory T owner.AddressField} {trace : List (Exchange T Endpoint.Answer)}
  {rows : List (UtxoRow owner.AddressField)}

/-- The comparison loop, entered after `previous` was read during `earlier`. -/
theorem verifyScan_pinned {scans : Nat} {earlier : List (Exchange T Endpoint.Answer)}
    {previous : UtxoScan owner.AddressField}
    (runs : (verifyScan (scanUtxos owner maxPages changed exceeded) changed scans previous).Runs
      trace (.ok rows))
    (walked : Walked owner history earlier previous)
    (honest : Honest owner history trace) (ordered : Chronological (earlier ++ trace)) :
    PinnedRows owner history (earlier ++ trace) rows := by
  induction scans generalizing earlier previous trace with
  | zero => exact nomatch runs.2
  | succ scans ih =>
    rw [verifyScan, Async.runs_bind_ok] at runs
    obtain ⟨second, rest, current, rfl, scanned, tail⟩ := runs
    rw [← List.append_assoc] at ordered ⊢
    have walked₂ : Walked owner history second current :=
      scanUtxos_walked scanned (honest.sublist (List.sublist_append_left _ _))
        (ordered.sublist ((List.sublist_append_right _ _).trans (List.sublist_append_left _ _)))
    by_cases agrees : agree previous current
    · rw [if_pos agrees] at tail
      obtain ⟨rfl, same⟩ := tail
      cases same
      rw [List.append_nil] at ordered ⊢
      exact walked.pinned_agree walked₂ ordered agrees
    · rw [if_neg agrees] at tail
      rw [List.append_assoc] at ordered ⊢
      exact (ih tail walked₂ (honest.sublist (List.sublist_append_right _ _))
        (ordered.sublist (List.sublist_append_right _ _))).mono (List.sublist_append_right _ _)

/-- Whatever a verified read returns is the set of one of its instants. -/
theorem readUtxos_pinned
    (runs : (readUtxos (scanUtxos owner maxPages changed exceeded) changed).Runs trace (.ok rows))
    (honest : Honest owner history trace) (ordered : Chronological trace) :
    PinnedRows owner history trace rows := by
  rw [readUtxos, Async.runs_bind_ok] at runs
  obtain ⟨first, rest, scan, rfl, scanned, tail⟩ := runs
  have walked : Walked owner history first scan :=
    scanUtxos_walked scanned (honest.sublist (List.sublist_append_left _ _))
      (ordered.sublist (List.sublist_append_left _ _))
  by_cases settled : (!scan.needsVerification && !scan.found.hasDuplicate) = true
  · rw [if_pos settled] at tail
    obtain ⟨rfl, same⟩ := tail
    cases same
    simp only [Bool.and_eq_true, Bool.not_eq_true'] at settled
    rw [List.append_nil]
    exact walked.pinned_single settled.1
  · rw [if_neg settled] at tail
    exact verifyScan_pinned tail walked (honest.sublist (List.sublist_append_right _ _)) ordered

end Reads

end WalletBackend.Blockfrost
