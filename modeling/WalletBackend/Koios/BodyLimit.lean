import WalletBackend.Koios.Reads
import WalletBackend.Library.Runs
import Mathlib.Data.Prod.Lex

/-! The batched reads of one client share its body limit. A read packs under the limit of
the moment, and when a run is refused it takes over the smaller limit that upstream
names and runs once more, unless another read has taken it over already. -/
namespace WalletBackend.Koios

/-- An upstream that refuses longer bodies than its limit, and says so. -/
structure CappedUpstream where
  cap : Nat
  refusal : Nat → Failure
  names : ∀ length, limitFrom413 (refusal length) = some cap

/-- A chunk of a run, and its rows once they are there. -/
structure SentChunk (Item Row : Type) where
  chunk : List Item
  rows : Option (List Row)

inductive ReadPhase (Item Row : Type) where
  /-- A run of `packAdaptively`: the first, or the one after a 413. -/
  | running (adapted : Bool) (sent : List (SentChunk Item Row))
  /-- The first run has failed and its `catch` is about to run. -/
  | refused (error : Failure)
  | done (rows : List Row)
  | failed (error : Failure)

/-- One call of `batchAll`. -/
structure BatchedRead (Item Row : Type) where
  body : BodyBuilder Item
  items : List Item
  phase : ReadPhase Item Row

/-- The limit of the client, and the reads begun so far. -/
structure BatchingClient (Item Row : Type) where
  bodyLimit : Nat
  reads : Nat → Option (BatchedRead Item Row)

inductive BatchEvent (Item Row : Type) where
  | batchAll (id : Nat) (body : BodyBuilder Item) (items : List Item)
  /-- Upstream answers a chunk: with these rows, if it does not refuse it. -/
  | answer (id chunk : Nat) (rows : List Row)
  /-- The `catch` of a failed run. -/
  | recover (id : Nat)

variable {Item Row : Type}

/-- The rows of all chunks in order, once they are all there. -/
def flat : List (SentChunk Item Row) → Option (List Row)
  | [] => some []
  | one :: rest => one.rows.bind fun rows => (flat rest).map (rows ++ ·)

/-- The promises of all chunks together. -/
def ReadPhase.ofSent (adapted : Bool) (sent : List (SentChunk Item Row)) : ReadPhase Item Row :=
  match flat sent with
  | some rows => .done rows
  | none => .running adapted sent

/-- A failure of the first run is caught, one of the second is not. -/
def ReadPhase.ofError (adapted : Bool) (error : Failure) : ReadPhase Item Row :=
  if adapted then .failed error else .refused error

namespace BatchedRead

variable (read : BatchedRead Item Row)

/-- `run`: pack under the limit and send every chunk. -/
def run (bodyLimit : Nat) (adapted : Bool) : BatchedRead Item Row :=
  { read with
    phase := match packBySize read.items read.body bodyLimit with
      | .error error => .ofError adapted error
      | .ok chunks => .ofSent adapted (chunks.map fun chunk => ⟨chunk, none⟩) }

def answer (upstream : CappedUpstream) (chunk : Nat) (rows : List Row) : BatchedRead Item Row :=
  match read.phase with
  | .running adapted sent =>
      match sent[chunk]? with
      | some ⟨items, none⟩ =>
          { read with
            phase :=
              if upstream.cap < read.body.length items then
                .ofError adapted (upstream.refusal (read.body.length items))
              else .ofSent adapted (sent.set chunk ⟨items, some rows⟩) }
      | _ => read
  | _ => read

/-- The `catch`, and the limit that it leaves. -/
def recover (bodyLimit : Nat) : BatchedRead Item Row × Nat :=
  match read.phase with
  | .refused error =>
      match limitFrom413 error with
      | none => ({ read with phase := .failed error }, bodyLimit)
      | some said =>
          if bodyLimit ≤ said then ({ read with phase := .failed error }, bodyLimit)
          else (read.run said true, said)
  | _ => (read, bodyLimit)

end BatchedRead

namespace BatchingClient

variable (upstream : CappedUpstream)

def create (bodyLimit : Nat) : BatchingClient Item Row := ⟨bodyLimit, fun _ => none⟩

def apply (s : BatchingClient Item Row) : BatchEvent Item Row → BatchingClient Item Row
  | .batchAll id body items =>
      match s.reads id with
      | some _ => s
      | none =>
          let read := BatchedRead.run ⟨body, items, .done []⟩ s.bodyLimit false
          { s with reads := Function.update s.reads id (some read) }
  | .answer id chunk rows =>
      match s.reads id with
      | some read =>
          { s with reads := Function.update s.reads id (some (read.answer upstream chunk rows)) }
      | none => s
  | .recover id =>
      match s.reads id with
      | some read =>
          let recovered := read.recover s.bodyLimit
          { bodyLimit := recovered.2, reads := Function.update s.reads id (some recovered.1) }
      | none => s

/-- A chunk that awaits its answer. -/
def awaits (s : BatchingClient Item Row) (id chunk : Nat) : Option (List Item) :=
  match (s.reads id).map BatchedRead.phase with
  | some (.running _ sent) => (sent[chunk]?).map SentChunk.chunk
  | _ => none

/-- What is assumed of the callers and of upstream: every item fits alone within its
limit, and a chunk is answered completely. -/
def Assumed (rowsOf : Nat → Item → List Row) (s : BatchingClient Item Row) :
    BatchEvent Item Row → Prop
  | .batchAll _ body items => ∀ item ∈ items, body.Fits upstream.cap item
  | .answer id chunk rows => ∀ items ∈ s.awaits id chunk, rows.Perm (items.flatMap (rowsOf id))
  | .recover _ => True

/-- A read comes to its `catch` when the limit has been lowered already. -/
def Late (s : BatchingClient Item Row) : BatchEvent Item Row → Prop
  | .recover id =>
      (∃ error, (s.reads id).map BatchedRead.phase = some (.refused error)) ∧
        s.bodyLimit ≤ upstream.cap
  | _ => False

end BatchingClient

section Sound

variable {cap limit : Nat} {rowsOf : Item → List Row} {read : BatchedRead Item Row}
  {sent : List (SentChunk Item Row)} {rows : List Row} {adapted : Bool}

theorem flat_perm (complete : ∀ one ∈ sent, ∀ rows, one.rows = some rows →
      rows.Perm (one.chunk.flatMap rowsOf)) (all : flat sent = some rows) :
    rows.Perm ((sent.map SentChunk.chunk).flatten.flatMap rowsOf) := by
  induction sent generalizing rows with
  | nil =>
    cases all
    exact .nil
  | cons one rest ih =>
    obtain ⟨own, there, others⟩ := Option.bind_eq_some_iff.mp all
    obtain ⟨later, there', rfl⟩ := Option.map_eq_some_iff.mp others
    rw [List.map_cons, List.flatten_cons, List.flatMap_append]
    apply List.Perm.append
    · exact complete one List.mem_cons_self own there
    · exact ih (fun other member => complete other (List.mem_cons_of_mem _ member)) there'

theorem flat_none (missing : flat sent = none) : ∃ one ∈ sent, one.rows = none := by
  induction sent with
  | nil => cases missing
  | cons one rest ih =>
    cases own : one.rows with
    | none => exact ⟨one, List.mem_cons_self, own⟩
    | some rows =>
      rw [flat, own, Option.bind_some, Option.map_eq_none_iff] at missing
      obtain ⟨other, member, none'⟩ := ih missing
      exact ⟨other, List.mem_cons_of_mem _ member, none'⟩

/-- The chunks of a run are its items, the rows that came are complete, and after a 413
no chunk is too long. -/
structure SoundRun (cap : Nat) (rowsOf : Item → List Row) (body : BodyBuilder Item)
    (items : List Item) (adapted : Bool) (sent : List (SentChunk Item Row)) : Prop where
  items : (sent.map SentChunk.chunk).flatten = items
  complete : ∀ one ∈ sent, ∀ rows, one.rows = some rows → rows.Perm (one.chunk.flatMap rowsOf)
  short : adapted = true → ∀ one ∈ sent, body.length one.chunk ≤ cap

/-- What holds of a read in each phase. -/
def SoundPhase (cap : Nat) (rowsOf : Item → List Row) (body : BodyBuilder Item)
    (items : List Item) : ReadPhase Item Row → Prop
  | .running adapted sent =>
      SoundRun cap rowsOf body items adapted sent ∧ ∃ one ∈ sent, one.rows = none
  | .refused error => limitFrom413 error = some cap
  | .done rows => rows.Perm (items.flatMap rowsOf)
  | .failed _ => True

/-- The read has not failed. -/
def ReadPhase.Unfailed : ReadPhase Item Row → Prop
  | .failed _ => False
  | _ => True

theorem SoundRun.ofSent {body : BodyBuilder Item} {items : List Item}
    (sound : SoundRun cap rowsOf body items adapted sent) :
    SoundPhase cap rowsOf body items (.ofSent adapted sent) ∧
      (ReadPhase.ofSent adapted sent).Unfailed := by
  rw [ReadPhase.ofSent]
  cases all : flat sent with
  | none => exact ⟨⟨sound, flat_none all⟩, trivial⟩
  | some rows =>
    have complete : rows.Perm (items.flatMap rowsOf) := by
      rw [← sound.items]
      exact flat_perm sound.complete all
    exact ⟨complete, trivial⟩

/-- A run under a limit that every item fits starts well. -/
theorem run_sound (rowsOf : Item → List Row)
    (fits : ∀ item ∈ read.items, read.body.Fits cap item) (larger : cap ≤ limit) (adapted : Bool)
    (lowered : adapted = true → limit = cap) :
    SoundPhase cap rowsOf read.body read.items (read.run limit adapted).phase ∧
      (read.run limit adapted).phase.Unfailed := by
  obtain ⟨chunks, packed⟩ := packBySize_fits fun item member => (fits item member).mono larger
  have sound : SoundRun cap rowsOf read.body read.items adapted
      (chunks.map fun chunk => ⟨chunk, none⟩) := by
    refine ⟨?_, ?_, ?_⟩
    · rw [List.map_map]
      exact (congrArg List.flatten (List.map_id chunks)).trans (packBySize_flatten packed)
    · intro one member rows there
      obtain ⟨chunk, -, rfl⟩ := List.mem_map.mp member
      cases there
    · intro after one member
      obtain ⟨chunk, there, rfl⟩ := List.mem_map.mp member
      have short := packBySize_length packed chunk there
      rw [lowered after] at short
      exact Nat.le_trans short (Nat.sub_le _ _)
  rw [BatchedRead.run, packed]
  exact sound.ofSent

/-- An answer to a chunk, refused or complete. -/
theorem answer_sound {upstream : CappedUpstream}
    (sound : SoundPhase upstream.cap rowsOf read.body read.items read.phase) {chunk : Nat}
    (complete : ∀ adapted sent, read.phase = .running adapted sent → ∀ one, sent[chunk]? = some one →
      rows.Perm (one.chunk.flatMap rowsOf)) :
    SoundPhase upstream.cap rowsOf read.body read.items (read.answer upstream chunk rows).phase ∧
      ((read.answer upstream chunk rows).phase.Unfailed ↔ read.phase.Unfailed) := by
  rw [BatchedRead.answer]
  cases phase : read.phase with
  | running adapted sent =>
    rw [phase] at sound
    obtain ⟨run, outstanding⟩ := sound
    simp only
    split
    case h_1 items there =>
      have member : (⟨items, none⟩ : SentChunk Item Row) ∈ sent := List.mem_of_getElem? there
      simp only
      split
      case isTrue long =>
        cases adapted with
        | true => exact absurd (run.short rfl _ member) (Nat.not_le.mpr long)
        | false => exact ⟨upstream.names _, Iff.rfl⟩
      case isFalse short =>
        refine and_congr_right_iff.mpr (fun _ => iff_true_right trivial) |>.mpr (SoundRun.ofSent ?_)
        refine ⟨?_, ?_, ?_⟩
        · have unchanged : (sent.map SentChunk.chunk).set chunk items = sent.map SentChunk.chunk := by
            obtain ⟨inside, same⟩ := List.getElem?_eq_some_iff.mp there
            have bound : chunk < (sent.map SentChunk.chunk).length := by
              rw [List.length_map]
              exact inside
            have here : items = (sent.map SentChunk.chunk)[chunk] := by rw [List.getElem_map, same]
            conv_lhs => rw [here]
            exact List.set_getElem_self bound
          rw [List.map_set, unchanged]
          exact run.items
        · intro one member' found same
          rcases List.mem_or_eq_of_mem_set member' with before | rfl
          · exact run.complete one before found same
          · cases same
            exact complete adapted sent phase ⟨items, none⟩ there
        · intro after one member'
          rcases List.mem_or_eq_of_mem_set member' with before | rfl
          · exact run.short after one before
          · exact run.short after ⟨items, none⟩ member
    case h_2 =>
      rw [phase]
      exact ⟨⟨run, outstanding⟩, Iff.rfl⟩
  | _ =>
    rw [phase] at sound ⊢
    exact ⟨sound, Iff.rfl⟩

/-- A `catch` starts over unless the limit is lowered already. -/
theorem recover_sound (limit : Nat)
    (fits : ∀ item ∈ read.items, read.body.Fits cap item)
    (sound : SoundPhase cap rowsOf read.body read.items read.phase) :
    SoundPhase cap rowsOf read.body read.items (read.recover limit).1.phase ∧
      ((read.recover limit).1.phase.Unfailed ↔ read.phase.Unfailed ∧
        ¬ ((∃ error, read.phase = .refused error) ∧ limit ≤ cap)) := by
  rw [BatchedRead.recover]
  cases phase : read.phase with
  | refused error =>
    rw [phase] at sound
    have named : limitFrom413 error = some cap := sound
    simp only [named]
    split
    case isTrue lowered =>
      refine ⟨trivial, iff_of_false id ?_⟩
      exact fun intime => intime.2 ⟨⟨error, rfl⟩, lowered⟩
    case isFalse larger =>
      have started : SoundPhase cap rowsOf read.body read.items (read.run cap true).phase ∧
          (read.run cap true).phase.Unfailed := run_sound rowsOf fits (Nat.le_refl cap) true fun _ => rfl
      exact ⟨started.1, iff_of_true started.2 ⟨trivial, fun late => larger late.2⟩⟩
  | _ =>
    rw [phase] at sound ⊢
    refine ⟨sound, (and_iff_left ?_).symm⟩
    rintro ⟨⟨error, impossible⟩, -⟩
    cases impossible

/-- Neither changes what is read. -/
theorem answer_same (read : BatchedRead Item Row) (upstream : CappedUpstream) (chunk : Nat)
    (rows : List Row) : (read.answer upstream chunk rows).body = read.body ∧
      (read.answer upstream chunk rows).items = read.items := by
  rw [BatchedRead.answer]
  split
  · split <;> exact ⟨rfl, rfl⟩
  · exact ⟨rfl, rfl⟩

theorem recover_same (read : BatchedRead Item Row) (limit : Nat) :
    (read.recover limit).1.body = read.body ∧ (read.recover limit).1.items = read.items := by
  rw [BatchedRead.recover]
  split
  · split
    · exact ⟨rfl, rfl⟩
    · split <;> exact ⟨rfl, rfl⟩
  · exact ⟨rfl, rfl⟩

/-- A `catch` leaves the limit, or lowers it to the one named. -/
theorem recover_limit (limit : Nat)
    (sound : SoundPhase cap rowsOf read.body read.items read.phase) :
    (read.recover limit).2 = limit ∨ (read.recover limit).2 = cap := by
  rw [BatchedRead.recover]
  cases phase : read.phase with
  | refused error =>
    rw [phase] at sound
    have named : limitFrom413 error = some cap := sound
    simp only [named]
    split
    · exact .inl rfl
    · exact .inr rfl
  | _ => exact .inl rfl

end Sound

section Rank

variable {read : BatchedRead Item Row} {sent : List (SentChunk Item Row)} {adapted : Bool}
  {upstream : CappedUpstream}

/-- The chunks that have no answer yet. -/
def awaited (sent : List (SentChunk Item Row)) : Nat := sent.countP fun one => one.rows.isNone

/-- What a read has before it: a first run, its `catch`, a second run, and the answers of
a run. -/
def ReadPhase.rank : ReadPhase Item Row → Nat ×ₗ Nat
  | .running false sent => toLex (2, awaited sent)
  | .refused _ => toLex (1, 0)
  | .running true sent => toLex (0, awaited sent)
  | .done _ | .failed _ => toLex (0, 0)

/-- The read has not come to an end. -/
def ReadPhase.Pending : ReadPhase Item Row → Prop
  | .running .. | .refused _ => True
  | .done _ | .failed _ => False

theorem rank_ofSent (adapted : Bool) (sent : List (SentChunk Item Row)) :
    (ReadPhase.ofSent adapted sent).rank ≤ (ReadPhase.running adapted sent).rank := by
  rw [ReadPhase.ofSent]
  cases flat sent with
  | none => exact le_rfl
  | some rows =>
    cases adapted
    all_goals
      rw [ReadPhase.rank, ReadPhase.rank, Prod.Lex.toLex_le_toLex]
      simp

theorem rank_ofError (error : Failure) (some' : 0 < awaited sent) :
    (ReadPhase.ofError adapted error : ReadPhase Item Row).rank <
      (ReadPhase.running adapted sent).rank := by
  cases adapted with
  | false => exact Prod.Lex.toLex_lt_toLex.mpr (.inl Nat.one_lt_two)
  | true => exact Prod.Lex.toLex_lt_toLex.mpr (.inr ⟨rfl, some'⟩)

theorem awaited_set {chunk : Nat} {items : List Item} {rows : List Row}
    (there : sent[chunk]? = some ⟨items, none⟩) :
    awaited (sent.set chunk ⟨items, some rows⟩) + 1 = awaited sent := by
  obtain ⟨inside, same⟩ := List.getElem?_eq_some_iff.mp there
  have counted : 0 < awaited sent :=
    List.countP_pos_iff.mpr ⟨_, List.mem_of_getElem? there, rfl⟩
  rw [awaited] at counted
  rw [awaited, List.countP_set inside, same]
  simp only [Option.isNone_none, Option.isNone_some, if_true, Bool.false_eq_true, if_false]
  rw [awaited]
  omega

/-- The answer to a chunk that waits for one brings the read nearer to its end. -/
theorem answer_rank {chunk : Nat} {items : List Item} (rows : List Row)
    (phase : read.phase = .running adapted sent) (there : sent[chunk]? = some ⟨items, none⟩) :
    (read.answer upstream chunk rows).phase.rank < read.phase.rank := by
  have fewer : awaited (sent.set chunk ⟨items, some rows⟩) + 1 = awaited sent :=
    awaited_set there
  rw [BatchedRead.answer, phase]
  simp only [there]
  split
  · exact rank_ofError _ (by omega)
  · apply lt_of_le_of_lt (rank_ofSent _ _)
    cases adapted
    all_goals
      rw [ReadPhase.rank, ReadPhase.rank, Prod.Lex.toLex_lt_toLex]
      simp only [lt_self_iff_false, true_and, false_or]
      omega

/-- Any other answer is not for it. -/
theorem answer_idle {chunk : Nat} {rows : List Row}
    (other : ∀ adapted sent items, read.phase = .running adapted sent →
      sent[chunk]? ≠ some ⟨items, none⟩) : read.answer upstream chunk rows = read := by
  rw [BatchedRead.answer]
  split
  case h_1 adapted sent phase =>
    split
    case h_1 items there => exact absurd there (other adapted sent items phase)
    case h_2 => rfl
  case h_2 => rfl

theorem recover_rank {error : Failure} (limit : Nat) (phase : read.phase = .refused error) :
    (read.recover limit).1.phase.rank < read.phase.rank := by
  rw [BatchedRead.recover, phase]
  have ended (error' : Failure) : (ReadPhase.failed error' : ReadPhase Item Row).rank <
      (ReadPhase.refused error : ReadPhase Item Row).rank :=
    Prod.Lex.toLex_lt_toLex.mpr (.inl Nat.zero_lt_one)
  simp only
  split
  · exact ended error
  · split
    · exact ended error
    · rw [BatchedRead.run]
      simp only
      split
      case h_1 error' packed => exact ended error'
      case h_2 chunks packed =>
        apply lt_of_le_of_lt (rank_ofSent _ _)
        rw [ReadPhase.rank, ReadPhase.rank, Prod.Lex.toLex_lt_toLex]
        exact .inl Nat.zero_lt_one

theorem recover_idle {limit : Nat} (other : ∀ error, read.phase ≠ .refused error) :
    (read.recover limit).1 = read := by
  rw [BatchedRead.recover]
  split
  case h_1 error phase => exact absurd phase (other error)
  case h_2 => rfl

end Rank

namespace BatchingClient

variable {upstream : CappedUpstream} {rowsOf : Nat → Item → List Row}
  {s : BatchingClient Item Row}

/-- The limit is not below that of upstream, and every read is sound. -/
structure Sound (upstream : CappedUpstream) (rowsOf : Nat → Item → List Row)
    (s : BatchingClient Item Row) : Prop where
  limit : upstream.cap ≤ s.bodyLimit
  fits : ∀ id read, s.reads id = some read → ∀ item ∈ read.items, read.body.Fits upstream.cap item
  phase : ∀ id read, s.reads id = some read → SoundPhase upstream.cap (rowsOf id) read.body read.items read.phase

/-- No read has failed. -/
def Unfailed (s : BatchingClient Item Row) : Prop :=
  ∀ id read, s.reads id = some read → read.phase.Unfailed

/-- A read moves on. -/
theorem Sound.update (sound : s.Sound upstream rowsOf) {limit id : Nat}
    {read : BatchedRead Item Row} (larger : upstream.cap ≤ limit)
    (fits : ∀ item ∈ read.items, read.body.Fits upstream.cap item)
    (phase : SoundPhase upstream.cap (rowsOf id) read.body read.items read.phase) :
    Sound upstream rowsOf ⟨limit, Function.update s.reads id (some read)⟩ := by
  refine ⟨larger, ?_, ?_⟩
  · intro id' read' there
    change Function.update s.reads id (some read) id' = some read' at there
    rw [Function.update_apply] at there
    split at there
    · cases there
      exact fits
    · exact sound.fits id' read' there
  · intro id' read' there
    change Function.update s.reads id (some read) id' = some read' at there
    rw [Function.update_apply] at there
    split at there
    case isTrue same =>
      cases there
      exact same ▸ phase
    case isFalse => exact sound.phase id' read' there

theorem unfailed_update {limit id : Nat} {read : BatchedRead Item Row} {late : Prop}
    (before : (∀ old, s.reads id = some old → old.phase.Unfailed) ∧ ¬ late ↔ read.phase.Unfailed) :
    Unfailed ⟨limit, Function.update s.reads id (some read)⟩ ↔ s.Unfailed ∧ ¬ late := by
  constructor
  · intro unfailed
    obtain ⟨own, timely⟩ := before.mpr (unfailed id read (Function.update_self ..))
    refine ⟨?_, timely⟩
    intro id' old there
    by_cases same : id' = id
    · exact own old (same ▸ there)
    · exact unfailed id' old ((Function.update_of_ne same _ _).trans there)
  · rintro ⟨unfailed, timely⟩ id' read' there
    change Function.update s.reads id (some read) id' = some read' at there
    rw [Function.update_apply] at there
    split at there
    · cases there
      exact before.mp ⟨fun old => unfailed id old, timely⟩
    · exact unfailed id' read' there

/-- One step: everything stays sound, and a read fails exactly by coming late. -/
theorem Sound.apply (sound : s.Sound upstream rowsOf) {event : BatchEvent Item Row}
    (assumed : Assumed upstream rowsOf s event) :
    (s.apply upstream event).Sound upstream rowsOf ∧
      ((s.apply upstream event).Unfailed ↔ s.Unfailed ∧ ¬ Late upstream s event) := by
  have idle : ¬ Late upstream s event → s.Sound upstream rowsOf ∧
      (s.Unfailed ↔ s.Unfailed ∧ ¬ Late upstream s event) :=
    fun timely => ⟨sound, (and_iff_left timely).symm⟩
  cases event with
  | batchAll id body items =>
    rw [BatchingClient.apply]
    cases there : s.reads id with
    | some read => exact idle not_false
    | none =>
      have fits : ∀ item ∈ (⟨body, items, .done []⟩ : BatchedRead Item Row).items,
          body.Fits upstream.cap item := assumed
      obtain ⟨started, unfailed⟩ := run_sound (rowsOf id) fits sound.limit false nofun
      refine ⟨sound.update sound.limit fits started, unfailed_update ?_⟩
      refine iff_of_true ⟨?_, not_false⟩ unfailed
      intro old impossible
      cases there.symm.trans impossible
  | answer id chunk rows =>
    rw [BatchingClient.apply]
    cases there : s.reads id with
    | none => exact idle not_false
    | some read =>
      have complete : ∀ adapted sent, read.phase = .running adapted sent →
          ∀ one, sent[chunk]? = some one → rows.Perm (one.chunk.flatMap (rowsOf id)) := by
        intro adapted sent phase one found
        apply assumed
        rw [awaits, there, Option.map_some, phase]
        exact Option.map_eq_some_iff.mpr ⟨one, found, rfl⟩
      obtain ⟨sound', unfailed'⟩ := answer_sound (sound.phase id read there) complete
      obtain ⟨body, items⟩ := answer_same read upstream chunk rows
      have fits := sound.fits id read there
      rw [← body, ← items] at fits sound'
      refine ⟨sound.update sound.limit fits sound', unfailed_update ?_⟩
      rw [unfailed', there]
      exact ⟨fun own => own.1 read rfl, fun own => ⟨fun _ same => Option.some.inj same ▸ own, not_false⟩⟩
  | recover id =>
    rw [BatchingClient.apply]
    cases there : s.reads id with
    | none =>
      apply idle
      rintro ⟨⟨error, impossible⟩, -⟩
      rw [there] at impossible
      cases impossible
    | some read =>
      obtain ⟨sound', unfailed'⟩ :=
        recover_sound s.bodyLimit (sound.fits id read there) (sound.phase id read there)
      obtain ⟨body, items⟩ := recover_same read s.bodyLimit
      have fits := sound.fits id read there
      rw [← body, ← items] at fits sound'
      have larger : upstream.cap ≤ (read.recover s.bodyLimit).2 := by
        rcases recover_limit s.bodyLimit (sound.phase id read there) with same | lowered
        · rw [same]
          exact sound.limit
        · exact Nat.le_of_eq lowered.symm
      refine ⟨sound.update larger fits sound', unfailed_update ?_⟩
      rw [unfailed', Late, there, Option.map_some]
      simp only [Option.some.injEq, forall_eq']

/-- A run fails no read exactly when none of its steps is late. -/
theorem run_unfailed {events : List (BatchEvent Item Row)}
    (assumed : Machine.Along (apply upstream) (Assumed upstream rowsOf) s events)
    (sound : s.Sound upstream rowsOf) :
    (Machine.run (apply upstream) s events).Unfailed ↔ s.Unfailed ∧
      Machine.Along (apply upstream) (fun s event => ¬ Late upstream s event) s events := by
  induction events generalizing s with
  | nil => exact (and_iff_left trivial).symm
  | cons event events ih =>
    obtain ⟨sound', step⟩ := sound.apply assumed.1
    rw [Machine.run, Machine.Along, ih assumed.2 sound', step, and_assoc]

/-- Whatever happens, a read stays as it is or comes nearer to its end. -/
theorem apply_reads {id : Nat} {read : BatchedRead Item Row} (there : s.reads id = some read)
    (event : BatchEvent Item Row) : ∃ next, (s.apply upstream event).reads id = some next ∧
      (next = read ∨ next.phase.rank < read.phase.rank) := by
  have others (limit : Nat) {id' : Nat} (other : BatchedRead Item Row) (different : id ≠ id') :
      ∃ next, (BatchingClient.mk limit (Function.update s.reads id' (some other))).reads id =
        some next ∧ (next = read ∨ next.phase.rank < read.phase.rank) :=
    ⟨read, (Function.update_of_ne different _ _).trans there, .inl rfl⟩
  cases event with
  | batchAll id' body items =>
    rw [BatchingClient.apply]
    by_cases same : id = id'
    · rw [← same, there]
      exact ⟨read, there, .inl rfl⟩
    · cases s.reads id' with
      | some read' => exact ⟨read, there, .inl rfl⟩
      | none => exact others _ _ same
  | answer id' chunk rows =>
    rw [BatchingClient.apply]
    by_cases same : id = id'
    · rw [← same, there]
      refine ⟨_, Function.update_self .., ?_⟩
      by_cases awaited : ∃ adapted sent items, read.phase = .running adapted sent ∧
          sent[chunk]? = some ⟨items, none⟩
      · obtain ⟨adapted, sent, items, phase, waits⟩ := awaited
        exact .inr (answer_rank rows phase waits)
      · exact .inl (answer_idle fun adapted sent items phase waits =>
          awaited ⟨adapted, sent, items, phase, waits⟩)
    · cases s.reads id' with
      | none => exact ⟨read, there, .inl rfl⟩
      | some read' => exact others _ _ same
  | recover id' =>
    rw [BatchingClient.apply]
    by_cases same : id = id'
    · rw [← same, there]
      refine ⟨_, Function.update_self .., ?_⟩
      by_cases refused : ∃ error, read.phase = .refused error
      · obtain ⟨error, phase⟩ := refused
        exact .inr (recover_rank s.bodyLimit phase)
      · exact .inl (recover_idle fun error phase => refused ⟨error, phase⟩)
    · cases s.reads id' with
      | none => exact ⟨read, there, .inl rfl⟩
      | some read' => exact others _ _ same

/-- A read that has not ended has a step of its own that brings it nearer. -/
theorem Sound.moves (sound : s.Sound upstream rowsOf) {id : Nat} {read : BatchedRead Item Row}
    (there : s.reads id = some read) (pending : read.phase.Pending) :
    ∃ event, Assumed upstream rowsOf s event ∧
      ∃ next, (s.apply upstream event).reads id = some next ∧
        next.phase.rank < read.phase.rank := by
  have holds := sound.phase id read there
  cases phase : read.phase with
  | running adapted sent =>
    rw [phase] at holds
    obtain ⟨-, ⟨items, -⟩, member, rfl⟩ := holds
    obtain ⟨chunk, waits⟩ := List.mem_iff_getElem?.mp member
    refine ⟨.answer id chunk (items.flatMap (rowsOf id)), ?_, ?_⟩
    · intro asked awaited
      rw [awaits, there, Option.map_some, phase] at awaited
      simp only [waits, Option.map_some, Option.mem_some_iff] at awaited
      rw [awaited]
    · rw [BatchingClient.apply, there, ← phase]
      exact ⟨_, Function.update_self .., answer_rank _ phase waits⟩
  | refused error =>
    refine ⟨.recover id, trivial, ?_⟩
    rw [BatchingClient.apply, there, ← phase]
    exact ⟨_, Function.update_self .., recover_rank _ phase⟩
  | _ =>
    rw [phase] at pending
    exact pending.elim

/-- Under an upstream that admits less than the client is configured for, no read fails
exactly when none comes to its `catch` after the limit was lowered; what is done is
complete, and what is not done gets there. -/
theorem batches_succeed_unless_late {configured : Nat} (smaller : upstream.cap < configured)
    {events : List (BatchEvent Item Row)}
    (assumed : Machine.Along (apply upstream) (Assumed upstream rowsOf) (create configured) events) :
    ((Machine.run (apply upstream) (create configured) events).Unfailed ↔
      Machine.Along (apply upstream) (fun s event => ¬ Late upstream s event)
        (create configured) events) ∧
    ∀ id read, (Machine.run (apply upstream) (create configured) events).reads id = some read →
      (∀ rows, read.phase = .done rows → rows.Perm (read.items.flatMap (rowsOf id))) ∧
      (∀ event, ∃ next, (apply upstream
          (Machine.run (apply upstream) (create configured) events) event).reads id = some next ∧
        (next = read ∨ next.phase.rank < read.phase.rank)) ∧
      (read.phase.Pending → ∃ event,
        Assumed upstream rowsOf (Machine.run (apply upstream) (create configured) events) event ∧
        ∃ next, (apply upstream
            (Machine.run (apply upstream) (create configured) events) event).reads id = some next ∧
          next.phase.rank < read.phase.rank) := by
  have initial : (create configured : BatchingClient Item Row).Sound upstream rowsOf :=
    ⟨Nat.le_of_lt smaller, nofun, nofun⟩
  have sound := Machine.run_invariant (fun s e assumed sound => (Sound.apply sound assumed).1)
    assumed initial
  refine ⟨(run_unfailed assumed initial).trans (and_iff_right nofun), ?_⟩
  intro id read there
  refine ⟨?_, apply_reads there, sound.moves there⟩
  intro rows phase
  have complete := sound.phase id read there
  rw [phase] at complete
  exact complete

end BatchingClient

section Proxy

/-- Text without the first letter of the phrase is passed over. -/
theorem namedLimit_append {front rest : List Char} (without : 'b' ∉ front) :
    limitFrom413.namedLimit (front ++ rest) = limitFrom413.namedLimit rest := by
  induction front with
  | nil => rfl
  | cons c front ih =>
    have other : ('b' == c) = false :=
      beq_false_of_ne fun same => without (same ▸ List.mem_cons_self)
    have phrase : "body size is below ".toList = 'b' :: "ody size is below ".toList := by decide
    have here : limitFrom413.matchHere (c :: (front ++ rest)) = none := by
      rw [limitFrom413.matchHere, limitFrom413.dropPrefix, if_neg]
      · rfl
      · rw [phrase, List.isPrefixOf, other]
        exact Bool.false_ne_true
    rw [List.cons_append, limitFrom413.namedLimit, here]
    exact ih fun member => without (List.mem_cons_of_mem _ member)

theorem not_mem_digits (n : Nat) : 'b' ∉ (toString n).toList := by
  rw [Numerals.toList_toString]
  exact Numerals.not_mem_toDigits rfl n

/-- A proxy that admits bodies of 300 bytes, with the 413 of Koios. -/
def cappedProxy : CappedUpstream where
  cap := 300
  refusal length := .provider "koios returned 413 for /pool_info" (some 413)
    (some ("Payload too large, body length was " ++ toString length ++
      ". Please ensure your request body size is below 300 bytes"))
  names length := by
    have opening : "Payload too large, body length was ".toList =
        "Payload too large, ".toList ++ 'b' :: "ody length was ".toList := by decide
    -- "body length" has the letter, but not the phrase.
    have passed (rest : List Char) :
        limitFrom413.namedLimit ('b' :: ("ody length was ".toList ++ rest)) =
          limitFrom413.namedLimit ("ody length was ".toList ++ rest) := rfl
    rw [limitFrom413, String.toList_append, String.toList_append, opening, List.append_assoc,
      List.append_assoc, List.cons_append, namedLimit_append (by decide), passed,
      namedLimit_append (by decide), namedLimit_append (not_mem_digits length)]
    decide

/-- The body of a `/pool_info` request. -/
def poolInfoBody : BodyBuilder String where
  before := "\x7b\"_pool_bech32_ids\":"
  item id := "\"" ++ id ++ "\""
  after := "\x7d"

/-- Five pool ids, whose body is longer than the proxy admits. -/
def fivePools : List String :=
  ["1", "2", "3", "4", "5"].map fun last =>
    "pool1" ++ String.ofList (List.replicate 50 'q') ++ last

def ReadPhase.rows? : ReadPhase Item Row → Option (List Row)
  | .done rows => some rows
  | _ => none

end Proxy

namespace BatchingClient

instance {upstream : CappedUpstream} [DecidableEq Row] {rowsOf : Nat → Item → List Row}
    (s : BatchingClient Item Row) : DecidablePred (Assumed upstream rowsOf s)
  | .batchAll _ _ items => inferInstanceAs (Decidable (∀ item ∈ items, _ ≤ _))
  | .answer _ _ _ => inferInstanceAs (Decidable (∀ items ∈ _, _))
  | .recover _ => .isTrue trivial

instance {phase : ReadPhase Item Row} : Decidable phase.Unfailed :=
  match phase with
  | .failed _ => .isFalse not_false
  | .running .. | .refused _ | .done _ => .isTrue trivial

instance {upstream : CappedUpstream} (s : BatchingClient Item Row) :
    DecidablePred (Late upstream s)
  | .batchAll .. | .answer .. => .isFalse not_false
  | .recover id =>
      have : Decidable (∃ error, (s.reads id).map BatchedRead.phase = some (.refused error)) :=
        match (s.reads id).map BatchedRead.phase with
        | some (.refused error) => .isTrue ⟨error, rfl⟩
        | some (.running ..) | some (.done _) | some (.failed _) | none => .isFalse nofun
      inferInstanceAs (Decidable (_ ∧ _ ≤ _))

/-- A read that is refused, and then answered in three chunks. One that fits from the start is under
way before it, and another begins under the limit that it has learned. -/
def overlappingBatches : List (BatchEvent String String) :=
  [.batchAll 0 poolInfoBody (fivePools.take 2), .batchAll 1 poolInfoBody fivePools,
    .answer 1 0 fivePools, .recover 1, .batchAll 2 poolInfoBody fivePools,
    .answer 2 1 ((fivePools.drop 2).take 2), .answer 1 1 ((fivePools.drop 2).take 2),
    .answer 0 0 (fivePools.take 2), .answer 1 0 (fivePools.take 2), .answer 2 0 (fivePools.take 2),
    .answer 2 2 (fivePools.drop 4), .answer 1 2 (fivePools.drop 4)]

/-- The three come to the rows of all their items. -/
theorem overlapping_batches_succeed :
    (Machine.run (apply cappedProxy) (create KOIOS_BODY_LIMIT_BYTES) overlappingBatches).Unfailed ∧
      [0, 1, 2].map (fun id => ((Machine.run (apply cappedProxy) (create KOIOS_BODY_LIMIT_BYTES)
        overlappingBatches).reads id).bind fun read => read.phase.rows?) =
          [some (fivePools.take 2), some fivePools, some fivePools] :=
  have assumed : Machine.Along (apply cappedProxy) (Assumed cappedProxy fun _ id => [id])
      (create KOIOS_BODY_LIMIT_BYTES) overlappingBatches := by
    set_option maxRecDepth 4000 in decide
  ⟨(batches_succeed_unless_late (by decide) assumed).1.mpr (by set_option maxRecDepth 4000 in decide),
    by set_option maxRecDepth 4000 in decide⟩

/-- Two reads are refused at once: the first lowers the limit, and the second finds the
limit it was told no smaller than the one it sees. -/
theorem second_batch_fails :
    ¬ ∀ events : List (BatchEvent String String),
      Machine.Along (apply cappedProxy) (Assumed cappedProxy fun _ id => [id])
        (create KOIOS_BODY_LIMIT_BYTES) events →
      (Machine.run (apply cappedProxy) (create KOIOS_BODY_LIMIT_BYTES) events).Unfailed := by
  intro claimed
  have unfailed := claimed
    [.batchAll 0 poolInfoBody fivePools, .batchAll 1 poolInfoBody fivePools,
      .answer 0 0 fivePools, .answer 1 0 fivePools, .recover 0, .recover 1]
    (by set_option maxRecDepth 4000 in decide)
  have second : ∀ read ∈ (Machine.run (apply cappedProxy) (create KOIOS_BODY_LIMIT_BYTES)
      [.batchAll 0 poolInfoBody fivePools, .batchAll 1 poolInfoBody fivePools,
        .answer 0 0 fivePools, .answer 1 0 fivePools, .recover 0, .recover 1]).reads 1,
      read.phase.Unfailed := unfailed 1
  exact absurd second (by set_option maxRecDepth 4000 in decide)

end BatchingClient

end WalletBackend.Koios
