import WalletBackend.Http.Logging
import WalletBackend.Library.Splitting

/-! What the logged path of a request tells of an identifier. -/
namespace WalletBackend.Http

open Splitting

/-- A stake address or a hash. -/
def Identifier (text : List Char) : Prop := isStakeAddress text = true ∨ isTxHash text = true

/-- Round after round of percent-decoding. -/
def decodeRounds : Nat → List Char → Option (List Char)
  | 0, text => some text
  | rounds + 1, text => (decodeURIComponent text).bind (decodeRounds rounds)

def pathOf (url : List Char) : List Char := (url.splitOn '?').head?.getD []

def segments (path : List Char) : List (List Char) := path.splitOn '/'

section Decoding

variable {text rest : List Char}

theorem pieces_cons {c : Char} (other : c ≠ '%') :
    pieces (c :: rest) = (pieces rest).map (.char c :: ·) := by
  rw [pieces]
  · exact fun _ _ _ same => absurd same other
  · exact other

/-- A text without percent signs is its own decoding. -/
theorem decodeURIComponent_plain (plain : '%' ∉ text) : decodeURIComponent text = some text := by
  have chars : pieces text = some (text.map .char) := by
    induction text with
    | nil => rfl
    | cons c rest ih =>
      rw [List.mem_cons, not_or] at plain
      rw [pieces_cons (Ne.symm plain.1), ih plain.2]
      rfl
  have assembled : assemble (text.map .char) = some text := by
    clear plain chars
    induction text with
    | nil => rfl
    | cons c rest ih =>
      rw [List.map_cons, assemble, ih]
      rfl
  rw [decodeURIComponent, chars]
  exact assembled

/-- A percent sign that begins no escape cannot be decoded. -/
theorem decodeURIComponent_stray (stray : '%' ∈ text) (unescaped : hasEscape text = false) :
    decodeURIComponent text = none := by
  suffices unread : pieces text = none by
    rw [decodeURIComponent, unread]
    rfl
  induction text using pieces.induct with
  | case1 => cases stray
  | case2 high low rest hex ih =>
    rw [hasEscape, hex] at unescaped
    cases unescaped
  | case3 high low rest noHex => rw [pieces, if_neg noHex]
  | case4 rest short => rw [pieces]; exact short
  | case5 c rest short other ih =>
    have other : c ≠ '%' := other
    have later : '%' ∈ rest := (List.mem_cons.mp stray).resolve_left (Ne.symm other)
    have unescaped : hasEscape rest = false := by
      rw [hasEscape] at unescaped
      · exact unescaped
      · exact fun _ _ _ same => absurd same other
    rw [pieces_cons other, ih later unescaped]
    rfl

/-- Once no escape is left, decoding leaves the text as it is, or fails. -/
theorem decodeRounds_unescaped (unescaped : hasEscape text = false) {rounds : Nat}
    {decoded : List Char} (found : decodeRounds rounds text = some decoded) : decoded = text := by
  induction rounds with
  | zero => exact (Option.some.inj found).symm
  | succ rounds ih =>
    rw [decodeRounds] at found
    by_cases stray : '%' ∈ text
    · rw [decodeURIComponent_stray stray unescaped] at found
      cases found
    · rw [decodeURIComponent_plain stray] at found
      exact ih found

end Decoding

section Identifiers

variable {text : List Char}

theorem afterWord_eq_some {word rest : List Char} (after : afterWord word text = some rest) :
    ∃ front, text = front ++ rest ∧ front.map Char.toLower = word := by
  induction word generalizing text with
  | nil => exact ⟨[], (Option.some.inj after), rfl⟩
  | cons w word ih =>
    cases text with
    | nil => cases after
    | cons c text =>
      rw [afterWord] at after
      split at after
      case isTrue same =>
        obtain ⟨front, rfl, rfl⟩ := ih after
        exact ⟨c :: front, rfl, by rw [List.map_cons, same]⟩
      case isFalse => cases after

/-- No percent sign in what a word spells. -/
theorem afterWord_percent {word rest : List Char} (after : afterWord word text = some rest)
    (plain : '%' ∉ word) (plain' : '%' ∉ rest) : '%' ∉ text := by
  obtain ⟨front, rfl, rfl⟩ := afterWord_eq_some after
  rw [List.mem_append, not_or]
  refine ⟨fun member => plain ?_, plain'⟩
  exact List.mem_map.mpr ⟨'%', member, rfl⟩

theorem afterHrp_eq_some {kinds : List String} {rest : List Char}
    (after : afterHrp kinds text = some rest) : ∃ kind ∈ kinds, ∃ middle,
      afterWord kind.toList text = some middle ∧
        (afterWord ['1'] middle = some rest ∨
          ∃ marked, afterWord "_test".toList middle = some marked ∧
            afterWord ['1'] marked = some rest) := by
  obtain ⟨kind, member, found⟩ := List.exists_of_findSome?_eq_some after
  obtain ⟨middle, first, last⟩ := Option.bind_eq_some_iff.mp found
  refine ⟨kind, member, middle, first, ?_⟩
  cases test : afterWord "_test".toList middle with
  | none =>
    rw [test] at last
    exact .inl last
  | some marked =>
    rw [test] at last
    exact .inr ⟨marked, rfl, last⟩

theorem afterHrp_percent {kinds : List String} {rest : List Char}
    (after : afterHrp kinds text = some rest) (plain : ∀ kind ∈ kinds, '%' ∉ kind.toList)
    (plain' : '%' ∉ rest) : '%' ∉ text := by
  obtain ⟨kind, member, middle, first, last | ⟨marked, test, last⟩⟩ := afterHrp_eq_some after
  · exact afterWord_percent first (plain kind member) (afterWord_percent last (by decide) plain')
  · exact afterWord_percent first (plain kind member)
      (afterWord_percent test (by decide) (afterWord_percent last (by decide) plain'))

/-- No identifier holds a percent sign. -/
theorem Identifier.plain (identifier : Identifier text) : '%' ∉ text := by
  obtain stake | hash := identifier
  · rw [isStakeAddress] at stake
    cases after : afterHrp ["stake"] text with
    | none =>
      rw [after] at stake
      cases stake
    | some rest =>
      rw [after] at stake
      have plain : '%' ∉ rest := by
        intro member
        have digit := List.all_eq_true.mp (Bool.and_eq_true_iff.mp stake).2 _ member
        cases digit
      exact afterHrp_percent after (by decide) plain
  · intro member
    have digits := (Bool.and_eq_true_iff.mp hash).2
    have digit := List.all_eq_true.mp digits _ member
    cases digit

end Identifiers

section Segments

variable {segment decoded : List Char}

/-- A segment that is kept decodes to no identifier. -/
theorem scrubDecoded_kept (segment : List Char) (passes : Nat) (decoded : List Char) :
    scrubDecoded segment passes decoded = REDACTED ∨
      scrubDecoded segment passes decoded = segment ∧
        ∀ rounds text, decodeRounds (rounds + 1) decoded = some text → ¬ Identifier text := by
  induction passes generalizing decoded with
  | zero => exact .inl rfl
  | succ passes ih =>
    rw [scrubDecoded]
    cases once : decodeURIComponent decoded with
    | none => exact .inl rfl
    | some next =>
      dsimp only
      have rounds_next (rounds : Nat) :
          decodeRounds (rounds + 1) decoded = decodeRounds rounds next := by
        rw [decodeRounds, once]
        rfl
      split
      case isTrue => exact .inl rfl
      case isFalse unnamed =>
        have unnamed : ¬ Identifier next := by
          rintro (stake | hash) <;> simp_all
        split
        case isTrue unescaped =>
          refine .inr ⟨rfl, fun rounds text found => ?_⟩
          rw [rounds_next] at found
          rw [decodeRounds_unescaped (by simpa using unescaped) found]
          exact unnamed
        case isFalse =>
          refine (ih next).imp_right fun ⟨same, later⟩ => ⟨same, fun rounds text found => ?_⟩
          rw [rounds_next] at found
          cases rounds with
          | zero =>
            cases found
            exact unnamed
          | succ rounds => exact later rounds text found

theorem redacted_unnamed : ¬ Identifier REDACTED := by
  rintro (stake | hash)
  · cases stake
  · cases hash

/-- What is logged of a segment decodes to no identifier. -/
theorem scrubSegment_hides {rounds : Nat} {text : List Char}
    (found : decodeRounds rounds (scrubSegment segment) = some text) : ¬ Identifier text := by
  obtain redacted | ⟨kept, later⟩ := scrubDecoded_kept segment MAX_DECODE_PASSES segment
  · rw [scrubSegment, redacted] at found
    rw [decodeRounds_unescaped (by decide) found]
    exact redacted_unnamed
  · rw [scrubSegment, kept] at found
    cases rounds with
    | zero =>
      cases found
      intro identifier
      have once : decodeRounds 1 segment = some segment := by
        rw [decodeRounds, decodeURIComponent_plain identifier.plain]
        rfl
      exact later 0 segment once identifier
    | succ rounds => exact later rounds text found

/-- A segment is logged as it is, or not at all. -/
theorem scrubSegment_eq (segment : List Char) :
    scrubSegment segment = REDACTED ∨ scrubSegment segment = segment :=
  (scrubDecoded_kept segment MAX_DECODE_PASSES segment).imp_right And.left

/-- An identifier is not logged, in however many rounds it is encoded. -/
theorem scrubSegment_redacts {rounds : Nat} {text : List Char} (identifier : Identifier text)
    (found : decodeRounds rounds segment = some text) : scrubSegment segment = REDACTED := by
  refine (scrubSegment_eq segment).resolve_right fun kept => ?_
  rw [← kept] at found
  exact scrubSegment_hides found identifier

end Segments

section Paths

theorem pathOf_unmarked (url : List Char) : '?' ∉ pathOf url := by
  unfold pathOf
  cases parts : url.splitOn '?' with
  | nil => exact absurd parts (List.splitOn_ne_nil _ _)
  | cons path queries => exact (mem_splitOn (parts ▸ List.mem_cons_self)).1

/-- What a segment is logged as holds no separator. -/
theorem scrubSegment_separators {url segment : List Char}
    (member : segment ∈ segments (pathOf url)) :
    '/' ∉ scrubSegment segment ∧ '?' ∉ scrubSegment segment := by
  obtain ⟨without, inside⟩ := mem_splitOn member
  obtain redacted | kept := scrubSegment_eq segment
  · rw [redacted]
    decide
  · rw [kept]
    exact ⟨without, fun marked => pathOf_unmarked url (inside marked)⟩

/-- The logged path has the segments of the path, each scrubbed. -/
theorem segments_scrubPath (url : List Char) :
    segments (pathOf (scrubPath url)) = (segments (pathOf url)).map scrubSegment := by
  let scrubbed := ['/'].intercalate ((segments (pathOf url)).map scrubSegment)
  have joined : segments scrubbed = (segments (pathOf url)).map scrubSegment := by
    refine List.splitOn_intercalate '/' ?_ ?_
    · intro text member
      obtain ⟨segment, there, rfl⟩ := List.mem_map.mp member
      exact (scrubSegment_separators there).1
    · simp [segments]
  have unmarked : '?' ∉ scrubbed := by
    intro marked
    obtain slash | ⟨text, member, inside⟩ := mem_intercalate marked
    · exact absurd slash (by decide)
    · obtain ⟨segment, there, rfl⟩ := List.mem_map.mp member
      exact (scrubSegment_separators there).2 inside
  have path : pathOf (scrubPath url) = scrubbed := by
    have text : scrubPath url = scrubbed ∨ ∃ query, scrubPath url = scrubbed ++ '?' :: query := by
      unfold scrubPath
      dsimp only
      split
      · exact .inl rfl
      · exact .inr ⟨_, rfl⟩
    obtain text | ⟨query, text⟩ := text
    · rw [text, pathOf, List.splitOn_eq_singleton unmarked]
      rfl
    · rw [text, pathOf, List.splitOn_append_cons_self_of_not_mem unmarked]
      rfl
  rw [path, joined]

/-- A segment that is an identifier, in however many rounds it is encoded, is not logged; and no
segment of what is logged decodes to one. -/
theorem scrubPath_hides (url : List Char) :
    segments (pathOf (scrubPath url)) = (segments (pathOf url)).map scrubSegment ∧
      (∀ segment ∈ segments (pathOf url), ∀ rounds text, decodeRounds rounds segment = some text →
        Identifier text → scrubSegment segment = REDACTED) ∧
      ∀ segment ∈ segments (pathOf (scrubPath url)), ∀ rounds text,
        decodeRounds rounds segment = some text → ¬ Identifier text := by
  refine ⟨segments_scrubPath url, ?_, ?_⟩
  · exact fun segment _ rounds text found identifier => scrubSegment_redacts identifier found
  · intro segment member rounds text found
    rw [segments_scrubPath] at member
    obtain ⟨original, -, rfl⟩ := List.mem_map.mp member
    exact scrubSegment_hides found

/-- An identifier between characters that are no letters or digits, or at an end. -/
def DelimitedIn (identifier text : List Char) : Prop :=
  ∃ before after, text = before ++ identifier ++ after ∧
    before.getLast?.all (fun c => !c.isAlphanum) = true ∧
    after.head?.all (fun c => !c.isAlphanum) = true

/-- No path that holds a delimited identifier, encoded twice at most, is logged with it. -/
def HidesDelimited : Prop :=
  ∀ url identifier, Identifier identifier →
    (∃ rounds text, rounds ≤ 2 ∧ decodeRounds rounds (pathOf url) = some text ∧
      DelimitedIn identifier text) →
    ∀ rounds text, decodeRounds rounds (pathOf (scrubPath url)) = some text → ¬ identifier <:+: text

/-- A full stop after a hash leaves the hash in the log. -/
theorem scrubPath_reveals : ¬ HidesDelimited := by
  intro hides
  let hash := List.replicate 64 'a'
  let url := "/v1/tx/".toList ++ hash ++ "./status".toList
  have kept : pathOf (scrubPath url) = url := by decide
  refine hides url hash (.inr (by decide)) ⟨0, url, by decide, ?_, ?_⟩ 0 url ?_ ?_
  · exact congrArg some (by decide)
  · exact ⟨"/v1/tx/".toList, "./status".toList, rfl, by decide, by decide⟩
  · rw [kept]
    rfl
  · exact ⟨"/v1/tx/".toList, "./status".toList, rfl⟩

end Paths
end WalletBackend.Http
