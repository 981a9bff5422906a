import WalletBackend.Domain.ByronGrammar
import WalletBackend.Http.PathScrubbing
import WalletBackend.Library.Numerals

/-! What a logged or returned message tells of an identifier. -/
namespace WalletBackend.Http

open Numerals Rewriting

/-- What a message must not tell. -/
inductive WalletIdentifier (base58 : String → Option (List UInt8)) : List Char → Prop where
  | bech32 {hrp tail : List Char}
      (kind : String.ofList (hrp.map Char.toLower) ∈ ["stake", "stake_test", "addr", "addr_test"])
      (long : 20 ≤ tail.length) (alphanumeric : ∀ c ∈ tail, c.isAlphanum = true) :
      WalletIdentifier base58 (hrp ++ '1' :: tail)
  | hash {run : List Char} (long : run.length = 64) (hex : ∀ c ∈ run, Hex.isDigit c = true) :
      WalletIdentifier base58 run
  | byron {run : List Char}
      (accepted : Byron.isByronAddress base58 (String.ofList run) = true) :
      WalletIdentifier base58 run

/-! ### Matches in a word -/

def bech32In (word : List Char) : Option Nat :=
  (afterHrp ["stake", "addr"] word).bind fun rest =>
    let run := rest.takeWhile Char.isAlphanum
    if 20 ≤ run.length then some (word.length - rest.length + run.length) else none

def hashIn (word : List Char) : Option Nat := if isTxHash word then some word.length else none

def candidateIn (word : List Char) : Option Nat :=
  if 40 ≤ word.length ∧ word.all isBase58 = true then some word.length else none

section Characters

variable {c : Char}

theorem isWord_of_alphanum (alphanumeric : c.isAlphanum = true) : isWord c = true := by
  rw [isWord, alphanumeric]
  rfl

theorem isWord_of_digit (least : '0' ≤ c) (most : c ≤ '9') : isWord c = true := by
  have digit : c.isDigit = true :=
    Bool.and_eq_true_iff.mpr ⟨decide_eq_true least, decide_eq_true most⟩
  refine isWord_of_alphanum ?_
  change (c.isAlpha || c.isDigit) = true
  rw [digit, Bool.or_true]

theorem isWord_of_capital (least : 'A' ≤ c) (most : c ≤ 'Z') : isWord c = true := by
  have capital : c.isUpper = true := decide_eq_true ⟨least, most⟩
  refine isWord_of_alphanum ?_
  change (c.isUpper || c.isLower || c.isDigit) = true
  rw [capital]
  rfl

theorem isWord_of_small (least : 'a' ≤ c) (most : c ≤ 'z') : isWord c = true := by
  have small : c.isLower = true :=
    Bool.and_eq_true_iff.mpr ⟨decide_eq_true least, decide_eq_true most⟩
  refine isWord_of_alphanum ?_
  change (c.isUpper || c.isLower || c.isDigit) = true
  rw [small, Bool.or_true]
  rfl

theorem isWord_of_toLower (lowered : isWord c.toLower = true) : isWord c = true := by
  by_cases range : 'A' ≤ c ∧ c ≤ 'Z'
  · exact isWord_of_capital range.1 range.2
  · have same : c.toLower = c := dif_neg range
    rwa [same] at lowered

theorem isWord_of_isDigit (hex : Hex.isDigit c = true) : isWord c = true := by
  simp only [Hex.isDigit, Bool.or_eq_true, Bool.and_eq_true, decide_eq_true_eq] at hex
  obtain (digit | ⟨least, most⟩) | ⟨least, most⟩ := hex
  · obtain ⟨least, most⟩ := Bool.and_eq_true_iff.mp digit
    exact isWord_of_digit (of_decide_eq_true least) (of_decide_eq_true most)
  · exact isWord_of_small least (UInt32.le_trans most (by decide))
  · exact isWord_of_capital least (UInt32.le_trans most (by decide))

theorem isWord_of_isBase58 (legal : isBase58 c = true) : isWord c = true := by
  simp only [isBase58, Bool.or_eq_true, Bool.and_eq_true, decide_eq_true_eq] at legal
  obtain ((((⟨least, most⟩ | ⟨least, most⟩) | ⟨least, most⟩) | ⟨least, most⟩) | ⟨least, most⟩) |
    ⟨least, most⟩ := legal
  · exact isWord_of_digit (UInt32.le_trans (by decide) least) most
  · exact isWord_of_capital least (UInt32.le_trans most (by decide))
  · exact isWord_of_capital (UInt32.le_trans (by decide) least) (UInt32.le_trans most (by decide))
  · exact isWord_of_capital (UInt32.le_trans (by decide) least) most
  · exact isWord_of_small least (UInt32.le_trans most (by decide))
  · exact isWord_of_small (UInt32.le_trans (by decide) least) most

end Characters

section Locality

variable {text after : List Char}

theorem afterWord_append {word : List Char} (proper : Word isWord word)
    (apart : Apart isWord after.head?) (text : List Char) :
    afterWord word (text ++ after) = (afterWord word text).map (· ++ after) := by
  induction word generalizing text with
  | nil => rfl
  | cons w word ih =>
    obtain ⟨here, later⟩ := List.forall_mem_cons.mp proper
    cases text with
    | cons c text =>
      rw [List.cons_append, afterWord, afterWord, ih later]
      split
      · rfl
      · rfl
    | nil =>
      rw [List.nil_append]
      cases after with
      | nil => rfl
      | cons c after =>
        have other : c.toLower ≠ w := by
          rintro rfl
          rw [List.head?_cons, Apart, Option.any_some, isWord_of_toLower here] at apart
          cases apart
        rw [afterWord, if_neg other]
        rfl

theorem afterHrp_append {kinds : List String} (proper : ∀ kind ∈ kinds, Word isWord kind.toList)
    (apart : Apart isWord after.head?) (text : List Char) :
    afterHrp kinds (text ++ after) = (afterHrp kinds text).map (· ++ after) := by
  have test : Word isWord "_test".toList := word_of_all (by decide)
  have one : Word isWord ['1'] := word_of_all (by decide)
  unfold afterHrp
  induction kinds with
  | nil => rfl
  | cons kind kinds ih =>
    obtain ⟨here, later⟩ := List.forall_mem_cons.mp proper
    rw [List.findSome?_cons, List.findSome?_cons, ih later, afterWord_append here apart]
    cases afterWord kind.toList text with
    | none => rfl
    | some rest =>
      have marked : (afterWord "_test".toList (rest ++ after)).getD (rest ++ after) =
          (afterWord "_test".toList rest).getD rest ++ after := by
        rw [afterWord_append test apart]
        cases afterWord "_test".toList rest <;> rfl
      simp only [Option.map_some, Option.bind_eq_bind, Option.bind_some]
      rw [marked, afterWord_append one apart]
      cases afterWord ['1'] ((afterWord "_test".toList rest).getD rest) <;> rfl

theorem takeWhile_append_apart {p : Char → Bool} (implies : ∀ c, p c = true → isWord c = true)
    (apart : Apart isWord after.head?) (text : List Char) :
    (text ++ after).takeWhile p = text.takeWhile p := by
  have stops : after.takeWhile p = [] := by
    cases after with
    | nil => rfl
    | cons c after =>
      refine List.takeWhile_cons_of_neg fun holds => ?_
      rw [List.head?_cons, Apart, Option.any_some, implies c holds] at apart
      cases apart
  rw [List.takeWhile_append, stops, List.append_nil]
  split
  case isTrue all => exact (List.takeWhile_prefix p).eq_of_length all |>.symm
  case isFalse => rfl

end Locality

/-! ### The patterns match words -/

section Patterns

variable {before : Option Char} {word text rest after : List Char}

theorem isBoundary_start (starts : Apart isWord before) (nonempty : word ≠ [])
    (proper : Word isWord word) : isBoundary before (word ++ after).head? = true := by
  cases word with
  | nil => exact absurd rfl nonempty
  | cons c word =>
    rw [isBoundary, starts, List.cons_append, List.head?_cons, Option.any_some,
      proper c List.mem_cons_self]
    rfl

theorem isBoundary_end {last : Option Char} (within : last.any isWord = true)
    (ends : Apart isWord after.head?) : isBoundary last after.head? = true := by
  rw [isBoundary, within, ends]
  rfl

theorem isBoundary_inside {last next : Option Char} (within : last.any isWord = true)
    (within' : next.any isWord = true) : isBoundary last next = false := by
  rw [isBoundary, within, within']
  rfl

theorem within_word (proper : Word isWord word) {i : Nat} (inside : i < word.length) :
    word[i]?.any isWord = true := by
  rw [List.getElem?_eq_getElem inside]
  exact proper _ (List.getElem_mem _)

theorem within_last (proper : Word isWord word) (nonempty : word ≠ []) :
    word.getLast?.any isWord = true := by
  rw [List.getLast?_eq_getElem?]
  exact within_word proper (Nat.sub_lt (List.length_pos_of_ne_nil nonempty) Nat.one_pos)

/-- A pattern that matches from the start of a word, and only there. -/
theorem matchesWords_of {matchAt : Option Char → List Char → Option Nat}
    {found : List Char → Option Nat}
    (bounded : ∀ before text, isBoundary before text.head? = false → matchAt before text = none)
    (outside : ∀ before text, Apart isWord text.head? → matchAt before text = none)
    (here : ∀ before word after, Apart isWord before → word ≠ [] → Word isWord word →
      Apart isWord after.head? → matchAt before (word ++ after) = found word)
    (length : ∀ word n, found word = some n → 0 < n ∧ n ≤ word.length) :
    MatchesWords isWord matchAt found where
  inside before text within := by
    cases ahead : text.head?.any isWord with
    | false => exact outside before text ahead
    | true => exact bounded before text (isBoundary_inside within ahead)
  outside before c rest apart := outside before (c :: rest) apart
  here := here
  bounded := length

theorem words_of_all {kinds : List String} (all : kinds.all (·.toList.all isWord) = true) :
    ∀ kind ∈ kinds, Word isWord kind.toList :=
  fun kind member => word_of_all (List.all_eq_true.mp all kind member)

theorem kinds_proper : ∀ kind ∈ ["stake", "addr"], Word isWord kind.toList :=
  words_of_all (by decide)

theorem afterHrp_suffix {kinds : List String} (found : afterHrp kinds text = some rest) :
    ∃ hrp, text = hrp ++ rest := by
  obtain ⟨kind, -, middle, first, last | ⟨marked, test, last⟩⟩ := afterHrp_eq_some found
  · obtain ⟨front, rfl, -⟩ := afterWord_eq_some first
    obtain ⟨one, rfl, -⟩ := afterWord_eq_some last
    exact ⟨front ++ one, (List.append_assoc _ _ _).symm⟩
  · obtain ⟨front, rfl, -⟩ := afterWord_eq_some first
    obtain ⟨mark, rfl, -⟩ := afterWord_eq_some test
    obtain ⟨one, rfl, -⟩ := afterWord_eq_some last
    exact ⟨front ++ (mark ++ one), by rw [List.append_assoc, List.append_assoc]⟩

/-- A match is the human-readable part and the letters and digits behind it. -/
theorem bech32In_eq_some {n : Nat} (found : bech32In word = some n) :
    ∃ hrp rest, word = hrp ++ rest ∧ afterHrp ["stake", "addr"] word = some rest ∧
      20 ≤ (rest.takeWhile Char.isAlphanum).length ∧
      n = hrp.length + (rest.takeWhile Char.isAlphanum).length := by
  obtain ⟨rest, after, long⟩ := Option.bind_eq_some_iff.mp found
  obtain ⟨hrp, rfl⟩ := afterHrp_suffix after
  dsimp only at long
  split at long
  case isTrue enough =>
    refine ⟨hrp, rest, rfl, after, enough, ?_⟩
    rw [← Option.some.inj long, List.length_append, Nat.add_sub_cancel]
  case isFalse => cases long

theorem WALLET_BECH32_words : MatchesWords isWord WALLET_BECH32 bech32In := by
  refine matchesWords_of ?_ ?_ ?_ ?_
  · intro before text inside
    rw [WALLET_BECH32, inside]
    rfl
  · intro before text apart
    have none' : afterHrp ["stake", "addr"] ([] ++ text) = none := by
      rw [afterHrp_append kinds_proper apart]
      rfl
    rw [List.nil_append] at none'
    rw [WALLET_BECH32, none', Option.bind_none, ite_self]
  · intro before word after starts nonempty proper ends
    rw [WALLET_BECH32, if_pos (isBoundary_start starts nonempty proper),
      afterHrp_append kinds_proper ends, bech32In]
    cases found : afterHrp ["stake", "addr"] word with
    | none => rfl
    | some rest =>
      obtain ⟨hrp, rfl⟩ := afterHrp_suffix found
      rw [Option.map_some, Option.bind_some, Option.bind_some,
        takeWhile_append_apart (fun _ => isWord_of_alphanum) ends]
      simp only [List.length_append, Nat.add_sub_cancel_right, Nat.add_assoc]
  · intro word n found
    obtain ⟨hrp, rest, rfl, -, enough, rfl⟩ := bech32In_eq_some found
    have within := (List.takeWhile_prefix Char.isAlphanum (l := rest)).length_le
    rw [List.length_append]
    omega

theorem isTxHash_iff :
    isTxHash text = true ↔ text.length = 64 ∧ ∀ c ∈ text, Hex.isDigit c = true := by
  rw [isTxHash, Bool.and_eq_true, beq_iff_eq, List.all_eq_true]

theorem hashIn_eq_some {n : Nat} (found : hashIn word = some n) :
    n = word.length ∧ isTxHash word = true := by
  unfold hashIn at found
  split at found
  case isTrue hash => exact ⟨(Option.some.inj found).symm, hash⟩
  case isFalse => cases found

theorem HASH_HEX_words : MatchesWords isWord HASH_HEX hashIn := by
  have unmatched {before : Option Char} {text : List Char}
      (refused : (isBoundary before text.head? && isTxHash (text.take 64) &&
        isBoundary text[63]? text[64]?) = false) : HASH_HEX before text = none := by
    rw [HASH_HEX, refused]
    rfl
  refine matchesWords_of ?_ ?_ ?_ ?_
  · intro before text inside
    exact unmatched (by rw [inside]; rfl)
  · intro before text apart
    refine unmatched ?_
    have noHash : isTxHash (text.take 64) = false := by
      refine Bool.eq_false_iff.mpr fun hash => ?_
      obtain ⟨long, hex⟩ := isTxHash_iff.mp hash
      cases text with
      | nil => cases long
      | cons c text =>
        rw [List.head?_cons, Apart, Option.any_some,
          isWord_of_isDigit (hex c (by simp))] at apart
        cases apart
    rw [noHash, Bool.and_false, Bool.false_and]
  · intro before word after starts nonempty proper ends
    unfold hashIn
    split
    case isTrue hash =>
      obtain ⟨long, hex⟩ := isTxHash_iff.mp hash
      have whole : (word ++ after).take 64 = word := List.take_left' long
      have last : (word ++ after)[63]? = word.getLast? := by
        rw [List.getElem?_append_left (by omega), List.getLast?_eq_getElem?, long]
      have next : (word ++ after)[64]? = after.head? := by
        rw [List.getElem?_append_right (by omega), long, List.head?_eq_getElem?]
      rw [HASH_HEX, isBoundary_start starts nonempty proper, whole, hash, last, next,
        isBoundary_end (within_last proper nonempty) ends, long]
      rfl
    case isFalse noHash =>
      refine unmatched (Bool.eq_false_iff.mpr fun matched => noHash ?_)
      rw [Bool.and_eq_true, Bool.and_eq_true] at matched
      obtain ⟨⟨-, hash⟩, bounded⟩ := matched
      obtain ⟨long, hex⟩ := isTxHash_iff.mp hash
      obtain short | same | longer := Nat.lt_trichotomy word.length 64
      · -- The digits would go on past the word.
        cases after with
        | nil =>
          rw [List.append_nil] at long
          exact absurd ((List.length_take_le' 64 word).trans_lt short) (by omega)
        | cons c after =>
          have member : c ∈ (word ++ c :: after).take 64 := by
            rw [List.take_append, List.take_of_length_le (Nat.le_of_lt short)]
            obtain ⟨more, left⟩ := Nat.exists_eq_add_of_lt short
            rw [left, show word.length + more + 1 - word.length = more + 1 by omega,
              List.take_succ_cons]
            exact List.mem_append_right _ List.mem_cons_self
          rw [List.head?_cons, Apart, Option.any_some, isWord_of_isDigit (hex c member)] at ends
          cases ends
      · rwa [List.take_left' same] at hash
      · -- The word goes on past the digits.
        rw [List.getElem?_append_left (by omega), List.getElem?_append_left longer,
          isBoundary_inside (within_word proper (by omega)) (within_word proper longer)] at bounded
        cases bounded
  · intro word n found
    obtain ⟨rfl, hash⟩ := hashIn_eq_some found
    have long := (isTxHash_iff.mp hash).1
    omega

theorem candidateIn_eq_some {n : Nat} (found : candidateIn word = some n) :
    n = word.length ∧ 40 ≤ word.length ∧ ∀ c ∈ word, isBase58 c = true := by
  unfold candidateIn at found
  split at found
  case isTrue legal =>
    exact ⟨(Option.some.inj found).symm, legal.1, List.all_eq_true.mp legal.2⟩
  case isFalse => cases found

theorem BYRON_CANDIDATE_words : MatchesWords isWord BYRON_CANDIDATE candidateIn := by
  have implies : ∀ c, isBase58 c = true → isWord c = true := fun _ => isWord_of_isBase58
  refine matchesWords_of ?_ ?_ ?_ ?_
  · intro before text inside
    unfold BYRON_CANDIDATE
    dsimp only
    rw [inside]
    rfl
  · intro before text apart
    have none' : text.takeWhile isBase58 = [] := takeWhile_append_apart implies apart []
    unfold BYRON_CANDIDATE
    dsimp only
    rw [none', decide_eq_false (by decide), Bool.and_false, Bool.false_and]
    rfl
  · intro before word after starts nonempty proper ends
    unfold BYRON_CANDIDATE candidateIn
    dsimp only
    rw [takeWhile_append_apart implies ends, isBoundary_start starts nonempty proper]
    cases legal : word.all isBase58 with
    | true =>
      have whole : word.takeWhile isBase58 = word :=
        List.takeWhile_eq_self_iff.mpr (List.all_eq_true.mp legal)
      have next : (word ++ after)[word.length]? = after.head? := by
        rw [List.getElem?_append_right (Nat.le_refl _), Nat.sub_self, List.head?_eq_getElem?]
      rw [whole, next, isBoundary_end (within_last proper nonempty) ends]
      simp
    | false =>
      -- The longest run ends within the word.
      have shorter : (word.takeWhile isBase58).length < word.length := by
        have front := List.takeWhile_prefix isBase58 (l := word)
        refine Nat.lt_of_le_of_ne front.length_le fun same => ?_
        have whole := List.takeWhile_eq_self_iff.mp (front.eq_of_length same)
        rw [← List.all_eq_true, legal] at whole
        cases whole
      have next : (word ++ after)[(word.takeWhile isBase58).length]?.any isWord = true := by
        rw [List.getElem?_append_left shorter]
        exact within_word proper shorter
      cases long : decide (40 ≤ (word.takeWhile isBase58).length) with
      | false => simp
      | true =>
        have started : word.takeWhile isBase58 ≠ [] := by
          intro empty
          rw [empty] at long
          cases long
        have properRun : Word isWord (word.takeWhile isBase58) := fun c member =>
          proper c ((List.takeWhile_prefix isBase58).subset member)
        rw [isBoundary_inside (within_last properRun started) next]
        simp
  · intro word n found
    obtain ⟨rfl, long, -⟩ := candidateIn_eq_some found
    omega

end Patterns

/-! ### Word by word -/

section Words

variable {base58 : String → Option (List UInt8)} {word rest : List Char}

/-- A word in which nothing is replaced. -/
structure Calm (base58 : String → Option (List UInt8)) (word : List Char) : Prop where
  bech32 : bech32In word = none
  hash : hashIn word = none
  byron : candidateIn word = none ∨ Byron.isByronAddress base58 (String.ofList word) = false

theorem calm_nil : Calm base58 [] := ⟨rfl, rfl, .inl rfl⟩

theorem calm_underscore (rest : List Char) : Calm base58 ('_' :: rest) where
  bech32 := rfl
  hash := by
    rw [hashIn, isTxHash, List.all_cons, show Hex.isDigit '_' = false by rfl, Bool.false_and,
      Bool.and_false]
    rfl
  byron := by
    left
    rw [candidateIn, List.all_cons, show isBase58 '_' = false by rfl, Bool.false_and]
    exact if_neg fun legal => Bool.false_ne_true legal.2

/-- The word that the replacement holds. -/
theorem calm_redacted : Calm base58 "redacted".toList := ⟨rfl, rfl, .inl rfl⟩

/-- What is left of a word behind an address of bech32 begins with an underscore. -/
theorem calm_left (proper : Word isWord rest) (p : rest.head?.all (!·.isAlphanum) = true) :
    Calm base58 rest := by
  cases rest with
  | nil => exact calm_nil
  | cons c rest =>
    have word := proper c List.mem_cons_self
    rw [List.head?_cons, Option.all_some, Bool.not_eq_true'] at p
    rw [isWord, p, Bool.false_or, beq_iff_eq] at word
    rw [word]
    exact calm_underscore rest

def replaceBech32 : List Char → List Char := replaceWord bech32In fun _ => REDACTED

def replaceHash : List Char → List Char := replaceWord hashIn fun _ => REDACTED

def replaceByron (base58 : String → Option (List UInt8)) : List Char → List Char :=
  replaceWord candidateIn fun candidate =>
    if Byron.isByronAddress base58 (String.ofList candidate) then REDACTED else candidate

theorem Calm.replaceBech32 (calm : Calm base58 word) : replaceBech32 word = word := by
  unfold Http.replaceBech32 replaceWord
  rw [calm.bech32]

theorem Calm.replaceHash (calm : Calm base58 word) : replaceHash word = word := by
  unfold Http.replaceHash replaceWord
  rw [calm.hash]

theorem Calm.replaceByron (calm : Calm base58 word) : replaceByron base58 word = word := by
  unfold Http.replaceByron replaceWord
  cases found : candidateIn word with
  | none => rfl
  | some n =>
    obtain ⟨rfl, -⟩ := candidateIn_eq_some found
    have refused : Byron.isByronAddress base58 (String.ofList word) = false := by
      refine calm.byron.resolve_left fun none' => ?_
      rw [found] at none'
      cases none'
    dsimp only
    rw [List.take_length, refused, List.drop_length, List.append_nil]
    rfl

/-- A change that leaves calm words alone keeps what was replaced. -/
theorem mapWords_redacted {f : List Char → List Char}
    (keeps : ∀ word, Word isWord word → Calm base58 word → f word = word)
    (proper : Word isWord rest) (calm : Calm base58 rest) :
    mapWords isWord f (REDACTED ++ rest) = REDACTED ++ rest := by
  have spelled : REDACTED ++ rest = [] ++ '[' :: ("redacted".toList ++ ']' :: rest) := rfl
  have empty : Word isWord [] := fun _ member => absurd member List.not_mem_nil
  have redacted : Word isWord "redacted".toList := word_of_all (by decide)
  rw [spelled, mapWords_step empty (by decide), mapWords_step redacted (by decide),
    mapWords_word proper, keeps _ empty calm_nil, keeps _ redacted calm_redacted,
    keeps _ proper calm]

def scrubWord (base58 : String → Option (List UInt8)) (word : List Char) : List Char :=
  mapWords isWord (replaceByron base58) (mapWords isWord replaceHash (replaceBech32 word))

/-- The three passes together change a message word by word. -/
theorem scrubMessage_eq (base58 : String → Option (List UInt8)) (message : List Char) :
    scrubMessage base58 message = mapWords isWord (scrubWord base58) message := by
  have starts : Apart isWord (none : Option Char) := rfl
  unfold scrubMessage replaceAll
  dsimp only
  rw [replaceFrom_eq WALLET_BECH32_words starts, replaceFrom_eq HASH_HEX_words starts,
    replaceFrom_eq BYRON_CANDIDATE_words starts]
  calc
    mapWords isWord (replaceByron base58)
        (mapWords isWord replaceHash (mapWords isWord replaceBech32 message)) =
      mapWords isWord (replaceByron base58)
        (mapWords isWord (fun word => mapWords isWord replaceHash (replaceBech32 word)) message) :=
      congrArg _ (mapWords_mapWords message)
    _ = mapWords isWord (scrubWord base58) message := mapWords_mapWords message

/-- What a pattern finds at the start of a word. -/
def FoundIn (base58 : String → Option (List UInt8)) (word run : List Char) : Prop :=
  bech32In word = some run.length ∨ hashIn word = some run.length ∨
    candidateIn word = some run.length ∧ Byron.isByronAddress base58 (String.ofList run) = true

/-- A word is calm and stays, or a run at its start is replaced and the rest is calm. -/
theorem scrubWord_cases (base58 : String → Option (List UInt8)) (proper : Word isWord word) :
    Calm base58 word ∧ scrubWord base58 word = word ∨
      ∃ run rest, word = run ++ rest ∧ run ≠ [] ∧ FoundIn base58 word run ∧ Calm base58 rest ∧
        scrubWord base58 word = REDACTED ++ rest := by
  cases bech32 : bech32In word with
  | some n =>
    obtain ⟨hrp, rest, split, -, enough, rfl⟩ := bech32In_eq_some bech32
    let run := rest.takeWhile Char.isAlphanum
    let left := rest.dropWhile Char.isAlphanum
    have split : word = (hrp ++ run) ++ left := by
      rw [split, List.append_assoc, List.takeWhile_append_dropWhile]
    have properLeft : Word isWord left := fun c member =>
      proper c (split ▸ List.mem_append_right _ member)
    have calm : Calm base58 left := by
      refine calm_left properLeft ?_
      have stops := List.head?_dropWhile_not Char.isAlphanum rest
      cases head : (rest.dropWhile Char.isAlphanum).head? with
      | none => rfl
      | some c =>
        rw [head] at stops
        exact congrArg Bool.not stops
    have replaced : replaceBech32 word = REDACTED ++ left := by
      have dropped : word.drop (hrp.length + run.length) = left := by
        rw [split, ← List.length_append, List.drop_left]
      rw [replaceBech32, replaceWord, bech32]
      exact congrArg (REDACTED ++ ·) dropped
    refine .inr ⟨hrp ++ run, left, split, ?_, .inl ?_, calm, ?_⟩
    · intro empty
      have none' : rest.takeWhile Char.isAlphanum = [] := (List.append_eq_nil_iff.mp empty).2
      rw [none'] at enough
      cases enough
    · rw [bech32, List.length_append]
    · rw [scrubWord, replaced, mapWords_redacted (fun _ _ => Calm.replaceHash) properLeft calm,
        mapWords_redacted (fun _ _ => Calm.replaceByron) properLeft calm]
  | none =>
    have empty : Word isWord [] := fun _ member => absurd member List.not_mem_nil
    have kept : replaceBech32 word = word := by rw [replaceBech32, replaceWord, bech32]
    cases hash : hashIn word with
    | some n =>
      obtain ⟨rfl, isHash⟩ := hashIn_eq_some hash
      have replaced : replaceHash word = REDACTED ++ [] := by
        rw [replaceHash, replaceWord, hash]
        dsimp only
        rw [List.drop_length]
      refine .inr ⟨word, [], (List.append_nil _).symm, ?_, .inr (.inl hash), calm_nil, ?_⟩
      · rintro rfl
        cases isHash
      · rw [scrubWord, kept, mapWords_word proper, replaced,
          mapWords_redacted (fun _ _ => Calm.replaceByron) empty calm_nil]
    | none =>
      have kept' : replaceHash word = word := by rw [replaceHash, replaceWord, hash]
      have last : scrubWord base58 word = replaceByron base58 word := by
        rw [scrubWord, kept, mapWords_word proper, kept', mapWords_word proper]
      cases candidate : candidateIn word with
      | none =>
        have calm : Calm base58 word := ⟨bech32, hash, .inl candidate⟩
        exact .inl ⟨calm, last.trans calm.replaceByron⟩
      | some n =>
        obtain ⟨rfl, long, -⟩ := candidateIn_eq_some candidate
        cases accepted : Byron.isByronAddress base58 (String.ofList word) with
        | false =>
          have calm : Calm base58 word := ⟨bech32, hash, .inr accepted⟩
          exact .inl ⟨calm, last.trans calm.replaceByron⟩
        | true =>
          refine .inr ⟨word, [], (List.append_nil _).symm, ?_, .inr (.inr ⟨candidate, accepted⟩),
            calm_nil, ?_⟩
          · rintro rfl
            cases long
          · rw [last, replaceByron, replaceWord, candidate]
            dsimp only
            rw [List.take_length, accepted, List.drop_length]
            rfl

end Words

/-! ### Byron addresses are long -/

def BASE58_ALPHABET : List Char :=
  "123456789ABCDEFGHJKLMNPQRSTUVWXYZabcdefghijkmnopqrstuvwxyz".toList

def base58Number (text : List Char) : Nat := numeral 58 (text.map BASE58_ALPHABET.idxOf)

/-- The decoder refuses what is not spelled in the alphabet, and gives the bytes of the number. -/
structure Base58Documented (base58 : String → Option (List UInt8)) : Prop where
  alphabet : ∀ value raw, base58 value = some raw → ∀ c ∈ value.toList, c ∈ BASE58_ALPHABET
  number : ∀ value raw, base58 value = some raw →
    numeral 256 (raw.map UInt8.toNat) = base58Number value.toList

section Byron

variable {base58 : String → Option (List UInt8)} {text : List Char} {raw : List UInt8}

theorem isBase58_of_mem : ∀ c ∈ BASE58_ALPHABET, isBase58 c = true :=
  List.all_eq_true.mp (by decide)

theorem base58Number_lt (legal : ∀ c ∈ text, c ∈ BASE58_ALPHABET) :
    base58Number text < 58 ^ text.length := by
  have digits : ∀ digit ∈ text.map BASE58_ALPHABET.idxOf, digit < 58 := by
    intro digit member
    obtain ⟨c, inside, rfl⟩ := List.mem_map.mp member
    exact List.idxOf_lt_length_iff.mpr (legal c inside)
  have bound := numeral_lt (by decide) digits
  rwa [List.length_map] at bound

theorem leading_of_header {major value : Nat} {head : List UInt8}
    (header : Cbor.Header major value head) (marked : 0 < major) :
    ∃ first rest, head = first :: rest ∧ first ≠ 0 := by
  have nonzero {b : UInt8} (marked : 0 < b.toNat / 32) : b ≠ 0 := by
    rintro rfl
    cases marked
  cases header with
  | inline b => exact ⟨b, _, rfl, nonzero marked⟩
  | one b => exact ⟨b, _, rfl, nonzero marked⟩
  | two b => exact ⟨b, _, rfl, nonzero marked⟩
  | four b => exact ⟨b, _, rfl, nonzero marked⟩

/-- An address begins with no zero and holds the 28 bytes of its root. -/
theorem long_of_address (address : Byron.Address raw) :
    ∃ first rest, raw = first :: rest ∧ first ≠ 0 ∧ 29 ≤ rest.length := by
  cases address with
  | mk isOuter isTag isString isBody isChecksum =>
    obtain ⟨first, others, rfl, leads⟩ := leading_of_header isOuter (by decide)
    refine ⟨first, _, rfl, leads, ?_⟩
    have body := isBody.long
    have tag := isTag.length_pos
    simp only [List.append_eq, List.length_append]
    omega

/-- What is accepted is spelled in the alphabet, with as many characters as a candidate has. -/
theorem candidate_of_accepted (documented : Base58Documented base58)
    (accepted : Byron.isByronAddress base58 (String.ofList text) = true) :
    40 ≤ text.length ∧ ∀ c ∈ text, isBase58 c = true := by
  obtain ⟨raw, decoded, address⟩ := Byron.address_of_accepted accepted
  have legal := documented.alphabet _ raw decoded
  have same := documented.number _ raw decoded
  rw [String.toList_ofList] at legal same
  refine ⟨?_, fun c member => isBase58_of_mem c (legal c member)⟩
  obtain ⟨first, rest, rfl, leads, long⟩ := long_of_address address
  by_contra short
  have digits : 58 ^ text.length ≤ 58 ^ 39 := Nat.pow_le_pow_right (by decide) (by omega)
  have bytes : 256 ^ 29 ≤ 256 ^ rest.length := Nat.pow_le_pow_right (by decide) long
  have less : 58 ^ 39 < 256 ^ 29 := by norm_num
  have upper := base58Number_lt legal
  have leads : first.toNat ≠ 0 := fun zero => leads (UInt8.toNat_inj.mp zero)
  have lower := le_numeral 256 leads (rest.map UInt8.toNat)
  rw [List.length_map, ← List.map_cons, same] at lower
  omega

/-- Positional decoding: a zero for each leading `1`, and the bytes of the number. -/
def decodeBase58 (value : String) : Option (List UInt8) :=
  if value.toList.all BASE58_ALPHABET.contains then
    some (List.replicate (value.toList.takeWhile (· == '1')).length 0 ++
      (Nat.digits 256 (base58Number value.toList)).reverse.map UInt8.ofNat)
  else none

theorem decodeBase58_documented : Base58Documented decodeBase58 where
  alphabet value raw decoded c member := by
    unfold decodeBase58 at decoded
    split at decoded
    case isTrue legal => exact List.contains_iff_mem.mp (List.all_eq_true.mp legal c member)
    case isFalse => cases decoded
  number value raw decoded := by
    unfold decodeBase58 at decoded
    split at decoded
    case isTrue legal =>
      obtain rfl := Option.some.inj decoded
      have bytes (n : Nat) :
          (Nat.digits 256 n).map (UInt8.toNat ∘ UInt8.ofNat) = Nat.digits 256 n := by
        refine (List.map_congr_left fun digit member => ?_).trans (List.map_id _)
        exact UInt8.toNat_ofNat_of_lt (Nat.digits_lt_base (by decide) member)
      rw [numeral, List.map_append, List.map_replicate, List.map_map, List.reverse_append,
        List.reverse_replicate, Nat.ofDigits_append, List.map_reverse, List.reverse_reverse, bytes,
        Nat.ofDigits_digits, UInt8.toNat_zero, Nat.ofDigits_replicate_zero, Nat.mul_zero,
        Nat.add_zero]
    case isFalse => cases decoded

end Byron

/-! ### What is left of a message -/

section Identifiers

variable {base58 : String → Option (List UInt8)} {run word tail : List Char}

theorem afterWord_front (front word rest : List Char) :
    afterWord (front.map Char.toLower ++ word) (front ++ rest) = afterWord word rest := by
  induction front with
  | nil => rfl
  | cons c front ih =>
    rw [List.map_cons, List.cons_append, List.cons_append, afterWord, if_pos rfl, ih]

/-- What is behind the human-readable part, however it is cased. -/
theorem afterHrp_of_kind {front mark : List Char} {kind : String} (known : kind ∈ ["stake", "addr"])
    (spelled : front.map Char.toLower = kind.toList)
    (marked : mark = [] ∨ mark.map Char.toLower = "_test".toList) (tail : List Char) :
    afterHrp ["stake", "addr"] (front ++ (mark ++ '1' :: tail)) = some tail := by
  have whole : afterWord kind.toList (front ++ (mark ++ '1' :: tail)) =
      some (mark ++ '1' :: tail) := by
    have common := afterWord_front front [] (mark ++ '1' :: tail)
    rwa [List.append_nil, spelled] at common
  have behind : (afterWord "_test".toList (mark ++ '1' :: tail)).getD (mark ++ '1' :: tail) =
      '1' :: tail := by
    obtain rfl | marked := marked
    · rfl
    · have common := afterWord_front mark [] ('1' :: tail)
      rw [List.append_nil, marked] at common
      rw [common]
      rfl
  have one : afterWord ['1'] ('1' :: tail) = some tail := rfl
  unfold afterHrp
  simp only [List.mem_cons, List.not_mem_nil, or_false] at known
  obtain rfl | rfl := known
  · rw [List.findSome?_cons, whole]
    simp only [Option.bind_eq_bind, Option.bind_some]
    rw [behind, one]
  · have other : afterWord "stake".toList (front ++ (mark ++ '1' :: tail)) = none := by
      cases front with
      | nil => cases spelled
      | cons c front =>
        have first : c.toLower = 'a' := (List.cons.inj spelled).1
        exact if_neg (by rw [first]; decide)
    rw [List.findSome?_cons, other, List.findSome?_cons, whole]
    simp only [Option.bind_eq_bind, Option.bind_some, Option.bind_none]
    rw [behind, one]

theorem afterHrp_of_hrp {hrp : List Char} (tail : List Char)
    (kind : String.ofList (hrp.map Char.toLower) ∈ ["stake", "stake_test", "addr", "addr_test"]) :
    afterHrp ["stake", "addr"] (hrp ++ '1' :: tail) = some tail := by
  have unmarked {name : String} (known : name ∈ ["stake", "addr"])
      (spelled : String.ofList (hrp.map Char.toLower) = name) :
      afterHrp ["stake", "addr"] (hrp ++ '1' :: tail) = some tail :=
    afterHrp_of_kind known (by rw [← spelled, String.toList_ofList]) (.inl rfl) tail
  have marked (name : String) (known : name ∈ ["stake", "addr"])
      (spelled : String.ofList (hrp.map Char.toLower) = name ++ "_test") :
      afterHrp ["stake", "addr"] (hrp ++ '1' :: tail) = some tail := by
    have lowered := congrArg String.toList spelled
    rw [String.toList_ofList, String.toList_append] at lowered
    obtain ⟨front, mark, rfl, kind, test⟩ := List.map_eq_append_iff.mp lowered
    rw [List.append_assoc]
    exact afterHrp_of_kind known kind (.inr test) tail
  simp only [List.mem_cons, List.not_mem_nil, or_false] at kind
  obtain stake | stakeTest | addr | addrTest := kind
  · exact unmarked (by decide) stake
  · exact marked "stake" (by decide) stakeTest
  · exact unmarked (by decide) addr
  · exact marked "addr" (by decide) addrTest

/-- An identifier is one word. -/
theorem WalletIdentifier.proper (documented : Base58Documented base58)
    (identifier : WalletIdentifier base58 run) : Word isWord run := by
  cases identifier with
  | @bech32 hrp tail kind long alphanumeric =>
    have kinds : ∀ kind ∈ ["stake", "stake_test", "addr", "addr_test"],
        Word isWord kind.toList := words_of_all (by decide)
    have spelled := kinds _ kind
    rw [String.toList_ofList] at spelled
    intro c member
    obtain inHrp | inTail := List.mem_append.mp member
    · exact isWord_of_toLower (spelled c.toLower (List.mem_map_of_mem inHrp))
    · obtain rfl | inTail := List.mem_cons.mp inTail
      · rfl
      · exact isWord_of_alphanum (alphanumeric c inTail)
  | hash long hex => exact fun c member => isWord_of_isDigit (hex c member)
  | byron accepted =>
    have legal := (candidate_of_accepted documented accepted).2
    exact fun c member => isWord_of_isBase58 (legal c member)

/-- No word that stays is an identifier. -/
theorem Calm.unnamed (documented : Base58Documented base58) (calm : Calm base58 word) :
    ¬ WalletIdentifier base58 word := by
  intro identifier
  cases identifier with
  | bech32 kind long alphanumeric =>
    have none' := calm.bech32
    rw [bech32In, afterHrp_of_hrp _ kind, Option.bind_some,
      List.takeWhile_eq_self_iff.mpr alphanumeric] at none'
    dsimp only at none'
    rw [if_pos long] at none'
    cases none'
  | hash long hex =>
    have none' := calm.hash
    rw [hashIn, if_pos (isTxHash_iff.mpr ⟨long, hex⟩)] at none'
    cases none'
  | byron accepted =>
    obtain ⟨long, legal⟩ := candidate_of_accepted documented accepted
    obtain none' | refused := calm.byron
    · rw [candidateIn, if_pos ⟨long, List.all_eq_true.mpr legal⟩] at none'
      cases none'
    · rw [refused] at accepted
      cases accepted

end Identifiers

section Messages

variable {base58 : String → Option (List UInt8)} {run : List Char}

/-- The runs that the patterns match in a message. -/
inductive Matched (base58 : String → Option (List UInt8)) (before : Option Char)
    (run rest : List Char) : Prop where
  | bech32 (found : WALLET_BECH32 before (run ++ rest) = some run.length)
  | hash (found : HASH_HEX before (run ++ rest) = some run.length)
  | byron (found : BYRON_CANDIDATE before (run ++ rest) = some run.length)
      (accepted : Byron.isByronAddress base58 (String.ofList run) = true)

/-- A message with some of the runs that the patterns match replaced, and all else as it was. -/
inductive Rewritten (base58 : String → Option (List UInt8)) :
    (before : Option Char) → (message scrubbed : List Char) → Prop where
  | done {before : Option Char} : Rewritten base58 before [] []
  | kept {before : Option Char} {c : Char} {rest scrubbed : List Char}
      (others : Rewritten base58 (some c) rest scrubbed) :
      Rewritten base58 before (c :: rest) (c :: scrubbed)
  | replaced {before : Option Char} {run rest scrubbed : List Char} (nonempty : run ≠ [])
      (matched : Matched base58 before run rest)
      (others : Rewritten base58 run.getLast? rest scrubbed) :
      Rewritten base58 before (run ++ rest) (REDACTED ++ scrubbed)

theorem Rewritten.prepend {rest scrubbed : List Char} (word : List Char) {before : Option Char}
    (others : ∀ last, Rewritten base58 last rest scrubbed) :
    Rewritten base58 before (word ++ rest) (word ++ scrubbed) := by
  induction word generalizing before with
  | nil => exact others before
  | cons c word ih => exact .kept ih

/-- One word of a message is rewritten. -/
theorem rewritten_word {word after scrubbed : List Char} {before : Option Char}
    (starts : Apart isWord before) (proper : Word isWord word) (ends : Apart isWord after.head?)
    (others : ∀ last, Rewritten base58 last after scrubbed) :
    Rewritten base58 before (word ++ after) (scrubWord base58 word ++ scrubbed) := by
  obtain ⟨-, kept⟩ | ⟨run, rest, rfl, nonempty, found, -, replaced⟩ :=
    scrubWord_cases base58 proper
  · rw [kept]
    exact .prepend word others
  · have here {matchAt : Option Char → List Char → Option Nat} {foundIn : List Char → Option Nat}
        (pattern : MatchesWords isWord matchAt foundIn)
        (length : foundIn (run ++ rest) = some run.length) :
        matchAt before (run ++ (rest ++ after)) = some run.length := by
      have nonempty : run ++ rest ≠ [] := List.append_ne_nil_of_left_ne_nil nonempty rest
      rw [← List.append_assoc, pattern.here before _ after starts nonempty proper ends, length]
    have matched : Matched base58 before run (rest ++ after) := by
      obtain bech32 | hash | ⟨candidate, accepted⟩ := found
      · exact .bech32 (here WALLET_BECH32_words bech32)
      · exact .hash (here HASH_HEX_words hash)
      · exact .byron (here BYRON_CANDIDATE_words candidate) accepted
    rw [replaced, List.append_assoc, List.append_assoc]
    exact .replaced nonempty matched (.prepend rest others)

theorem rewritten_mapWords (message : List Char) {before : Option Char}
    (starts : Apart isWord before) :
    Rewritten base58 before message (mapWords isWord (scrubWord base58) message) := by
  induction message using word_induction isWord generalizing before with
  | last word proper =>
    have ends : Apart isWord ([] : List Char).head? := rfl
    have rewritten : Rewritten base58 _ _ _ :=
      rewritten_word starts proper ends fun _ => .done
    rw [List.append_nil, List.append_nil] at rewritten
    rwa [mapWords_word proper]
  | step word a rest proper apart ih =>
    rw [mapWords_step proper apart]
    exact rewritten_word starts proper apart fun last => .kept (ih apart)

/-- Scrubbed words stay. -/
theorem mapWords_scrubWord {word : List Char} (proper : Word isWord word) :
    mapWords isWord (scrubWord base58) (scrubWord base58 word) = scrubWord base58 word := by
  have keeps (word : List Char) (proper : Word isWord word) (calm : Calm base58 word) :
      scrubWord base58 word = word := by
    rw [scrubWord, calm.replaceBech32, mapWords_word proper, calm.replaceHash, mapWords_word proper,
      calm.replaceByron]
  obtain ⟨-, kept⟩ | ⟨run, rest, rfl, -, -, calm, replaced⟩ := scrubWord_cases base58 proper
  · rw [kept, mapWords_word proper, kept]
  · have properRest : Word isWord rest := fun c member =>
      proper c (List.mem_append_right run member)
    rw [replaced, mapWords_redacted keeps properRest calm]

/-- A scrubbed word holds no delimited identifier. -/
theorem scrubWord_hides (documented : Base58Documented base58) {word : List Char}
    (proper : Word isWord word) (identifier : WalletIdentifier base58 run) :
    ¬ Delimited isWord run (scrubWord base58 word) := by
  intro delimited
  have properRun := identifier.proper documented
  have refused {word : List Char} (proper : Word isWord word) (calm : Calm base58 word) :
      ¬ Delimited isWord run word := fun delimited =>
    calm.unnamed documented (delimited.of_word proper ▸ identifier)
  obtain ⟨calm, kept⟩ | ⟨found, rest, rfl, -, -, calm, replaced⟩ := scrubWord_cases base58 proper
  · exact refused proper calm (kept ▸ delimited)
  · have empty : Word isWord [] := fun _ member => absurd member List.not_mem_nil
    have redacted : Word isWord "redacted".toList := word_of_all (by decide)
    have properRest : Word isWord rest := fun c member =>
      proper c (List.mem_append_right found member)
    have spelled : REDACTED ++ rest = [] ++ '[' :: ("redacted".toList ++ ']' :: rest) := rfl
    rw [replaced, spelled] at delimited
    obtain first | later := delimited.of_append properRun (by decide)
    · exact refused empty calm_nil first
    · obtain middle | last := later.of_append properRun (by decide)
      · exact refused redacted calm_redacted middle
      · exact refused properRest calm last

/-- No identifier stands in a scrubbed message; what the patterns do not match stays as it was; and
scrubbing again changes nothing. -/
theorem scrubMessage_hides (documented : Base58Documented base58) (message : List Char) :
    (∀ run, WalletIdentifier base58 run →
        ¬ Delimited isWord run (scrubMessage base58 message)) ∧
      Rewritten base58 none message (scrubMessage base58 message) ∧
      scrubMessage base58 (scrubMessage base58 message) = scrubMessage base58 message := by
  refine ⟨fun run identifier delimited => ?_, ?_, ?_⟩
  · rw [scrubMessage_eq] at delimited
    obtain ⟨word, proper, within⟩ := delimited.of_mapWords (identifier.proper documented)
    exact scrubWord_hides documented proper identifier within
  · rw [scrubMessage_eq]
    exact rewritten_mapWords message rfl
  · rw [scrubMessage_eq, scrubMessage_eq, mapWords_mapWords]
    exact mapWords_congr (fun word => mapWords_scrubWord) message

theorem icarus_scrubbed :
    let message := ("blockfrost returned 502 for /addresses/" ++
      "Ae2tdPwUPEZFRbyhz3cpfC2CumGzNkFBN2L42rcUc2yjQpEkxDbkPodpMAi/utxos").toList
    (∀ run, WalletIdentifier decodeBase58 run →
        ¬ Delimited isWord run (scrubMessage decodeBase58 message)) ∧
      Rewritten decodeBase58 none message (scrubMessage decodeBase58 message) ∧
      scrubMessage decodeBase58 (scrubMessage decodeBase58 message) =
        scrubMessage decodeBase58 message :=
  scrubMessage_hides decodeBase58_documented _

end Messages

end WalletBackend.Http
