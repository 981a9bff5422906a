import WalletBackend.Domain.Errors
import WalletBackend.Domain.Numbers
import WalletBackend.Library.Async
import WalletBackend.Library.Numerals

/-! What the Koios transport gives every read: attempts on transient failures and
the `Content-Range` header that PostgREST counts a page with. -/
namespace WalletBackend.Koios
open Interaction

def MAX_READ_ATTEMPTS : Nat := 100

/-- `readAttempts` as `asReadAttempts` admits it, the first attempt included. -/
structure ReadAttempts where
  count : Nat
  positive : 1 ≤ count
  bounded : count ≤ MAX_READ_ATTEMPTS

/-- Retries disabled. -/
def ReadAttempts.single : ReadAttempts := ⟨1, by decide, by decide⟩

/-- One retry. -/
def ReadAttempts.twice : ReadAttempts := ⟨2, by decide, by decide⟩

/-- Whether another Koios instance could answer the same request correctly. -/
def isTransient : Failure → Bool
  | .timeout _ => true
  | .malformed _ => true
  | .provider _ status _ => status.all (500 ≤ ·)
  | .creationBlockRolledBack => true
  | .typeError _ => false

section Read

variable {Req : Type} {Resp : Req → Type} {α T : Type}

/-- Load, and load again on a transient failure, at most `further` more times. -/
def readAgain (load : Async Resp Failure α) : (further : Nat) → Async Resp Failure α
  | 0 => load
  | further + 1 => tryCatch load fun error =>
      if isTransient error then readAgain load further else throw error

def read (attempts : ReadAttempts) (load : Async Resp Failure α) : Async Resp Failure α :=
  readAgain load (attempts.count - 1)

theorem readAgain_eq (load : Async Resp Failure α) (further : Nat) :
    readAgain load further = load.retrying (isTransient · = true) further := by
  induction further with
  | zero => rfl
  | succ further ih => rw [readAgain, ih, Async.retrying]

/-- A read ends as its last attempt does. -/
theorem read_runs {attempts : ReadAttempts} {load : Async Resp Failure α}
    {trace : List (Exchange T Resp)} {outcome : Except Failure α}
    (runs : (read attempts load).Runs trace outcome) :
    ∃ before last, trace = before ++ last ∧ load.Runs last outcome := by
  rw [read, readAgain_eq] at runs
  exact Async.retrying_runs runs

/-- What a retried request comes to was answered to it. -/
theorem read_asked {attempts : ReadAttempts} {q : Req} {given : Resp q → Except Failure α}
    {trace : List (Exchange T Resp)} {outcome : Except Failure α}
    (runs : (read attempts (Async.ask q >>= fun r => Async.ofExcept (given r))).Runs trace outcome) :
    ∃ t r, ⟨t, q, r⟩ ∈ trace ∧ given r = outcome := by
  obtain ⟨before, last, rfl, asked⟩ := read_runs runs
  obtain ⟨t, r, rest, rfl, rfl, told⟩ := asked
  exact ⟨t, r, List.mem_append_right _ List.mem_cons_self, told⟩

/-- A load that returns at once needs no further attempt. -/
theorem read_first {attempts : ReadAttempts} {load : Async Resp Failure α}
    {trace : List (Exchange T Resp)} {a : α} (runs : load.Runs trace (.ok a)) :
    (read attempts load).Runs trace (.ok a) := by
  unfold read
  cases attempts.count - 1 with
  | zero => exact runs
  | succ further => exact Async.runs_tryCatch.mpr (.inl ⟨a, runs, rfl⟩)

/-- A load that fails in passing is loaded again. -/
theorem read_second {attempts : ReadAttempts} {load : Async Resp Failure α}
    {first rest : List (Exchange T Resp)} {e : Failure} {a : α} (again : 2 ≤ attempts.count)
    (failed : load.Runs first (.error e)) (transient : isTransient e = true)
    (runs : load.Runs rest (.ok a)) : (read attempts load).Runs (first ++ rest) (.ok a) := by
  obtain ⟨further, more⟩ := Nat.exists_eq_add_of_le again
  have left : attempts.count - 1 = further + 1 := by omega
  rw [read, left]
  refine Async.runs_tryCatch.mpr (.inr ⟨first, rest, e, rfl, failed, ?_⟩)
  rw [if_pos transient]
  cases further with
  | zero => exact runs
  | succ further => exact Async.runs_tryCatch.mpr (.inl ⟨a, runs, rfl⟩)

end Read

/-- A `Content-Range` that passed its checks. -/
inductive ContentRange where
  | empty (total : Nat)
  | span (start last total : Nat) (ordered : start ≤ last) (within : last < total)
  deriving DecidableEq

/-- A nonempty run of digits, as the number it spells. -/
def number? (chars : List Char) : Option Nat :=
  if chars ≠ [] ∧ chars.all Char.isDigit then some (Nat.ofDigitChars 10 chars 0) else none

/-- Cut at the first `separator`. -/
def cut (separator : Char) (chars : List Char) : Option (List Char × List Char) :=
  match chars.dropWhile (· ≠ separator) with
  | [] => none
  | _ :: rest => some (chars.takeWhile (· ≠ separator), rest)

/-- `/^\*\/(\d+)$/`. -/
def emptyMatch (value : String) : Option Nat :=
  match value.toList with
  | '*' :: '/' :: digits => number? digits
  | _ => none

/-- `/^(\d+)-(\d+)\/(\d+)$/`. -/
def rangeMatch (value : String) : Option (Nat × Nat × Nat) := do
  let (start, rest) ← cut '-' value.toList
  let (last, total) ← cut '/' rest
  return (← number? start, ← number? last, ← number? total)

def parseContentRange (value path : String) : Except Failure ContentRange :=
  match emptyMatch value with
  | some total =>
      if total ≤ maxSafeInteger then .ok (.empty total)
      else .error (.malformed s!"koios returned contradictory Content-Range for {path}")
  | none =>
    match rangeMatch value with
    | none => .error (.malformed s!"koios returned invalid Content-Range for {path}")
    | some (start, last, total) =>
        if sound : total ≤ maxSafeInteger ∧ start ≤ last ∧ last < total then
          .ok (.span start last total sound.2.1 sound.2.2)
        else .error (.malformed s!"koios returned contradictory Content-Range for {path}")

theorem number?_toDigits (n : Nat) : number? (Nat.toDigits 10 n) = some n := by
  rw [number?, if_pos (Numerals.toDigits_proper n), Nat.ofDigitChars_ten_toDigits]

theorem cut_append {separator : Char} {front back : List Char} (clean : separator ∉ front) :
    cut separator (front ++ separator :: back) = some (front, back) := by
  have keep : ∀ c ∈ front, decide (c ≠ separator) = true := fun c member =>
    decide_eq_true fun same => clean (same ▸ member)
  rw [cut, List.dropWhile_append_of_pos keep, List.takeWhile_append_of_pos keep]
  simp

/-- `*/total`, the range of a page without rows. -/
def renderEmpty (total : Nat) : String := s!"*/{total}"

/-- `start-last/total`. -/
def renderSpan (start last total : Nat) : String := s!"{start}-{last}/{total}"

/-- How PostgREST describes `count` rows from `start` on, out of `total`. -/
def renderRange (start count total : Nat) : String :=
  if count = 0 then renderEmpty total else renderSpan start (start + count - 1) total

theorem renderEmpty_toList (total : Nat) :
    (renderEmpty total).toList = '*' :: '/' :: Nat.toDigits 10 total := by
  have spelled : renderEmpty total = "*/" ++ toString total := rfl
  rw [spelled, String.toList_append, Numerals.toList_toString]
  rfl

theorem renderSpan_toList (start last total : Nat) : (renderSpan start last total).toList =
    Nat.toDigits 10 start ++ '-' :: (Nat.toDigits 10 last ++ '/' :: Nat.toDigits 10 total) := by
  have spelled : renderSpan start last total =
      toString start ++ "-" ++ toString last ++ "/" ++ toString total := rfl
  simp only [spelled, String.toList_append, Numerals.toList_toString, List.append_assoc]
  rfl

theorem parseContentRange_empty (total : Nat) (path : String) :
    parseContentRange (renderEmpty total) path =
      if total ≤ maxSafeInteger then .ok (.empty total)
      else .error (.malformed s!"koios returned contradictory Content-Range for {path}") := by
  have found : emptyMatch (renderEmpty total) = some total := by
    simp only [emptyMatch, renderEmpty_toList, number?_toDigits]
  simp only [parseContentRange, found]

/-- A well-formed range is read back, or refused as contradictory. -/
theorem parseContentRange_span (start last total : Nat) (path : String) :
    parseContentRange (renderSpan start last total) path =
      if sound : total ≤ maxSafeInteger ∧ start ≤ last ∧ last < total then
        .ok (.span start last total sound.2.1 sound.2.2)
      else .error (.malformed s!"koios returned contradictory Content-Range for {path}") := by
  have notEmpty : emptyMatch (renderSpan start last total) = none := by
    have digit : ∀ c ∈ (Nat.toDigits 10 start).head?, c ≠ '*' := by
      rintro c member rfl
      exact Numerals.not_mem_toDigits rfl start (List.mem_of_mem_head? member)
    rw [emptyMatch, renderSpan_toList]
    cases chars : Nat.toDigits 10 start with
    | nil => simp
    | cons c rest =>
      have other := digit c (by rw [chars]; rfl)
      simp [other]
  have found : rangeMatch (renderSpan start last total) = some (start, last, total) := by
    have dash : ∀ n, '-' ∉ Nat.toDigits 10 n := Numerals.not_mem_toDigits rfl
    have slash : ∀ n, '/' ∉ Nat.toDigits 10 n := Numerals.not_mem_toDigits rfl
    simp only [rangeMatch, renderSpan_toList, cut_append (dash _), cut_append (slash _),
      number?_toDigits, Option.bind_eq_bind, Option.bind_some, pure]
  simp only [parseContentRange, notEmpty, found]

/-- A rendered range that parses says what was rendered. -/
theorem parseContentRange_range {start count total : Nat} {path : String} {parsed : ContentRange}
    (ok : parseContentRange (renderRange start count total) path = .ok parsed) :
    (count = 0 ∧ parsed = .empty total) ∨
      0 < count ∧ ∃ ordered within, parsed = .span start (start + count - 1) total ordered within := by
  unfold renderRange at ok
  split at ok
  case isTrue none =>
    rw [parseContentRange_empty] at ok
    split at ok
    · exact .inl ⟨none, by cases ok; rfl⟩
    · cases ok
  case isFalse some =>
    rw [parseContentRange_span] at ok
    split at ok
    case isTrue sound =>
      cases ok
      exact .inr ⟨Nat.pos_of_ne_zero some, sound.2.1, sound.2.2, rfl⟩
    case isFalse => cases ok

end WalletBackend.Koios
