import Mathlib.Data.List.Basic
import Mathlib.Data.List.TakeWhile

/-! Patterns that are replaced throughout a text. Where a pattern matches words, the replacement
goes word by word. -/
namespace Rewriting

variable {α : Type}

/-- The items after a match of which some are still to be passed over. `matchAt` is given the item
in front and what lies ahead, and tells how many items match. -/
def replaceFrom (matchAt : Option α → List α → Option Nat) (replacement : List α → List α) :
    (before : Option α) → (skip : Nat) → List α → List α
  | _, _, [] => []
  | _, skip + 1, a :: rest => replaceFrom matchAt replacement (some a) skip rest
  | before, 0, a :: rest =>
      match matchAt before (a :: rest) with
      | some (n + 1) =>
          replacement ((a :: rest).take (n + 1)) ++ replaceFrom matchAt replacement (some a) n rest
      | _ => a :: replaceFrom matchAt replacement (some a) 0 rest

/-- Every match is replaced, from left to right. -/
def replaceAll (matchAt : Option α → List α → Option Nat) (replacement : List α → List α)
    (text : List α) : List α :=
  replaceFrom matchAt replacement none 0 text

variable {isWord : α → Bool} {f g : List α → List α} {word text rest : List α} {a : α}

/-! ### Words -/

def Word (isWord : α → Bool) (word : List α) : Prop := ∀ a ∈ word, isWord a = true

theorem word_of_all (all : word.all isWord = true) : Word isWord word := List.all_eq_true.mp all

/-- No word goes on past this place. -/
def Apart (isWord : α → Bool) (neighbour : Option α) : Prop := neighbour.any isWord = false

/-- A text is a word, or begins with one that another item ends. -/
theorem word_induction (isWord : α → Bool) {P : List α → Prop}
    (last : ∀ word, Word isWord word → P word)
    (step : ∀ word a rest, Word isWord word → isWord a = false → P rest → P (word ++ a :: rest))
    (text : List α) : P text := by
  induction long : text.length using Nat.strongRecOn generalizing text with
  | ind n ih =>
    have split := List.takeWhile_append_dropWhile (p := isWord) (l := text)
    have word : Word isWord (text.takeWhile isWord) := fun a member => List.mem_takeWhile_imp member
    cases ahead : text.dropWhile isWord with
    | nil =>
      rw [ahead, List.append_nil] at split
      rw [← split]
      exact last _ word
    | cons a rest =>
      have apart : isWord a = false := by
        have head := List.head?_dropWhile_not isWord text
        rw [ahead] at head
        simpa using head
      rw [ahead] at split
      rw [← split]
      refine step _ a rest word apart (ih rest.length ?_ rest rfl)
      rw [← long, ← split, List.length_append, List.length_cons]
      omega

/-- The words of a text changed, one by one. -/
def mapWordsFrom (isWord : α → Bool) (f : List α → List α) (word : List α) : List α → List α
  | [] => f word
  | a :: rest =>
      if isWord a then mapWordsFrom isWord f (word ++ [a]) rest
      else f word ++ a :: mapWordsFrom isWord f [] rest

def mapWords (isWord : α → Bool) (f : List α → List α) (text : List α) : List α :=
  mapWordsFrom isWord f [] text

theorem mapWordsFrom_word (proper : Word isWord word) (front : List α) :
    mapWordsFrom isWord f front (word ++ rest) = mapWordsFrom isWord f (front ++ word) rest := by
  induction word generalizing front with
  | nil => rw [List.append_nil, List.nil_append]
  | cons a word ih =>
    obtain ⟨here, later⟩ := List.forall_mem_cons.mp proper
    rw [List.cons_append, mapWordsFrom, if_pos here, ih later, List.append_assoc,
      List.singleton_append]

theorem mapWords_word (proper : Word isWord word) : mapWords isWord f word = f word := by
  have whole : mapWordsFrom isWord f [] (word ++ []) = mapWordsFrom isWord f ([] ++ word) [] :=
    mapWordsFrom_word proper []
  rw [List.append_nil, List.nil_append] at whole
  exact whole

theorem mapWords_step (proper : Word isWord word) (apart : isWord a = false) :
    mapWords isWord f (word ++ a :: rest) = f word ++ a :: mapWords isWord f rest := by
  rw [mapWords, mapWordsFrom_word proper, mapWordsFrom,
    if_neg (by rw [apart]; exact Bool.false_ne_true)]
  rfl

/-- What no word spans can be changed part by part. -/
theorem mapWords_append (front : List α) (apart : isWord a = false) (rest : List α) :
    mapWords isWord f (front ++ a :: rest) =
      mapWords isWord f front ++ a :: mapWords isWord f rest := by
  induction front using word_induction isWord with
  | last word proper => rw [mapWords_word proper, mapWords_step proper apart]
  | step word b others proper apart' ih =>
    rw [List.append_assoc, List.cons_append, mapWords_step proper apart', ih,
      mapWords_step proper apart', List.append_assoc, List.cons_append]

/-- Two changes, one after the other. -/
theorem mapWords_mapWords (text : List α) : mapWords isWord g (mapWords isWord f text) =
    mapWords isWord (fun word => mapWords isWord g (f word)) text := by
  induction text using word_induction isWord with
  | last word proper => rw [mapWords_word proper, mapWords_word proper]
  | step word a rest proper apart ih =>
    rw [mapWords_step proper apart, mapWords_append _ apart, mapWords_step proper apart, ih]

theorem mapWords_congr (same : ∀ word, Word isWord word → f word = g word) (text : List α) :
    mapWords isWord f text = mapWords isWord g text := by
  induction text using word_induction isWord with
  | last word proper => rw [mapWords_word proper, mapWords_word proper, same word proper]
  | step word a rest proper apart ih =>
    rw [mapWords_step proper apart, mapWords_step proper apart, same word proper, ih]

/-! ### Delimited words -/

/-- Found in the text between places where no word goes on. -/
def Delimited (isWord : α → Bool) (run text : List α) : Prop :=
  ∃ before after, text = before ++ run ++ after ∧ Apart isWord before.getLast? ∧
    Apart isWord after.head?

section Delimited

variable {run front : List α}

/-- A word goes on beyond no item that ends words. -/
theorem Delimited.of_append (proper : Word isWord run) (apart : isWord a = false)
    (delimited : Delimited isWord run (front ++ a :: rest)) :
    Delimited isWord run front ∨ Delimited isWord run rest := by
  obtain ⟨before, after, text, starts, ends⟩ := delimited
  have unheld : a ∉ run := fun member => by
    rw [proper a member] at apart
    cases apart
  obtain ⟨within, inFront, past⟩ | ⟨beyond, crossed, past⟩ := List.append_eq_append_iff.mp text
  · -- The run and what is in front of it reach beyond `a`.
    cases within with
    | nil =>
      rw [List.append_nil] at inFront
      exact .inl ⟨before, [], by rw [List.append_nil, inFront], starts, rfl⟩
    | cons b within =>
      obtain ⟨rfl, rfl⟩ := List.cons.inj past
      obtain ⟨middle, fromFront, same⟩ | ⟨middle, inBefore, same⟩ :=
        List.append_eq_append_iff.mp inFront
      · exact absurd (same ▸ List.mem_append_right middle List.mem_cons_self) unheld
      · cases middle with
        | nil =>
          rw [List.nil_append] at same
          exact absurd (same ▸ List.mem_cons_self) unheld
        | cons b middle =>
          obtain ⟨rfl, rfl⟩ := List.cons.inj same
          refine .inr ⟨middle, after, rfl, ?_, ends⟩
          rw [inBefore] at starts
          cases middle with
          | nil => rfl
          | cons b middle =>
            rwa [List.getLast?_append_of_ne_nil _ (List.cons_ne_nil _ _),
              List.getLast?_cons_cons] at starts
  · refine .inl ⟨before, beyond, crossed, starts, ?_⟩
    cases beyond with
    | nil => rfl
    | cons b beyond =>
      rw [past] at ends
      exact ends

/-- Within a word, only the whole of it is delimited. -/
theorem Delimited.of_word (proper : Word isWord word) (delimited : Delimited isWord run word) :
    run = word := by
  obtain ⟨before, after, text, starts, ends⟩ := delimited
  have noneBefore : before = [] := by
    cases last : before.getLast? with
    | none => exact List.getLast?_eq_none_iff.mp last
    | some b =>
      have member : b ∈ word := by
        rw [text]
        exact List.mem_append_left _ (List.mem_append_left _ (List.mem_of_getLast? last))
      rw [last, Apart, Option.any_some, proper b member] at starts
      cases starts
  have noneAfter : after = [] := by
    cases after with
    | nil => rfl
    | cons b after =>
      have member : b ∈ word := text ▸ List.mem_append_right _ List.mem_cons_self
      rw [List.head?_cons, Apart, Option.any_some, proper b member] at ends
      cases ends
  rw [text, noneBefore, noneAfter, List.nil_append, List.append_nil]

/-- What is delimited in a changed text is delimited in one of the changed words. -/
theorem Delimited.of_mapWords (proper : Word isWord run)
    (delimited : Delimited isWord run (mapWords isWord f text)) :
    ∃ word, Word isWord word ∧ Delimited isWord run (f word) := by
  induction text using word_induction isWord with
  | last word whole => exact ⟨word, whole, mapWords_word (f := f) whole ▸ delimited⟩
  | step word a rest whole apart ih =>
    rw [mapWords_step whole apart] at delimited
    obtain here | later := delimited.of_append proper apart
    · exact ⟨word, whole, here⟩
    · exact ih later

end Delimited

/-! ### Patterns of words -/

/-- The pattern matches where a word starts, and no further than the word goes. -/
structure MatchesWords (isWord : α → Bool) (matchAt : Option α → List α → Option Nat)
    (found : List α → Option Nat) : Prop where
  inside : ∀ before text, before.any isWord = true → matchAt before text = none
  outside : ∀ before a rest, isWord a = false → matchAt before (a :: rest) = none
  here : ∀ before word after, Apart isWord before → word ≠ [] → Word isWord word →
    Apart isWord after.head? → matchAt before (word ++ after) = found word
  bounded : ∀ word n, found word = some n → 0 < n ∧ n ≤ word.length

/-- A word with its match, if there is one, replaced. -/
def replaceWord (found : List α → Option Nat) (replacement : List α → List α) (word : List α) :
    List α :=
  match found word with
  | some n => replacement (word.take n) ++ word.drop n
  | none => word

section Patterns

variable {matchAt : Option α → List α → Option Nat} {found : List α → Option Nat}
  {replacement : List α → List α} {before : Option α} {after : List α}

theorem replaceFrom_skip (matchAt : Option α → List α → Option Nat)
    (replacement : List α → List α) (skipped rest : List α) (before : Option α) :
    replaceFrom matchAt replacement before skipped.length (skipped ++ rest) =
      replaceFrom matchAt replacement (skipped.getLast?.or before) 0 rest := by
  induction skipped generalizing before with
  | nil => rfl
  | cons a skipped ih =>
    rw [List.cons_append, List.length_cons, replaceFrom, ih]
    cases skipped with
    | nil => rfl
    | cons b skipped =>
      rw [List.getLast?_cons_cons]
      cases last : (b :: skipped).getLast? with
      | none => simp at last
      | some c => rfl

/-- The rest of a word stays. -/
theorem replaceFrom_inside (pattern : MatchesWords isWord matchAt found)
    (replacement : List α → List α) (after : List α) (within : before.any isWord = true)
    (proper : Word isWord word) : ∃ last, replaceFrom matchAt replacement before 0 (word ++ after) =
      word ++ replaceFrom matchAt replacement last 0 after := by
  induction word generalizing before with
  | nil => exact ⟨before, rfl⟩
  | cons a word ih =>
    obtain ⟨here, later⟩ := List.forall_mem_cons.mp proper
    have within : (some a).any isWord = true := here
    obtain ⟨last, rest⟩ := ih within later
    refine ⟨last, ?_⟩
    rw [List.cons_append, replaceFrom, pattern.inside _ _ ‹_›, rest]
    rfl

theorem MatchesWords.found_nil (pattern : MatchesWords isWord matchAt found) : found [] = none := by
  cases matched : found [] with
  | none => rfl
  | some n =>
    obtain ⟨some', none'⟩ := pattern.bounded [] n matched
    exact absurd some' (Nat.not_lt.mpr none')

theorem replaceFrom_word (pattern : MatchesWords isWord matchAt found)
    (replacement : List α → List α) (apart : Apart isWord before) (proper : Word isWord word)
    (apart' : Apart isWord after.head?) :
    ∃ last, replaceFrom matchAt replacement before 0 (word ++ after) =
      replaceWord found replacement word ++ replaceFrom matchAt replacement last 0 after := by
  cases word with
  | nil =>
    refine ⟨before, ?_⟩
    rw [replaceWord, pattern.found_nil]
    rfl
  | cons a word =>
    have matched := pattern.here before (a :: word) after apart (List.cons_ne_nil _ _) proper apart'
    obtain ⟨here, later⟩ := List.forall_mem_cons.mp proper
    cases length : found (a :: word) with
    | none =>
      have within : (some a).any isWord = true := here
      obtain ⟨last, rest⟩ := replaceFrom_inside pattern replacement after within later
      refine ⟨last, ?_⟩
      rw [length] at matched
      rw [replaceWord, length, List.cons_append, replaceFrom]
      rw [List.cons_append] at matched
      rw [matched, rest]
      rfl
    | some n =>
      obtain ⟨some', bound⟩ := pattern.bounded _ n length
      obtain ⟨n, rfl⟩ := Nat.exists_eq_succ_of_ne_zero (Nat.ne_of_gt some')
      have long : (word.take n).length = n :=
        List.length_take_of_le (Nat.le_of_succ_le_succ bound)
      have split : word ++ after = word.take n ++ (word.drop n ++ after) := by
        rw [← List.append_assoc, List.take_append_drop]
      have within : ((word.take n).getLast?.or (some a)).any isWord = true := by
        cases last : (word.take n).getLast? with
        | none => exact here
        | some b => exact later b (List.mem_of_mem_take (List.mem_of_getLast? last))
      have proper' : Word isWord (word.drop n) :=
        fun b member => later b (List.mem_of_mem_drop member)
      obtain ⟨last, rest⟩ := replaceFrom_inside pattern replacement after within proper'
      have passed := replaceFrom_skip matchAt replacement (word.take n) (word.drop n ++ after)
        (some a)
      rw [long, ← split] at passed
      refine ⟨last, ?_⟩
      rw [length, List.cons_append] at matched
      rw [replaceWord, length, List.cons_append, replaceFrom, matched]
      dsimp only
      rw [passed, rest, List.take_succ_cons, List.take_succ_cons, List.drop_succ_cons,
        List.take_append_of_le_length (Nat.le_of_succ_le_succ bound), List.append_assoc]

/-- The matches are replaced word by word. -/
theorem replaceFrom_eq (pattern : MatchesWords isWord matchAt found)
    (apart : Apart isWord before) (text : List α) :
    replaceFrom matchAt replacement before 0 text =
      mapWords isWord (replaceWord found replacement) text := by
  induction text using word_induction isWord generalizing before with
  | last word proper =>
    have ends : Apart isWord ([] : List α).head? := rfl
    obtain ⟨last, whole⟩ := replaceFrom_word pattern replacement apart proper ends
    rw [List.append_nil, replaceFrom, List.append_nil] at whole
    rw [whole, mapWords_word proper]
  | step word a rest proper ends ih =>
    have apart' : Apart isWord (a :: rest).head? := ends
    obtain ⟨last, whole⟩ := replaceFrom_word pattern replacement apart proper apart'
    rw [whole, mapWords_step proper ends, replaceFrom, pattern.outside _ _ _ ends]
    dsimp only
    have apart : Apart isWord (some a) := ends
    rw [ih apart]

end Patterns
end Rewriting
