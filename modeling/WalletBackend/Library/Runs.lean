import Mathlib.Logic.Basic

/-! Runs of a deterministic machine over any list of events, the invariants they keep
and the machines they simulate. -/
namespace Machine

variable {S S' E E' : Type}

/-- The state after the events, in order. -/
def run (apply : S → E → S) : S → List E → S
  | s, [] => s
  | s, e :: events => run apply (apply s e) events

/-- Every step of the run meets a condition on the state before it and its event. -/
def Along (apply : S → E → S) (meets : S → E → Prop) : S → List E → Prop
  | _, [] => True
  | s, e :: events => meets s e ∧ Along apply meets (apply s e) events

/-- Some step of the run meets a condition on the state before it and its event. -/
def Occurs (apply : S → E → S) (meets : S → E → Prop) : S → List E → Prop
  | _, [] => False
  | s, e :: events => meets s e ∨ Occurs apply meets (apply s e) events

instance {apply : S → E → S} {meets : S → E → Prop} [∀ s e, Decidable (meets s e)] :
    ∀ (s : S) (events : List E), Decidable (Along apply meets s events)
  | _, [] => .isTrue trivial
  | s, e :: events =>
      have : Decidable (Along apply meets (apply s e) events) := instDecidableAlong (apply s e) events
      inferInstanceAs (Decidable (_ ∧ _))

variable {apply : S → E → S} {meets meets' : S → E → Prop} {P : S → Prop} {s : S}

theorem run_append (first rest : List E) :
    run apply s (first ++ rest) = run apply (run apply s first) rest := by
  induction first generalizing s with
  | nil => rfl
  | cons e first ih => exact ih

theorem along_append {first rest : List E} :
    Along apply meets s (first ++ rest) ↔
      Along apply meets s first ∧ Along apply meets (run apply s first) rest := by
  induction first generalizing s with
  | nil => exact ⟨fun along => ⟨trivial, along⟩, And.right⟩
  | cons e first ih => exact (and_congr_right fun _ => ih).trans and_assoc.symm

theorem along_imp {events : List E} (weaker : ∀ s e, meets s e → meets' s e)
    (along : Along apply meets s events) : Along apply meets' s events := by
  induction events generalizing s with
  | nil => trivial
  | cons e events ih => exact ⟨weaker s e along.1, ih along.2⟩

theorem occurs_append {first rest : List E} :
    Occurs apply meets s (first ++ rest) ↔
      Occurs apply meets s first ∨ Occurs apply meets (run apply s first) rest := by
  induction first generalizing s with
  | nil => exact ⟨.inr, fun occurs => occurs.resolve_left id⟩
  | cons e first ih => exact (or_congr_right ih).trans or_assoc.symm

/-- What one step keeps, a run keeps. -/
theorem run_invariant {events : List E} (step : ∀ s e, meets s e → P s → P (apply s e))
    (along : Along apply meets s events) (initial : P s) : P (run apply s events) := by
  induction events generalizing s with
  | nil => exact initial
  | cons e events ih => exact ih along.2 (step s e along.1 initial)

/-- What each event of a list keeps, the run of the list keeps. -/
theorem run_of_mem {events : List E} (step : ∀ e ∈ events, ∀ s, P s → P (apply s e))
    (initial : P s) : P (run apply s events) := by
  induction events generalizing s with
  | nil => exact initial
  | cons e events ih =>
    apply ih
    · intro other member
      exact step other (List.mem_cons_of_mem _ member)
    · exact step e List.mem_cons_self s initial

/-- What every step keeps, every run keeps. -/
theorem run_preserves {events : List E} (step : ∀ s e, P s → P (apply s e)) (initial : P s) :
    P (run apply s events) :=
  run_of_mem (fun e _ s => step s e) initial

/-- Where a step keeps a property if and only if it meets a condition, so does a run. -/
theorem run_iff {Inv : S → Prop} {events : List E} (keeps : ∀ s e, Inv s → Inv (apply s e))
    (step : ∀ s e, Inv s → (P (apply s e) ↔ P s ∧ meets s e)) (initial : Inv s) :
    P (run apply s events) ↔ P s ∧ Along apply meets s events := by
  induction events generalizing s with
  | nil => exact (and_iff_left trivial).symm
  | cons e events ih =>
    rw [run, ih (keeps s e initial), step s e initial, and_assoc]
    exact Iff.rfl

/-- A machine that follows another on the events that concern it. -/
theorem run_follows {apply' : S' → E' → S'} {project : E → Option E'} {R : S → S' → Prop} {s' : S'}
    {events : List E}
    (step : ∀ s s' e, meets s e → R s s' →
      R (apply s e) (((project e).map (apply' s')).getD s'))
    (along : Along apply meets s events) (initial : R s s') :
    R (run apply s events) (run apply' s' (events.filterMap project)) := by
  induction events generalizing s s' with
  | nil => exact initial
  | cons e events ih =>
    have next := step s s' e along.1 initial
    rw [List.filterMap_cons]
    cases projected : project e with
    | none =>
      rw [projected] at next
      exact ih along.2 next
    | some e' =>
      rw [projected] at next
      exact ih along.2 next

/-- A step that meets the condition, with the runs before and after it. -/
theorem occurs_iff {events : List E} : Occurs apply meets s events ↔
    ∃ first e rest, events = first ++ e :: rest ∧ meets (run apply s first) e := by
  induction events generalizing s with
  | nil => exact ⟨nofun, fun ⟨first, _, _, split, _⟩ => by cases first <;> cases split⟩
  | cons e events ih =>
    rw [Occurs, ih]
    constructor
    · rintro (now | ⟨first, e', rest, rfl, later⟩)
      · exact ⟨[], e, events, rfl, now⟩
      · exact ⟨e :: first, e', rest, rfl, later⟩
    · rintro ⟨first, e', rest, split, held⟩
      cases first with
      | nil =>
        cases split
        exact .inl held
      | cons e'' first =>
        cases split
        exact .inr ⟨first, e', rest, rfl, held⟩

section Emitted

/-! A machine with a part that is a machine itself. What a step passes on to the part may depend on
the whole state. -/

variable {apply' : S' → E' → S'} {part : S → S'} {emit : S → E → Option E'} {events : List E}

/-- The events that the steps of a run pass on to the part. -/
def emitted (apply : S → E → S) (emit : S → E → Option E') : S → List E → List E'
  | _, [] => []
  | s, e :: events => (emit s e).toList ++ emitted apply emit (apply s e) events

variable (step : ∀ s e, part (apply s e) = run apply' (part s) (emit s e).toList)

include step

/-- The part runs through the events that are passed on to it. -/
theorem run_emitted :
    part (run apply s events) = run apply' (part s) (emitted apply emit s events) := by
  induction events generalizing s with
  | nil => rfl
  | cons e events ih =>
    rw [run, ih, step, emitted, run_append]

theorem along_emitted {meets : S' → E' → Prop}
    (along : Along apply (fun s e => ∀ e', emit s e = some e' → meets (part s) e') s events) :
    Along apply' meets (part s) (emitted apply emit s events) := by
  induction events generalizing s with
  | nil => trivial
  | cons e events ih =>
    have later := ih along.2
    rw [step] at later
    refine along_append.mpr ⟨?_, later⟩
    cases passed : emit s e with
    | none => trivial
    | some e' => exact ⟨along.1 e' passed, trivial⟩

/-- What happens in the part happens in a step of the whole. -/
theorem occurs_of_emitted {meets : S' → E' → Prop}
    (occurs : Occurs apply' meets (part s) (emitted apply emit s events)) :
    Occurs apply (fun s e => ∃ e', emit s e = some e' ∧ meets (part s) e') s events := by
  induction events generalizing s with
  | nil => exact occurs.elim
  | cons e events ih =>
    rw [emitted, occurs_append, ← step] at occurs
    refine occurs.imp (fun now => ?_) ih
    cases passed : emit s e with
    | none =>
      rw [passed] at now
      exact now.elim
    | some e' =>
      rw [passed] at now
      exact ⟨e', passed, now.resolve_right id⟩

end Emitted

end Machine
