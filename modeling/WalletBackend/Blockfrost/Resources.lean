import WalletBackend.Domain.Errors
import WalletBackend.Library.StaticRuns

/-! The two reads of the Blockfrost client, over whatever resources a capability asks for: each
request is answered by a row, by a 404 or by a failure that the client's own retries did not get
past. -/
namespace WalletBackend.Blockfrost
open Interaction

namespace Client

variable {Resource : Type} {Row : Resource → Type}

/-- A 404 is `none`. -/
abbrev Answer (Row : Resource → Type) (resource : Resource) : Type :=
  Except Failure (Option (Row resource))

/-- `client.getOrUndefined`. -/
def getOrUndefined (resource : Resource) : Async (Answer Row) Failure (Option (Row resource)) := do
  Async.ofExcept (← Async.ask resource)

/-- `client.get` at `path`: a 404 is a failure like any other. -/
def get (resource : Resource) (path : String) : Async (Answer Row) Failure (Row resource) := do
  match ← getOrUndefined resource with
  | some row => pure row
  | none => throw (.provider s!"blockfrost returned 404 for {path}" (some 404) none)

end Client

section Runs

variable {T Resource : Type} {Row : Resource → Type} {resource : Resource} {path : String}
  {trace : List (Exchange T (Client.Answer Row))}

theorem runs_getOrUndefined {outcome : Client.Answer Row resource} :
    (Client.getOrUndefined resource).Runs trace outcome ↔ ∃ t, trace = [⟨t, resource, outcome⟩] := by
  constructor
  · rintro ⟨t, answer, rest, rfl, rfl, rfl⟩
    exact ⟨t, rfl⟩
  · rintro ⟨t, rfl⟩
    exact ⟨t, outcome, [], rfl, rfl, rfl⟩

theorem runs_get_ok {row : Row resource} :
    (Client.get resource path).Runs trace (.ok row) ↔ ∃ t, trace = [⟨t, resource, .ok (some row)⟩] := by
  constructor
  · intro runs
    obtain ⟨first, rest, found, rfl, asked, returned⟩ := Async.runs_bind_ok.mp runs
    obtain ⟨t, rfl⟩ := runs_getOrUndefined.mp asked
    cases found with
    | none => cases returned.2
    | some _ =>
      obtain ⟨rfl, same⟩ := returned
      cases same
      exact ⟨t, rfl⟩
  · rintro ⟨t, rfl⟩
    exact Async.runs_bind_ok.mpr ⟨_, [], some row, rfl, runs_getOrUndefined.mpr ⟨t, rfl⟩, rfl, rfl⟩

theorem runs_get_error {failure : Failure}
    (runs : (Client.get resource path : Async (Client.Answer Row) _ _).Runs trace (.error failure)) :
    (∃ t, trace = [⟨t, resource, .error failure⟩]) ∨
      ∃ t, trace = [⟨t, resource, .ok none⟩] ∧
        failure = .provider s!"blockfrost returned 404 for {path}" (some 404) none := by
  obtain ⟨first, rest, found, rfl, asked, continued⟩ | ⟨e, asked, same⟩ := Async.runs_bind.mp runs
  · obtain ⟨t, rfl⟩ := runs_getOrUndefined.mp asked
    cases found with
    | none =>
      obtain ⟨rfl, same⟩ := continued
      cases same
      exact .inr ⟨t, rfl, rfl⟩
    | some row => cases continued.2
  · cases same
    exact .inl (runs_getOrUndefined.mp asked)

variable {up : (resource : Resource) → Client.Answer Row resource}

theorem gives_getOrUndefined {outcome : Client.Answer Row resource} :
    Async.Gives up (Client.getOrUndefined resource) outcome ↔ outcome = up resource :=
  (Async.gives_bind_of fun _ => Async.gives_ask).trans Async.gives_ofExcept

theorem gives_get {row : Row resource} (found : up resource = .ok (some row))
    (outcome : Except Failure (Row resource)) :
    Async.Gives up (Client.get resource path) outcome ↔ outcome = .ok row := by
  rw [Client.get, Async.gives_bind_of fun _ => gives_getOrUndefined.trans (by rw [found])]
  exact Async.gives_pure

end Runs

end WalletBackend.Blockfrost
