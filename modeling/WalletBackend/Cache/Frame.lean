import WalletBackend.Cache.Steps

/-! What a clear leaves alone: everything but the keys with its prefix, and the loads and
tokens of the keys that neither start with it nor are a start of it. A token stands
for the subtree under its key, so a clear inside the subtree ends it. -/
namespace WalletBackend.Cache
open Containers

variable {V E L : Type}

namespace MemoryCache

variable {c : MemoryCache V E L}

/-- The event does not clear anything that concerns the key. -/
def Spares (key : String) : Event V E L → Prop
  | .clear start => related (start.getD "") key = false
  | _ => True

theorem Effect.generationFor_eq {event : Event V E L} {c' : MemoryCache V E L} {key : String}
    (effect : Effect c event c') (spares : Spares key event) :
    c'.generationFor key = c.generationFor key := by
  cases effect with
  | cleared start => exact generationFor_clear_of_unrelated spares
  | stored => exact store_generationFor ..
  | set => exact store_generationFor ..
  | guarded => exact store_generationFor ..
  | _ => rfl

/-- Only clears that concern a key change its generation. -/
theorem generationFor_after {events : List (Event V E L)} {key : String}
    (spares : ∀ event ∈ events, Spares key event) :
    (c.after events).generationFor key = c.generationFor key :=
  Machine.run_of_mem (P := fun s : MemoryCache V E L => s.generationFor key = c.generationFor key)
    (fun event member s same => ((apply_effect s event).generationFor_eq (spares event member)).trans
      same) rfl

/-- The loads and tokens of `key` that were good in the state `before` are good in `c`: a
value is stored, an error falls back on the usable entry, a guarded write goes through. -/
structure Undisturbed (key : String) (before c : MemoryCache V E L) : Prop where
  load : ∀ id attempt value, before.attempts id = some attempt → attempt.key = key →
    before.Current attempt → c.attempts id = some { attempt with phase := .loaded (.ok value) } →
    (c.handle id).entries = (c.store key value attempt.policy).entries
  fallback : ∀ id attempt error stale, before.attempts id = some attempt → attempt.key = key →
    before.Current attempt → c.attempts id = some { attempt with phase := .loaded (.error error) } →
    c.entries.get? key = some stale → c.now < stale.usableUntil →
    (c.handle id).attempts id = some { attempt with phase := .handled (.ok stale.value) }
  token : ∀ value ttlMs,
    c.setIfGeneration key value ttlMs (before.generation (some key)) = c.set key value ttlMs

theorem undisturbed_of_generationFor {before : MemoryCache V E L} {key : String}
    (same : c.generationFor key = before.generationFor key) : Undisturbed key before c where
  load := by
    rintro id attempt value - rfl current there
    have still : attempt.generation = c.generationFor attempt.key := current.trans same.symm
    simp only [handle, there, if_pos still]
    rfl
  fallback := by
    rintro id attempt error stale - rfl current there kept usable
    have still : attempt.generation = c.generationFor attempt.key := current.trans same.symm
    have served : c.fallback { attempt with phase := .loaded (.error error) } = some stale.value := by
      rw [MemoryCache.fallback, kept, Option.bind_some, if_pos]
      simp [still, usable]
    simp only [handle, there, served, setPhase_attempts, if_true]
  token value ttlMs := by
    have current : before.generation (some key) = c.generationFor key := same.symm
    rw [setIfGeneration, if_neg (not_not_intro current)]
    rfl

/-- What a clear does not touch of a key that does not start with its prefix, in a
reachable state. -/
structure Framed (start : Option String) (key : String) (c : MemoryCache V E L) : Prop where
  entry : (c.clear start).entries.get? key = c.entries.get? key
  registration : (c.clear start).inFlight.get? key = c.inFlight.get? key
  served : (c.clear start).peek key = c.peek key
  reading : ∀ policy load id,
    ((c.clear start).read key policy load id).2 = (c.read key policy load id).2
  /-- Apart from the prefix in both directions, loads and tokens live through this clear
  and any others of that kind, however long the run. -/
  undisturbed : related (start.getD "") key = false → ∀ events,
    (∀ event ∈ events, Spares key event) → Undisturbed key c ((c.clear start).after events)
  /-- A key that the prefix extends is a subtree that was cleared in part: its loads are
  not stored any more, have no fallback, and its tokens write nothing. -/
  subtree : startsWith (start.getD "") key = true →
    (∀ id attempt, c.attempts id = some attempt → attempt.key = key →
      ¬ (c.clear start).Current attempt) ∧
    ∀ value ttlMs, (c.clear start).setIfGeneration key value ttlMs (c.generation (some key)) =
      c.clear start

/-- A prefix clear touches only its prefix, and the subtrees it is a part of. -/
theorem clear_is_framed (reachable : c.Reachable) (start : Option String) {key : String}
    (outside : startsWith key (start.getD "") = false) : Framed start key c := by
  have entry : (c.clear start).entries.get? key = c.entries.get? key := by
    rw [clear_entries, outside, if_neg Bool.false_ne_true]
  have registration : (c.clear start).inFlight.get? key = c.inFlight.get? key := by
    rw [clear_inFlight, outside, if_neg Bool.false_ne_true]
  have served : (c.clear start).peek key = c.peek key := by
    rw [peek, peek, entry, clear_now]
  refine ⟨entry, registration, served, ?_, ?_, ?_⟩
  · intro policy load id
    rw [read, read, served, registration]
    cases c.peek key with
    | some value => rfl
    | none =>
      cases c.inFlight.get? key with
      | some pending => rfl
      | none => rfl
  · intro apart events spares
    apply undisturbed_of_generationFor
    rw [generationFor_after spares, generationFor_clear_of_unrelated apart]
  · intro extends_
    have concerns : related (start.getD "") key = true := by rw [related, extends_, Bool.or_true]
    have raised := reachable.consistent.generationFor_clear concerns
    refine ⟨?_, ?_⟩
    · rintro id attempt known rfl current
      have bound := Nat.le_trans (reachable.consistent.stamped id attempt known)
        (reachable.consistent.generationFor_le attempt.key)
      rw [Current, raised] at current
      omega
    · intro value ttlMs
      have bound : c.generation (some key) ≤ c.clearGeneration :=
        reachable.consistent.generationFor_le key
      rw [setIfGeneration, if_pos]
      rw [raised]
      omega

/-- A load of `token:1` has its value. -/
def tokenLoad : MemoryCache String Unit Unit :=
  (createMemoryCache 10 0).after
    [.read "token:1" ⟨100, 50⟩ () 0, .startLoad 0, .answer 0 (.ok "fresh")]

/-- The clear of another namespace leaves the load alone. -/
theorem tokenLoad_is_framed :
    ((tokenLoad.clear (some "price:")).handle 0).entries =
      ((tokenLoad.clear (some "price:")).store "token:1" "fresh" ⟨100, 50⟩).entries := by
  have reachable : tokenLoad.Reachable := ⟨10, 0, _, rfl⟩
  have framed : Framed (some "price:") "token:1" tokenLoad :=
    clear_is_framed reachable (some "price:") rfl
  exact (framed.undisturbed rfl [] nofun).load 0 ⟨"token:1", ⟨100, 50⟩, (), 0, .loaded (.ok "fresh")⟩
    "fresh" rfl rfl rfl rfl

/-- `token:1` does not start with `token:12`, and yet a clear of that prefix keeps its
load from being stored and its token from writing. -/
theorem token_prefix_is_disturbed :
    tokenLoad.Reachable ∧ startsWith "token:1" "token:12" = false ∧
      (tokenLoad.handle 0).peek "token:1" = some "fresh" ∧
      ((tokenLoad.clear (some "token:12")).handle 0).peek "token:1" = none ∧
      ((tokenLoad.clear (some "token:12")).setIfGeneration "token:1" "set" 100
        (tokenLoad.generation (some "token:1"))).peek "token:1" = none :=
  ⟨⟨10, 0, _, rfl⟩, rfl, by decide, by decide, by decide⟩

end MemoryCache
end WalletBackend.Cache
