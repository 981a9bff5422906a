import WalletBackend.Library.KeyedMap
import WalletBackend.Library.Runs
import Mathlib.Logic.Function.Basic

/-! The in-process cache of `cache/index.ts`. An operation of the cache runs to its end;
a load is a chain of promises and advances between the operations: its loader starts
in a microtask, settles some time later, and its outcome is handled and cleaned up in
microtasks of their own. -/
namespace WalletBackend.Cache
open Containers

structure CachePolicy where
  ttlMs : Nat
  staleIfErrorMs : Nat
  deriving DecidableEq, Repr

/-- `asPolicy` of a plain TTL. -/
def CachePolicy.ofTtl (ttlMs : Nat) : CachePolicy := ⟨ttlMs, 0⟩

structure Entry (V : Type) where
  value : V
  expiresAt : Nat
  /-- Past this, the value is not even good enough to serve when a refresh fails. -/
  usableUntil : Nat
  deriving DecidableEq

/-- How far the promise chain of a load has come. -/
inductive Phase (V E : Type) where
  /-- The loader runs in a microtask. -/
  | queued
  | loading
  /-- The promise of the loader has settled. -/
  | loaded (result : Except E V)
  /-- `then` or `catch` has run: stored, or decided between the error and a stale value. -/
  | handled (outcome : Except E V)
  /-- `finally` has run: the promise that the readers hold has settled. -/
  | settled (outcome : Except E V)

/-- One promise made by `read`: what it was made with, and its generation. -/
structure Attempt (V E L : Type) where
  key : String
  policy : CachePolicy
  load : L
  generation : Nat
  phase : Phase V E

/-- The variables of `createMemoryCache`, with the clock and the promises made so far,
by identity. -/
structure MemoryCache (V E L : Type) where
  maxEntries : Nat
  now : Nat
  entries : KeyedMap String (Entry V)
  inFlight : KeyedMap String Nat
  clearGeneration : Nat
  clearGenerations : KeyedMap String Nat
  attempts : Nat → Option (Attempt V E L)

variable {V E L : Type}

def createMemoryCache (maxEntries now : Nat) : MemoryCache V E L where
  maxEntries := maxEntries
  now := now
  entries := .empty
  inFlight := .empty
  clearGeneration := 0
  clearGenerations := .empty
  attempts := fun _ => none

/-- `key.startsWith(start)`. -/
def startsWith (key start : String) : Bool := start.toList.isPrefixOf key.toList

/-- A clear of `start` and a token of `key` concern each other: one starts with the
other. -/
def related (start key : String) : Bool := startsWith key start || startsWith start key

/-- What a read returns: a resolved promise, or the promise of an attempt. -/
inductive Reading (V : Type) where
  | hit (value : V)
  | attempt (id : Nat)
  deriving DecidableEq

/-- One turn of the loop of `generationFor`. -/
def laterClear (key : String) (latest : Nat) (clear : String × Nat) : Nat :=
  if clear.1 ≠ "" ∧ related clear.1 key = true ∧ latest < clear.2 then clear.2 else latest

namespace MemoryCache

def generationFor (c : MemoryCache V E L) (key : String) : Nat :=
  c.clearGenerations.entries.foldl (laterClear key) ((c.clearGenerations.get? "").getD 0)

/-- Entries nobody could use even as a fallback go first, then the oldest inserted. -/
def evict (c : MemoryCache V E L) : MemoryCache V E L :=
  if c.entries.size ≤ c.maxEntries then c
  else
    let usable := c.entries.filter fun _ entry => c.now < entry.usableUntil
    { c with entries := usable.dropOldest (usable.size - c.maxEntries) }

/-- `entries.set` followed by `evict`. -/
def store (c : MemoryCache V E L) (key : String) (value : V) (policy : CachePolicy) :
    MemoryCache V E L :=
  evict { c with
    entries := c.entries.set key
      { value
        expiresAt := c.now + policy.ttlMs
        usableUntil := c.now + policy.ttlMs + policy.staleIfErrorMs } }

def peek (c : MemoryCache V E L) (key : String) : Option V :=
  (c.entries.get? key).bind fun hit => if c.now < hit.expiresAt then some hit.value else none

/-- A new promise, registered as the load of its key in flight. -/
def register (c : MemoryCache V E L) (key : String) (policy : CachePolicy) (load : L) (id : Nat) :
    MemoryCache V E L :=
  { c with
    attempts := Function.update c.attempts id
      (some { key, policy, load, generation := c.generationFor key, phase := .queued })
    inFlight := c.inFlight.set key id }

/-- `read`, whose promise gets the identity `id` when it makes one. -/
def read (c : MemoryCache V E L) (key : String) (policy : CachePolicy) (load : L) (id : Nat) :
    MemoryCache V E L × Reading V :=
  match c.peek key with
  | some value => (c, .hit value)
  | none =>
      match c.inFlight.get? key with
      | some pending => (c, .attempt pending)
      | none => (c.register key policy load id, .attempt id)

def setPhase (c : MemoryCache V E L) (id : Nat) (attempt : Attempt V E L) (phase : Phase V E) :
    MemoryCache V E L :=
  { c with attempts := Function.update c.attempts id (some { attempt with phase }) }

/-- The microtask that calls the loader. -/
def startLoad (c : MemoryCache V E L) (id : Nat) : MemoryCache V E L :=
  match c.attempts id with
  | none => c
  | some attempt =>
      match attempt.phase with
      | .queued => c.setPhase id attempt .loading
      | _ => c

/-- The promise of the loader settles. -/
def answer (c : MemoryCache V E L) (id : Nat) (result : Except E V) : MemoryCache V E L :=
  match c.attempts id with
  | none => c
  | some attempt =>
      match attempt.phase with
      | .loading => c.setPhase id attempt (.loaded result)
      | _ => c

/-- The stale value that stands in for a failed refresh, if there is one. -/
def fallback (c : MemoryCache V E L) (attempt : Attempt V E L) : Option V :=
  (c.entries.get? attempt.key).bind fun stale =>
    if attempt.generation = c.generationFor attempt.key && c.now < stale.usableUntil then
      some stale.value
    else none

/-- The `then` of a value, the `catch` of an error. -/
def handle (c : MemoryCache V E L) (id : Nat) : MemoryCache V E L :=
  match c.attempts id with
  | none => c
  | some attempt =>
      match attempt.phase with
      | .loaded (.ok value) =>
          let kept := if attempt.generation = c.generationFor attempt.key then
            c.store attempt.key value attempt.policy else c
          kept.setPhase id attempt (.handled (.ok value))
      | .loaded (.error error) =>
          c.setPhase id attempt (.handled (match c.fallback attempt with
            | some value => .ok value
            | none => .error error))
      | _ => c

/-- The `finally`: only the registration of this very attempt is removed. -/
def finish (c : MemoryCache V E L) (id : Nat) : MemoryCache V E L :=
  match c.attempts id with
  | none => c
  | some attempt =>
      match attempt.phase with
      | .handled outcome =>
          let cleaned := if c.inFlight.get? attempt.key = some id then
            { c with inFlight := c.inFlight.delete attempt.key } else c
          cleaned.setPhase id attempt (.settled outcome)
      | _ => c

def set (c : MemoryCache V E L) (key : String) (value : V) (ttlMs : Nat) : MemoryCache V E L :=
  c.store key value (.ofTtl ttlMs)

/-- `generation(key = '')`. -/
def generation (c : MemoryCache V E L) (key : Option String) : Nat :=
  c.generationFor (key.getD "")

def setIfGeneration (c : MemoryCache V E L) (key : String) (value : V) (ttlMs generation : Nat) :
    MemoryCache V E L :=
  if generation ≠ c.generationFor key then c else c.store key value (.ofTtl ttlMs)

def size (c : MemoryCache V E L) : Nat := c.entries.size

def sizeForPrefix (c : MemoryCache V E L) (start : String) : Nat :=
  (c.entries.keys.filter fun key => startsWith key start).length

def clear (c : MemoryCache V E L) (start : Option String) : MemoryCache V E L :=
  match start with
  | none =>
      { c with
        clearGeneration := c.clearGeneration + 1
        entries := .empty
        inFlight := .empty
        clearGenerations := c.clearGenerations.set "" (c.clearGeneration + 1) }
  | some start =>
      { c with
        clearGeneration := c.clearGeneration + 1
        entries := c.entries.filter fun key _ => !startsWith key start
        inFlight := c.inFlight.filter fun key _ => !startsWith key start
        clearGenerations := c.clearGenerations.set start (c.clearGeneration + 1) }

end MemoryCache

/-- What can happen to a cache: a call of an operation that changes it, a step of a
load, or the passing of time. A `read` names the identity of the promise it would
make; `tick` sets the clock. -/
inductive Event (V E L : Type) where
  | read (key : String) (policy : CachePolicy) (load : L) (id : Nat)
  | startLoad (id : Nat)
  | answer (id : Nat) (result : Except E V)
  | handle (id : Nat)
  | finish (id : Nat)
  | set (key : String) (value : V) (ttlMs : Nat)
  | setIfGeneration (key : String) (value : V) (ttlMs generation : Nat)
  | clear (start : Option String)
  | tick (now : Nat)

namespace MemoryCache

/-- One event. A promise already made is not made again. -/
def apply (c : MemoryCache V E L) : Event V E L → MemoryCache V E L
  | .read key policy load id =>
      if (c.attempts id).isSome then c else (c.read key policy load id).1
  | .startLoad id => c.startLoad id
  | .answer id result => c.answer id result
  | .handle id => c.handle id
  | .finish id => c.finish id
  | .set key value ttlMs => c.set key value ttlMs
  | .setIfGeneration key value ttlMs generation => c.setIfGeneration key value ttlMs generation
  | .clear start => c.clear start
  | .tick now => { c with now }

/-- The state after a run. -/
def after (c : MemoryCache V E L) (events : List (Event V E L)) : MemoryCache V E L :=
  Machine.run apply c events

/-- Some run of a new cache leads to the state. -/
def Reachable (c : MemoryCache V E L) : Prop :=
  ∃ maxEntries now events, c = (createMemoryCache maxEntries now).after events

end MemoryCache

end WalletBackend.Cache
