import WalletBackend.Cache.Memory

/-! The interface `Cache` of `cache/index.ts`, the in-memory cache as one of its
implementations, and what a consumer sees who works with one. -/
namespace WalletBackend.Cache

/-- The operations, over a state of their own. -/
structure CacheInterface (S V L : Type) where
  read : S → String → CachePolicy → L → Nat → S × Reading V
  peek : S → String → Option V
  set : S → String → V → Nat → S
  generation : S → Option String → Nat
  setIfGeneration : S → String → V → Nat → Nat → S
  size : S → Nat
  sizeForPrefix : S → String → Nat
  clear : S → Option String → S

variable {S V E L : Type}

def memoryCache : CacheInterface (MemoryCache V E L) V L where
  read := MemoryCache.read
  peek := MemoryCache.peek
  set := MemoryCache.set
  generation := MemoryCache.generation
  setIfGeneration := MemoryCache.setIfGeneration
  size := MemoryCache.size
  sizeForPrefix := MemoryCache.sizeForPrefix
  clear := MemoryCache.clear

/-- A call by a consumer. Tokens are opaque to it and go by numbers of its own. -/
inductive Operation (V L : Type) where
  | read (key : String) (policy : CachePolicy) (load : L) (id : Nat)
  | peek (key : String)
  | set (key : String) (value : V) (ttlMs : Nat)
  | generation (key : Option String) (token : Nat)
  | setIfGeneration (key : String) (value : V) (ttlMs token : Nat)
  | clear (start : Option String)

inductive Observation (V E : Type) where
  | returned (reading : Reading V)
  | peeked (value : Option V)
  | settled (id : Nat) (outcome : Except E V)

/-- The tokens that a consumer holds, and what it has seen so far. -/
structure Consumer (V E : Type) where
  tokens : Nat → Option Nat
  seen : List (Observation V E)

namespace Consumer

def new : Consumer V E := ⟨fun _ => none, []⟩

variable (consumer : Consumer V E)

def see (observation : Observation V E) : Consumer V E :=
  { consumer with seen := consumer.seen ++ [observation] }

def hold (token generation : Nat) : Consumer V E :=
  { consumer with tokens := Function.update consumer.tokens token (some generation) }

/-- One call through the interface. -/
def perform (cache : CacheInterface S V L) (s : S) : Operation V L → S × Consumer V E
  | .read key policy load id =>
      let result := cache.read s key policy load id
      (result.1, consumer.see (.returned result.2))
  | .peek key => (s, consumer.see (.peeked (cache.peek s key)))
  | .set key value ttlMs => (cache.set s key value ttlMs, consumer)
  | .generation key token => (s, consumer.hold token (cache.generation s key))
  | .setIfGeneration key value ttlMs token =>
      match consumer.tokens token with
      | some generation => (cache.setIfGeneration s key value ttlMs generation, consumer)
      | none => (s, consumer)
  | .clear start => (cache.clear s start, consumer)

/-- The consumer sees the promises of keys with its prefix settle. -/
def watch (start : String) (c : MemoryCache V E L) : Event V E L → Consumer V E
  | .finish id =>
      match c.attempts id with
      | some attempt =>
          match attempt.phase with
          | .handled outcome =>
              if startsWith attempt.key start then consumer.see (.settled id outcome) else consumer
          | _ => consumer
      | none => consumer
  | _ => consumer

end Consumer
end WalletBackend.Cache
