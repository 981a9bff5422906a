import WalletBackend.Cache.Deliveries
import WalletBackend.Domain.Errors
import WalletBackend.Library.JsonTree

/-! The remote configuration of `remote-config/index.ts`, over the cache that all of the service
shares or, where caching is off, without one. The last document that was fetched is kept here, and
stands in for one that cannot be. -/
namespace WalletBackend.RemoteConfig
open Cache

def TTL_MS : Nat := 5 * 60000
def STALE_IF_ERROR_MS : Nat := 24 * 60 * 60000
def CACHE_KEY : String := "config:remote"

/-- What comes of one `fetch` of the document, and of reading the body of an answer as JSON. -/
inductive Fetched where
  | rejected (timeout : Bool)
  | answered (ok : Bool) (status : Nat) (json : Option JsonTree.Value)

/-- A document that is served, for the clients to make sense of. -/
abbrev Document : Type := List (String × JsonTree.Value)

def load : Fetched → Except Failure Document
  | .rejected true => .error (.timeout "remote config timed out")
  | .rejected false => .error (.plain "remote config could not be fetched")
  | .answered false status _ =>
      .error (.provider s!"remote config returned {status}" (some status) none)
  | .answered true _ none => .error (.malformed "remote config is not valid json")
  | .answered true _ (some (.object entries)) => .ok entries
  | .answered true _ (some _) => .error (.malformed "remote config is not a json object")

structure LastGood where
  value : Document
  fetchedAt : Nat

/-- What the cache holds. -/
inductive Value (O : Type) where
  | config (document : Document)
  | other (value : O)

/-- The loaders that are passed to the cache. -/
inductive Load where
  | config
  | other
  deriving DecidableEq

/-- How far a call of `get` has come. -/
inductive Call (O : Type) where
  | reading (reading : Reading (Value O))
  /-- `fetchAndRemember` without a cache. -/
  | fetching
  | fetched (result : Except Failure Document)
  | returned (outcome : Except Failure Document)

/-- The variables of `createRemoteConfig`, with the cache and the calls. -/
structure Service (O : Type) where
  caching : Bool
  cache : MemoryCache (Value O) Failure Load
  lastGood : Option LastGood
  calls : Nat → Option (Call O)

variable {O : Type}

def createRemoteConfig (caching : Bool) (maxEntries now : Nat) : Service O where
  caching := caching
  cache := createMemoryCache maxEntries now
  lastGood := none
  calls := fun _ => none

namespace Service

variable (s : Service O)

def withCall (call : Nat) (state : Call O) : Service O :=
  { s with calls := Function.update s.calls call (some state) }

/-- A call begins. The load that it begins under the cache is named `id`. -/
def get (call id : Nat) : Service O :=
  if s.caching then
    let read := s.cache.read CACHE_KEY (.ofTtl TTL_MS) .config id
    { s with cache := read.1 }.withCall call (.reading read.2)
  else s.withCall call .fetching

/-- `fetchAndRemember`, with what `load` came to. -/
def remember : Except Failure Document → Service O
  | .ok value => { s with lastGood := some ⟨value, s.cache.now⟩ }
  | .error _ => s

/-- The loader has called `fetch` and waits for it. -/
def fetching (id : Nat) : Bool :=
  match s.cache.attempts id with
  | some { load := .config, phase := .loading, .. } => true
  | _ => false

/-- The loader under the cache is through. -/
def fetchedShared (id : Nat) (response : Fetched) : Service O :=
  if s.fetching id then
    let result := load response
    { s.remember result with cache := s.cache.answer id (result.map .config) }
  else s

/-- The loader of a call without a cache is through. -/
def fetchedAlone (call : Nat) (response : Fetched) : Service O :=
  match s.calls call with
  | some .fetching => (s.remember (load response)).withCall call (.fetched (load response))
  | _ => s

/-- What the call awaits, once it has settled. -/
def awaited : Call O → Option (Except Failure Document)
  | .reading reading =>
      match s.cache.settlement reading with
      | some (.ok (.config document)) => some (.ok document)
      | some (.error failure) => some (.error failure)
      | _ => none
  | .fetched result => some result
  | _ => none

/-- The `catch` of `get`. -/
def rescue (failure : Failure) : Except Failure Document :=
  match s.lastGood with
  | some good =>
      if s.cache.now - good.fetchedAt < STALE_IF_ERROR_MS then .ok good.value else .error failure
  | none => .error failure

/-- What the call returns or throws when it goes on now. -/
def outcome? (call : Nat) : Option (Except Failure Document) :=
  match (s.calls call).bind s.awaited with
  | some (.ok document) => some (.ok document)
  | some (.error failure) => some (s.rescue failure)
  | none => none

def resume (call : Nat) : Service O :=
  match s.outcome? call with
  | some outcome => s.withCall call (.returned outcome)
  | none => s

end Service

/-- What can happen. New calls and loads are named by numbers not used before. -/
inductive Event (O : Type) where
  | get (call id : Nat)
  | startLoad (id : Nat)
  | fetchedShared (id : Nat) (response : Fetched)
  | fetchedAlone (call : Nat) (response : Fetched)
  | resume (call : Nat)
  | cache (event : Cache.Event (Value O) Failure Load)

/-- What other consumers do is on keys of their own, and with loads of their own. The outcomes of
all loads are handled alike. -/
def elsewhere (c : MemoryCache (Value O) Failure Load) : Cache.Event (Value O) Failure Load → Bool
  | .read key _ load _ => key != CACHE_KEY && load == .other
  | .set key _ _ | .setIfGeneration key _ _ _ => key != CACHE_KEY
  | .startLoad id | .answer id _ => (c.attempts id).all fun attempt => attempt.load == .other
  | .handle _ | .finish _ | .clear _ | .tick _ => true

namespace Service

def apply (s : Service O) : Event O → Service O
  | .get call id =>
      if (s.calls call).isSome || (s.cache.attempts id).isSome then s else s.get call id
  | .startLoad id =>
      if (s.cache.attempts id).any fun attempt => attempt.load == .config then
        { s with cache := s.cache.startLoad id }
      else s
  | .fetchedShared id response => s.fetchedShared id response
  | .fetchedAlone call response => s.fetchedAlone call response
  | .resume call => s.resume call
  | .cache event => if elsewhere s.cache event then { s with cache := s.cache.apply event } else s

def after (s : Service O) (events : List (Event O)) : Service O := Machine.run apply s events

end Service
end WalletBackend.RemoteConfig
