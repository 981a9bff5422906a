import WalletBackend.Cache.Coalescing
import WalletBackend.Library.Splitting
import WalletBackend.Prices.PoolSharing

/-! The promises in flight are those of the subjects that an unfinished call fetches, one for
each. -/
namespace WalletBackend.Prices.PoolClient
open Cache Containers

variable {E Number : Type} [LT Number] [DecidableLT Number] {number : String → Number}
  {cacheNamespace : String} {s s' : PoolClient E}

/-- The call fetches the pool of the subject, and has not come to an end with it. -/
def Resolving (s : PoolClient E) (id : Nat) (subject : String) : Prop :=
  ∃ call, s.calls id = some call ∧ subject ∈ call.owned ∧ call.fetch.Outstanding

section Claims

/-- What holds of a call, and of the map of promises, once it has gone through some subjects. -/
structure Claimed (s : PoolClient E) (cacheNamespace : String) (id : Nat)
    (subjects seen : List String) (call : PoolCall E) (inFlightPools : KeyedMap String Nat) : Prop where
  asked : call.subjects = subjects
  registered : ∀ subject owner, inFlightPools.get? subject = some owner ↔
    s.inFlightPools.get? subject = some owner ∨ owner = id ∧ subject ∈ call.owned
  awaited : ∀ subject owner, call.awaiting.get? subject = some owner →
    inFlightPools.get? subject = some owner
  hits : ∀ subject hit, call.cached.get? subject = some hit →
    s.cache.peek (poolCacheKey cacheNamespace subject) = some hit
  covered : ∀ subject ∈ seen, (call.cached.get? subject).isSome ∨
    s.cache.peek (poolCacheKey cacheNamespace subject) = none ∧ (call.awaiting.get? subject).isSome

theorem Claimed.claim {id : Nat} {subjects seen : List String} {call : PoolCall E}
    {inFlightPools : KeyedMap String Nat}
    (claimed : Claimed s cacheNamespace id subjects seen call inFlightPools) (subject : String) :
    Claimed s cacheNamespace id subjects (seen ++ [subject])
      (s.claim cacheNamespace id (call, inFlightPools) subject).1
      (s.claim cacheNamespace id (call, inFlightPools) subject).2 := by
  have seen_or {P : String → Prop} (before : ∀ other ∈ seen, P other) (here : P subject) :
      ∀ other ∈ seen ++ [subject], P other := by
    simpa [or_imp, forall_and] using ⟨before, here⟩
  unfold PoolClient.claim
  cases peeked : s.cache.peek (poolCacheKey cacheNamespace subject) with
  | some hit =>
    refine ⟨claimed.asked, claimed.registered, claimed.awaited, ?_, ?_⟩
    · intro other held found
      rw [KeyedMap.get?_set] at found
      split at found
      case isTrue same =>
        cases found
        exact same ▸ peeked
      case isFalse => exact claimed.hits other held found
    · refine seen_or
        (fun other member => (claimed.covered other member).imp_left fun known => ?_) ?_
      · rw [KeyedMap.get?_set]
        split
        · rfl
        · exact known
      · rw [KeyedMap.get?_set, if_pos rfl]
        exact .inl rfl
  | none =>
    have awaits (pending : Nat) : ∀ other ∈ seen ++ [subject],
        (call.cached.get? other).isSome ∨
          s.cache.peek (poolCacheKey cacheNamespace other) = none ∧
            ((call.awaiting.set subject pending).get? other).isSome := by
      refine seen_or (fun other member => (claimed.covered other member).imp_right ?_) ?_
      · rintro ⟨unknown, known⟩
        refine ⟨unknown, ?_⟩
        rw [KeyedMap.get?_set]
        split
        · rfl
        · exact known
      · rw [KeyedMap.get?_set, if_pos rfl]
        exact .inr ⟨peeked, rfl⟩
    dsimp only
    cases flying : inFlightPools.get? subject with
    | some pending =>
      refine ⟨claimed.asked, claimed.registered, ?_, claimed.hits, awaits pending⟩
      intro other owner found
      rw [KeyedMap.get?_set] at found
      split at found
      case isTrue same =>
        cases found
        exact same ▸ flying
      case isFalse => exact claimed.awaited other owner found
    | none =>
      refine ⟨claimed.asked, ?_, ?_, claimed.hits, awaits id⟩
      · intro other owner
        rw [KeyedMap.get?_set, List.mem_append, List.mem_singleton]
        by_cases same : other = subject
        · subst same
          have unregistered : s.inFlightPools.get? other ≠ some owner := fun there => by
            rw [(claimed.registered other owner).mpr (.inl there)] at flying
            cases flying
          simp [unregistered, eq_comm]
        · simp [same, claimed.registered]
      · intro other owner found
        rw [KeyedMap.get?_set] at found ⊢
        split at found
        case isTrue same =>
          rw [if_pos same]
          exact found
        case isFalse other' =>
          rw [if_neg other']
          exact claimed.awaited other owner found

/-- The loop over the subjects. -/
theorem claimed_subjects (s : PoolClient E) (cacheNamespace : String) (id : Nat)
    (subjects : List String) :
    let claimed := subjects.foldl (s.claim cacheNamespace id)
      (⟨subjects, .empty, .empty, [], .settled (.ok .empty)⟩, s.inFlightPools)
    Claimed s cacheNamespace id subjects subjects claimed.1 claimed.2 := by
  have loop (seen later : List String) (state : PoolCall E × KeyedMap String Nat)
      (claimed : Claimed s cacheNamespace id subjects seen state.1 state.2) :
      Claimed s cacheNamespace id subjects (seen ++ later)
        (later.foldl (s.claim cacheNamespace id) state).1
        (later.foldl (s.claim cacheNamespace id) state).2 := by
    induction later generalizing seen state with
    | nil => simpa using claimed
    | cons subject later ih =>
      rw [← List.singleton_append, ← List.append_assoc]
      exact ih (seen ++ [subject]) _ (claimed.claim subject)
  have begun : Claimed s cacheNamespace id subjects []
      ⟨subjects, .empty, .empty, [], .settled (.ok .empty)⟩ s.inFlightPools := by
    refine ⟨rfl, fun subject owner => ?_, nofun, nofun, nofun⟩
    simp
  exact loop [] subjects _ begun

end Claims

section Steps

/-- What an event does, with the guard under which it does it. -/
inductive Effect (number : String → Number) (cacheNamespace : String) (s : PoolClient E) :
    PoolEvent E → PoolClient E → Prop where
  | idle (event : PoolEvent E) : Effect number cacheNamespace s event s
  | began {id subjects} (unused : s.calls id = none) : Effect number cacheNamespace s
      (.resolveAdaPoolsBatch id subjects) (s.resolveAdaPoolsBatch cacheNamespace id subjects)
  | chunkFailed {id call chunk later resolved needsFallback e} (known : s.calls id = some call)
      (asking : call.fetch = .asking chunk later resolved needsFallback) :
      Effect number cacheNamespace s (.answerChunk id (.error e)) (s.settle id call (.error e))
  | chunkAnswered {id call chunk next later resolved needsFallback body}
      (known : s.calls id = some call)
      (asking : call.fetch = .asking chunk (next :: later) resolved needsFallback) :
      Effect number cacheNamespace s (.answerChunk id (.ok body))
        ((s.writePools cacheNamespace (readChunk number chunk body).writes).withCall id
          { call with
            fetch := .asking next later (resolved.setAll (readChunk number chunk body).writes)
              (needsFallback ++ (readChunk number chunk body).needsFallback) })
  | lastAnswered {id call chunk resolved needsFallback body} (known : s.calls id = some call)
      (asking : call.fetch = .asking chunk [] resolved needsFallback) :
      Effect number cacheNamespace s (.answerChunk id (.ok body))
        ((s.writePools cacheNamespace (readChunk number chunk body).writes).beginReads cacheNamespace
          id call (resolved.setAll (readChunk number chunk body).writes)
          (needsFallback ++ (readChunk number chunk body).needsFallback))
  | joined {id call resolved reads pools} (known : s.calls id = some call)
      (reading : call.fetch = .reading resolved reads) (all : s.joined reads = some pools) :
      Effect number cacheNamespace s (.joinReads id)
        (s.settle id call (.ok (resolved.setAll pools)))
  | readFailed {id index call resolved reads e} (known : s.calls id = some call)
      (reading : call.fetch = .reading resolved reads) :
      Effect number cacheNamespace s (.failReads id index) (s.settle id call (.error e))
  | read (subject) : Effect number cacheNamespace s (.resolveAdaPool subject)
      (s.resolveAdaPool cacheNamespace subject).1
  | loaded {promise body attempt} (known : s.cache.attempts promise = some attempt) :
      Effect number cacheNamespace s (.answerPools promise body)
        { s with
          cache := s.cache.apply (.answer promise (body.map fun pools =>
            pickMostLiquidAdaPool number attempt.load (pools.getD []))) }
  | started (promise) : Effect number cacheNamespace s (.startLoad promise)
      { s with cache := s.cache.apply (.startLoad promise) }
  | handled (promise) : Effect number cacheNamespace s (.handle promise)
      { s with cache := s.cache.apply (.handle promise) }
  | finished (promise) : Effect number cacheNamespace s (.finish promise)
      { s with cache := s.cache.apply (.finish promise) }
  | cleared (start) : Effect number cacheNamespace s (.clear start)
      { s with cache := s.cache.apply (.clear start) }
  | ticked (now) : Effect number cacheNamespace s (.tick now)
      { s with cache := s.cache.apply (.tick now) }

theorem apply_effect (number : String → Number) (cacheNamespace : String) (s : PoolClient E)
    (event : PoolEvent E) :
    Effect number cacheNamespace s event (s.apply number cacheNamespace event) := by
  cases event with
  | resolveAdaPoolsBatch id subjects =>
    rw [apply]
    cases unused : s.calls id with
    | some call => exact .idle _
    | none => exact .began unused
  | answerChunk id body =>
    rw [apply, answerChunk]
    cases known : s.calls id with
    | none => exact .idle _
    | some call =>
      dsimp only
      split
      case h_2 => exact .idle _
      case h_1 chunk later resolved needsFallback asking =>
        cases body with
        | error e => exact .chunkFailed known asking
        | ok body =>
          cases later with
          | cons next later => exact .chunkAnswered known asking
          | nil => exact .lastAnswered known asking
  | joinReads id =>
    rw [apply, joinReads]
    cases known : s.calls id with
    | none => exact .idle _
    | some call =>
      dsimp only
      split
      case h_2 => exact .idle _
      case h_1 resolved reads reading =>
        split
        case h_1 pools all => exact .joined known reading all
        case h_2 => exact .idle _
  | failReads id index =>
    rw [apply, failReads]
    cases known : s.calls id with
    | none => exact .idle _
    | some call =>
      dsimp only
      split
      case h_2 => exact .idle _
      case h_1 resolved reads reading =>
        split
        · exact .readFailed known reading
        · exact .idle _
  | answerPools promise body =>
    rw [apply, answerPools]
    cases known : s.cache.attempts promise with
    | none => exact .idle _
    | some attempt => exact .loaded known
  | resolveAdaPool subject => exact .read subject
  | startLoad promise => exact .started promise
  | handle promise => exact .handled promise
  | finish promise => exact .finished promise
  | clear start => exact .cleared start
  | tick now => exact .ticked now

/-- What an event makes of the calls and of the promises in flight. -/
inductive CallStep (s : PoolClient E) (cacheNamespace : String) (s' : PoolClient E) : Prop where
  | kept (calls : s'.calls = s.calls) (inFlightPools : s'.inFlightPools = s.inFlightPools)
  | began (id : Nat) (subjects : List String) (call : PoolCall E) (unused : s.calls id = none)
      (claimed : Claimed s cacheNamespace id subjects subjects call s'.inFlightPools)
      (fetches : call.fetch = fetchAdaPools call.owned)
      (calls : s'.calls = Function.update s.calls id (some call))
  | moved (id : Nat) (call : PoolCall E) (fetch : Fetch E) (known : s.calls id = some call)
      (before : call.fetch.Outstanding) (after : fetch.Outstanding)
      (calls : s'.calls = Function.update s.calls id (some { call with fetch }))
      (inFlightPools : s'.inFlightPools = s.inFlightPools)
  | settled (id : Nat) (call : PoolCall E)
      (outcome : Except E (KeyedMap String (Option AdaPool))) (known : s.calls id = some call)
      (before : call.fetch.Outstanding)
      (calls : s'.calls = Function.update s.calls id (some { call with fetch := .settled outcome }))
      (inFlightPools : s'.inFlightPools = call.owned.foldl KeyedMap.delete s.inFlightPools)

theorem readPools_fields (cacheNamespace : String) (subjects : List String) (s : PoolClient E) :
    (readPools cacheNamespace subjects s).1.calls = s.calls ∧
      (readPools cacheNamespace subjects s).1.inFlightPools = s.inFlightPools := by
  induction subjects generalizing s with
  | nil => exact ⟨rfl, rfl⟩
  | cons subject subjects ih => exact ih (s.resolveAdaPool cacheNamespace subject).1

theorem Effect.callStep {event : PoolEvent E} (effect : Effect number cacheNamespace s event s') :
    CallStep s cacheNamespace s' := by
  have outstanding {fetch : Fetch E} {chunk : List String} {later : List (List String)}
      {resolved : KeyedMap String (Option AdaPool)} {needsFallback : List String}
      (asking : fetch = .asking chunk later resolved needsFallback) : fetch.Outstanding := by
    rw [asking]
    trivial
  have awaited {fetch : Fetch E} {resolved : KeyedMap String (Option AdaPool)}
      {reads : List (String × Reading (Option AdaPool))}
      (reading : fetch = .reading resolved reads) : fetch.Outstanding := by
    rw [reading]
    trivial
  cases effect with
  | @began id subjects unused =>
    let state := subjects.foldl (s.claim cacheNamespace id)
      (⟨subjects, .empty, .empty, [], .settled (.ok .empty)⟩, s.inFlightPools)
    have claimed : Claimed s cacheNamespace id subjects subjects state.1 state.2 :=
      claimed_subjects s cacheNamespace id subjects
    exact .began id subjects { state.1 with fetch := fetchAdaPools state.1.owned } unused
      ⟨claimed.asked, claimed.registered, claimed.awaited, claimed.hits, claimed.covered⟩ rfl rfl
  | chunkFailed known asking => exact .settled _ _ _ known (outstanding asking) rfl rfl
  | chunkAnswered known asking =>
    exact .moved _ _ (.asking _ _ _ _) known (outstanding asking) trivial rfl rfl
  | @lastAnswered id call chunk resolved needsFallback body known asking =>
    obtain ⟨calls, inFlightPools⟩ := readPools_fields cacheNamespace
      (needsFallback ++ (readChunk number chunk body).needsFallback)
      (s.writePools cacheNamespace (readChunk number chunk body).writes)
    exact .moved _ _ (.reading _ _) known (outstanding asking) trivial
      (congrArg (fun calls => Function.update calls id _) calls) inFlightPools
  | joined known reading => exact .settled _ _ _ known (awaited reading) rfl rfl
  | readFailed known reading => exact .settled _ _ _ known (awaited reading) rfl rfl
  | _ => exact .kept rfl rfl

theorem get?_deletes (keys : List String) (m : KeyedMap String Nat) (key : String) :
    (keys.foldl KeyedMap.delete m).get? key = if key ∈ keys then none else m.get? key := by
  induction keys generalizing m with
  | nil => rfl
  | cons other keys ih =>
    rw [List.foldl_cons, ih, KeyedMap.get?_delete]
    by_cases later : key ∈ keys
    · simp [later]
    · by_cases same : key = other
      · simp [same]
      · simp [later, same]

end Steps

section Soundness

/-- The promises in flight are those under way, what is awaited is owned by a call, and a call
has its subjects cached or awaited. -/
structure Sound (s : PoolClient E) : Prop where
  registered : ∀ subject id, s.inFlightPools.get? subject = some id ↔ s.Resolving id subject
  awaited : ∀ id call, s.calls id = some call → ∀ subject owner,
    call.awaiting.get? subject = some owner →
      ∃ call', s.calls owner = some call' ∧ subject ∈ call'.owned
  covered : ∀ id call, s.calls id = some call → ∀ subject ∈ call.subjects,
    (call.cached.get? subject).isSome ∨ (call.awaiting.get? subject).isSome

theorem fetchAdaPools_outstanding {owned : List String} {subject : String}
    (member : subject ∈ owned) : (fetchAdaPools owned : Fetch E).Outstanding := by
  unfold fetchAdaPools
  have chunked := Splitting.flatten_toChunks MULTI_TOKEN_BATCH owned
  cases chunks : owned.toChunks MULTI_TOKEN_BATCH with
  | nil =>
    rw [chunks] at chunked
    cases chunked
    cases member
  | cons chunk later => exact trivial

section Refetched

variable {id : Nat} {call : PoolCall E} {fetch : Fetch E}

/-- Of a call that has only moved on with its fetch, the rest stays. -/
theorem refetched_origin (known : s.calls id = some call)
    (calls : s'.calls = Function.update s.calls id (some { call with fetch })) {other : Nat}
    {call' : PoolCall E} (there : s'.calls other = some call') :
    ∃ before, s.calls other = some before ∧ call' = { before with fetch := call'.fetch } := by
  rw [calls, Function.update_apply] at there
  split at there
  case isTrue same =>
    cases there
    exact ⟨call, same ▸ known, rfl⟩
  case isFalse => exact ⟨call', there, rfl⟩

theorem refetched_kept (calls : s'.calls = Function.update s.calls id (some { call with fetch }))
    (known : s.calls id = some call) {other : Nat} {before : PoolCall E}
    (there : s.calls other = some before) :
    ∃ call', s'.calls other = some call' ∧ call'.owned = before.owned := by
  rw [calls, Function.update_apply]
  split
  case isTrue same =>
    subst same
    cases known.symm.trans there
    exact ⟨_, rfl, rfl⟩
  case isFalse => exact ⟨before, there, rfl⟩

theorem Sound.refetched (sound : s.Sound) (known : s.calls id = some call)
    (calls : s'.calls = Function.update s.calls id (some { call with fetch }))
    (registered : ∀ subject owner, s'.inFlightPools.get? subject = some owner ↔
      s'.Resolving owner subject) : s'.Sound where
  registered := registered
  awaited id' call' there subject owner awaits := by
    obtain ⟨before, there', same⟩ := refetched_origin known calls there
    rw [same] at awaits
    obtain ⟨awaited, held, owns⟩ := sound.awaited id' before there' subject owner awaits
    obtain ⟨after, held', same'⟩ := refetched_kept calls known held
    exact ⟨after, held', same' ▸ owns⟩
  covered id' call' there subject member := by
    obtain ⟨before, there', same⟩ := refetched_origin known calls there
    rw [same] at member ⊢
    exact sound.covered id' before there' subject member

/-- What is under way but for the call, and the call as far as its fetch goes. -/
theorem resolving_refetched
    (calls : s'.calls = Function.update s.calls id (some { call with fetch })) {owner : Nat}
    {subject : String} : s'.Resolving owner subject ↔
      owner ≠ id ∧ s.Resolving owner subject ∨
        owner = id ∧ subject ∈ call.owned ∧ fetch.Outstanding := by
  unfold Resolving
  rw [calls, Function.update_apply]
  by_cases same : owner = id <;> simp [same]

end Refetched

theorem Sound.step (sound : s.Sound) (step : CallStep s cacheNamespace s') : s'.Sound := by
  cases step with
  | kept calls inFlightPools =>
    refine ⟨?_, ?_, ?_⟩
    · rw [inFlightPools]
      unfold Resolving
      rw [calls]
      exact sound.registered
    · rw [calls]
      exact sound.awaited
    · rw [calls]
      exact sound.covered
  | began id subjects call unused claimed fetches calls =>
    have others (owner : Nat) (other : owner ≠ id) : s'.calls owner = s.calls owner := by
      rw [calls, Function.update_of_ne other]
    have own : s'.calls id = some call := by rw [calls, Function.update_self]
    have kept {owner : Nat} {known : PoolCall E} (there : s.calls owner = some known) :
        owner ≠ id := by
      rintro rfl
      rw [unused] at there
      cases there
    have resolving (owner : Nat) (subject : String) : s'.Resolving owner subject ↔
        s.Resolving owner subject ∨ owner = id ∧ subject ∈ call.owned := by
      unfold Resolving
      by_cases same : owner = id
      · subst same
        rw [own, unused]
        constructor
        · rintro ⟨_, found, member, -⟩
          cases found
          exact .inr ⟨rfl, member⟩
        · rintro (⟨_, found, -⟩ | ⟨-, member⟩)
          · cases found
          · exact ⟨call, rfl, member, fetches ▸ fetchAdaPools_outstanding member⟩
      · rw [others owner same]
        simp [same]
    refine ⟨?_, ?_, ?_⟩
    · intro subject owner
      rw [claimed.registered, resolving, sound.registered]
    · intro id' call' there subject owner awaits
      by_cases same : id' = id
      · subst same
        rw [own] at there
        cases there
        have registered := claimed.awaited subject owner awaits
        rw [claimed.registered, sound.registered] at registered
        obtain ⟨known, there, owns, -⟩ | ⟨rfl, owns⟩ := registered
        · exact ⟨known, (others owner (kept there)).trans there, owns⟩
        · exact ⟨call, own, owns⟩
      · rw [others id' same] at there
        obtain ⟨known, there', owns⟩ := sound.awaited id' call' there subject owner awaits
        exact ⟨known, (others owner (kept there')).trans there', owns⟩
    · intro id' call' there subject member
      by_cases same : id' = id
      · subst same
        rw [own] at there
        cases there
        rw [claimed.asked] at member
        exact (claimed.covered subject member).imp_right And.right
      · rw [others id' same] at there
        exact sound.covered id' call' there subject member
  | moved id call fetch known before after calls inFlightPools =>
    refine sound.refetched known calls fun subject owner => ?_
    rw [inFlightPools, sound.registered, resolving_refetched calls]
    by_cases same : owner = id
    · subst same
      simp [Resolving, known, before, after]
    · simp [same]
  | settled id call outcome known before calls inFlightPools =>
    refine sound.refetched known calls fun subject owner => ?_
    rw [inFlightPools, get?_deletes, resolving_refetched calls]
    have ended : ¬ (Fetch.settled outcome).Outstanding := fun outstanding => outstanding
    by_cases owned : subject ∈ call.owned
    · have own := (sound.registered subject id).mpr ⟨call, known, owned, before⟩
      have only (resolving : s.Resolving owner subject) : owner = id := by
        have there := (sound.registered subject owner).mpr resolving
        rw [own] at there
        exact (Option.some.inj there).symm
      simp only [owned, if_true, ended, and_false, or_false, reduceCtorEq, false_iff, not_and]
      exact fun other resolving => other (only resolving)
    · rw [if_neg owned, sound.registered]
      simp only [owned, false_and, and_false, or_false]
      constructor
      · rintro resolving
        refine ⟨?_, resolving⟩
        rintro rfl
        obtain ⟨call', there, member, -⟩ := resolving
        rw [known] at there
        cases there
        exact owned member
      · exact And.right

end Soundness

/-! ### The cache of the client -/

section Stock

def readEvents (cacheNamespace : String) :
    List String → Nat → List (Cache.Event (Option AdaPool) E String)
  | [], _ => []
  | subject :: subjects, promise =>
      .read (poolCacheKey cacheNamespace subject) (.ofTtl TOKEN_POOL_TTL_MS) subject promise ::
        readEvents cacheNamespace subjects (promise + 1)

def writeEvent (cacheNamespace : String) (write : String × Option AdaPool) :
    Cache.Event (Option AdaPool) E String :=
  .set (poolCacheKey cacheNamespace write.1) write.2 TOKEN_POOL_TTL_MS

/-- A read that is awaited: a hit, or a promise of its key. -/
def Serves (cacheNamespace : String) (cache : MemoryCache (Option AdaPool) E String)
    (read : String × Reading (Option AdaPool)) : Prop :=
  ∀ promise, read.2 = .attempt promise →
    ∃ attempt, cache.attempts promise = some attempt ∧
      attempt.key = poolCacheKey cacheNamespace read.1

theorem Serves.after {cache : MemoryCache (Option AdaPool) E String}
    {read : String × Reading (Option AdaPool)} (serves : Serves cacheNamespace cache read)
    (events : List (Cache.Event (Option AdaPool) E String)) :
    Serves cacheNamespace (cache.after events) read := by
  intro promise made
  obtain ⟨attempt, there, same⟩ := serves promise made
  obtain ⟨phase, kept⟩ := MemoryCache.attempt_kept_after events there
  exact ⟨_, kept, same⟩

/-- Promises are numbered as they are made. -/
def Numbered (s : PoolClient E) : Prop :=
  ∀ promise, s.promises ≤ promise → s.cache.attempts promise = none

theorem resolveAdaPool_cache (cacheNamespace : String) (numbered : s.Numbered) (subject : String) :
    (s.resolveAdaPool cacheNamespace subject).1.cache =
        s.cache.apply (.read (poolCacheKey cacheNamespace subject) (.ofTtl TOKEN_POOL_TTL_MS)
          subject s.promises) ∧
      (s.resolveAdaPool cacheNamespace subject).1.Numbered := by
  have unused := numbered s.promises (Nat.le_refl _)
  have same : (s.resolveAdaPool cacheNamespace subject).1.cache =
      s.cache.apply (.read (poolCacheKey cacheNamespace subject) (.ofTtl TOKEN_POOL_TTL_MS)
        subject s.promises) := by
    rw [MemoryCache.apply, if_neg (by rw [unused]; exact Bool.false_ne_true)]
    rfl
  refine ⟨same, fun promise later => ?_⟩
  rw [same]
  have next : s.promises + 1 ≤ promise := later
  refine (MemoryCache.apply_effect s.cache _).unused_kept
    (numbered promise (Nat.le_of_succ_le next)) fun key policy load other => ?_
  injection other with _ _ _ made
  omega

/-- The reads of a fallback, one after the other. -/
theorem readPools_cache (cacheNamespace : String) (numbered : s.Numbered)
    (consistent : s.cache.Consistent) (subjects : List String) :
    (readPools cacheNamespace subjects s).1.cache =
        s.cache.after (readEvents cacheNamespace subjects s.promises) ∧
      (readPools cacheNamespace subjects s).1.Numbered ∧
      ∀ read ∈ (readPools cacheNamespace subjects s).2,
        Serves cacheNamespace (readPools cacheNamespace subjects s).1.cache read := by
  induction subjects generalizing s with
  | nil => exact ⟨rfl, numbered, nofun⟩
  | cons subject subjects ih =>
    obtain ⟨read, numbered'⟩ := resolveAdaPool_cache cacheNamespace numbered subject
    have consistent' : (s.resolveAdaPool cacheNamespace subject).1.cache.Consistent := by
      rw [read]
      exact consistent.effect (MemoryCache.apply_effect s.cache _)
    obtain ⟨cache, later, serves⟩ := ih numbered' consistent'
    refine ⟨?_, later, ?_⟩
    · rw [read] at cache
      exact cache
    · intro made member
      obtain rfl | member := List.mem_cons.mp member
      · have first : Serves cacheNamespace (s.resolveAdaPool cacheNamespace subject).1.cache
            (subject, (s.resolveAdaPool cacheNamespace subject).2) :=
          fun promise reading => consistent.read_attempt reading
        have whole : (readPools cacheNamespace (subject :: subjects) s).1.cache =
            (s.resolveAdaPool cacheNamespace subject).1.cache.after
              (readEvents cacheNamespace subjects (s.promises + 1)) := cache
        rw [whole]
        exact first.after _
      · exact serves made member

theorem writes_cache (writes : List (String × Option AdaPool))
    (cache : MemoryCache (Option AdaPool) E String) :
    writes.foldl (writePool cacheNamespace) cache =
      cache.after (writes.map (writeEvent cacheNamespace)) := by
  induction writes generalizing cache with
  | nil => rfl
  | cons write writes ih => exact ih _

/-- Operations that read nothing make no promise. -/
theorem Numbered.after (numbered : s.Numbered)
    {events : List (Cache.Event (Option AdaPool) E String)}
    (silent : ∀ event ∈ events, ∀ key policy load promise, event ≠ .read key policy load promise) :
    ({ s with cache := s.cache.after events } : PoolClient E).Numbered := by
  intro promise later
  refine Machine.run_of_mem (P := fun cache : MemoryCache (Option AdaPool) E String =>
    cache.attempts promise = none) ?_ (numbered promise later)
  intro event member cache unused
  exact (MemoryCache.apply_effect cache event).unused_kept unused fun key policy load =>
    silent event member key policy load promise

/-- What an event may do to the cache. -/
inductive CacheOp (number : String → Number) (cacheNamespace : String) (s : PoolClient E) :
    PoolEvent E → Cache.Event (Option AdaPool) E String → Prop where
  | write {id call chunk later resolved needsFallback body write} (known : s.calls id = some call)
      (asking : call.fetch = .asking chunk later resolved needsFallback)
      (member : write ∈ (readChunk number chunk body).writes) :
      CacheOp number cacheNamespace s (.answerChunk id (.ok body)) (writeEvent cacheNamespace write)
  | read (event : PoolEvent E) (subject : String) (promise : Nat) :
      CacheOp number cacheNamespace s event
        (.read (poolCacheKey cacheNamespace subject) (.ofTtl TOKEN_POOL_TTL_MS) subject promise)
  | answer {promise body attempt} (known : s.cache.attempts promise = some attempt) :
      CacheOp number cacheNamespace s (.answerPools promise body) (.answer promise
        (body.map fun pools => pickMostLiquidAdaPool number attempt.load (pools.getD [])))
  | startLoad (promise : Nat) :
      CacheOp number cacheNamespace s (.startLoad promise) (.startLoad promise)
  | handle (promise : Nat) : CacheOp number cacheNamespace s (.handle promise) (.handle promise)
  | finish (promise : Nat) : CacheOp number cacheNamespace s (.finish promise) (.finish promise)
  | clear (start : Option String) : CacheOp number cacheNamespace s (.clear start) (.clear start)
  | tick (now : Nat) : CacheOp number cacheNamespace s (.tick now) (.tick now)

theorem mem_readEvents {subjects : List String} {promise : Nat}
    {event : Cache.Event (Option AdaPool) E String}
    (member : event ∈ readEvents cacheNamespace subjects promise) :
    ∃ subject promise', event =
      .read (poolCacheKey cacheNamespace subject) (.ofTtl TOKEN_POOL_TTL_MS) subject promise' := by
  induction subjects generalizing promise with
  | nil => cases member
  | cons subject subjects ih =>
    obtain rfl | later := List.mem_cons.mp member
    · exact ⟨subject, promise, rfl⟩
    · exact ih later

/-- The promises are in order, and what is awaited is a promise of its key. -/
structure Stocked (cacheNamespace : String) (s : PoolClient E) : Prop where
  consistent : s.cache.Consistent
  numbered : s.Numbered
  serves : ∀ id call resolved reads, s.calls id = some call →
    call.fetch = .reading resolved reads → ∀ read ∈ reads, Serves cacheNamespace s.cache read

theorem writePools_numbered (numbered : s.Numbered) (writes : List (String × Option AdaPool)) :
    (s.writePools cacheNamespace writes).Numbered := by
  have silent : ∀ event ∈ writes.map (writeEvent (E := E) cacheNamespace),
      ∀ key policy load promise, event ≠ .read key policy load promise := by
    intro event member key policy load promise same
    obtain ⟨write, -, rfl⟩ := List.mem_map.mp member
    cases same
  have after := numbered.after silent
  rw [← writes_cache] at after
  exact after

theorem writePools_consistent (cacheNamespace : String) (consistent : s.cache.Consistent)
    (writes : List (String × Option AdaPool)) :
    (s.writePools cacheNamespace writes).cache.Consistent := by
  show (writes.foldl (writePool cacheNamespace) s.cache).Consistent
  rw [writes_cache]
  exact consistent.after _

/-- An event is a series of operations of the cache. -/
theorem Effect.cache_ops {event : PoolEvent E} (effect : Effect number cacheNamespace s event s')
    (stocked : s.Stocked cacheNamespace) :
    ∃ events, s'.cache = s.cache.after events ∧
      ∀ op ∈ events, CacheOp number cacheNamespace s event op := by
  have lone {op : Cache.Event (Option AdaPool) E String}
      (allowed : CacheOp number cacheNamespace s event op) :
      ∃ events, s.cache.apply op = s.cache.after events ∧
        ∀ op ∈ events, CacheOp number cacheNamespace s event op :=
    ⟨[op], rfl, by simpa using allowed⟩
  have none : ∃ events, s.cache = s.cache.after events ∧
      ∀ op ∈ events, CacheOp number cacheNamespace s event op := ⟨[], rfl, nofun⟩
  cases effect with
  | chunkAnswered known asking =>
    refine ⟨_, writes_cache _ _, fun op member => ?_⟩
    obtain ⟨write, there, rfl⟩ := List.mem_map.mp member
    exact .write known asking there
  | @lastAnswered id call chunk resolved needsFallback body known asking =>
    let written := s.writePools cacheNamespace (readChunk number chunk body).writes
    have numbered : written.Numbered := writePools_numbered stocked.numbered _
    have consistent : written.cache.Consistent :=
      writePools_consistent cacheNamespace stocked.consistent _
    have cache : written.cache = s.cache.after
      ((readChunk number chunk body).writes.map (writeEvent cacheNamespace)) := writes_cache _ _
    obtain ⟨reads, -, -⟩ := readPools_cache cacheNamespace numbered consistent
      (needsFallback ++ (readChunk number chunk body).needsFallback)
    refine ⟨(readChunk number chunk body).writes.map (writeEvent cacheNamespace) ++
      readEvents cacheNamespace (needsFallback ++ (readChunk number chunk body).needsFallback)
        written.promises, ?_, ?_⟩
    · rw [MemoryCache.after, Machine.run_append]
      rw [cache] at reads
      exact reads
    · intro op member
      obtain write | read := List.mem_append.mp member
      · obtain ⟨write, there, rfl⟩ := List.mem_map.mp write
        exact .write known asking there
      · obtain ⟨subject, promise, rfl⟩ := mem_readEvents read
        exact .read _ subject promise
  | read subject =>
    rw [(resolveAdaPool_cache cacheNamespace stocked.numbered subject).1]
    exact lone (.read _ subject s.promises)
  | loaded known => exact lone (.answer known)
  | started promise => exact lone (.startLoad promise)
  | handled promise => exact lone (.handle promise)
  | finished promise => exact lone (.finish promise)
  | cleared start => exact lone (.clear start)
  | ticked now => exact lone (.tick now)
  | _ => exact none

theorem Effect.numbered {event : PoolEvent E} (effect : Effect number cacheNamespace s event s')
    (stocked : s.Stocked cacheNamespace) : s'.Numbered := by
  have lone {op : Cache.Event (Option AdaPool) E String}
      (silent : ∀ key policy load promise, op ≠ .read key policy load promise) :
      ({ s with cache := s.cache.apply op } : PoolClient E).Numbered := by
    have only : ∀ event ∈ [op], ∀ key policy load promise,
        event ≠ .read key policy load promise := by
      simpa using silent
    exact stocked.numbered.after only
  cases effect with
  | chunkAnswered => exact writePools_numbered stocked.numbered _
  | @lastAnswered id call chunk resolved needsFallback body =>
    have consistent := writePools_consistent cacheNamespace stocked.consistent
      (readChunk number chunk body).writes
    exact (readPools_cache cacheNamespace (writePools_numbered stocked.numbered _) consistent _).2.1
  | read subject => exact (resolveAdaPool_cache cacheNamespace stocked.numbered subject).2
  | loaded => exact lone nofun
  | started => exact lone nofun
  | handled => exact lone nofun
  | finished => exact lone nofun
  | cleared => exact lone nofun
  | ticked => exact lone nofun
  | _ => exact stocked.numbered

theorem fetchAdaPools_unread (owned : List String) (resolved : KeyedMap String (Option AdaPool))
    (reads : List (String × Reading (Option AdaPool))) :
    (fetchAdaPools owned : Fetch E) ≠ .reading resolved reads := by
  unfold fetchAdaPools
  split <;> nofun

theorem Effect.stocked {event : PoolEvent E} (effect : Effect number cacheNamespace s event s')
    (stocked : s.Stocked cacheNamespace) : s'.Stocked cacheNamespace := by
  obtain ⟨events, cache, -⟩ := effect.cache_ops stocked
  refine ⟨cache ▸ stocked.consistent.after events, effect.numbered stocked, ?_⟩
  intro id call resolved reads there reading read member
  have carried (before : s.calls id = some call) : Serves cacheNamespace s'.cache read := by
    rw [cache]
    exact (stocked.serves id call resolved reads before reading read member).after events
  have refetched {id' : Nat} {call' : PoolCall E}
      (calls : s'.calls = Function.update s.calls id' (some call'))
      (unread : ∀ resolved reads, call'.fetch ≠ .reading resolved reads) :
      Serves cacheNamespace s'.cache read := by
    rw [calls, Function.update_apply] at there
    split at there
    · cases there
      exact absurd reading (unread resolved reads)
    · exact carried there
  cases effect with
  | began => exact refetched rfl fun _ _ => fetchAdaPools_unread _ _ _
  | chunkFailed => exact refetched rfl nofun
  | chunkAnswered => exact refetched rfl nofun
  | joined => exact refetched rfl nofun
  | readFailed => exact refetched rfl nofun
  | @lastAnswered id' call' chunk resolved' needsFallback body known asking =>
    let written := s.writePools cacheNamespace (readChunk number chunk body).writes
    have numbered : written.Numbered := writePools_numbered stocked.numbered _
    have consistent : written.cache.Consistent :=
      writePools_consistent cacheNamespace stocked.consistent _
    obtain ⟨-, -, serves⟩ := readPools_cache cacheNamespace numbered consistent
      (needsFallback ++ (readChunk number chunk body).needsFallback)
    obtain ⟨calls, -⟩ := readPools_fields cacheNamespace
      (needsFallback ++ (readChunk number chunk body).needsFallback) written
    change Function.update (readPools cacheNamespace _ written).1.calls id' _ id = some call
      at there
    rw [calls, Function.update_apply] at there
    split at there
    · cases there
      cases reading
      exact serves read member
    · exact carried there
  | _ => exact carried there

/-- What the operations bring in fits, whatever phase the loads are in. -/
theorem typed_ops {fits : String → Option AdaPool → Prop}
    {meant : String → CachePolicy → String → Prop}
    {cache : MemoryCache (Option AdaPool) E String} (typed : cache.Typed fits meant)
    {events : List (Cache.Event (Option AdaPool) E String)}
    (brings : ∀ op ∈ events, ∀ later : MemoryCache (Option AdaPool) E String,
      (∀ promise attempt, cache.attempts promise = some attempt →
        ∃ phase, later.attempts promise = some { attempt with phase }) →
      later.Brings fits meant op) :
    (cache.after events).Typed fits meant := by
  refine (Machine.run_of_mem (P := fun later : MemoryCache (Option AdaPool) E String =>
    later.Typed fits meant ∧ ∀ promise attempt, cache.attempts promise = some attempt →
      ∃ phase, later.attempts promise = some { attempt with phase }) ?_ ?_).1
  · rintro op member later ⟨typed, kept⟩
    have effect := MemoryCache.apply_effect later op
    refine ⟨typed.effect effect (brings op member later kept), fun promise attempt there => ?_⟩
    obtain ⟨phase, there'⟩ := kept promise attempt there
    obtain ⟨phase', kept'⟩ := effect.attempt_kept there'
    exact ⟨phase', kept'⟩
  · exact ⟨typed, fun promise attempt there => ⟨attempt.phase, there⟩⟩

end Stock

section Runs

theorem create_sound (maxEntries now : Nat) : (create maxEntries now : PoolClient E).Sound where
  registered subject id := by
    constructor
    · intro there
      cases there
    · rintro ⟨call, there, -⟩
      cases there
  awaited := nofun
  covered := nofun

theorem create_stocked (cacheNamespace : String) (maxEntries now : Nat) :
    (create maxEntries now : PoolClient E).Stocked cacheNamespace where
  consistent := MemoryCache.create_consistent maxEntries now
  numbered _ _ := rfl
  serves := nofun

theorem after_sound (number : String → Number) (cacheNamespace : String)
    (events : List (PoolEvent E)) (sound : s.Sound) :
    (s.after number cacheNamespace events).Sound :=
  Machine.run_preserves
    (fun _ event kept => kept.step (apply_effect number cacheNamespace _ event).callStep) sound

theorem after_stocked (number : String → Number) (events : List (PoolEvent E))
    (stocked : s.Stocked cacheNamespace) :
    (s.after number cacheNamespace events).Stocked cacheNamespace :=
  Machine.run_preserves
    (fun _ event kept => (apply_effect number cacheNamespace _ event).stocked kept) stocked

/-- A successful answer tells the value that is cached under a key. -/
def Tells (number : String → Number) (cacheNamespace : String) (key : String)
    (value : Option AdaPool) (s : PoolClient E) : PoolEvent E → Prop
  | .answerChunk id (.ok body) => ∃ call chunk later resolved needsFallback,
      s.calls id = some call ∧ call.fetch = .asking chunk later resolved needsFallback ∧
        ∃ write ∈ (readChunk number chunk body).writes,
          poolCacheKey cacheNamespace write.1 = key ∧ write.2 = value
  | .answerPools promise (.ok pools) => ∃ attempt, s.cache.attempts promise = some attempt ∧
      attempt.key = key ∧ pickMostLiquidAdaPool number attempt.load (pools.getD []) = value
  | _ => False

/-- Every value in the cache, or brought by a load, was told by a successful answer of the run. -/
theorem after_told (maxEntries now : Nat) (events : List (PoolEvent E)) :
    ((create maxEntries now).after number cacheNamespace events).cache.Typed
      (fun key value => Machine.Occurs (apply number cacheNamespace)
        (Tells number cacheNamespace key value) (create maxEntries now) events)
      fun _ _ _ => True := by
  induction events using List.reverseRecOn with
  | nil => exact MemoryCache.create_typed maxEntries now
  | append_singleton events event ih =>
    have stocked := after_stocked number events
      (create_stocked (E := E) cacheNamespace maxEntries now)
    obtain ⟨ops, cache, allowed⟩ := (apply_effect number cacheNamespace _ event).cache_ops stocked
    have last {key : String} {value : Option AdaPool}
        (tells : Tells number cacheNamespace key value
          ((create maxEntries now).after number cacheNamespace events) event) :
        Machine.Occurs (apply number cacheNamespace) (Tells number cacheNamespace key value)
          (create maxEntries now) (events ++ [event]) :=
      Machine.occurs_append.mpr (.inr (.inl tells))
    have before {key : String} {value : Option AdaPool}
        (told : Machine.Occurs (apply number cacheNamespace) (Tells number cacheNamespace key value)
          (create maxEntries now) events) :
        Machine.Occurs (apply number cacheNamespace) (Tells number cacheNamespace key value)
          (create maxEntries now) (events ++ [event]) :=
      Machine.occurs_append.mpr (.inl told)
    have next : ((create maxEntries now).after number cacheNamespace (events ++ [event])).cache =
        ((create maxEntries now).after number cacheNamespace events).cache.after ops := by
      rw [after, Machine.run_append]
      exact cache
    rw [next]
    have typed : ((create maxEntries now).after number cacheNamespace events).cache.Typed
        (fun key value => Machine.Occurs (apply number cacheNamespace)
          (Tells number cacheNamespace key value) (create maxEntries now) (events ++ [event]))
        fun _ _ _ => True := by
      refine ⟨fun key entry found => before (ih.entries key entry found), ?_, fun _ _ _ => trivial⟩
      intro promise attempt value there brought
      exact before (ih.attempts promise attempt value there brought)
    refine typed_ops typed ?_
    intro op member later kept
    cases allowed op member with
    | write known asking there => exact last ⟨_, _, _, _, _, known, asking, _, there, rfl, rfl⟩
    | @answer promise body attempt known =>
      cases body with
      | error e => trivial
      | ok pools =>
        intro attempt' there
        obtain ⟨phase, there'⟩ := kept promise attempt known
        cases there.symm.trans there'
        exact last ⟨attempt, known, rfl, rfl⟩
    | _ => trivial

end Runs

section Sharing

/-- No request is out, and no microtask is left to run. -/
structure Idle (s : PoolClient E) : Prop where
  answered : ∀ id call, s.calls id = some call → ∀ chunk later resolved needsFallback,
    call.fetch ≠ .asking chunk later resolved needsFallback
  loaded : ∀ promise attempt, s.cache.attempts promise = some attempt →
    ∃ outcome, attempt.phase = .settled outcome
  joined : ∀ id call, s.calls id = some call → ∀ resolved reads,
    call.fetch = .reading resolved reads → ∃ read ∈ reads, s.cache.settlement read.2 = none

theorem settlement_of_settled {cache : MemoryCache (Option AdaPool) E String}
    {read : String × Reading (Option AdaPool)} (serves : Serves cacheNamespace cache read)
    (loaded : ∀ promise attempt, cache.attempts promise = some attempt →
      ∃ outcome, attempt.phase = .settled outcome) : cache.settlement read.2 ≠ none := by
  cases reading : read.2 with
  | hit value => nofun
  | attempt promise =>
    obtain ⟨attempt, there, -⟩ := serves promise reading
    obtain ⟨outcome, phase⟩ := loaded promise attempt there
    simp [MemoryCache.settlement, there, phase]

/-- In an idle state every fetch is over. -/
theorem Idle.settled (idle : s.Idle) (stocked : s.Stocked cacheNamespace) {id : Nat}
    {call : PoolCall E} (there : s.calls id = some call) :
    ∃ outcome, call.fetch = .settled outcome := by
  cases fetch : call.fetch with
  | settled outcome => exact ⟨outcome, rfl⟩
  | asking chunk later resolved needsFallback =>
    exact absurd fetch (idle.answered id call there chunk later resolved needsFallback)
  | reading resolved reads =>
    obtain ⟨read, member, pending⟩ := idle.joined id call there resolved reads fetch
    have serves := stocked.serves id call resolved reads there fetch read member
    exact absurd pending (settlement_of_settled serves idle.loaded)

theorem awaitAll_isSome {awaiting : List (String × Nat)}
    (settled : ∀ entry ∈ awaiting, (s.settlement entry.1 entry.2).isSome) :
    (s.awaitAll awaiting).isSome := by
  induction awaiting with
  | nil => rfl
  | cons entry awaiting ih =>
    obtain ⟨here, later⟩ := List.forall_mem_cons.mp settled
    obtain ⟨result, found⟩ := Option.isSome_iff_exists.mp here
    obtain ⟨results, rest⟩ := Option.isSome_iff_exists.mp (ih later)
    rw [awaitAll, found, rest]
    cases result with
    | error e => rfl
    | ok pool => cases results <;> rfl

/-- `Promise.all` resolves to one value for each promise. -/
theorem awaitAll_keys {awaiting : List (String × Nat)} {pools : List (String × Option AdaPool)}
    (all : s.awaitAll awaiting = some (.ok pools)) :
    pools.map Prod.fst = awaiting.map Prod.fst := by
  induction awaiting generalizing pools with
  | nil =>
    cases all
    rfl
  | cons entry awaiting ih =>
    rw [awaitAll] at all
    split at all
    · cases all
    · cases all
    · rename_i pool later _ rest
      cases all
      rw [List.map_cons, List.map_cons, ih rest]
    · cases all

/-- The promise that a call awaits has an owner. -/
theorem Sound.settles (sound : s.Sound) (stocked : s.Stocked cacheNamespace) (idle : s.Idle)
    {id : Nat} {call : PoolCall E} (there : s.calls id = some call) :
    (s.outcome call).isSome := by
  obtain ⟨result, fetch⟩ := idle.settled stocked there
  unfold outcome
  rw [fetch, Option.isSome_map]
  refine awaitAll_isSome fun entry member => ?_
  have awaits : call.awaiting.get? entry.1 = some entry.2 := KeyedMap.get?_eq_some_iff.mpr member
  obtain ⟨owner, known, -⟩ := sound.awaited id call there entry.1 entry.2 awaits
  obtain ⟨outcome, ended⟩ := idle.settled stocked known
  simp [settlement, known, ended]

theorem Sound.entries (sound : s.Sound) {id : Nat} {call : PoolCall E}
    (there : s.calls id = some call) {pools : KeyedMap String (Option AdaPool)}
    (resolves : s.outcome call = some (.ok pools)) {subject : String}
    (asked : subject ∈ call.subjects) : (pools.get? subject).isSome := by
  unfold outcome at resolves
  split at resolves
  case h_2 => cases resolves
  case h_1 =>
    obtain ⟨result, all, same⟩ := Option.map_eq_some_iff.mp resolves
    cases result with
    | error e => cases same
    | ok awaited =>
      cases same
      have keys := awaitAll_keys all
      rcases sound.covered id call there subject asked with cached | awaits
      · rw [KeyedMap.get?_setAll, Option.isSome_or, cached, Bool.or_true]
      · obtain ⟨owner, held⟩ := Option.isSome_iff_exists.mp awaits
        have listed : subject ∈ awaited.map Prod.fst := by
          rw [keys]
          exact List.mem_map_of_mem (KeyedMap.get?_eq_some_iff.mp held)
        obtain ⟨entry, member, same⟩ := List.mem_map.mp listed
        obtain ⟨pool, found⟩ :=
          KeyedMap.get?_setAll_isSome (m := call.cached) ⟨entry, member, same⟩
        rw [found]
        rfl

/-- The subjects of a new call: cached, fetched by another call, or fetched by it. -/
theorem Sound.claims (sound : s.Sound) {id : Nat} (unused : s.calls id = none)
    {subjects : List String} {subject : String} (asked : subject ∈ subjects) :
    (s.cache.peek (poolCacheKey cacheNamespace subject)).isSome ∨
      (∃ other, s.Resolving other subject) ∨
        (s.apply number cacheNamespace (.resolveAdaPoolsBatch id subjects)).Resolving id subject := by
  let state := subjects.foldl (s.claim cacheNamespace id)
    (⟨subjects, .empty, .empty, [], .settled (.ok .empty)⟩, s.inFlightPools)
  have claimed : Claimed s cacheNamespace id subjects subjects state.1 state.2 :=
    claimed_subjects s cacheNamespace id subjects
  obtain cached | ⟨-, awaits⟩ := claimed.covered subject asked
  · obtain ⟨hit, held⟩ := Option.isSome_iff_exists.mp cached
    rw [claimed.hits subject hit held]
    exact .inl rfl
  · obtain ⟨owner, held⟩ := Option.isSome_iff_exists.mp awaits
    obtain flying | ⟨rfl, owned⟩ := (claimed.registered subject owner).mp
      (claimed.awaited subject owner held)
    · exact .inr (.inl ⟨owner, (sound.registered subject owner).mp flying⟩)
    · refine .inr (.inr ?_)
      rw [apply, if_neg (by rw [unused]; exact Bool.false_ne_true)]
      refine ⟨{ state.1 with fetch := fetchAdaPools state.1.owned }, ?_, owned,
        fetchAdaPools_outstanding owned⟩
      exact Function.update_self ..

/-- The pools of the calls, in any run: what a new client has come to after the events. -/
structure Shared (number : String → Number) (cacheNamespace : String) (maxEntries now : Nat)
    (events : List (PoolEvent E)) (s : PoolClient E) : Prop where
  alone : ∀ subject id id', s.Resolving id subject → s.Resolving id' subject → id = id'
  settles : s.Idle → ∀ id call, s.calls id = some call → (s.outcome call).isSome
  entries : ∀ id call pools, s.calls id = some call → s.outcome call = some (.ok pools) →
    ∀ subject ∈ call.subjects, (pools.get? subject).isSome
  inFlight : ∀ subject id, s.inFlightPools.get? subject = some id ↔ s.Resolving id subject
  /-- Only successful answers are remembered. -/
  told : ∀ key entry, s.cache.entries.get? key = some entry →
    Machine.Occurs (apply number cacheNamespace) (Tells number cacheNamespace key entry.value)
      (create maxEntries now) events
  /-- After a failure, whoever asks next fetches what is neither cached nor fetched by another
  call. -/
  afresh : ∀ failed call e, s.calls failed = some call → call.fetch = .settled (.error e) →
    ∀ id subjects, s.calls id = none → ∀ subject ∈ subjects,
      (s.cache.peek (poolCacheKey cacheNamespace subject)).isSome ∨
        (∃ other, other ≠ failed ∧ s.Resolving other subject) ∨
          (s.apply number cacheNamespace (.resolveAdaPoolsBatch id subjects)).Resolving id subject

theorem after_shared (number : String → Number) (cacheNamespace : String) (maxEntries now : Nat)
    (events : List (PoolEvent E)) :
    Shared number cacheNamespace maxEntries now events
      ((create maxEntries now).after number cacheNamespace events) := by
  have sound := after_sound number cacheNamespace events (create_sound (E := E) maxEntries now)
  have stocked := after_stocked number events
    (create_stocked (E := E) cacheNamespace maxEntries now)
  refine ⟨?_, ?_, ?_, sound.registered, ?_, ?_⟩
  · intro subject id id' left right
    have both := ((sound.registered subject id).mpr left).symm.trans
      ((sound.registered subject id').mpr right)
    exact Option.some.inj both
  · exact fun idle id call there => sound.settles stocked idle there
  · exact fun id call pools there resolves subject asked => sound.entries there resolves asked
  · exact (after_told maxEntries now events).entries
  · intro failed call e there ended id subjects unused subject asked
    refine (sound.claims unused asked).imp_right (Or.imp_left ?_)
    rintro ⟨other, resolving⟩
    refine ⟨other, ?_, resolving⟩
    rintro rfl
    obtain ⟨call', there', -, outstanding⟩ := resolving
    cases there.symm.trans there'
    rw [ended] at outstanding
    exact outstanding

end Sharing
end WalletBackend.Prices.PoolClient
