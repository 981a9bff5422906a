import WalletBackend.Domain.Casing
import WalletBackend.Prices.SharedPools

/-! Where the pools that come with a token are the head of its list, the batch and the lookup of
one subject find the same pool. -/
namespace WalletBackend.Prices
open Cache Containers

/-- What the endpoints answer, time and again. -/
structure Upstream where
  multi : List String → Option MultiTokensResponse
  pools : String → Option (List PoolEntry)

def Upstream.listing (upstream : Upstream) (subject : String) : List PoolEntry :=
  (upstream.pools subject).getD []

def MultiTokensResponse.poolsById (body : MultiTokensResponse) : KeyedMap String IncludedPool :=
  (body.included.getD []).foldl (fun pools pool => pools.set pool.id pool) .empty

variable {Number : Type} [LT Number] [DecidableLT Number] {number : String → Number}

/-- The references lead to pools that open the listing, none of them smaller than one further
down. -/
def Heads (number : String → Number) (poolsById : KeyedMap String IncludedPool)
    (refs : List String) (listing : List PoolEntry) : Prop :=
  ∃ (inside : List IncludedPool) (outside : List PoolEntry),
    refs.map poolsById.get? = inside.map some ∧
      listing = inside.map IncludedPool.toPoolEntry ++ outside ∧
      ∀ within ∈ inside, ∀ further ∈ outside,
        ¬ number (within.reserve_in_usd.getD "0") < number (further.reserve_in_usd.getD "0")

/-- The two endpoints tell of the same pools. -/
structure Upstream.Faithful (upstream : Upstream) (number : String → Number) : Prop where
  heads : ∀ chunk body, upstream.multi chunk = some body → ∀ token ∈ body.data,
    Heads number body.poolsById (token.top_pools.getD []) (upstream.listing token.address.toLower)
  absent : ∀ chunk, ∀ subject ∈ chunk,
    (∀ token ∈ ((upstream.multi chunk).map MultiTokensResponse.data).getD [],
      token.address.toLower ≠ subject) →
    upstream.listing subject = []

/-- The pool that the list of the subject holds. -/
def Upstream.pick (upstream : Upstream) (number : String → Number) (subject : String) :
    Option AdaPool :=
  pickMostLiquidAdaPool number subject (upstream.listing subject)

section Picking

variable {subject : String}

/-- One round of the loop over the pools. -/
def better (number : String → Number) (subject : String) (best : Option (PoolEntry × Number))
    (pool : PoolEntry) : Option (PoolEntry × Number) :=
  if isDirectAdaPool subject pool then
    let reserve := number (pool.reserve_in_usd.getD "0")
    match best with
    | none => some (pool, reserve)
    | some known => if known.2 < reserve then some (pool, reserve) else some known
  else best

theorem better_some {best : Option (PoolEntry × Number)} {pool : PoolEntry}
    {chosen : PoolEntry × Number} (found : better number subject best pool = some chosen) :
    best = some chosen ∨ chosen = (pool, number (pool.reserve_in_usd.getD "0")) := by
  unfold better at found
  split at found
  case isFalse => exact .inl found
  case isTrue =>
    cases best with
    | none => exact .inr (Option.some.inj found).symm
    | some known =>
      dsimp only at found
      split at found
      · exact .inr (Option.some.inj found).symm
      · exact .inl found

theorem better_kept {best : PoolEntry × Number} {pool : PoolEntry}
    (smaller : ¬ best.2 < number (pool.reserve_in_usd.getD "0")) :
    better number subject (some best) pool = some best := by
  simp [better, smaller]

/-- The best pool is one of them, with its own reserve. -/
theorem foldl_better_some {pools : List PoolEntry} {best : Option (PoolEntry × Number)}
    {chosen : PoolEntry × Number}
    (found : pools.foldl (better number subject) best = some chosen) :
    best = some chosen ∨
      ∃ pool ∈ pools, chosen = (pool, number (pool.reserve_in_usd.getD "0")) := by
  induction pools generalizing best with
  | nil => exact .inl found
  | cons pool pools ih =>
    obtain before | ⟨other, member, here⟩ := ih found
    · exact (better_some before).imp_right fun here => ⟨pool, List.mem_cons_self, here⟩
    · exact .inr ⟨other, List.mem_cons_of_mem _ member, here⟩

theorem foldl_better_kept {pools : List PoolEntry} {best : PoolEntry × Number}
    (smaller : ∀ pool ∈ pools, ¬ best.2 < number (pool.reserve_in_usd.getD "0")) :
    pools.foldl (better number subject) (some best) = some best := by
  induction pools with
  | nil => rfl
  | cons pool pools ih =>
    obtain ⟨here, later⟩ := List.forall_mem_cons.mp smaller
    rw [List.foldl_cons, better_kept here, ih later]

/-- A pool that none of the later ones exceeds stays the best. -/
theorem pickMostLiquidAdaPool_append {first later : List PoolEntry} {pool : AdaPool}
    (found : pickMostLiquidAdaPool number subject first = some pool)
    (smaller : ∀ within ∈ first, ∀ further ∈ later,
      ¬ number (within.reserve_in_usd.getD "0") < number (further.reserve_in_usd.getD "0")) :
    pickMostLiquidAdaPool number subject (first ++ later) = some pool := by
  change (first.foldl (better number subject) none).map _ = some pool at found
  change ((first ++ later).foldl (better number subject) none).map _ = some pool
  obtain ⟨chosen, best, same⟩ := Option.map_eq_some_iff.mp found
  rw [List.foldl_append, best]
  obtain unknown | ⟨within, member, rfl⟩ := foldl_better_some best
  · cases unknown
  · rw [foldl_better_kept (smaller within member)]
    exact congrArg some same

theorem filterMap_heads {refs : List String} {poolsById : KeyedMap String IncludedPool}
    {inside : List IncludedPool} (resolved : refs.map poolsById.get? = inside.map some) :
    refs.filterMap poolsById.get? = inside := by
  have both := congrArg (List.filterMap id) resolved
  simpa [List.filterMap_map] using both

/-- What the pools of a token tell is what its list tells. -/
theorem Heads.pick {refs : List String} {poolsById : KeyedMap String IncludedPool}
    {listing : List PoolEntry} (heads : Heads number poolsById refs listing) {pool : AdaPool}
    (found : pickMostLiquidAdaPool number subject
      ((refs.filterMap poolsById.get?).map IncludedPool.toPoolEntry) = some pool) :
    pickMostLiquidAdaPool number subject listing = some pool := by
  obtain ⟨inside, outside, resolved, rfl, smaller⟩ := heads
  rw [filterMap_heads resolved] at found
  refine pickMostLiquidAdaPool_append found fun within member => ?_
  obtain ⟨pool, there, rfl⟩ := List.mem_map.mp member
  exact smaller pool there

end Picking

section Chunk

variable {upstream : Upstream} {chunk : List String}

/-- What a chunk writes is what the lists tell. -/
theorem readChunk_writes_pick (faithful : upstream.Faithful number) {write : String × Option AdaPool}
    (member : write ∈ (readChunk number chunk (upstream.multi chunk)).writes) :
    write.2 = upstream.pick number write.1 := by
  generalize answer : upstream.multi chunk = body at member
  obtain picked | absent := List.mem_append.mp member
  · obtain ⟨there, isSome⟩ := List.mem_filter.mp picked
    obtain ⟨token, listed, rfl⟩ := List.mem_map.mp there
    obtain ⟨pool, found⟩ := Option.isSome_iff_exists.mp isSome
    cases body with
    | none => cases listed
    | some body => exact found.trans ((faithful.heads chunk body answer token listed).pick found).symm
  · obtain ⟨subject, there, rfl⟩ := List.mem_map.mp absent
    obtain ⟨asked, unreturned⟩ := List.mem_filter.mp there
    have empty : upstream.listing subject = [] := by
      refine faithful.absent chunk subject asked fun token listed same => ?_
      rw [answer] at listed
      simp only [Bool.not_eq_true', List.contains_eq_mem, decide_eq_false_iff_not] at unreturned
      refine unreturned ?_
      rw [List.map_map]
      exact List.mem_map.mpr ⟨token, listed, same⟩
    rw [Upstream.pick, empty]
    rfl

/-- A subject of the chunk is written, or left for its own list. -/
theorem readChunk_covers (number : String → Number) (body : Option MultiTokensResponse)
    {subject : String}
    (asked : subject ∈ chunk) :
    (∃ write ∈ (readChunk number chunk body).writes, write.1 = subject) ∨
      subject ∈ (readChunk number chunk body).needsFallback := by
  unfold readChunk
  dsimp only
  set picked := ((body.map MultiTokensResponse.data).getD []).map fun token =>
    (token.address.toLower, pickMostLiquidAdaPool number token.address.toLower
      (((token.top_pools.getD []).filterMap
        (((body.bind MultiTokensResponse.included).getD []).foldl
          (fun pools pool => pools.set pool.id pool) .empty : KeyedMap String IncludedPool).get?).map
            IncludedPool.toPoolEntry))
  by_cases returned : subject ∈ picked.map Prod.fst
  · obtain ⟨token, listed, rfl⟩ := List.mem_map.mp returned
    cases found : token.2 with
    | some pool =>
      refine .inl ⟨token, List.mem_append_left _ (List.mem_filter.mpr ⟨listed, ?_⟩), rfl⟩
      rw [found]
      rfl
    | none =>
      refine .inr (List.mem_map.mpr ⟨token, List.mem_filter.mpr ⟨listed, ?_⟩, rfl⟩)
      rw [found]
      rfl
  · refine .inl ⟨(subject, none), List.mem_append_right _ ?_, rfl⟩
    refine List.mem_map.mpr ⟨subject, List.mem_filter.mpr ⟨asked, ?_⟩, rfl⟩
    simpa using returned

end Chunk

/-- Every pool of the map is the one that the list of its subject holds. -/
def Picks (pick : String → Option AdaPool) (pools : KeyedMap String (Option AdaPool)) : Prop :=
  ∀ subject pool, pools.get? subject = some pool → pool = pick subject

theorem Picks.empty {pick : String → Option AdaPool} : Picks pick .empty := by
  intro subject pool found
  cases found

theorem Picks.setAll {pick : String → Option AdaPool} {pools : KeyedMap String (Option AdaPool)}
    (picks : Picks pick pools) {writes : List (String × Option AdaPool)}
    (alike : ∀ write ∈ writes, write.2 = pick write.1) : Picks pick (pools.setAll writes) := by
  intro subject pool found
  obtain written | before := KeyedMap.get?_setAll_some found
  · exact alike _ written
  · exact picks subject pool before

/-- What a fetch knows so far is right, and no subject of its own is forgotten. -/
def Fetch.Agrees {E : Type} (pick : String → Option AdaPool) (owned : List String) :
    Fetch E → Prop
  | .asking chunk later resolved needsFallback => Picks pick resolved ∧ ∀ subject ∈ owned,
      subject ∈ (chunk :: later).flatten ∨ (resolved.get? subject).isSome ∨ subject ∈ needsFallback
  | .reading resolved reads => Picks pick resolved ∧
      (∀ read ∈ reads, ∀ pool, read.2 = .hit pool → pool = pick read.1) ∧ ∀ subject ∈ owned,
        (resolved.get? subject).isSome ∨ ∃ read ∈ reads, read.1 = subject
  | .settled (.ok fetched) => Picks pick fetched ∧ ∀ subject ∈ owned, (fetched.get? subject).isSome
  | .settled (.error _) => True

namespace PoolClient

variable {E : Type} {cacheNamespace : String} {s s' : PoolClient E} {upstream : Upstream}

/-- A request that succeeds has the answer of the upstream. -/
def Answers (upstream : Upstream) (s : PoolClient E) : PoolEvent E → Prop
  | .answerChunk id (.ok body) => ∀ call chunk later resolved needsFallback,
      s.calls id = some call → call.fetch = .asking chunk later resolved needsFallback →
        body = upstream.multi chunk
  | .answerPools promise (.ok pools) => ∀ attempt, s.cache.attempts promise = some attempt →
      pools = upstream.pools attempt.load
  | _ => True

/-- The value under the key of a subject is its pool. -/
def Fits (pick : String → Option AdaPool) (cacheNamespace key : String) (value : Option AdaPool) :
    Prop :=
  ∀ subject, key = poolCacheKey cacheNamespace subject → value = pick subject

/-- The cache and the calls hold the pools that the lists tell. -/
structure Agreed (pick : String → Option AdaPool) (cacheNamespace : String) (s : PoolClient E) :
    Prop where
  typed : s.cache.Typed (Fits pick cacheNamespace)
    fun key _ subject => key = poolCacheKey cacheNamespace subject
  calls : ∀ id call, s.calls id = some call →
    Picks pick call.cached ∧ call.fetch.Agrees pick call.owned

theorem poolCacheKey_injective {subject subject' : String}
    (same : poolCacheKey cacheNamespace subject = poolCacheKey cacheNamespace subject') :
    subject = subject' := by
  unfold poolCacheKey at same
  exact (String.append_right_inj _).mp same

section Steps

variable {pick : String → Option AdaPool}

theorem fits_own {subject : String} {pool : Option AdaPool} (same : pool = pick subject) :
    Fits pick cacheNamespace (poolCacheKey cacheNamespace subject) pool := by
  intro other named
  rw [same, poolCacheKey_injective named]

theorem fetchAdaPools_agrees (owned : List String) :
    (fetchAdaPools owned : Fetch E).Agrees pick owned := by
  have chunked := Splitting.flatten_toChunks MULTI_TOKEN_BATCH owned
  unfold fetchAdaPools
  cases chunks : owned.toChunks MULTI_TOKEN_BATCH with
  | nil =>
    rw [chunks] at chunked
    cases chunked
    refine ⟨Picks.empty, fun subject member => ?_⟩
    cases member
  | cons chunk later =>
    rw [chunks] at chunked
    refine ⟨Picks.empty, fun subject member => .inl ?_⟩
    rw [chunked]
    exact member

/-- The reads that are begun, one for each subject; a hit is the pool of its subject. -/
theorem readPools_hits
    (typed : s.cache.Typed (Fits pick cacheNamespace)
      fun key _ subject => key = poolCacheKey cacheNamespace subject)
    (numbered : s.Numbered) (subjects : List String) :
    (readPools cacheNamespace subjects s).2.map Prod.fst = subjects ∧
      ∀ read ∈ (readPools cacheNamespace subjects s).2, ∀ pool, read.2 = .hit pool →
        pool = pick read.1 := by
  induction subjects generalizing s with
  | nil => exact ⟨rfl, nofun⟩
  | cons subject subjects ih =>
    obtain ⟨cache, numbered'⟩ := resolveAdaPool_cache cacheNamespace numbered subject
    have typed' : (s.resolveAdaPool cacheNamespace subject).1.cache.Typed (Fits pick cacheNamespace)
        fun key _ subject => key = poolCacheKey cacheNamespace subject := by
      rw [cache]
      exact typed.effect (MemoryCache.apply_effect s.cache _) rfl
    obtain ⟨names, hits⟩ := ih typed' numbered'
    refine ⟨congrArg (subject :: ·) names, fun read member pool hit => ?_⟩
    obtain rfl | later := List.mem_cons.mp member
    · exact typed.peek (MemoryCache.read_hit hit).1 subject rfl
    · exact hits read later pool hit

/-- What an operation of an answered event brings in fits its key. -/
theorem CacheOp.brings {event : PoolEvent E} {op : Cache.Event (Option AdaPool) E String}
    (faithful : upstream.Faithful number) (answers : Answers upstream s event)
    (typed : s.cache.Typed (Fits (upstream.pick number) cacheNamespace)
      fun key _ subject => key = poolCacheKey cacheNamespace subject)
    (allowed : CacheOp number cacheNamespace s event op)
    {later : MemoryCache (Option AdaPool) E String}
    (kept : ∀ promise attempt, s.cache.attempts promise = some attempt →
      ∃ phase, later.attempts promise = some { attempt with phase }) :
    later.Brings (Fits (upstream.pick number) cacheNamespace)
      (fun key _ subject => key = poolCacheKey cacheNamespace subject) op := by
  cases allowed with
  | write known asking member =>
    cases answers _ _ _ _ _ known asking
    exact fits_own (readChunk_writes_pick faithful member)
  | read => exact rfl
  | @answer promise body attempt known =>
    cases body with
    | error e => trivial
    | ok pools =>
      intro attempt' there
      obtain ⟨phase, there'⟩ := kept promise attempt known
      cases there.symm.trans there'
      cases answers attempt known
      have made : attempt.key = poolCacheKey cacheNamespace attempt.load :=
        typed.made promise attempt known
      show Fits _ _ attempt.key _
      rw [made]
      exact fits_own rfl
  | _ => trivial

/-- What the reads have come to is right, one pool for each. -/
theorem joined_agrees
    (typed : s.cache.Typed (Fits pick cacheNamespace)
      fun key _ subject => key = poolCacheKey cacheNamespace subject)
    {reads : List (String × Reading (Option AdaPool))} {pools : List (String × Option AdaPool)}
    (serves : ∀ read ∈ reads, Serves cacheNamespace s.cache read)
    (hits : ∀ read ∈ reads, ∀ pool, read.2 = .hit pool → pool = pick read.1)
    (all : s.joined reads = some pools) :
    pools.map Prod.fst = reads.map Prod.fst ∧ ∀ write ∈ pools, write.2 = pick write.1 := by
  induction reads generalizing pools with
  | nil =>
    cases all
    exact ⟨rfl, nofun⟩
  | cons read reads ih =>
    obtain ⟨subject, reading⟩ := read
    obtain ⟨serves_here, serves_later⟩ := List.forall_mem_cons.mp serves
    obtain ⟨hits_here, hits_later⟩ := List.forall_mem_cons.mp hits
    rw [joined] at all
    split at all
    case h_2 => cases all
    case h_1 pool pools settled rest =>
      cases all
      obtain ⟨names, alike⟩ := ih serves_later hits_later rest
      refine ⟨congrArg (subject :: ·) names, List.forall_mem_cons.mpr ⟨?_, alike⟩⟩
      cases reading with
      | hit held =>
        cases settled
        exact hits_here pool rfl
      | attempt promise =>
        obtain ⟨attempt, there, same⟩ := serves_here promise rfl
        obtain ⟨known, there', resolved⟩ := MemoryCache.resolves_of_settlement settled
        cases there.symm.trans there'
        exact typed.attempts promise attempt pool there (Phase.value?_of_resolved? resolved) subject same

theorem Agreed.typed_step {event : PoolEvent E}
    (agreed : s.Agreed (upstream.pick number) cacheNamespace) (stocked : s.Stocked cacheNamespace)
    (faithful : upstream.Faithful number) (answers : Answers upstream s event)
    (effect : Effect number cacheNamespace s event s') :
    s'.cache.Typed (Fits (upstream.pick number) cacheNamespace)
      fun key _ subject => key = poolCacheKey cacheNamespace subject := by
  obtain ⟨ops, cache, allowed⟩ := effect.cache_ops stocked
  rw [cache]
  exact typed_ops agreed.typed fun op member later kept =>
    (allowed op member).brings faithful answers agreed.typed kept

/-- A call that has moved on, next to the others as they were. -/
theorem Agreed.refetched (agreed : s.Agreed pick cacheNamespace) {id : Nat} {call : PoolCall E}
    {fetch : Fetch E} (known : s.calls id = some call)
    (calls : s'.calls = Function.update s.calls id (some { call with fetch }))
    (agrees : fetch.Agrees pick call.owned) :
    ∀ id call, s'.calls id = some call →
      Picks pick call.cached ∧ call.fetch.Agrees pick call.owned := by
  intro other call' there
  rw [calls, Function.update_apply] at there
  split at there
  · cases there
    exact ⟨(agreed.calls id call known).1, agrees⟩
  · exact agreed.calls other call' there

/-- The subjects of an answered chunk are resolved, or left for their own lists. -/
theorem covers_answered (number : String → Number) (body : Option MultiTokensResponse)
    {owned chunk rest needsFallback : List String} {resolved : KeyedMap String (Option AdaPool)}
    (covers : ∀ subject ∈ owned, subject ∈ chunk ++ rest ∨ (resolved.get? subject).isSome ∨
      subject ∈ needsFallback) :
    ∀ subject ∈ owned, subject ∈ rest ∨
      ((resolved.setAll (readChunk number chunk body).writes).get? subject).isSome ∨
        subject ∈ needsFallback ++ (readChunk number chunk body).needsFallback := by
  have written {subject : String}
      (there : ∃ write ∈ (readChunk number chunk body).writes, write.1 = subject) :
      ((resolved.setAll (readChunk number chunk body).writes).get? subject).isSome :=
    Option.isSome_iff_exists.mpr (KeyedMap.get?_setAll_isSome there)
  intro subject owns
  obtain here | before | left := covers subject owns
  · obtain asked | later := List.mem_append.mp here
    · obtain there | left := readChunk_covers number body asked
      · exact .inr (.inl (written there))
      · exact .inr (.inr (List.mem_append_right _ left))
    · exact .inl later
  · refine .inr (.inl ?_)
    rw [KeyedMap.get?_setAll, Option.isSome_or, before, Bool.or_true]
  · exact .inr (.inr (List.mem_append_left _ left))

theorem Agreed.step {event : PoolEvent E}
    (agreed : s.Agreed (upstream.pick number) cacheNamespace) (stocked : s.Stocked cacheNamespace)
    (faithful : upstream.Faithful number) (answers : Answers upstream s event)
    (effect : Effect number cacheNamespace s event s') :
    s'.Agreed (upstream.pick number) cacheNamespace := by
  refine ⟨agreed.typed_step stocked faithful answers effect, ?_⟩
  cases effect with
  | @began id subjects unused =>
    let state := subjects.foldl (s.claim cacheNamespace id)
      (⟨subjects, .empty, .empty, [], .settled (.ok .empty)⟩, s.inFlightPools)
    have claimed : Claimed s cacheNamespace id subjects subjects state.1 state.2 :=
      claimed_subjects s cacheNamespace id subjects
    intro other call there
    change Function.update s.calls id
      (some { state.1 with fetch := fetchAdaPools state.1.owned }) other = some call at there
    rw [Function.update_apply] at there
    split at there
    · cases there
      refine ⟨fun subject hit found => ?_, fetchAdaPools_agrees _⟩
      exact agreed.typed.peek (claimed.hits subject hit found) subject rfl
    · exact agreed.calls other call there
  | @chunkFailed id call chunk later resolved needsFallback e known asking =>
    exact agreed.refetched known rfl trivial
  | @chunkAnswered id call chunk next later resolved needsFallback body known asking =>
    have agrees := (agreed.calls id call known).2
    rw [asking] at agrees
    obtain ⟨picks, covers⟩ := agrees
    cases answers call chunk (next :: later) resolved needsFallback known asking
    refine agreed.refetched known rfl ⟨?_, ?_⟩
    · exact picks.setAll fun _ => readChunk_writes_pick faithful
    · exact covers_answered number _ covers
  | @lastAnswered id call chunk resolved needsFallback body known asking =>
    have agrees := (agreed.calls id call known).2
    rw [asking] at agrees
    obtain ⟨picks, covers⟩ := agrees
    cases answers call chunk [] resolved needsFallback known asking
    let written := s.writePools cacheNamespace (readChunk number chunk (upstream.multi chunk)).writes
    have typed : written.cache.Typed (Fits (upstream.pick number) cacheNamespace)
        fun key _ subject => key = poolCacheKey cacheNamespace subject := by
      change ((readChunk number chunk (upstream.multi chunk)).writes.foldl
        (writePool cacheNamespace) s.cache).Typed _ _
      rw [writes_cache]
      refine typed_ops agreed.typed fun op member later _ => ?_
      obtain ⟨write, there, rfl⟩ := List.mem_map.mp member
      exact fits_own (readChunk_writes_pick faithful there)
    obtain ⟨names, hits⟩ := readPools_hits typed (writePools_numbered stocked.numbered _)
      (needsFallback ++ (readChunk number chunk (upstream.multi chunk)).needsFallback)
    obtain ⟨calls, -⟩ := readPools_fields cacheNamespace
      (needsFallback ++ (readChunk number chunk (upstream.multi chunk)).needsFallback) written
    refine agreed.refetched known (congrArg (fun calls => Function.update calls id _) calls)
      ⟨picks.setAll fun _ => readChunk_writes_pick faithful, hits, ?_⟩
    intro subject owns
    obtain nothing | later := covers_answered number (upstream.multi chunk) covers subject owns
    · cases nothing
    · refine later.imp_right fun left => ?_
      rw [← names] at left
      exact List.mem_map.mp left
  | @joined id call resolved reads pools known reading all =>
    have agrees := (agreed.calls id call known).2
    rw [reading] at agrees
    obtain ⟨picks, hits, covers⟩ := agrees
    obtain ⟨names, alike⟩ := joined_agrees agreed.typed
      (stocked.serves id call resolved reads known reading) hits all
    refine agreed.refetched known rfl ⟨picks.setAll alike, fun subject owns => ?_⟩
    obtain before | ⟨read, member, same⟩ := covers subject owns
    · rw [KeyedMap.get?_setAll, Option.isSome_or, before, Bool.or_true]
    · have listed : subject ∈ pools.map Prod.fst := by
        rw [names]
        exact List.mem_map.mpr ⟨read, member, same⟩
      obtain ⟨write, there, same⟩ := List.mem_map.mp listed
      exact Option.isSome_iff_exists.mpr (KeyedMap.get?_setAll_isSome ⟨write, there, same⟩)
  | @readFailed id index call resolved reads e known reading =>
    exact agreed.refetched known rfl trivial
  | _ => exact agreed.calls

end Steps

section Runs

variable {events : List (PoolEvent E)}

theorem create_agreed (pick : String → Option AdaPool) (cacheNamespace : String)
    (maxEntries now : Nat) : (create maxEntries now : PoolClient E).Agreed pick cacheNamespace where
  typed := MemoryCache.create_typed maxEntries now
  calls := nofun

/-- The invariants of the calls, along a run whose requests the upstream answers. -/
theorem after_agreed (faithful : upstream.Faithful number) {maxEntries now : Nat}
    (answered : Machine.Along (apply number cacheNamespace) (Answers upstream)
      (create maxEntries now : PoolClient E) events) :
    ((create maxEntries now).after number cacheNamespace events).Agreed (upstream.pick number)
      cacheNamespace := by
  refine (Machine.run_invariant (P := fun s : PoolClient E =>
    s.Agreed (upstream.pick number) cacheNamespace ∧ s.Stocked cacheNamespace) ?_ answered
    ⟨create_agreed _ _ _ _, create_stocked _ _ _⟩).1
  rintro s event answers ⟨agreed, stocked⟩
  have effect := apply_effect number cacheNamespace s event
  exact ⟨agreed.step stocked faithful answers effect, effect.stocked stocked⟩

/-- What a promise settles with is the pool of its subject. -/
theorem Agreed.settlement {pick : String → Option AdaPool} (agreed : s.Agreed pick cacheNamespace)
    (sound : s.Sound) {id : Nat} {call : PoolCall E} (there : s.calls id = some call)
    {subject : String} {owner : Nat} (awaits : call.awaiting.get? subject = some owner)
    {pool : Option AdaPool} (settled : s.settlement subject owner = some (.ok pool)) :
    pool = pick subject := by
  obtain ⟨call', there', owns⟩ := sound.awaited id call there subject owner awaits
  have agrees := (agreed.calls owner call' there').2
  rw [PoolClient.settlement, there', Option.map_some] at settled
  cases fetch : call'.fetch with
  | asking chunk later resolved needsFallback =>
    rw [fetch] at settled
    cases settled
  | reading resolved reads =>
    rw [fetch] at settled
    cases settled
  | settled outcome =>
    rw [fetch] at settled agrees
    cases outcome with
    | error e => cases settled
    | ok fetched =>
      cases settled
      obtain ⟨picks, covers⟩ := agrees
      obtain ⟨pool, found⟩ := Option.isSome_iff_exists.mp (covers subject owns)
      change (fetched.get? subject).join = pick subject
      rw [found]
      exact picks subject pool found

theorem awaitAll_mem {awaiting : List (String × Nat)} {pools : List (String × Option AdaPool)}
    (all : s.awaitAll awaiting = some (.ok pools)) {write : String × Option AdaPool}
    (member : write ∈ pools) :
    ∃ owner, (write.1, owner) ∈ awaiting ∧ s.settlement write.1 owner = some (.ok write.2) := by
  induction awaiting generalizing pools with
  | nil =>
    cases all
    cases member
  | cons entry awaiting ih =>
    rw [awaitAll] at all
    split at all
    · cases all
    · cases all
    · rename_i pool later settled rest
      cases all
      obtain rfl | member := List.mem_cons.mp member
      · exact ⟨entry.2, List.mem_cons_self, settled⟩
      · obtain ⟨owner, there, settled⟩ := ih rest member
        exact ⟨owner, List.mem_cons_of_mem _ there, settled⟩
    · cases all

/-- A call that comes to its end has the pools of its subjects. -/
theorem Agreed.outcome {pick : String → Option AdaPool} (agreed : s.Agreed pick cacheNamespace)
    (sound : s.Sound) {id : Nat} {call : PoolCall E} (there : s.calls id = some call)
    {pools : KeyedMap String (Option AdaPool)} (resolves : s.outcome call = some (.ok pools))
    {subject : String} (asked : subject ∈ call.subjects) :
    pools.get? subject = some (pick subject) := by
  obtain ⟨pool, found⟩ := Option.isSome_iff_exists.mp (sound.entries there resolves asked)
  rw [found]
  unfold PoolClient.outcome at resolves
  split at resolves
  case h_2 => cases resolves
  case h_1 =>
    obtain ⟨result, all, same⟩ := Option.map_eq_some_iff.mp resolves
    cases result with
    | error e => cases same
    | ok awaited =>
      cases same
      refine congrArg some (Picks.setAll (agreed.calls id call there).1 ?_ subject pool found)
      intro write member
      obtain ⟨owner, entry, settled⟩ := awaitAll_mem all member
      exact agreed.settlement sound there (KeyedMap.get?_eq_some_iff.mpr entry) settled

theorem after_cons (event : PoolEvent E) :
    s.after number cacheNamespace (event :: events) =
      (s.apply number cacheNamespace event).after number cacheNamespace events := rfl

/-- A load that has brought its value settles with it. -/
theorem load_settles {cache : MemoryCache (Option AdaPool) E String} {promise : Nat}
    {attempt : Attempt (Option AdaPool) E String} {pool : Option AdaPool}
    (known : cache.attempts promise = some attempt) (loaded : attempt.phase = .loaded (.ok pool)) :
    ((cache.handle promise).finish promise).settlement (.attempt promise) = some (.ok pool) := by
  have handled : (cache.handle promise).attempts promise =
      some { attempt with phase := .handled (.ok pool) } := by
    simp [MemoryCache.handle, MemoryCache.setPhase, known, loaded]
  simp [MemoryCache.finish, MemoryCache.setPhase, MemoryCache.settlement, handled]

/-- A new client asked for the pool of the subject, and nothing else. -/
def resolvedAlone (upstream : Upstream) (number : String → Number) (cacheNamespace subject : String)
    (maxEntries now : Nat) : Option (Except E (Option AdaPool)) :=
  ((create maxEntries now).after number cacheNamespace [.resolveAdaPool subject, .startLoad 0,
    .answerPools 0 (.ok (upstream.pools subject)), .handle 0, .finish 0]).cache.settlement
      (.attempt 0)

theorem resolvedAlone_pick (upstream : Upstream) (number : String → Number)
    (cacheNamespace subject : String) (maxEntries now : Nat) :
    resolvedAlone (E := E) upstream number cacheNamespace subject maxEntries now =
      some (.ok (upstream.pick number subject)) := by
  let made := (create maxEntries now : PoolClient E).apply number cacheNamespace
    (.resolveAdaPool subject)
  let attempt : Attempt (Option AdaPool) E String :=
    ⟨poolCacheKey cacheNamespace subject, .ofTtl TOKEN_POOL_TTL_MS, subject, 0, .queued⟩
  have queued : made.cache.attempts 0 = some attempt := rfl
  have loading : (made.cache.startLoad 0).attempts 0 = some { attempt with phase := .loading } := by
    simp [MemoryCache.startLoad, MemoryCache.setPhase, queued, attempt]
  let pool := upstream.pick number subject
  have answered : { made with cache := made.cache.startLoad 0 }.apply number cacheNamespace
      (.answerPools 0 (.ok (upstream.pools subject))) =
        { made with cache := (made.cache.startLoad 0).answer 0 (.ok pool) } := by
    rw [apply, answerPools, loading]
    rfl
  have loaded : ((made.cache.startLoad 0).answer 0 (.ok pool)).attempts 0 =
      some { attempt with phase := .loaded (.ok pool) } := by
    simp [MemoryCache.answer, MemoryCache.setPhase, loading, attempt]
  have started : made.apply number cacheNamespace (.startLoad 0) =
      { made with cache := made.cache.startLoad 0 } := rfl
  rw [resolvedAlone, after_cons, after_cons, after_cons, started, answered]
  exact load_settles loaded rfl

theorem Effect.serves {event : PoolEvent E} (effect : Effect number cacheNamespace s event s')
    (stocked : s.Stocked cacheNamespace) {read : String × Reading (Option AdaPool)}
    (serves : Serves cacheNamespace s.cache read) : Serves cacheNamespace s'.cache read := by
  obtain ⟨ops, cache, -⟩ := effect.cache_ops stocked
  rw [cache]
  exact serves.after ops

theorem after_serves (number : String → Number) (events : List (PoolEvent E))
    (stocked : s.Stocked cacheNamespace)
    {read : String × Reading (Option AdaPool)} (serves : Serves cacheNamespace s.cache read) :
    Serves cacheNamespace (s.after number cacheNamespace events).cache read := by
  refine (Machine.run_preserves (P := fun s : PoolClient E =>
    s.Stocked cacheNamespace ∧ Serves cacheNamespace s.cache read) ?_ ⟨stocked, serves⟩).2
  rintro s event ⟨stocked, serves⟩
  have effect := apply_effect number cacheNamespace s event
  exact ⟨effect.stocked stocked, effect.serves stocked serves⟩

/-- What a lookup of one subject settles with, in whatever state it is made. -/
theorem Agreed.read {pick : String → Option AdaPool} (agreed : s.Agreed pick cacheNamespace)
    (stocked : s.Stocked cacheNamespace) {subject : String} {pool : Option AdaPool}
    (later : ((s.apply number cacheNamespace (.resolveAdaPool subject)).after number cacheNamespace
      events).Agreed pick cacheNamespace)
    (settled : ((s.apply number cacheNamespace (.resolveAdaPool subject)).after number
      cacheNamespace events).cache.settlement (s.resolveAdaPool cacheNamespace subject).2 =
        some (.ok pool)) : pool = pick subject := by
  have serves : Serves cacheNamespace (s.apply number cacheNamespace (.resolveAdaPool subject)).cache
      (subject, (s.resolveAdaPool cacheNamespace subject).2) :=
    fun promise reading => stocked.consistent.read_attempt reading
  have stocked' : (s.apply number cacheNamespace (.resolveAdaPool subject)).Stocked cacheNamespace :=
    (apply_effect number cacheNamespace s _).stocked stocked
  have kept := after_serves number events stocked' serves
  cases reading : (s.resolveAdaPool cacheNamespace subject).2 with
  | hit held =>
    rw [reading] at settled
    cases settled
    exact agreed.typed.peek (MemoryCache.read_hit reading).1 subject rfl
  | attempt promise =>
    rw [reading] at settled
    obtain ⟨attempt, there, same⟩ := kept promise reading
    obtain ⟨known, there', resolved⟩ := MemoryCache.resolves_of_settlement settled
    cases there.symm.trans there'
    exact later.typed.attempts promise attempt pool there (Phase.value?_of_resolved? resolved)
      subject same

/-- A batch has for each of its subjects what a lookup of that subject alone comes to; so has a
lookup of one subject next to the batches. -/
structure AgreesAlone (upstream : Upstream) (number : String → Number) (cacheNamespace : String)
    (maxEntries now : Nat) (events : List (PoolEvent E)) : Prop where
  batch : ∀ id call pools,
    ((create maxEntries now).after number cacheNamespace events).calls id = some call →
    ((create maxEntries now).after number cacheNamespace events).outcome call = some (.ok pools) →
    ∀ subject ∈ call.subjects, ∃ pool, pools.get? subject = some pool ∧
      ∀ maxEntries' now', resolvedAlone (E := E) upstream number cacheNamespace subject maxEntries'
        now' = some (.ok pool)
  single : ∀ earlier subject later pool, events = earlier ++ .resolveAdaPool subject :: later →
    ((create maxEntries now).after number cacheNamespace events).cache.settlement
      (((create maxEntries now).after number cacheNamespace earlier).resolveAdaPool cacheNamespace
        subject).2 = some (.ok pool) →
    ∀ maxEntries' now', resolvedAlone (E := E) upstream number cacheNamespace subject maxEntries'
      now' = some (.ok pool)

theorem after_agreesAlone (upstream : Upstream) (number : String → Number)
    (faithful : upstream.Faithful number) (cacheNamespace : String) (maxEntries now : Nat)
    (events : List (PoolEvent E))
    (answered : Machine.Along (apply number cacheNamespace) (Answers upstream)
      (create maxEntries now) events) :
    AgreesAlone upstream number cacheNamespace maxEntries now events where
  batch id call pools there resolves subject asked := by
    have agreed := after_agreed faithful answered
    have sound := after_sound number cacheNamespace events (create_sound (E := E) maxEntries now)
    exact ⟨_, agreed.outcome sound there resolves asked, resolvedAlone_pick upstream number
      cacheNamespace subject⟩
  single earlier subject later pool same settled maxEntries' now' := by
    subst same
    have ended := after_agreed faithful answered
    have begun := after_agreed faithful (Machine.along_append.mp answered).1
    rw [after, Machine.run_append] at settled ended
    have stocked := after_stocked number earlier
      (create_stocked (E := E) cacheNamespace maxEntries now)
    rw [resolvedAlone_pick, begun.read stocked ended settled]

/-- The largest pool of one token is paired with ADA; of the other, only a smaller one. -/
def twoTokens : Upstream :=
  let paired : PoolEntry := ⟨"p", "2", "1", some "90", none, none, "cardano_aa", NATIVE_TOKEN_ID⟩
  let foreign : PoolEntry := ⟨"q", "3", "1", some "700", none, none, "cardano_bb", "cardano_aa"⟩
  let smaller : PoolEntry := ⟨"r", "4", "1", none, none, none, "cardano_bb", NATIVE_TOKEN_ID⟩
  { multi := fun _ => some ⟨[⟨"AA", some ["p"]⟩, ⟨"bb", some ["q"]⟩],
      some [⟨paired, "p"⟩, ⟨foreign, "q"⟩]⟩
    pools := fun subject =>
      if subject = "aa" then some [paired]
      else if subject = "bb" then some [foreign, smaller]
      else none }

theorem toLower_AA : "AA".toLower = "aa" := by
  rw [← String.toList_inj, toList_toLower]
  rfl

theorem toLower_bb : "bb".toLower = "bb" := by
  rw [← String.toList_inj, toList_toLower]
  rfl

theorem twoTokens_faithful : twoTokens.Faithful String.length where
  heads chunk body answer token listed := by
    cases answer
    obtain rfl | rfl : token = ⟨"AA", some ["p"]⟩ ∨ token = ⟨"bb", some ["q"]⟩ := by
      simpa using listed
    · refine ⟨[⟨⟨"p", "2", "1", some "90", none, none, "cardano_aa", NATIVE_TOKEN_ID⟩, "p"⟩], [],
        rfl, ?_, nofun⟩
      simp [Upstream.listing, twoTokens, toLower_AA]
    · refine ⟨[⟨⟨"q", "3", "1", some "700", none, none, "cardano_bb", "cardano_aa"⟩, "q"⟩],
        [⟨"r", "4", "1", none, none, none, "cardano_bb", NATIVE_TOKEN_ID⟩], rfl, ?_, ?_⟩
      · simp [Upstream.listing, twoTokens, toLower_bb]
      · simp only [List.mem_singleton]
        rintro within rfl further rfl
        decide
  absent chunk subject asked unreturned := by
    have other : "AA".toLower ≠ subject ∧ "bb".toLower ≠ subject := by
      simpa [twoTokens] using unreturned
    rw [toLower_AA, toLower_bb] at other
    simp [Upstream.listing, twoTokens, other.1.symm, other.2.symm]

/-- A batch over three subjects, one of which no endpoint knows, and a lookup next to it. -/
def threeSubjects : List (PoolEvent String) :=
  [.resolveAdaPoolsBatch 0 ["aa", "bb", "cc"], .answerChunk 0 (.ok (twoTokens.multi [])),
    .resolveAdaPool "bb", .startLoad 0, .answerPools 0 (.ok (twoTokens.pools "bb")), .handle 0,
    .finish 0, .joinReads 0]

theorem threeSubjects_agreesAlone :
    AgreesAlone twoTokens String.length NETWORK 10 0 threeSubjects ∧
      (let s := (create 10 0).after String.length NETWORK threeSubjects
       ((s.calls 0).bind s.outcome).map (Except.map fun pools =>
          ["aa", "bb", "cc"].map fun subject => (pools.get? subject).map (Option.map AdaPool.address))) =
        some (.ok [some (some "p"), some (some "r"), some none]) := by
  refine ⟨after_agreesAlone twoTokens String.length twoTokens_faithful NETWORK 10 0 threeSubjects
    ⟨trivial, fun _ _ _ _ _ _ _ => rfl, trivial, trivial, ?_, trivial, trivial, trivial, trivial⟩, ?_⟩
  · have load : (((create 10 0).after String.length NETWORK
        (threeSubjects.take 4)).cache.attempts 0).map Attempt.load = some "bb" := by decide +kernel
    intro attempt there
    have asks := load.symm.trans (congrArg (Option.map Attempt.load) there)
    exact congrArg twoTokens.pools (Option.some.inj asks)
  · decide +kernel

end Runs
end PoolClient
end WalletBackend.Prices
