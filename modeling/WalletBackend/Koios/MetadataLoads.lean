import WalletBackend.Cache.Sourced

/-! The batch loads of the Koios driver: token metadata by subject and DRep metadata by
credential. What is cached is served, the rest is asked for in batches, and each row is
written under the token that its name got before the first request. -/
namespace WalletBackend.Koios
open Cache Containers

def TOKEN_METADATA_TTL_MS : Nat := 10 * 60000
def DREP_METADATA_TTL_MS : Nat := 60 * 60000

inductive MetadataKind where
  | token
  | drep
  deriving DecidableEq

/-- The cache key of a subject or a credential. -/
def MetadataKind.key : MetadataKind → String → String
  | .token, subject => "asset:meta:" ++ subject
  | .drep, hex => "gov:drep-meta:" ++ hex

def MetadataKind.ttlMs : MetadataKind → Nat
  | .token => TOKEN_METADATA_TTL_MS
  | .drep => DREP_METADATA_TTL_MS

/-- A row of `/asset_info`: its identity, and what else `mapTokenMetadata` reads. -/
structure AssetInfoRow (Rest : Type) where
  policy_id : String
  asset_name : String
  rest : Rest

/-- A row of `/drep_metadata`. -/
structure DrepMetadataRow (Rest : Type) where
  drep_id : String
  meta_json : Rest

/-- One call of `getTokenMetadata` or of `drepMetadataByHex`. -/
structure MetadataLoad (V : Type) where
  kind : MetadataKind
  /-- What is asked about, normalized, in the order of the caller. -/
  names : List String
  found : KeyedMap String (Sourced V)
  generations : KeyedMap String Nat
  /-- For each request that the client has begun for the call (a batch, a repacked one, or
  a retry), the count of clears before it. -/
  requests : List Nat

variable {V E L : Type}

/-- Serve the hits, and take a token for each miss. -/
def beginLoad (cache : MemoryCache (Sourced V) E L) (kind : MetadataKind) (names : List String) :
    MetadataLoad V where
  kind := kind
  names := names
  found := names.foldl (fun found name =>
    match cache.peek (kind.key name) with
    | some hit => found.set name hit
    | none => found) .empty
  generations := (names.filter fun name => (cache.peek (kind.key name)).isNone).foldl
    (fun generations name => generations.set name (cache.generation (some (kind.key name)))) .empty
  requests := []

/-- `getTokenMetadata`, up to its batch. -/
def getTokenMetadata (cache : MemoryCache (Sourced V) E L) (subjects : List String) :
    MetadataLoad V :=
  beginLoad cache .token (subjects.map String.toLower)

/-- `drepMetadataByHex`, up to its first batch. -/
def drepMetadataByHex (drepCredentialHex : String → Option String)
    (cache : MemoryCache (Sourced V) E L) (drepIds : List String) : MetadataLoad V :=
  beginLoad cache .drep (drepIds.filterMap drepCredentialHex)

namespace MetadataLoad

variable (load : MetadataLoad V)

/-- The client begins a request for the call; there is none without a miss. -/
def request (cache : MemoryCache (Sourced V) E L) : MetadataLoad V :=
  if load.generations.size = 0 then load
  else { load with requests := load.requests ++ [cache.clearGeneration] }

/-- A row found: what it is about, and its value with the origin of its request. -/
abbrev Found (V : Type) : Type := String × Sourced V

/-- The rows that came back, each by the request it came from. -/
def sourced (rows : List (String × V × Nat)) : List (Found V) :=
  rows.filterMap fun row => load.requests[row.2.2]?.map fun begunAt => (row.1, ⟨row.2.1, begunAt⟩)

/-- `generations.get(name) ?? cache.generation(key)`. -/
def tokenFor (cache : MemoryCache (Sourced V) E L) (name : String) : Nat :=
  (load.generations.get? name).getD (cache.generation (some (load.kind.key name)))

def writeRow (cache : MemoryCache (Sourced V) E L) (row : Found V) :
    MemoryCache (Sourced V) E L :=
  cache.setIfGeneration (load.kind.key row.1) row.2 load.kind.ttlMs (load.tokenFor cache row.1)

/-- The loop over the rows of a batch. -/
def answer (cache : MemoryCache (Sourced V) E L) (rows : List (Found V)) :
    MetadataLoad V × MemoryCache (Sourced V) E L :=
  ({ load with found := rows.foldl (fun found row => found.set row.1 row.2) load.found },
    rows.foldl load.writeRow cache)

/-- What `getTokenMetadata` returns: the tokens known, in the order of the caller. -/
def result : List (Sourced V) := load.names.filterMap load.found.get?

end MetadataLoad

section Rows

variable {Rest : Type}

/-- The rows of `/asset_info` by subject. -/
def tokenRows (mapTokenMetadata : AssetInfoRow Rest → V) (rows : List (AssetInfoRow Rest × Nat)) :
    List (String × V × Nat) :=
  rows.map fun row => (row.1.policy_id ++ row.1.asset_name, mapTokenMetadata row.1, row.2)

/-- The rows of `/drep_metadata` by credential; others are skipped. -/
def drepRows (drepCredentialHex : String → Option String) (drepMetaFields : Rest → V)
    (rows : List (DrepMetadataRow Rest × Nat)) : List (String × V × Nat) :=
  rows.filterMap fun row => (drepCredentialHex row.1.drep_id).map fun hex =>
    (hex, drepMetaFields row.1.meta_json, row.2)

end Rows

namespace MetadataLoad

variable {load : MetadataLoad V} {cache : MemoryCache (Sourced V) E L}

/-- The tokens come from before the requests. -/
def Ahead (load : MetadataLoad V) (cache : MemoryCache (Sourced V) E L) : Prop :=
  ∀ name token, load.generations.get? name = some token →
    token ≤ cache.clearGeneration ∧ ∀ begunAt ∈ load.requests, token ≤ begunAt

/-- The row is one that was asked for, or no clear of its key came since it was. -/
def Covered (load : MetadataLoad V) (cache : MemoryCache (Sourced V) E L) (row : Found V) : Prop :=
  (load.generations.get? row.1).isSome = true ∨
    cache.UnclearedSince (load.kind.key row.1) row.2.begunAt

instance (cache : MemoryCache (Sourced V) E L) (row : Found V) : Decidable (load.Covered cache row) :=
  inferInstanceAs (Decidable (_ ∨ _))

theorem beginLoad_ahead (consistent : cache.Consistent) (kind : MetadataKind) (names : List String) :
    (beginLoad cache kind names).Ahead cache := by
  have tokens : ∀ (missing : List String) (generations : KeyedMap String Nat),
      (∀ name token, generations.get? name = some token → token ≤ cache.clearGeneration) →
      ∀ name token, (missing.foldl (fun generations name =>
        generations.set name (cache.generation (some (kind.key name)))) generations).get? name =
          some token → token ≤ cache.clearGeneration := by
    intro missing
    induction missing with
    | nil => exact fun _ bound => bound
    | cons first missing ih =>
      intro generations bound
      apply ih
      intro name token taken
      rw [KeyedMap.get?_set] at taken
      split at taken
      · cases taken
        exact consistent.generationFor_le _
      · exact bound name token taken
  intro name token taken
  refine ⟨tokens _ .empty ?_ name token taken, ?_⟩
  · simp
  · simp [beginLoad]

theorem Ahead.request (ahead : load.Ahead cache) : (load.request cache).Ahead cache := by
  rw [MetadataLoad.request]
  split
  · exact ahead
  · intro name token taken
    obtain ⟨now, before⟩ := ahead name token taken
    refine ⟨now, ?_⟩
    intro begunAt member
    rcases List.mem_append.mp member with earlier | last
    · exact before begunAt earlier
    · rw [List.mem_singleton.mp last]
      exact now

theorem Ahead.mono {cache' : MemoryCache (Sourced V) E L} (ahead : load.Ahead cache)
    (risen : cache.clearGeneration ≤ cache'.clearGeneration) : load.Ahead cache' := by
  intro name token taken
  obtain ⟨now, before⟩ := ahead name token taken
  exact ⟨Nat.le_trans now risen, before⟩

theorem sourced_begunAt {rows : List (String × V × Nat)} {row : Found V}
    (member : row ∈ load.sourced rows) : row.2.begunAt ∈ load.requests := by
  obtain ⟨answered, -, found⟩ := List.mem_filterMap.mp member
  obtain ⟨begunAt, there, rfl⟩ := Option.map_eq_some_iff.mp found
  exact List.mem_of_getElem? there

/-- A covered row may be written: under its token it is guarded, without one it is of
no earlier date than the clears of its key. -/
theorem Ahead.writeRow (ahead : load.Ahead cache) (purged : cache.Purged) {row : Found V}
    (begun : row.2.begunAt ∈ load.requests) (covered : load.Covered cache row) :
    (load.writeRow cache row).Purged := by
  have asks : cache.Asks (.setIfGeneration (load.kind.key row.1) row.2 load.kind.ttlMs
      (load.tokenFor cache row.1)) := by
    intro current
    rcases covered with asked | uncleared
    · obtain ⟨token, taken⟩ := Option.isSome_iff_exists.mp asked
      rw [tokenFor, taken, Option.getD_some] at current
      exact MemoryCache.unclearedSince_of_token current ((ahead row.1 token taken).2 _ begun)
    · exact uncleared
  exact purged.apply asks

variable (load cache) in
theorem writeRow_fields (row : Found V) :
    (load.writeRow cache row).clearGenerations = cache.clearGenerations ∧
      (load.writeRow cache row).clearGeneration = cache.clearGeneration ∧
      (load.writeRow cache row).attempts = cache.attempts := by
  rw [MetadataLoad.writeRow, MemoryCache.setIfGeneration]
  split
  · exact ⟨rfl, rfl, rfl⟩
  · exact ⟨MemoryCache.store_clearGenerations .., MemoryCache.store_clearGeneration ..,
      MemoryCache.store_attempts ..⟩

variable (load cache) in
/-- What the loop over the rows leaves alone. -/
theorem answer_fields (rows : List (Found V)) :
    (load.answer cache rows).2.clearGenerations = cache.clearGenerations ∧
      (load.answer cache rows).2.clearGeneration = cache.clearGeneration ∧
      (load.answer cache rows).2.attempts = cache.attempts := by
  rw [answer]
  induction rows generalizing cache with
  | nil => exact ⟨rfl, rfl, rfl⟩
  | cons row rows ih =>
    obtain ⟨clears, count, attempts⟩ := load.writeRow_fields cache row
    obtain ⟨clears', count', attempts'⟩ := ih (load.writeRow cache row)
    exact ⟨clears'.trans clears, count'.trans count, attempts'.trans attempts⟩

theorem Ahead.answer (ahead : load.Ahead cache) (purged : cache.Purged) {rows : List (Found V)}
    (begun : ∀ row ∈ rows, row.2.begunAt ∈ load.requests)
    (covered : ∀ row ∈ rows, load.Covered cache row) : (load.answer cache rows).2.Purged := by
  rw [MetadataLoad.answer]
  induction rows generalizing cache with
  | nil => exact purged
  | cons row rows ih =>
    obtain ⟨clears, count, -⟩ := load.writeRow_fields cache row
    apply ih (ahead.mono (Nat.le_of_eq count.symm))
    · exact ahead.writeRow purged (begun row List.mem_cons_self) (covered row List.mem_cons_self)
    · exact fun other member => begun other (List.mem_cons_of_mem _ member)
    · intro other member
      rcases covered other (List.mem_cons_of_mem _ member) with asked | uncleared
      · exact .inl asked
      · exact .inr (uncleared.congr clears)

end MetadataLoad
end WalletBackend.Koios
