import WalletBackend.Cached.Scoped
import Mathlib.Data.List.Perm.Subperm

/-! A part of a shared cache and a private cache that mirror one another: the same
entries, registrations and promises under stripped keys, and tokens that are current
or out of date together. Each operation on both keeps them so, and so does whatever
happens to the rest of the shared cache. -/
namespace WalletBackend.Cached
open Cache Containers

variable {V E L : Type}

/-- The latest clear of just this prefix, or zero. -/
def clearedAt (c : MemoryCache V E L) (start : String) : Nat :=
  (c.clearGenerations.get? start).getD 0

/-- A token or stamp of each side, against its latest clear: current on both, or out of
date on both. -/
def InStep (latest token latest' token' : Nat) : Prop :=
  latest ≤ token ∧ token' = latest' ∨ token < latest ∧ token' < latest'

/-- The same promise on both sides. -/
structure Twins (start : String) (latest latest' : Nat) (a a' : Attempt V E L) : Prop where
  key : a.key = start ++ a'.key
  policy : a.policy = a'.policy
  load : a.load = a'.load
  phase : a.phase = a'.phase
  inStep : InStep latest a.generation latest' a'.generation

structure Mirrors (start : String) (c p : MemoryCache V E L) : Prop where
  consistent : c.Consistent
  consistent' : p.Consistent
  now : c.now = p.now
  capacity : c.maxEntries = p.maxEntries
  entries : ∀ key, c.entries.get? (start ++ key) = p.entries.get? key
  inFlight : ∀ key, c.inFlight.get? (start ++ key) = p.inFlight.get? key
  foreign : ∀ other n, c.clearGenerations.get? other = some n →
    other = start ∨ related other start = false
  whole : ∀ other n, p.clearGenerations.get? other = some n → other = ""
  attempts : ∀ id a', p.attempts id = some a' → ∃ a, c.attempts id = some a ∧
    Twins start (clearedAt c start) (clearedAt p "") a a'
  others : ∀ id a, c.attempts id = some a → p.attempts id = none →
    startsWith a.key start = false

variable {start : String} {c c' p p' : MemoryCache V E L}

theorem create_mirrors (start : String) (maxEntries now : Nat) :
    Mirrors start (createMemoryCache maxEntries now : MemoryCache V E L)
      (createMemoryCache maxEntries now) where
  consistent := MemoryCache.create_consistent maxEntries now
  consistent' := MemoryCache.create_consistent maxEntries now
  now := rfl
  capacity := rfl
  entries _ := rfl
  inFlight _ := rfl
  foreign := nofun
  whole := nofun
  attempts := nofun
  others := nofun

namespace Mirrors

section Generations

/-- Under the prefix, only its own clears count. -/
theorem generationFor (mirrors : Mirrors start c p) (key : String) :
    c.generationFor (start ++ key) = clearedAt c start := by
  have inside := startsWith_append start key
  apply Nat.le_antisymm
  · rcases c.generationFor_attained (start ++ key) with zero | ⟨other, concerns, cleared⟩
    · rw [zero]
      exact Nat.zero_le _
    · rcases mirrors.foreign other _ cleared with rfl | apart
      · simp only [clearedAt, cleared, Option.getD_some, Nat.le_refl]
      · have near : related other start = true := by
          rw [related, Bool.or_eq_true] at concerns
          rcases concerns with shorter | longer
          · exact related_of_startsWith shorter inside
          · rw [related, Bool.or_eq_true]
            exact .inr (startsWith_trans longer inside)
        rw [apart] at near
        cases near
  · rw [clearedAt]
    cases cleared : c.clearGenerations.get? start with
    | none => exact Nat.zero_le _
    | some n =>
      apply MemoryCache.le_generationFor _ cleared
      rw [related, inside, Bool.true_or]

/-- A private cache has only been cleared as a whole. -/
theorem generationFor' (mirrors : Mirrors start c p) (key : String) :
    p.generationFor key = clearedAt p "" := by
  apply Nat.le_antisymm
  · rcases p.generationFor_attained key with zero | ⟨other, -, cleared⟩
    · rw [zero]
      exact Nat.zero_le _
    · cases mirrors.whole other _ cleared
      simp only [clearedAt, cleared, Option.getD_some, Nat.le_refl]
  · rw [clearedAt]
    cases cleared : p.clearGenerations.get? "" with
    | none => exact Nat.zero_le _
    | some n => exact MemoryCache.le_generationFor (MemoryCache.related_empty key) cleared

/-- Twins are current together. -/
theorem current_iff (mirrors : Mirrors start c p) {id : Nat} {a a' : Attempt V E L}
    (known : c.attempts id = some a) (twins : Twins start (clearedAt c start) (clearedAt p "") a a') :
    a.generation = c.generationFor a.key ↔ a'.generation = p.generationFor a'.key := by
  have bound := mirrors.consistent.stamped id a known
  rw [twins.key, mirrors.generationFor] at bound ⊢
  rw [mirrors.generationFor']
  rcases twins.inStep with ⟨reached, current⟩ | ⟨behind, behind'⟩ <;> omega

end Generations

section Room

theorem peek (mirrors : Mirrors start c p) (key : String) : c.peek (start ++ key) = p.peek key := by
  rw [MemoryCache.peek, MemoryCache.peek, mirrors.entries, mirrors.now]

/-- A private cache holds no more than the shared one. -/
theorem size_le (mirrors : Mirrors start c p) : p.entries.size ≤ c.entries.size := by
  have distinct : (p.entries.keys.map (start ++ ·)).Nodup :=
    p.entries.distinct.map fun _ _ => (String.append_right_inj start).mp
  have inside : p.entries.keys.map (start ++ ·) ⊆ c.entries.keys := by
    intro key member
    obtain ⟨own, there, rfl⟩ := List.mem_map.mp member
    by_contra absent
    have none' := KeyedMap.get?_eq_none_iff.mpr absent
    rw [mirrors.entries, KeyedMap.get?_eq_none_iff] at none'
    exact none' there
  have le := (distinct.subperm inside).length_le
  rw [List.length_map] at le
  simpa only [KeyedMap.size, KeyedMap.keys, List.length_map] using le

theorem stored (mirrors : Mirrors start c p) (value : V) (policy : CachePolicy) :
    c.stored value policy = p.stored value policy := by
  rw [MemoryCache.stored, MemoryCache.stored, mirrors.now]

end Room

section Elsewhere

/-- What happens to the rest of the shared cache. -/
theorem elsewhere (mirrors : Mirrors start c p) (consistent : c'.Consistent)
    (now : c'.now = c.now) (capacity : c'.maxEntries = c.maxEntries)
    (entries : ∀ key, c'.entries.get? (start ++ key) = c.entries.get? (start ++ key))
    (inFlight : ∀ key, c'.inFlight.get? (start ++ key) = c.inFlight.get? (start ++ key))
    (cleared : c'.clearGenerations.get? start = c.clearGenerations.get? start)
    (foreign : ∀ other n, c'.clearGenerations.get? other = some n →
      other = start ∨ related other start = false)
    (attempts : ∀ id a, c.attempts id = some a → startsWith a.key start = true →
      c'.attempts id = some a)
    (others : ∀ id a, c'.attempts id = some a → c.attempts id = some a ∨
      startsWith a.key start = false) : Mirrors start c' p where
  consistent := consistent
  consistent' := mirrors.consistent'
  now := now.trans mirrors.now
  capacity := capacity.trans mirrors.capacity
  entries key := (entries key).trans (mirrors.entries key)
  inFlight key := (inFlight key).trans (mirrors.inFlight key)
  foreign := foreign
  whole := mirrors.whole
  attempts id a' there := by
    obtain ⟨a, known, twins⟩ := mirrors.attempts id a' there
    have inside : startsWith a.key start = true := twins.key ▸ startsWith_append start a'.key
    refine ⟨a, attempts id a known inside, ?_⟩
    rw [clearedAt, cleared]
    exact twins
  others id a there absent := by
    rcases others id a there with known | outside
    · exact mirrors.others id a known absent
    · exact outside

theorem ne_of_outside {key own : String} (outside : startsWith key start = false) :
    start ++ own ≠ key := by
  rintro rfl
  rw [startsWith_append] at outside
  cases outside

/-- The store of a key of someone else. -/
theorem store_elsewhere (mirrors : Mirrors start c p) (room : c.entries.size < c.maxEntries)
    {key : String} {value : V} {policy : CachePolicy} (outside : startsWith key start = false) :
    Mirrors start (c.store key value policy) p := by
  have consistent := mirrors.consistent.store key value policy
  rw [MemoryCache.store_of_room room] at consistent ⊢
  refine mirrors.elsewhere consistent rfl rfl ?_ (fun _ => rfl) rfl mirrors.foreign
    (fun _ _ known _ => known) (fun _ _ known => .inl known)
  intro own
  exact KeyedMap.get?_set_of_ne _ _ (ne_of_outside outside)

/-- A step of a load of someone else. -/
theorem setPhase_elsewhere (mirrors : Mirrors start c p) {id : Nat} {a : Attempt V E L}
    {phase : Phase V E} {inFlight : KeyedMap String Nat} (known : c.attempts id = some a)
    (outside : startsWith a.key start = false)
    (consistent : ({ c with inFlight }.setPhase id a phase).Consistent)
    (kept : ∀ key, inFlight.get? (start ++ key) = c.inFlight.get? (start ++ key)) :
    Mirrors start ({ c with inFlight }.setPhase id a phase) p := by
  refine mirrors.elsewhere consistent rfl rfl (fun _ => rfl) kept rfl mirrors.foreign ?_ ?_
  · intro id' a' there inside
    rw [MemoryCache.setPhase_attempts, if_neg]
    · exact there
    · rintro rfl
      cases known.symm.trans there
      rw [outside] at inside
      cases inside
  · intro id' a' there
    rw [MemoryCache.setPhase_attempts] at there
    split at there
    · cases there
      exact .inr outside
    · exact .inl there

/-- The event does not concern the keys with the prefix. -/
def Away (start : String) (c : MemoryCache V E L) : Cache.Event V E L → Prop
  | .read key _ _ _ => startsWith key start = false
  | .startLoad id | .answer id _ | .handle id | .finish id =>
      ∀ a, c.attempts id = some a → startsWith a.key start = false
  | .set key _ _ => startsWith key start = false
  | .setIfGeneration key _ _ _ => startsWith key start = false
  | .clear other => related (other.getD "") start = false
  | .tick _ => False

/-- A private cache does not notice what happens elsewhere in the shared one. -/
theorem effect_elsewhere (mirrors : Mirrors start c p) (room : c.entries.size < c.maxEntries)
    {event : Cache.Event V E L} (effect : MemoryCache.Effect c event c') (away : Away start c event) :
    Mirrors start c' p := by
  have consistent := mirrors.consistent.effect effect
  cases effect with
  | idle => exact mirrors
  | @made key policy load id unused =>
    refine mirrors.elsewhere consistent rfl rfl (fun _ => rfl) ?_ rfl mirrors.foreign ?_ ?_
    · intro own
      rw [MemoryCache.register_inFlight, if_neg (ne_of_outside away)]
    · intro id' a there _
      rw [MemoryCache.register_attempts, if_neg]
      · exact there
      · rintro rfl
        cases unused.symm.trans there
    · intro id' a there
      rw [MemoryCache.register_attempts] at there
      split at there
      · cases there
        exact .inr away
      · exact .inl there
  | started known =>
    exact mirrors.setPhase_elsewhere known (away _ known) consistent fun _ => rfl
  | answered known =>
    exact mirrors.setPhase_elsewhere known (away _ known) consistent fun _ => rfl
  | @stored id a value known =>
    have outside := away _ known
    have stored : Mirrors start (c.store a.key value a.policy) p :=
      mirrors.store_elsewhere room outside
    have there : (c.store a.key value a.policy).attempts id = some a := by
      rw [MemoryCache.store_attempts]
      exact known
    exact stored.setPhase_elsewhere there outside consistent fun _ => rfl
  | dropped known =>
    exact mirrors.setPhase_elsewhere known (away _ known) consistent fun _ => rfl
  | fellBack known =>
    exact mirrors.setPhase_elsewhere known (away _ known) consistent fun _ => rfl
  | failed known =>
    exact mirrors.setPhase_elsewhere known (away _ known) consistent fun _ => rfl
  | @cleaned id a outcome known =>
    refine mirrors.setPhase_elsewhere known (away _ known) consistent ?_
    intro own
    rw [KeyedMap.get?_delete, if_neg (ne_of_outside (away _ known))]
  | finished known =>
    exact mirrors.setPhase_elsewhere known (away _ known) consistent fun _ => rfl
  | set => exact mirrors.store_elsewhere room away
  | guarded => exact mirrors.store_elsewhere room away
  | cleared other =>
    have apart : ∀ own, startsWith (start ++ own) (other.getD "") = false := by
      intro own
      by_contra inside
      rw [Bool.not_eq_false] at inside
      rw [Away, related_of_startsWith inside (startsWith_append start own)] at away
      cases away
    have different : start ≠ other.getD "" := by
      rintro rfl
      rw [Away, related, startsWith_self, Bool.true_or] at away
      cases away
    refine mirrors.elsewhere consistent (MemoryCache.clear_now other) ?_ ?_ ?_ ?_ ?_ ?_ ?_
    · cases other <;> rfl
    · intro own
      rw [MemoryCache.clear_entries, apart, if_neg Bool.false_ne_true]
    · intro own
      rw [MemoryCache.clear_inFlight, apart, if_neg Bool.false_ne_true]
    · rw [MemoryCache.clear_clearGenerations, KeyedMap.get?_set_of_ne _ _ different]
    · intro cleared n there
      rw [MemoryCache.clear_clearGenerations, KeyedMap.get?_set] at there
      split at there
      case isTrue same => exact .inr (same ▸ away)
      case isFalse => exact mirrors.foreign cleared n there
    · intro id a known _
      rw [MemoryCache.clear_attempts]
      exact known
    · intro id a known
      rw [MemoryCache.clear_attempts] at known
      exact .inl known
  | ticked => cases away

end Elsewhere

section Both

theorem room' (mirrors : Mirrors start c p) (room : c.entries.size < c.maxEntries) :
    p.entries.size < p.maxEntries :=
  mirrors.capacity ▸ Nat.lt_of_le_of_lt mirrors.size_le room

theorem store (mirrors : Mirrors start c p) (room : c.entries.size < c.maxEntries) (key : String)
    (value : V) (policy : CachePolicy) :
    Mirrors start (c.store (start ++ key) value policy) (p.store key value policy) := by
  have consistent := mirrors.consistent.store (start ++ key) value policy
  have consistent' := mirrors.consistent'.store key value policy
  rw [MemoryCache.store_of_room room] at consistent ⊢
  rw [MemoryCache.store_of_room (mirrors.room' room)] at consistent' ⊢
  refine ⟨consistent, consistent', mirrors.now, mirrors.capacity, ?_, mirrors.inFlight,
    mirrors.foreign, mirrors.whole, mirrors.attempts, mirrors.others⟩
  intro own
  rw [KeyedMap.get?_set, KeyedMap.get?_set, mirrors.stored, mirrors.entries]
  by_cases same : own = key
  · rw [if_pos same, if_pos (same ▸ rfl)]
  · rw [if_neg same, if_neg fun same' => same ((String.append_right_inj start).mp same')]

/-- A promise and its twin come to the same phase. -/
theorem setPhase (mirrors : Mirrors start c p) {id : Nat} {a a' : Attempt V E L}
    {phase : Phase V E} {inFlight inFlight' : KeyedMap String Nat}
    (twins : Twins start (clearedAt c start) (clearedAt p "") a a')
    (consistent : ({ c with inFlight }.setPhase id a phase).Consistent)
    (consistent' : ({ p with inFlight := inFlight' }.setPhase id a' phase).Consistent)
    (kept : ∀ key, inFlight.get? (start ++ key) = inFlight'.get? key) :
    Mirrors start ({ c with inFlight }.setPhase id a phase)
      ({ p with inFlight := inFlight' }.setPhase id a' phase) := by
  refine ⟨consistent, consistent', mirrors.now, mirrors.capacity, mirrors.entries, kept,
    mirrors.foreign, mirrors.whole, ?_, ?_⟩
  · intro id' other there
    rw [MemoryCache.setPhase_attempts] at there ⊢
    split at there
    case isTrue same =>
      cases there
      rw [if_pos same]
      exact ⟨_, rfl, twins.key, twins.policy, twins.load, rfl, twins.inStep⟩
    case isFalse different =>
      rw [if_neg different]
      exact mirrors.attempts id' other there
  · intro id' other there absent
    rw [MemoryCache.setPhase_attempts] at there absent
    split at there
    case isTrue same =>
      rw [if_pos same] at absent
      cases absent
    case isFalse different =>
      rw [if_neg different] at absent
      exact mirrors.others id' other there absent

/-- A promise that the shared cache has not made has not been made at all. -/
theorem unused' (mirrors : Mirrors start c p) {id : Nat} (unused : c.attempts id = none) :
    p.attempts id = none := by
  cases there : p.attempts id with
  | none => rfl
  | some a' =>
    obtain ⟨a, known, -⟩ := mirrors.attempts id a' there
    cases unused.symm.trans known

theorem read (mirrors : Mirrors start c p) {id : Nat} (unused : c.attempts id = none) (key : String)
    (policy : CachePolicy) (load : L) :
    (c.read (start ++ key) policy load id).2 = (p.read key policy load id).2 ∧
      Mirrors start (c.read (start ++ key) policy load id).1 (p.read key policy load id).1 := by
  have unused' := mirrors.unused' unused
  have effect : MemoryCache.Effect c (.read (start ++ key) policy load id) _ :=
    MemoryCache.read_effect unused
  have effect' : MemoryCache.Effect p (.read key policy load id) _ :=
    MemoryCache.read_effect unused'
  have consistent := mirrors.consistent.effect effect
  have consistent' := mirrors.consistent'.effect effect'
  rw [MemoryCache.read, mirrors.peek, mirrors.inFlight] at consistent ⊢
  rw [MemoryCache.read] at consistent' ⊢
  cases found : p.peek key with
  | some value => exact ⟨rfl, mirrors⟩
  | none =>
    rw [found] at consistent consistent'
    cases flying : p.inFlight.get? key with
    | some pending => exact ⟨rfl, mirrors⟩
    | none =>
      simp only [flying] at consistent consistent'
      refine ⟨rfl, consistent, consistent', mirrors.now, mirrors.capacity, mirrors.entries, ?_,
        mirrors.foreign, mirrors.whole, ?_, ?_⟩
      · intro own
        rw [MemoryCache.register_inFlight, MemoryCache.register_inFlight, mirrors.inFlight]
        by_cases same : own = key
        · rw [if_pos same, if_pos (same ▸ rfl)]
        · rw [if_neg same, if_neg fun same' => same ((String.append_right_inj start).mp same')]
      · intro id' a' there
        rw [MemoryCache.register_attempts] at there ⊢
        split at there
        case isTrue same =>
          cases there
          rw [if_pos same]
          refine ⟨_, rfl, rfl, rfl, rfl, rfl, .inl ⟨?_, mirrors.generationFor' key⟩⟩
          exact Nat.le_of_eq (mirrors.generationFor key).symm
        case isFalse different =>
          rw [if_neg different]
          exact mirrors.attempts id' a' there
      · intro id' a there absent
        rw [MemoryCache.register_attempts] at there absent
        split at there
        case isTrue same =>
          rw [if_pos same] at absent
          cases absent
        case isFalse different =>
          rw [if_neg different] at absent
          exact mirrors.others id' a there absent

theorem setIfGeneration (mirrors : Mirrors start c p) (room : c.entries.size < c.maxEntries)
    {key : String} {value : V} {ttlMs token token' : Nat}
    (inStep : InStep (clearedAt c start) token (clearedAt p "") token')
    (honest : token ≤ clearedAt c start) :
    Mirrors start (c.setIfGeneration (start ++ key) value ttlMs token)
      (p.setIfGeneration key value ttlMs token') := by
  rw [MemoryCache.setIfGeneration, MemoryCache.setIfGeneration, mirrors.generationFor,
    mirrors.generationFor']
  rcases inStep with ⟨reached, rfl⟩ | ⟨behind, behind'⟩
  · rw [if_neg (not_not_intro (Nat.le_antisymm honest reached)), if_neg (not_not_intro rfl)]
    exact mirrors.store room key value _
  · rw [if_pos (Nat.ne_of_lt behind), if_pos (Nat.ne_of_lt behind')]
    exact mirrors

theorem clearedAt_clear (c : MemoryCache V E L) (other : Option String) :
    clearedAt (c.clear other) (other.getD "") = c.clearGeneration + 1 := by
  rw [clearedAt, MemoryCache.clear_clearGenerations, KeyedMap.get?_set_self, Option.getD_some]

/-- The clear of the whole view, and that of the whole private cache. -/
theorem clear (mirrors : Mirrors start c p) {other : Option String} (all : other.getD "" = "") :
    Mirrors start (c.clear (some start)) (p.clear other) := by
  have cleared : clearedAt (c.clear (some start)) start = c.clearGeneration + 1 :=
    clearedAt_clear c (some start)
  have cleared' : clearedAt (p.clear other) "" = p.clearGeneration + 1 := all ▸ clearedAt_clear p other
  refine ⟨mirrors.consistent.clear _, mirrors.consistent'.clear _, ?_, ?_, ?_, ?_, ?_, ?_, ?_, ?_⟩
  · rw [MemoryCache.clear_now, MemoryCache.clear_now]
    exact mirrors.now
  · cases other <;> exact mirrors.capacity
  · intro key
    rw [MemoryCache.clear_entries, MemoryCache.clear_entries, all, Option.getD_some,
      startsWith_append, startsWith_empty, if_pos rfl, if_pos rfl]
  · intro key
    rw [MemoryCache.clear_inFlight, MemoryCache.clear_inFlight, all, Option.getD_some,
      startsWith_append, startsWith_empty, if_pos rfl, if_pos rfl]
  · intro name n there
    rw [MemoryCache.clear_clearGenerations, KeyedMap.get?_set] at there
    split at there
    case isTrue same => exact .inl same
    case isFalse => exact mirrors.foreign name n there
  · intro name n there
    rw [MemoryCache.clear_clearGenerations, KeyedMap.get?_set, all] at there
    split at there
    case isTrue same => exact same
    case isFalse => exact mirrors.whole name n there
  · intro id a' there
    rw [MemoryCache.clear_attempts] at there ⊢
    obtain ⟨a, known, twins⟩ := mirrors.attempts id a' there
    refine ⟨a, known, twins.key, twins.policy, twins.load, twins.phase, .inr ?_⟩
    rw [cleared, cleared']
    refine ⟨Nat.lt_succ_of_le ?_, Nat.lt_succ_of_le ?_⟩
    · exact Nat.le_trans (mirrors.consistent.stamped id a known)
        (mirrors.consistent.generationFor_le _)
    · exact Nat.le_trans (mirrors.consistent'.stamped id a' there)
        (mirrors.consistent'.generationFor_le _)
  · intro id a known absent
    rw [MemoryCache.clear_attempts] at known absent
    exact mirrors.others id a known absent

end Both

section Loads

variable {id : Nat} {a a' : Attempt V E L}

theorem startLoad (mirrors : Mirrors start c p) (known : c.attempts id = some a)
    (known' : p.attempts id = some a') (twins : Twins start (clearedAt c start) (clearedAt p "") a a') :
    Mirrors start (c.startLoad id) (p.startLoad id) := by
  have consistent : (c.startLoad id).Consistent :=
    mirrors.consistent.effect (MemoryCache.apply_effect c (.startLoad id))
  have consistent' : (p.startLoad id).Consistent :=
    mirrors.consistent'.effect (MemoryCache.apply_effect p (.startLoad id))
  simp only [MemoryCache.startLoad, known, known', twins.phase] at consistent consistent' ⊢
  cases phase : a'.phase with
  | queued =>
    simp only [phase] at consistent consistent'
    exact mirrors.setPhase twins consistent consistent' mirrors.inFlight
  | _ => exact mirrors

theorem answer (mirrors : Mirrors start c p) (known : c.attempts id = some a)
    (known' : p.attempts id = some a') (twins : Twins start (clearedAt c start) (clearedAt p "") a a')
    (result : Except E V) : Mirrors start (c.answer id result) (p.answer id result) := by
  have consistent : (c.answer id result).Consistent :=
    mirrors.consistent.effect (MemoryCache.apply_effect c (.answer id result))
  have consistent' : (p.answer id result).Consistent :=
    mirrors.consistent'.effect (MemoryCache.apply_effect p (.answer id result))
  simp only [MemoryCache.answer, known, known', twins.phase] at consistent consistent' ⊢
  cases phase : a'.phase with
  | loading =>
    simp only [phase] at consistent consistent'
    exact mirrors.setPhase twins consistent consistent' mirrors.inFlight
  | _ => exact mirrors

/-- A failed load falls back on the same value, or on none. -/
theorem fallback (mirrors : Mirrors start c p) (known : c.attempts id = some a)
    (twins : Twins start (clearedAt c start) (clearedAt p "") a a') : c.fallback a = p.fallback a' := by
  have current := mirrors.current_iff known twins
  rw [MemoryCache.fallback, MemoryCache.fallback, twins.key, mirrors.entries, mirrors.now]
  rw [twins.key] at current
  simp only [current]

theorem handle (mirrors : Mirrors start c p) (room : c.entries.size < c.maxEntries)
    (known : c.attempts id = some a) (known' : p.attempts id = some a')
    (twins : Twins start (clearedAt c start) (clearedAt p "") a a') :
    Mirrors start (c.handle id) (p.handle id) := by
  have consistent : (c.handle id).Consistent :=
    mirrors.consistent.effect (MemoryCache.apply_effect c (.handle id))
  have consistent' : (p.handle id).Consistent :=
    mirrors.consistent'.effect (MemoryCache.apply_effect p (.handle id))
  have current := mirrors.current_iff known twins
  rw [twins.key] at current
  simp only [MemoryCache.handle, known, known', twins.phase, twins.key, twins.policy]
    at consistent consistent' ⊢
  cases phase : a'.phase with
  | loaded result =>
    simp only [phase] at consistent consistent'
    cases result with
    | ok value =>
      by_cases same : a'.generation = p.generationFor a'.key
      · simp only [if_pos same, if_pos (current.mpr same)] at consistent consistent' ⊢
        have stored := mirrors.store room a'.key value a'.policy
        refine stored.setPhase ?_ consistent consistent' stored.inFlight
        rw [clearedAt, clearedAt, MemoryCache.store_clearGenerations,
          MemoryCache.store_clearGenerations]
        exact twins
      · simp only [if_neg same, if_neg (mt current.mp same)] at consistent consistent' ⊢
        exact mirrors.setPhase twins consistent consistent' mirrors.inFlight
    | error error =>
      simp only [mirrors.fallback known twins] at consistent ⊢
      exact mirrors.setPhase twins consistent consistent' mirrors.inFlight
  | _ => exact mirrors

theorem finish (mirrors : Mirrors start c p) (known : c.attempts id = some a)
    (known' : p.attempts id = some a') (twins : Twins start (clearedAt c start) (clearedAt p "") a a') :
    Mirrors start (c.finish id) (p.finish id) := by
  have consistent : (c.finish id).Consistent :=
    mirrors.consistent.effect (MemoryCache.apply_effect c (.finish id))
  have consistent' : (p.finish id).Consistent :=
    mirrors.consistent'.effect (MemoryCache.apply_effect p (.finish id))
  simp only [MemoryCache.finish, known, known', twins.phase, twins.key, mirrors.inFlight]
    at consistent consistent' ⊢
  cases phase : a'.phase with
  | handled outcome =>
    simp only [phase] at consistent consistent'
    by_cases registered : p.inFlight.get? a'.key = some id
    · simp only [if_pos registered] at consistent consistent' ⊢
      refine mirrors.setPhase twins consistent consistent' ?_
      intro own
      rw [KeyedMap.get?_delete, KeyedMap.get?_delete, mirrors.inFlight]
      by_cases same : own = a'.key
      · rw [if_pos same, if_pos (same ▸ rfl)]
      · rw [if_neg same, if_neg fun same' => same ((String.append_right_inj start).mp same')]
    · simp only [if_neg registered] at consistent consistent' ⊢
      exact mirrors.setPhase twins consistent consistent' mirrors.inFlight
  | _ => exact mirrors

/-- The promise that a step of a load is about. -/
def promise? : Cache.Event V E L → Option Nat
  | .startLoad id | .answer id _ | .handle id | .finish id => some id
  | _ => none

/-- Nothing happens to a promise that was not made. -/
theorem apply_unmade {event : Cache.Event V E L} (about : promise? event = some id)
    (absent : c.attempts id = none) : c.apply event = c := by
  cases event with
  | startLoad id' =>
    cases about
    rw [MemoryCache.apply, MemoryCache.startLoad, absent]
  | answer id' result =>
    cases about
    rw [MemoryCache.apply, MemoryCache.answer, absent]
  | handle id' =>
    cases about
    rw [MemoryCache.apply, MemoryCache.handle, absent]
  | finish id' =>
    cases about
    rw [MemoryCache.apply, MemoryCache.finish, absent]
  | _ => cases about

/-- A step of a load, of the view or of someone else. -/
theorem load (mirrors : Mirrors start c p) (room : c.entries.size < c.maxEntries)
    {event : Cache.Event V E L} (about : promise? event = some id) :
    Mirrors start (c.apply event) (p.apply event) := by
  cases known' : p.attempts id with
  | none =>
    rw [apply_unmade about known']
    apply mirrors.effect_elsewhere room (MemoryCache.apply_effect c event)
    cases event with
    | startLoad | answer | handle | finish =>
      cases about
      exact fun a known => mirrors.others id a known known'
    | _ => cases about
  | some a' =>
    obtain ⟨a, known, twins⟩ := mirrors.attempts id a' known'
    cases event with
    | startLoad =>
      cases about
      exact mirrors.startLoad known known' twins
    | answer id' result =>
      cases about
      exact mirrors.answer known known' twins result
    | handle =>
      cases about
      exact mirrors.handle room known known' twins
    | finish =>
      cases about
      exact mirrors.finish known known' twins
    | _ => cases about

theorem tick (mirrors : Mirrors start c p) (now : Nat) :
    Mirrors start { c with now } { p with now } :=
  ⟨mirrors.consistent.effect (.ticked now), mirrors.consistent'.effect (.ticked now), rfl,
    mirrors.capacity, mirrors.entries, mirrors.inFlight, mirrors.foreign, mirrors.whole,
    mirrors.attempts, mirrors.others⟩

end Loads

end Mirrors
end WalletBackend.Cached
