import WalletBackend.Blockfrost.PoolList

/-! What the cache holds of the pool list fits its key: under the key of an epoch its
ranking, under the key of a page one that was cut from the ranking of its epoch, or from
a scan of its own where the epoch was not known. -/
namespace WalletBackend.Blockfrost.Pools
open Cache Containers Interaction Numerals

section Keys

theorem rankingKey_toList (epoch : Nat) :
    (rankingKey epoch).toList = "pools:ranking:".toList ++ Nat.toDigits 10 epoch := by
  have spelled : rankingKey epoch = "pools:ranking:" ++ toString epoch := rfl
  rw [spelled, String.toList_append, toList_toString]

/-- How a key spells the epoch. -/
def epochChars (epoch : Option Nat) : List Char :=
  (epoch.map (Nat.toDigits 10)).getD "none".toList

theorem epochText_toList (epoch : Option Nat) :
    ((epoch.map toString).getD "none").toList = epochChars epoch := by
  cases epoch with
  | none => rfl
  | some epoch => exact toList_toString epoch

theorem pageKey_toList (params : PoolListParams) (epoch : Option Nat) : ∃ rest,
    (pageKey params epoch).toList = "pools:page:".toList ++ (epochChars epoch ++ ':' :: rest) := by
  refine ⟨(params.ticker.getD "").toList ++ ':' :: (Nat.toDigits 10 params.offset ++
    ':' :: Nat.toDigits 10 params.limit), ?_⟩
  have spelled : pageKey params epoch = "pools:page:" ++ (epoch.map toString).getD "none" ++ ":" ++
      params.ticker.getD "" ++ ":" ++ toString params.offset ++ ":" ++ toString params.limit := rfl
  have colon (rest : List Char) : ":".toList ++ rest = ':' :: rest := rfl
  simp only [spelled, String.toList_append, toList_toString, epochText_toList, List.append_assoc, colon,
    List.cons_append]

theorem epochChars_clean (epoch : Option Nat) : ':' ∉ epochChars epoch := by
  cases epoch with
  | none => decide
  | some e =>
    exact not_mem_toDigits rfl e

theorem epochChars_injective {epoch epoch' : Option Nat}
    (same : epochChars epoch = epochChars epoch') : epoch = epoch' := by
  have noDigits : ∀ e, "none".toList ≠ Nat.toDigits 10 e := by
    intro e same
    have letter : 'n' ∈ Nat.toDigits 10 e := same ▸ (by decide)
    exact not_mem_toDigits rfl e letter
  cases epoch with
  | none =>
    cases epoch' with
    | none => rfl
    | some e' => exact absurd same (noDigits e')
  | some e =>
    cases epoch' with
    | none => exact absurd same.symm (noDigits e)
    | some e' => exact congrArg some (toDigits_injective same)

theorem rankingKey_injective {e e' : Nat} (same : rankingKey e = rankingKey e') : e = e' := by
  have chars := congrArg String.toList same
  rw [rankingKey_toList, rankingKey_toList] at chars
  exact toDigits_injective (List.append_cancel_left chars)

/-- The epoch can be read off the key of a page, whatever the ticker has in it. -/
theorem pageKey_epoch {params params' : PoolListParams} {epoch epoch' : Option Nat}
    (same : pageKey params epoch = pageKey params' epoch') : epoch = epoch' := by
  obtain ⟨rest, spelled⟩ := pageKey_toList params epoch
  obtain ⟨rest', spelled'⟩ := pageKey_toList params' epoch'
  have chars := spelled.symm.trans ((congrArg String.toList same).trans spelled')
  exact epochChars_injective (Splitting.split_at_separator (epochChars_clean epoch) (epochChars_clean epoch')
    (List.append_cancel_left chars)).1

theorem rankingKey_ne_pageKey (e : Nat) (params : PoolListParams) (epoch : Option Nat) :
    rankingKey e ≠ pageKey params epoch := by
  intro same
  obtain ⟨rest, spelled⟩ := pageKey_toList params epoch
  have chars := (congrArg String.toList same).trans spelled
  rw [rankingKey_toList] at chars
  have letter := congrArg (fun text => text[6]?) chars
  simp at letter

theorem rankingKey_inside (e : Nat) : startsWith (rankingKey e) "pools:" = true := by
  rw [startsWith, rankingKey_toList, List.isPrefixOf_iff_prefix]
  exact ⟨"ranking:".toList ++ Nat.toDigits 10 e, rfl⟩

theorem pageKey_inside (params : PoolListParams) (epoch : Option Nat) :
    startsWith (pageKey params epoch) "pools:" = true := by
  obtain ⟨rest, spelled⟩ := pageKey_toList params epoch
  rw [startsWith, spelled, List.isPrefixOf_iff_prefix]
  exact ⟨"page:".toList ++ (epochChars epoch ++ ':' :: rest), rfl⟩

end Keys

variable {O : Type} {toLowerCase : String → String} {c c' : MemoryCache (Value O) Failure Load}

/-- The ranking is what the load that scanned it brought, and that was made under the key
of the epoch. -/
def HeldUnder (c : MemoryCache (Value O) Failure Load) (epoch : Nat) (ranking : Ranking) : Prop :=
  ∃ attempt, c.attempts ranking.scan = some attempt ∧ attempt.key = rankingKey epoch ∧
    attempt.phase.value? = some (.ranking ranking)

/-- Where the ranking is from that a load builds a page on. -/
def Source (c : MemoryCache (Value O) Failure Load) (load : Nat) (ranking : Ranking) :
    Option Nat → Prop
  | some epoch => HeldUnder c epoch ranking
  | none => ranking.scan = load

/-- The page is what the load that built it brought. -/
def Brought (c : MemoryCache (Value O) Failure Load) (page : Page) : Prop :=
  ∃ attempt, c.attempts page.load = some attempt ∧ attempt.phase.value? = some (.page page)

def Fits (c : MemoryCache (Value O) Failure Load) (key : String) (value : Value O) : Prop :=
  (∀ epoch, key = rankingKey epoch → ∃ ranking, value = .ranking ranking ∧
    HeldUnder c epoch ranking) ∧
  ∀ params epoch, key = pageKey params epoch → ∃ page, value = .page page ∧
    Source c page.load page.ranking epoch ∧ Brought c page

def Meant (key : String) (_ : CachePolicy) : Load → Prop
  | .ranking epoch => key = rankingKey epoch
  | .page params epoch => key = pageKey params epoch
  | .other => startsWith key "pools:" = false

/-- The reading returns a value that fits the key. -/
def Returns (c : MemoryCache (Value O) Failure Load) (key : String) : Reading (Value O) → Prop
  | .hit value => Fits c key value
  | .attempt id => ∃ attempt, c.attempts id = some attempt ∧ attempt.key = key

section Fits

theorem fits_ranking {epoch : Nat} {ranking : Ranking} (held : HeldUnder c epoch ranking) :
    Fits c (rankingKey epoch) (.ranking ranking) := by
  constructor
  · intro epoch' same
    cases rankingKey_injective same
    exact ⟨ranking, rfl, held⟩
  · intro params epoch' same
    exact absurd same (rankingKey_ne_pageKey _ _ _)

theorem fits_page {params : PoolListParams} {epoch : Option Nat} {page : Page}
    (source : Source c page.load page.ranking epoch) (brought : Brought c page) :
    Fits c (pageKey params epoch) (.page page) := by
  constructor
  · intro epoch' same
    exact absurd same.symm (rankingKey_ne_pageKey _ _ _)
  · intro params' epoch' same
    cases pageKey_epoch same
    exact ⟨page, rfl, source, brought⟩

theorem fits_elsewhere {key : String} (outside : startsWith key "pools:" = false)
    (value : Value O) : Fits c key value := by
  constructor
  · rintro epoch rfl
    cases outside.symm.trans (rankingKey_inside epoch)
  · rintro params epoch rfl
    cases outside.symm.trans (pageKey_inside params epoch)

variable {event : Cache.Event (Value O) Failure Load} (effect : MemoryCache.Effect c event c')

include effect

theorem HeldUnder.mono {epoch : Nat} {ranking : Ranking} (held : HeldUnder c epoch ranking) :
    HeldUnder c' epoch ranking := by
  obtain ⟨attempt, there, key, loaded⟩ := held
  obtain ⟨phase, there', loaded'⟩ := effect.value_kept there loaded
  exact ⟨_, there', key, loaded'⟩

theorem Source.mono {load : Nat} {ranking : Ranking} {epoch : Option Nat}
    (source : Source c load ranking epoch) : Source c' load ranking epoch := by
  cases epoch with
  | none => exact source
  | some epoch => exact HeldUnder.mono effect source

theorem Brought.mono {page : Page} (brought : Brought c page) : Brought c' page := by
  obtain ⟨attempt, there, loaded⟩ := brought
  obtain ⟨phase, there', loaded'⟩ := effect.value_kept there loaded
  exact ⟨_, there', loaded'⟩

theorem Fits.mono {key : String} {value : Value O} (fits : Fits c key value) :
    Fits c' key value := by
  constructor
  · intro epoch same
    obtain ⟨ranking, isRanking, held⟩ := fits.1 epoch same
    exact ⟨ranking, isRanking, held.mono effect⟩
  · intro params epoch same
    obtain ⟨page, isPage, source, brought⟩ := fits.2 params epoch same
    exact ⟨page, isPage, source.mono effect, brought.mono effect⟩

theorem Returns.mono {key : String} {reading : Reading (Value O)}
    (returns : Returns c key reading) : Returns c' key reading := by
  cases reading with
  | hit value => exact Fits.mono effect returns
  | attempt id =>
    obtain ⟨attempt, there, same⟩ := returns
    obtain ⟨phase, kept⟩ := effect.attempt_kept there
    exact ⟨_, kept, same⟩

omit effect

/-- The value that a reading resolves to fits its key. -/
theorem Returns.resolved (typed : c.Typed (Fits c) Meant) {key : String}
    {reading : Reading (Value O)} {value : Value O} (returns : Returns c key reading)
    (resolves : c.Resolves value reading) : Fits c key value := by
  cases reading with
  | hit held => exact resolves ▸ returns
  | attempt id =>
    obtain ⟨attempt, there, resolved⟩ := resolves
    obtain ⟨attempt', there', rfl⟩ := returns
    obtain rfl : attempt' = attempt := Option.some.inj (there'.symm.trans there)
    exact typed.attempts id attempt' value there (Phase.value?_of_resolved? resolved)

/-- What a read returns fits its key. -/
theorem returns_read (consistent : c.Consistent) (typed : c.Typed (Fits c) Meant) {key : String}
    {policy : CachePolicy} {load : Load} {id : Nat} (unused : c.attempts id = none) :
    Returns (c.read key policy load id).1 key (c.read key policy load id).2 := by
  cases reading : (c.read key policy load id).2 with
  | hit value =>
    exact Fits.mono (MemoryCache.read_effect unused) (typed.peek (MemoryCache.read_hit reading).1)
  | attempt pending => exact consistent.read_attempt reading

end Fits

namespace PoolList

variable {s s' : PoolList O}

/-- What the loader of a page has read so far is what it takes it for. -/
def Progress (s : PoolList O) (id : Nat) (epoch : Option Nat) : Build O → Prop
  | .awaitingRanking reading => ∃ known, epoch = some known ∧ Returns s.cache (rankingKey known) reading
  | .scanning => epoch = none
  | .hydrating ranking => Source s.cache id ranking epoch

structure Sound (s : PoolList O) : Prop where
  consistent : s.cache.Consistent
  typed : s.cache.Typed (Fits s.cache) Meant
  own : ∀ id attempt params epoch page, s.cache.attempts id = some attempt →
    attempt.load = .page params epoch → attempt.phase = .loaded (.ok (.page page)) → page.load = id
  builds : ∀ id build, s.builds id = some build → ∃ attempt params epoch,
    s.cache.attempts id = some attempt ∧ attempt.load = .page params epoch ∧
      s.Progress id epoch build
  calls : ∀ call params epoch reading, s.calls call = some (.asked params epoch reading) →
    Returns s.cache (pageKey params epoch) reading

theorem create_sound (maxEntries now : Nat) : (create maxEntries now : PoolList O).Sound where
  consistent := MemoryCache.create_consistent maxEntries now
  typed := MemoryCache.create_typed maxEntries now
  own _ _ _ _ _ held := nomatch held
  builds _ _ held := nomatch held
  calls _ _ _ _ held := nomatch held

/-- An event of the cache. -/
theorem Sound.cache (sound : s.Sound) {event : Cache.Event (Value O) Failure Load}
    {cache : MemoryCache (Value O) Failure Load} (effect : MemoryCache.Effect s.cache event cache)
    (brings : s.cache.Brings (Fits cache) Meant event)
    (own : ∀ id attempt params epoch page, s.cache.attempts id = some attempt →
      attempt.load = .page params epoch → event = .answer id (.ok (.page page)) → page.load = id) :
    ({ s with cache } : PoolList O).Sound := by
  have typed : s.cache.Typed (Fits cache) Meant :=
    { entries := fun key entry found => (sound.typed.entries key entry found).mono effect
      attempts := fun id attempt value there found =>
        (sound.typed.attempts id attempt value there found).mono effect
      made := sound.typed.made }
  refine ⟨sound.consistent.effect effect, typed.effect effect brings, ?_, ?_, ?_⟩
  · intro id attempt params epoch page there load loaded
    cases effect.advance there with
    | kept _ known => exact sound.own id attempt params epoch page known load loaded
    | made _ queued => cases queued.symm.trans loaded
    | started _ _ same =>
      cases same
      cases loaded
    | answered known _ same =>
      cases same
      cases loaded
      exact own id _ params epoch page known load rfl
    | loaded _ _ same =>
      cases same
      cases loaded
    | fellBack _ _ _ same =>
      cases same
      cases loaded
    | failed _ _ _ same =>
      cases same
      cases loaded
    | finished _ _ same =>
      cases same
      cases loaded
  · intro id build there
    obtain ⟨attempt, params, epoch, known, load, progress⟩ := sound.builds id build there
    obtain ⟨phase, kept⟩ := effect.attempt_kept known
    refine ⟨_, params, epoch, kept, load, ?_⟩
    cases build with
    | awaitingRanking reading =>
      obtain ⟨e, same, returns⟩ := progress
      exact ⟨e, same, Returns.mono effect returns⟩
    | scanning => exact progress
    | hydrating ranking => exact Source.mono effect progress
  · intro call params epoch reading there
    exact Returns.mono effect (sound.calls call params epoch reading there)

/-- A read of the pool list through the cache. -/
theorem Sound.read (sound : s.Sound) {key : String} (policy : CachePolicy) {load : Load} {id : Nat}
    (unused : s.cache.attempts id = none) (meant : Meant key policy load) :
    ({ s with cache := (s.cache.read key policy load id).1 } : PoolList O).Sound :=
  sound.cache (MemoryCache.read_effect unused) meant fun _ _ _ _ _ _ _ => nofun

theorem Sound.withBuild (sound : s.Sound) {id : Nat} {build : Build O}
    {attempt : Attempt (Value O) Failure Load} {params : PoolListParams} {epoch : Option Nat}
    (there : s.cache.attempts id = some attempt) (load : attempt.load = .page params epoch)
    (progress : s.Progress id epoch build) : (s.withBuild id build).Sound := by
  refine ⟨sound.consistent, sound.typed, sound.own, ?_, sound.calls⟩
  intro id' build' found
  change Function.update s.builds id (some build) id' = some build' at found
  rw [Function.update_apply] at found
  split at found
  case isTrue same =>
    subst same
    cases found
    exact ⟨attempt, params, epoch, there, load, progress⟩
  case isFalse => exact sound.builds id' build' found

theorem Sound.withCall (sound : s.Sound) {call : Nat} {state : Call O}
    (returns : ∀ params epoch reading, state = .asked params epoch reading →
      Returns s.cache (pageKey params epoch) reading) : (s.withCall call state).Sound := by
  refine ⟨sound.consistent, sound.typed, sound.own, sound.builds, ?_⟩
  intro call' params epoch reading found
  change Function.update s.calls call (some state) call' = _ at found
  rw [Function.update_apply] at found
  split at found
  · exact returns params epoch reading (Option.some.inj found)
  · exact sound.calls call' params epoch reading found

/-- The answer to the load of a page or of a ranking. -/
theorem Sound.answer (sound : s.Sound) {id : Nat} {result : Except Failure (Value O)}
    (brought : ∀ attempt value, s.cache.attempts id = some attempt → attempt.phase = .loading →
      result = .ok value → Fits (s.cache.answer id result) attempt.key value)
    (own : ∀ page, result = .ok (.page page) → page.load = id) :
    ({ s with cache := s.cache.answer id result } : PoolList O).Sound := by
  by_cases loading : ∃ attempt, s.cache.attempts id = some attempt ∧ attempt.phase = .loading
  · obtain ⟨attempt, there, phase⟩ := loading
    apply sound.cache (MemoryCache.apply_effect s.cache (.answer id result))
    · cases result with
      | error => trivial
      | ok value =>
        intro attempt' there'
        obtain rfl : attempt' = attempt := Option.some.inj (there'.symm.trans there)
        exact brought attempt' value there phase rfl
    · rintro _ _ _ _ page - - same
      cases same
      exact own page rfl
  · rw [MemoryCache.answer_idle loading]
    exact sound

theorem Sound.getPoolList (sound : s.Sound) (call : Nat) (params : PoolListParams) :
    (s.getPoolList call params).Sound := by
  unfold PoolList.getPoolList
  split
  · apply sound.withCall
    intro params' epoch reading same
    split at same
    · cases same
    · cases same
  · exact sound

theorem Sound.resumeCall (sound : s.Sound) (call : Nat) (epoch : Option Nat) {id : Nat}
    (unused : s.cache.attempts id = none) : (s.resumeCall call epoch id).Sound := by
  unfold PoolList.resumeCall
  split
  case h_1 params there =>
    have meant : Meant (pageKey params epoch) pagePolicy (.page params epoch) := rfl
    apply (sound.read pagePolicy unused meant).withCall
    rintro params' epoch' reading same
    cases same
    exact returns_read sound.consistent sound.typed unused
  case h_2 => exact sound

theorem Sound.startLoad (sound : s.Sound) {id scan : Nat} (unused : s.cache.attempts scan = none) :
    (s.startLoad id scan).Sound := by
  have effect := MemoryCache.apply_effect s.cache (.startLoad id)
  have started : ({ s with cache := s.cache.startLoad id } : PoolList O).Sound :=
    sound.cache effect trivial fun _ _ _ _ _ _ _ => nofun
  unfold PoolList.startLoad
  split
  case h_1 key policy params epoch generation there =>
    obtain ⟨phase, known⟩ := effect.attempt_kept there
    cases epoch with
    | none => exact started.withBuild known rfl rfl
    | some e =>
      have unused' : (s.cache.startLoad id).attempts scan = none :=
        effect.unused_kept unused fun _ _ _ => nofun
      have meant : Meant (rankingKey e) (.ofTtl RANKING_TTL_MS) (.ranking e) := rfl
      have read := started.read (.ofTtl RANKING_TTL_MS) unused' meant
      obtain ⟨phase', known'⟩ := (MemoryCache.read_effect unused').attempt_kept known
      refine read.withBuild known' rfl ⟨e, rfl, ?_⟩
      exact returns_read started.consistent started.typed unused'
  case h_2 => exact started
  case h_3 => exact sound

theorem Sound.scanned (sound : s.Sound) (id : Nat)
    (outcome : Except Failure (List PoolExtendedRow)) : (s.scanned id outcome).Sound := by
  unfold PoolList.scanned
  split
  case h_1 _ build epoch load =>
    obtain ⟨attempt, there, isRanking⟩ := Option.map_eq_some_iff.mp load
    apply sound.answer
    · intro attempt' value there' loading same
      obtain rfl : attempt' = attempt := Option.some.inj (there'.symm.trans there)
      have key : attempt'.key = rankingKey epoch := by
        have meant := sound.typed.made id attempt' there
        rwa [isRanking] at meant
      cases outcome with
      | error => cases same
      | ok rows =>
        cases same
        rw [key]
        exact fits_ranking ⟨_, MemoryCache.answer_attempt there loading, key, rfl⟩
    · intro page same
      cases outcome with
      | error => cases same
      | ok rows => cases same
  case h_2 params epoch load build =>
    obtain ⟨attempt, there, isPage⟩ := Option.map_eq_some_iff.mp load
    obtain ⟨attempt', params', epoch', there', load', none⟩ := sound.builds id _ build
    cases outcome with
    | ok rows =>
      refine sound.withBuild there' load' ?_
      cases none
      rfl
    | error failure => exact sound.answer (fun _ _ _ _ => nofun) fun _ => nofun
  case h_3 => exact sound

theorem Sound.resumeBuild (sound : s.Sound) (id : Nat) : (s.resumeBuild id).Sound := by
  unfold PoolList.resumeBuild
  split
  case h_1 reading build =>
    obtain ⟨attempt, params, epoch, there, load, known, rfl, returns⟩ := sound.builds id _ build
    split
    case h_1 ranking settled =>
      have fits := returns.resolved sound.typed (MemoryCache.resolves_of_settlement settled)
      obtain ⟨ranking', same, held⟩ := fits.1 known rfl
      cases same
      exact sound.withBuild there load held
    case h_2 => exact sound.answer (fun _ _ _ _ => nofun) fun _ => nofun
    case h_3 => exact sound
  case h_2 => exact sound

theorem Sound.hydrated (sound : s.Sound) (id : Nat) (hydration : Hydration toLowerCase) :
    (s.hydrated id hydration).Sound := by
  unfold PoolList.hydrated
  split
  case h_1 params epoch ranking load build =>
    obtain ⟨attempt, there, isPage⟩ := Option.map_eq_some_iff.mp load
    obtain ⟨attempt', params', epoch', there', load', source⟩ := sound.builds id _ build
    obtain rfl : attempt' = attempt := Option.some.inj (there'.symm.trans there)
    cases load'.symm.trans isPage
    have key : attempt'.key = pageKey params epoch := by
      have meant := sound.typed.made id attempt' there
      rwa [isPage] at meant
    simp only
    generalize (hydration params ranking.rows).val = outcome
    apply sound.answer
    · intro attempt value known loading same
      obtain rfl : attempt = attempt' := Option.some.inj (known.symm.trans there)
      cases outcome with
      | error => cases same
      | ok pools =>
        cases same
        rw [key]
        apply fits_page
        · exact Source.mono (MemoryCache.apply_effect s.cache (.answer id _)) source
        · exact ⟨_, MemoryCache.answer_attempt there loading, rfl⟩
    · intro page same
      cases outcome with
      | error => cases same
      | ok pools =>
        cases same
        rfl
  case h_2 => exact sound

/-- What others do leaves the keys of the pool list alone. -/
theorem Sound.elsewhere (sound : s.Sound) {event : Cache.Event (Value O) Failure Load}
    (away : elsewhere s.cache event = true) :
    ({ s with cache := s.cache.apply event } : PoolList O).Sound := by
  have others : ∀ id, (s.cache.attempts id).all (fun attempt => attempt.load == .other) = true →
      ∀ attempt, s.cache.attempts id = some attempt → attempt.load = .other := by
    intro id all attempt there
    rw [there] at all
    exact beq_iff_eq.mp all
  apply sound.cache (MemoryCache.apply_effect s.cache event)
  · cases event with
    | read key policy load id =>
      simp only [Pools.elsewhere, Bool.and_eq_true, Bool.not_eq_true', beq_iff_eq] at away
      obtain ⟨⟨outside, rfl⟩, -⟩ := away
      exact outside
    | answer id result =>
      cases result with
      | error => trivial
      | ok value =>
        intro attempt there
        have meant := sound.typed.made id attempt there
        rw [others id away attempt there] at meant
        exact fits_elsewhere meant value
    | set key value ttlMs => exact fits_elsewhere (by simpa [Pools.elsewhere] using away) value
    | setIfGeneration key value ttlMs generation =>
      exact fits_elsewhere (by simpa [Pools.elsewhere] using away) value
    | _ => trivial
  · rintro id attempt params epoch page there load rfl
    cases load.symm.trans (others id away attempt there)

theorem Sound.apply (sound : s.Sound) (event : Event O toLowerCase) : (s.apply event).Sound := by
  have unused : ∀ {id : Nat}, ¬ (s.cache.attempts id).isSome = true → s.cache.attempts id = none :=
    fun used => Option.not_isSome_iff_eq_none.mp used
  cases event with
  | getPoolList call params => exact sound.getPoolList call params
  | cacheEpoch call currentEpoch id =>
    rw [PoolList.apply]
    split
    case isTrue => exact sound
    case isFalse free => exact sound.resumeCall call _ (unused free)
  | startLoad id scan =>
    rw [PoolList.apply]
    split
    case isTrue => exact sound
    case isFalse free => exact sound.startLoad (unused free)
  | scanned id outcome => exact sound.scanned id outcome.val
  | resumeBuild id => exact sound.resumeBuild id
  | hydrated id hydration => exact sound.hydrated id hydration
  | cache event =>
    rw [PoolList.apply]
    split
    case isTrue away => exact sound.elsewhere away
    case isFalse => exact sound

end PoolList
end WalletBackend.Blockfrost.Pools
