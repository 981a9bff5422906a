import WalletBackend.Koios.Reads
import WalletBackend.Library.Requests
import WalletBackend.Library.StaticRuns

/-! The search for the used payment credentials: groups of a few are probed at once, and
a group with a transaction is halved until its used members are known. -/
namespace WalletBackend.Koios
open Interaction

def CREDENTIAL_PROBE_SIZE : Nat := 5
def CREDENTIAL_PROBE_CONCURRENCY : Nat := 4

variable (attempts : ReadAttempts)

/-- An empty answer rules the whole batch out, any other one is looked into by halves. -/
def usedPaymentCredentials (credentials : List String) : Read (List String) :=
  if credentials.length = 0 then pure []
  else do
    let rows ← get attempts (.credentialTxs credentials)
    if rows.length = 0 then pure []
    else if credentials.length = 1 then pure credentials
    else do
      let middle := (credentials.length + 1) / 2
      let left ← usedPaymentCredentials (credentials.take middle)
      let right ← usedPaymentCredentials (credentials.drop middle)
      pure (left ++ right)
termination_by credentials.length
decreasing_by all_goals simp only [List.length_take, List.length_drop]; omega

/-- The slices of the search, in order. -/
def probeGroups (unique : List String) : List (List String) :=
  if unique.length = 0 then []
  else unique.take CREDENTIAL_PROBE_SIZE :: probeGroups (unique.drop CREDENTIAL_PROBE_SIZE)
termination_by unique.length
decreasing_by simp only [List.length_drop, CREDENTIAL_PROBE_SIZE]; omega

/-- The runners take their groups off one shared counter. A peer of a runner that fails
takes further groups, but the search has failed by then. -/
def filterUsedPaymentCredentials (paymentCredentials : List String) : Read (List String) :=
  let unique := paymentCredentials.eraseDups
  if unique.length = 0 then pure []
  else do
    let results ← fanOut (fun group _ => usedPaymentCredentials attempts group)
      (probeGroups unique) CREDENTIAL_PROBE_CONCURRENCY
    let used := results.flatten
    pure (unique.filter fun credential => credential ∈ used)

section Search

variable {attempts} {T : Type} {used : String → Bool} {credentials : List String}

/-- A probe is answered with rows exactly if one of its credentials is used. -/
def TellsUsed (used : String → Bool) : Exchange T Endpoint.Answer → Prop
  | ⟨_, .credentialTxs credentials, answer⟩ =>
      ∃ rows, answer = .ok rows ∧ (rows ≠ [] ↔ ∃ credential ∈ credentials, used credential)
  | _ => True

/-- One probe is enough, and the search goes on from its rows. -/
theorem probe_atMost {α : Type} {next : List HistoryRow → Read α} {n : Nat}
    (rest : ∀ rows : List HistoryRow, (rows ≠ [] ↔ ∃ credential ∈ credentials, used credential) →
      (next rows).AtMost (TellsUsed (T := T) used) n) :
    (get attempts (.credentialTxs credentials) >>= next).AtMost (TellsUsed (T := T) used) (n + 1) := by
  unfold get read
  cases attempts.count - 1 with
  | zero =>
    refine ⟨n, rfl, ?_⟩
    rintro t _ ⟨rows, rfl, tells⟩
    exact rest rows tells
  | succ further =>
    refine ⟨n, rfl, ?_⟩
    rintro t _ ⟨rows, rfl, tells⟩
    exact rest rows tells

theorem probe_runs {trace : List (Exchange T Endpoint.Answer)}
    {outcome : Except Failure (List HistoryRow)} (honest : ∀ y ∈ trace, TellsUsed used y)
    (runs : (get attempts (.credentialTxs credentials)).Runs trace outcome) :
    ∃ rows, outcome = .ok rows ∧ (rows ≠ [] ↔ ∃ credential ∈ credentials, used credential) := by
  obtain ⟨t, asked⟩ := get_runs runs
  exact honest _ asked

/-- Halving a batch finds its used members, in order. -/
theorem usedPaymentCredentials_settles {trace : List (Exchange T Endpoint.Answer)}
    (honest : ∀ y ∈ trace, TellsUsed used y) (credentials : List String) :
    Async.Settles trace (usedPaymentCredentials attempts credentials)
      (.ok (credentials.filter used)) := by
  induction credentials using usedPaymentCredentials.induct with
  | case1 credentials none =>
    rw [usedPaymentCredentials, if_pos none, List.length_eq_zero_iff.mp none]
    exact Async.settles_pure []
  | case2 credentials some left right =>
    rw [usedPaymentCredentials, if_neg some]
    intro part result sub runs
    obtain ⟨first, rest, rows, rfl, probed, tail⟩ | ⟨e, failed, -⟩ := Async.runs_bind.mp runs
    · have within := (List.sublist_append_right first rest).trans sub
      obtain ⟨_, same, tells⟩ := probe_runs
        (fun y member => honest y (sub.subset (List.mem_append_left _ member))) probed
      cases same
      split at tail
      case isTrue empty =>
        obtain ⟨-, rfl⟩ := Async.runs_pure.mp tail
        have unused : ∀ credential ∈ credentials, ¬ used credential := by
          intro credential member holds
          exact tells.mpr ⟨credential, member, holds⟩ (List.length_eq_zero_iff.mp empty)
        rw [List.filter_eq_nil_iff.mpr unused]
      case isFalse found =>
        split at tail
        case isTrue lone =>
          obtain ⟨-, rfl⟩ := Async.runs_pure.mp tail
          obtain ⟨credential, rfl⟩ := List.length_eq_one_iff.mp lone
          obtain ⟨_, member, holds⟩ := tells.mp fun nil => found (by rw [nil]; rfl)
          rw [List.mem_singleton.mp member] at holds
          rw [List.filter_singleton, holds]
          rfl
        case isFalse several =>
          have halves : Async.Settles trace (do
              let left ← usedPaymentCredentials attempts (credentials.take _)
              let right ← usedPaymentCredentials attempts (credentials.drop _)
              pure (left ++ right)) (.ok _) :=
            (left several).bind ((right several).bind (Async.settles_pure _))
          rw [halves rest result within tail, ← List.filter_append, List.take_append_drop]
    · obtain ⟨_, same, -⟩ := probe_runs (fun y member => honest y (sub.subset member)) failed
      cases same

/-- `2 n - 1` probes are enough for `n` credentials: the halvings form a binary tree. -/
theorem usedPaymentCredentials_atMost (credentials : List String) :
    (usedPaymentCredentials attempts credentials).AtMost (TellsUsed (T := T) used)
      (2 * credentials.length - 1) := by
  induction credentials using usedPaymentCredentials.induct with
  | case1 credentials none =>
    rw [usedPaymentCredentials, if_pos none]
    trivial
  | case2 credentials some left right =>
    rw [usedPaymentCredentials, if_neg some]
    have enough := Nat.sub_add_cancel (show 1 ≤ 2 * credentials.length - 1 by omega)
    rw [← enough]
    apply probe_atMost
    intro rows _
    split
    · trivial
    · split
      · trivial
      · rename_i several
        have halves : Async.AtMost (TellsUsed (T := T) used) (do
              let left ← usedPaymentCredentials attempts (credentials.take _)
              let right ← usedPaymentCredentials attempts (credentials.drop _)
              pure (left ++ right)) _ :=
          Async.atMost_bind (left several) fun front =>
            Async.atMost_bind (n := 0) (right several) fun back => trivial
        apply halves.mono
        simp only [List.length_take, List.length_drop]
        omega

theorem probeGroups_flatten (unique : List String) : (probeGroups unique).flatten = unique := by
  induction unique using probeGroups.induct with
  | case1 unique none =>
    rw [probeGroups, if_pos none, List.length_eq_zero_iff.mp none]
    rfl
  | case2 unique some ih =>
    rw [probeGroups, if_neg some, List.flatten_cons, ih, List.take_append_drop]

/-- The probes of all groups together. -/
theorem probes_le (groups : List (List String)) :
    (groups.map fun group => 2 * group.length - 1).sum ≤ 2 * groups.flatten.length := by
  induction groups with
  | nil => simp
  | cons group groups ih =>
    simp only [List.map_cons, List.sum_cons, List.flatten_cons, List.length_append]
    omega

variable {paymentCredentials : List String}

/-- The groups together find the used credentials, in the order in which they came. -/
theorem filterUsedPaymentCredentials_settles {trace : List (Exchange T Endpoint.Answer)}
    (honest : ∀ y ∈ trace, TellsUsed used y) :
    Async.Settles trace (filterUsedPaymentCredentials attempts paymentCredentials)
      (.ok (paymentCredentials.eraseDups.filter used)) := by
  unfold filterUsedPaymentCredentials
  simp only
  split
  case isTrue none =>
    rw [List.length_eq_zero_iff.mp none]
    exact Async.settles_pure []
  case isFalse =>
    let unique := paymentCredentials.eraseDups
    have probed : Async.Settles trace
        (fanOut (fun group _ => usedPaymentCredentials attempts group) (probeGroups unique)
          CREDENTIAL_PROBE_CONCURRENCY)
        (.ok ((probeGroups unique).map (List.filter used))) :=
      settles_fanOut_map fun group _ _ => usedPaymentCredentials_settles honest group
    have gathered : ((probeGroups unique).map (List.filter used)).flatten = unique.filter used := by
      rw [← List.filter_flatten, probeGroups_flatten]
    have kept : (unique.filter fun credential => credential ∈ unique.filter used) =
        unique.filter used := by
      apply List.filter_congr
      intro credential member
      simp [List.mem_filter, member]
    have found : Async.Settles trace (do
          let results ← fanOut (fun group _ => usedPaymentCredentials attempts group)
            (probeGroups unique) CREDENTIAL_PROBE_CONCURRENCY
          pure (unique.filter fun credential => credential ∈ results.flatten)) _ :=
      probed.bind (Async.settles_pure _)
    rw [gathered, kept] at found
    exact found

theorem filterUsedPaymentCredentials_gives {up : (endpoint : Endpoint) → endpoint.Answer}
    (honest : ∀ endpoint, TellsUsed used ⟨(), endpoint, up endpoint⟩)
    (outcome : Except Failure (List String)) :
    Async.Gives up (filterUsedPaymentCredentials attempts paymentCredentials) outcome ↔
      outcome = .ok (paymentCredentials.eraseDups.filter used) := by
  have only (result : Except Failure (List String)) (gives : Async.Gives up
      (filterUsedPaymentCredentials attempts paymentCredentials) result) :
      result = .ok (paymentCredentials.eraseDups.filter used) := by
    obtain ⟨trace, static, runs⟩ := gives
    refine filterUsedPaymentCredentials_settles (fun y member => ?_) trace result (.refl trace) runs
    have answered := honest y.request
    rw [← static y member] at answered
    exact answered
  exact Async.gives_iff_of_only only

theorem filterUsedPaymentCredentials_atMost :
    (filterUsedPaymentCredentials attempts paymentCredentials).AtMost (TellsUsed (T := T) used)
      (2 * paymentCredentials.eraseDups.length) := by
  unfold filterUsedPaymentCredentials
  simp only
  split
  · trivial
  · let groups := probeGroups paymentCredentials.eraseDups
    have probes : (fanOut (fun group _ => usedPaymentCredentials attempts group) groups
        CREDENTIAL_PROBE_CONCURRENCY).AtMost (TellsUsed (T := T) used) _ :=
      fanOut_atMost fun group _ _ => usedPaymentCredentials_atMost group
    have search : Async.AtMost (TellsUsed (T := T) used) (do
          let results ← fanOut (fun group _ => usedPaymentCredentials attempts group) groups
            CREDENTIAL_PROBE_CONCURRENCY
          pure (paymentCredentials.eraseDups.filter fun credential =>
            credential ∈ results.flatten)) _ :=
      Async.atMost_bind (n := 0) probes fun results => trivial
    apply search.mono
    have all := probes_le groups
    rwa [probeGroups_flatten] at all

end Search

/-- Whatever upstream's rows are, so long as a probe has some exactly if one of its
credentials is used, the search ends after two requests for each credential at the most, and with
the used credentials where each was first seen. -/
theorem filterUsedPaymentCredentials_exact (attempts : ReadAttempts) (used : String → Bool)
    (paymentCredentials : List String) :
    (∀ T : Type, (filterUsedPaymentCredentials attempts paymentCredentials).AtMost
      (TellsUsed (T := T) used) (2 * paymentCredentials.eraseDups.length)) ∧
    (∀ (T : Type) (trace : List (Exchange T Endpoint.Answer))
        (outcome : Except Failure (List String)), (∀ y ∈ trace, TellsUsed used y) →
      (filterUsedPaymentCredentials attempts paymentCredentials).Runs trace outcome →
        outcome = .ok (paymentCredentials.eraseDups.filter used) ∧
          trace.length ≤ 2 * paymentCredentials.eraseDups.length) ∧
    ∀ up : (endpoint : Endpoint) → endpoint.Answer,
      (∀ endpoint, TellsUsed used ⟨(), endpoint, up endpoint⟩) →
      Async.Gives up (filterUsedPaymentCredentials attempts paymentCredentials)
        (.ok (paymentCredentials.eraseDups.filter used)) := by
  refine ⟨fun T => filterUsedPaymentCredentials_atMost, ?_, ?_⟩
  · intro T trace outcome honest runs
    exact ⟨filterUsedPaymentCredentials_settles honest trace outcome (.refl trace) runs,
      filterUsedPaymentCredentials_atMost.length honest runs⟩
  · intro up honest
    exact (filterUsedPaymentCredentials_gives honest _).mpr rfl

end WalletBackend.Koios
