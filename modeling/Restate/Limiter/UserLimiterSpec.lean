import Mathlib
import Restate.Lib.ListCount
import Restate.Limiter.LookupSpec
import Restate.Limiter.UserLimiterTrie

/-! What the user limiter is for, and that its trie does it. The abstract limiter is a ledger: the
increments still outstanding, each a scope and a limit key, and a queue of waiters at each node. A
node's count is the number of outstanding increments whose limit key runs through it. Every call of
the scheduler acts on the ledger as it should; the trie refines the ledger along every run whose
releases match earlier increments and whose scopes never hold `2 ^ 32` outstanding increments, where
the `u32` counter would wrap. -/

namespace Restate

namespace UserLimiter

variable {Handle : Type}

/-- The abstract user limiter. -/
structure Ledger (Handle : Type) where
  outstanding : List (String × LimitKey)
  waiters : String → LimitKey → List Handle
  rules : RulePattern → Option UserLimits

namespace Ledger

def empty : Ledger Handle := ⟨[], fun _ _ => [], fun _ => none⟩

/-- The outstanding increments a node counts: those of its scope whose limit key runs through it. -/
def usage (ledger : Ledger Handle) (scope : String) (key : LimitKey) : Nat :=
  ledger.outstanding.countP fun increment => decide (scope = increment.1 ∧ key ∈ increment.2.prefixes)

/-- A rule update empties the queues of the nodes of its level that its pattern matches. -/
def drained (waiters : String → LimitKey → List Handle) (update : RuleUpdate) : String → LimitKey → List Handle :=
  fun scope key => if update.pattern.level = key.level ∧ update.pattern.covers scope key = true then [] else waiters scope key

theorem usage_cons (ledger : Ledger Handle) (scope : String) (limitKey : LimitKey) (scope' : String) (key : LimitKey) :
    ({ ledger with outstanding := (scope, limitKey) :: ledger.outstanding } : Ledger Handle).usage scope' key =
      ledger.usage scope' key + if scope' = scope ∧ key ∈ limitKey.prefixes then 1 else 0 := by
  simp only [usage, List.countP_cons, decide_eq_true_eq]

theorem usage_le_scope (ledger : Ledger Handle) (scope : String) (key : LimitKey) :
    ledger.usage scope key ≤ ledger.usage scope .none := by
  apply List.countP_mono_left
  intro increment _ counted
  simp only [decide_eq_true_eq] at counted ⊢
  exact ⟨counted.1, LimitKey.none_mem_prefixes increment.2⟩

theorem usage_le_length (ledger : Ledger Handle) (scope : String) (key : LimitKey) :
    ledger.usage scope key ≤ ledger.outstanding.length :=
  List.countP_le_length

theorem usage_erase (ledger : Ledger Handle) {scope : String} {limitKey : LimitKey}
    (matched : (scope, limitKey) ∈ ledger.outstanding) (waiters : String → LimitKey → List Handle) (scope' : String)
    (key : LimitKey) :
    ({ ledger with outstanding := ledger.outstanding.erase (scope, limitKey), waiters } : Ledger Handle).usage scope' key =
      ledger.usage scope' key - if scope' = scope ∧ key ∈ limitKey.prefixes then 1 else 0 := by
  simp only [usage]
  rw [List.countP_erase]
  simp only [matched, true_and, decide_eq_true_eq]

/-- A node admits one more increment while its count is below the concurrency limit of the most
exact rule of its level that matches the scope and the limit key, if that rule sets one. -/
def Admits (ledger : Ledger Handle) (scope : String) (limitKey key : LimitKey) : Prop :=
  ∀ pattern limits, MostExact ledger.rules key.level scope limitKey pattern → ledger.rules pattern = some limits →
    ∀ bound ∈ limits.concurrency, ledger.usage scope key < bound.val.toNat

variable [DecidableEq Handle]

/-- A call on the ledger; none for a release with no outstanding increment of its scope and limit
key, and for a wait at a level the limit key does not reach, where `add_to_waiters` panics. -/
def call (ledger : Ledger Handle) : Call Handle → Option (Ledger Handle)
  | .incrementAll scope limitKey _ => some { ledger with outstanding := (scope, limitKey) :: ledger.outstanding }
  | .releaseConcurrency scope limitKey =>
    if (scope, limitKey) ∈ ledger.outstanding then
      some
        { ledger with
          outstanding := ledger.outstanding.erase (scope, limitKey)
          waiters := fun scope' key =>
            if scope' = scope ∧ key ∈ limitKey.prefixes then (ledger.waiters scope' key).tail
            else ledger.waiters scope' key }
    else none
  | .addToWaiters handle scope limitKey blockedLevel =>
    (limitKey.atLevel blockedLevel).map fun target =>
      { ledger with
        waiters := fun scope' key =>
          if scope' = scope ∧ key = target then ledger.waiters scope' key ++ [handle] else ledger.waiters scope' key }
  | .removeFromWaiters handle scope limitKey blockedLevel =>
    some
      { ledger with
        waiters := fun scope' key =>
          if scope' = scope ∧ limitKey.atLevel blockedLevel = some key then
            (ledger.waiters scope' key).filter (· != handle)
          else ledger.waiters scope' key }
  | .applyRuleUpdates updates =>
    some { ledger with waiters := updates.foldl drained ledger.waiters, rules := updates.foldl RulesCall.apply ledger.rules }

def run (ledger : Ledger Handle) (calls : List (Call Handle)) : Option (Ledger Handle) :=
  calls.foldlM call ledger

/-- No scope holds `2 ^ 32` outstanding increments, where its `u32` counter would wrap. -/
def Bounded (ledger : Ledger Handle) : Prop := ∀ scope, ledger.usage scope .none < 2 ^ 32

/-- Every ledger the run passes through is bounded. -/
def BoundedRun : Ledger Handle → List (Call Handle) → Prop
  | _, [] => True
  | ledger, call :: rest => ∀ next, ledger.call call = some next → next.Bounded ∧ next.BoundedRun rest

theorem length_call {ledger next : Ledger Handle} {call : Call Handle} (stepped : ledger.call call = some next) :
    next.outstanding.length ≤ ledger.outstanding.length + 1 := by
  cases call with
  | incrementAll =>
    cases stepped
    simp
  | releaseConcurrency scope limitKey =>
    simp only [Ledger.call] at stepped
    split_ifs at stepped
    cases stepped
    exact List.length_erase_le.trans (Nat.le_succ _)
  | addToWaiters =>
    obtain ⟨_, _, rfl⟩ := Option.map_eq_some_iff.mp stepped
    simp
  | removeFromWaiters | applyRuleUpdates =>
    cases stepped
    simp

theorem boundedRun_of_length {ledger : Ledger Handle} {calls : List (Call Handle)}
    (short : ledger.outstanding.length + calls.length < 2 ^ 32) : ledger.BoundedRun calls := by
  induction calls generalizing ledger with
  | nil => trivial
  | cons call rest ih =>
    intro next stepped
    have grown := length_call stepped
    simp only [List.length_cons] at short
    exact ⟨fun scope => lt_of_le_of_lt (next.usage_le_length scope .none) (by omega), ih (by omega)⟩

end Ledger

/-- The trie stands for the ledger: each node counts what the ledger says and queues its waiters,
and the rule store keeps its invariant and stands for the ledger's rules. -/
structure Refines (limiter : UserLimiter Handle) (ledger : Ledger Handle) : Prop where
  usage : ∀ scope key, (limiter.state.usageAt scope key).toNat = ledger.usage scope key
  waiters : ∀ scope key, limiter.state.waitersAt scope key = ledger.waiters scope key
  rules : limiter.rules.Invariant
  view : limiter.rules.view = ledger.rules

theorem refines_create : Refines (create : UserLimiter Handle) Ledger.empty where
  usage _ _ := by simp [create, State.usageAt, Ledger.usage, Ledger.empty]
  waiters _ _ := by simp [create, State.waitersAt, Ledger.empty]
  rules := Rules.invariant_empty
  view := Rules.view_empty

theorem toNat_add_one {counter : UInt32} (bounded : counter.toNat + 1 < 2 ^ 32) : (counter + 1).toNat = counter.toNat + 1 := by
  rw [UInt32.toNat_add, UInt32.toNat_one, Nat.mod_eq_of_lt bounded]

theorem applyRuleUpdate_eq (applied : UserLimiter Handle × List Handle) (update : RuleUpdate) :
    applyRuleUpdate applied update =
      ({ state := (applied.1.state.drainAffectedWaiters update.pattern applied.2).1, rules := applied.1.rules.call update },
        (applied.1.state.drainAffectedWaiters update.pattern applied.2).2) := by
  cases update <;> rfl

namespace Refines

variable {limiter : UserLimiter Handle} {ledger : Ledger Handle}

theorem incrementAll (refines : Refines limiter ledger) (scope : String) (limitKey : LimitKey) (limitKind : LimitKind)
    (bounded : ({ ledger with outstanding := (scope, limitKey) :: ledger.outstanding } : Ledger Handle).usage scope .none
      < 2 ^ 32) :
    Refines (limiter.incrementAll scope limitKey limitKind)
      { ledger with outstanding := (scope, limitKey) :: ledger.outstanding } where
  usage scope' key := by
    cases limitKind
    simp only [UserLimiter.incrementAll]
    rw [State.usageAt_incrementAll, Ledger.usage_cons, ← refines.usage]
    split_ifs with onPath
    · obtain ⟨rfl, -⟩ := onPath
      rw [Ledger.usage_cons] at bounded
      simp only [and_self, LimitKey.none_mem_prefixes, if_true] at bounded
      have below := Ledger.usage_le_scope ledger scope' key
      exact toNat_add_one (by rw [refines.usage]; omega)
    · rfl
  waiters scope' key := by
    simp only [UserLimiter.incrementAll]
    rw [State.waitersAt_incrementAll]
    exact refines.waiters scope' key
  rules := refines.rules
  view := refines.view

theorem releaseConcurrency (refines : Refines limiter ledger) {scope : String} {limitKey : LimitKey}
    (matched : (scope, limitKey) ∈ ledger.outstanding) :
    Refines (limiter.releaseConcurrency scope limitKey).1
      { ledger with
        outstanding := ledger.outstanding.erase (scope, limitKey)
        waiters := fun scope' key =>
          if scope' = scope ∧ key ∈ limitKey.prefixes then (ledger.waiters scope' key).tail
          else ledger.waiters scope' key } where
  usage scope' key := by
    simp only [UserLimiter.releaseConcurrency]
    rw [State.usageAt_decrementAndWake, Ledger.usage_erase ledger matched, ← refines.usage]
    split_ifs <;> rfl
  waiters scope' key := by
    simp only [UserLimiter.releaseConcurrency]
    rw [State.waitersAt_decrementAndWake]
    simp only [refines.waiters]
  rules := refines.rules
  view := refines.view

theorem addToWaiters (refines : Refines limiter ledger) {handle : Handle} {scope : String} {limitKey : LimitKey}
    {blockedLevel : Level} {target : LimitKey} (atLevel : limitKey.atLevel blockedLevel = some target)
    {after : State Handle} (added : limiter.state.addToWaiters handle scope limitKey blockedLevel = some after) :
    Refines { limiter with state := after }
      { ledger with
        waiters := fun scope' key =>
          if scope' = scope ∧ key = target then ledger.waiters scope' key ++ [handle] else ledger.waiters scope' key } where
  usage scope' key := (congrArg UInt32.toNat (State.usageAt_addToWaiters atLevel added scope' key)).trans
    (refines.usage scope' key)
  waiters scope' key := by
    dsimp only
    rw [State.waitersAt_addToWaiters atLevel added]
    simp only [refines.waiters]
  rules := refines.rules
  view := refines.view

theorem applyRuleUpdate {applied : UserLimiter Handle × List Handle} (refines : Refines applied.1 ledger)
    (update : RuleUpdate) :
    Refines (UserLimiter.applyRuleUpdate applied update).1
      { ledger with waiters := Ledger.drained ledger.waiters update, rules := RulesCall.apply ledger.rules update } where
  usage scope key := by
    rw [applyRuleUpdate_eq]
    dsimp only
    rw [State.usageAt_drainAffectedWaiters]
    exact refines.usage scope key
  waiters scope key := by
    rw [applyRuleUpdate_eq]
    dsimp only
    rw [State.waitersAt_drainAffectedWaiters, refines.waiters]
    rfl
  rules := by
    rw [applyRuleUpdate_eq]
    exact (refines.rules.call update).1
  view := by
    rw [applyRuleUpdate_eq]
    dsimp only
    rw [(refines.rules.call update).2, refines.view]

theorem foldl_applyRuleUpdate {applied : UserLimiter Handle × List Handle} (refines : Refines applied.1 ledger)
    (updates : List RuleUpdate) :
    Refines (updates.foldl UserLimiter.applyRuleUpdate applied).1
      { ledger with
        waiters := updates.foldl Ledger.drained ledger.waiters, rules := updates.foldl RulesCall.apply ledger.rules } := by
  induction updates generalizing applied ledger with
  | nil => exact refines
  | cons update rest ih => exact ih (refines.applyRuleUpdate update)

theorem hasCapacity_iff_admits (refines : Refines limiter ledger) {scope : String} {limitKey key : LimitKey}
    {limit : Limit UserLimits} (spec : Rules.LimitSpec limiter.rules key.level scope limitKey limit) :
    (makeLevelStatus key.level ((limiter.state.nodeAt scope key).map NodeView.value) limit .concurrency).hasCapacity
      = true ↔ ledger.Admits scope limitKey key := by
  cases limit with
  | undefined =>
    refine ⟨fun _ pattern _ most => ?_, fun _ => hasCapacity_makeLevelStatus_undefined _ _⟩
    have stored : (limiter.rules.view pattern).isSome := by
      rw [refines.view]
      exact most.stored
    have unmatched := spec pattern stored most.atLevel
    rw [most.covering] at unmatched
    cases unmatched
  | defined handle limits =>
    obtain ⟨pattern, -, viewed, most⟩ := spec
    rw [refines.view] at viewed most
    rw [hasCapacity_makeLevelStatus_defined, State.elim_nodeAt_value, refines.usage]
    constructor
    · intro below other otherLimits otherMost otherViewed
      obtain rfl := otherMost.unique most
      rw [viewed, Option.some.injEq] at otherViewed
      subst otherViewed
      exact below
    · exact fun admits => admits pattern limits most viewed

theorem checkConcurrencyCapacity (refines : Refines limiter ledger) (scope : String) (limitKey : LimitKey) :
    ∃ limits result, limiter.rules.lookup scope limitKey = some limits ∧
      limiter.checkConcurrencyCapacity scope limitKey = some result ∧
      result.levels = limitKey.prefixes.map (fun key =>
        makeLevelStatus key.level ((limiter.state.nodeAt scope key).map NodeView.value) (limits.limitAt key.level)
          .concurrency) ∧
      (∀ key ∈ limitKey.prefixes, Rules.LimitSpec limiter.rules key.level scope limitKey (limits.limitAt key.level)) ∧
      (result.hasCapacity = true ↔ ∀ key ∈ limitKey.prefixes, ledger.Admits scope limitKey key) := by
  obtain ⟨limits, looked, spec⟩ := refines.rules.lookup_spec scope limitKey
  have levels := State.checkCapacity_levels limiter.state scope limitKey .concurrency limits
  refine ⟨limits, _, looked, by simp [UserLimiter.checkConcurrencyCapacity, looked], levels,
    fun key _ => spec key.level, ?_⟩
  rw [CapacityResult.hasCapacity, levels, List.all_map, List.all_eq_true]
  exact forall₂_congr fun key _ => refines.hasCapacity_iff_admits (spec key.level)

theorem narrowestBlocked (refines : Refines limiter ledger) (scope : String) (limitKey : LimitKey) :
    ∃ result, limiter.checkConcurrencyCapacity scope limitKey = some result ∧
      (result.narrowestBlocked = none ↔ ∀ key ∈ limitKey.prefixes, ledger.Admits scope limitKey key) ∧
      ∀ level handle, result.narrowestBlocked = some (level, handle) →
        ∃ shallower key deeper, limitKey.prefixes = shallower ++ key :: deeper ∧ key.level = level ∧
          ¬ ledger.Admits scope limitKey key ∧ (∀ deeperKey ∈ deeper, ledger.Admits scope limitKey deeperKey) ∧
          ∃ ruleHandle pattern, handle = some ruleHandle ∧ limiter.rules.rules ruleHandle = some pattern ∧
            MostExact ledger.rules level scope limitKey pattern := by
  obtain ⟨limits, result, -, checked, levels, spec, -⟩ := refines.checkConcurrencyCapacity scope limitKey
  have admits := fun key member => refines.hasCapacity_iff_admits (spec key member)
  refine ⟨result, checked, ?_, ?_⟩
  · rw [CapacityResult.narrowestBlocked_eq levels, Option.map_eq_none_iff, List.find?_eq_none]
    simp only [List.mem_reverse, Bool.not_eq_true', Bool.not_eq_false]
    exact forall₂_congr admits
  · intro level handle found
    rw [CapacityResult.narrowestBlocked_eq levels] at found
    obtain ⟨key, last, pairEq⟩ := Option.map_eq_some_iff.mp found
    obtain ⟨blocked, shallower, deeper, split, passed⟩ := List.find?_reverse_eq_some.mp last
    have member : key ∈ limitKey.prefixes := by simp [split]
    rw [Bool.not_eq_true', ← Bool.not_eq_true] at blocked
    -- a blocked node has a rule: an undefined limit never blocks
    cases limitEq : limits.limitAt key.level with
    | undefined =>
      rw [limitEq, hasCapacity_makeLevelStatus_undefined] at blocked
      exact absurd rfl blocked
    | defined ruleHandle ruleLimits =>
      have keySpec := spec key member
      rw [limitEq] at pairEq keySpec
      simp only [level_makeLevelStatus, ruleHandle_makeLevelStatus_defined, Prod.mk.injEq] at pairEq
      obtain ⟨rfl, rfl⟩ := pairEq
      obtain ⟨pattern, stored, -, most⟩ := keySpec
      rw [refines.view] at most
      refine ⟨shallower, key, deeper, split, rfl, fun held => blocked ((admits key member).mpr held),
        fun deeperKey below => (admits deeperKey (by simp [split, below])).mp ?_, ruleHandle, pattern, rfl, stored, most⟩
      simpa using passed deeperKey below

variable [DecidableEq Handle]

theorem removeFromWaiters (refines : Refines limiter ledger) (handle : Handle) (scope : String) (limitKey : LimitKey)
    (blockedLevel : Level) :
    Refines (limiter.removeFromWaiters handle scope limitKey blockedLevel)
      { ledger with
        waiters := fun scope' key =>
          if scope' = scope ∧ limitKey.atLevel blockedLevel = some key then
            (ledger.waiters scope' key).filter (· != handle)
          else ledger.waiters scope' key } where
  usage scope' key := by
    simp only [UserLimiter.removeFromWaiters]
    rw [State.usageAt_removeFromWaiters]
    exact refines.usage scope' key
  waiters scope' key := by
    simp only [UserLimiter.removeFromWaiters]
    rw [State.waitersAt_removeFromWaiters]
    simp only [refines.waiters]
  rules := refines.rules
  view := refines.view

theorem call (refines : Refines limiter ledger) {call : Call Handle} {next : Ledger Handle}
    (stepped : ledger.call call = some next) (bounded : next.Bounded) :
    ∃ after woken, limiter.call call = some (after, woken) ∧ Refines after next := by
  cases call with
  | incrementAll scope limitKey limitKind =>
    cases stepped
    exact ⟨_, _, rfl, refines.incrementAll scope limitKey limitKind (bounded scope)⟩
  | releaseConcurrency scope limitKey =>
    simp only [Ledger.call] at stepped
    split_ifs at stepped with matched
    cases stepped
    exact ⟨_, _, rfl, refines.releaseConcurrency matched⟩
  | addToWaiters handle scope limitKey blockedLevel =>
    obtain ⟨target, atLevel, rfl⟩ := Option.map_eq_some_iff.mp stepped
    -- the ledger's target exists, so the `expect`s of `add_to_waiters` hold
    have reaches : (limiter.state.addToWaiters handle scope limitKey blockedLevel).isSome := by
      rw [State.addToWaiters_isSome, atLevel]
      rfl
    obtain ⟨after, added⟩ := Option.isSome_iff_exists.mp reaches
    refine ⟨_, [], ?_, refines.addToWaiters atLevel added⟩
    simp [UserLimiter.call, UserLimiter.addToWaiters, added]
  | removeFromWaiters handle scope limitKey blockedLevel =>
    cases stepped
    exact ⟨_, _, rfl, refines.removeFromWaiters handle scope limitKey blockedLevel⟩
  | applyRuleUpdates updates =>
    cases stepped
    exact ⟨_, _, rfl, (refines : Refines (limiter, ([] : List Handle)).1 ledger).foldl_applyRuleUpdate updates⟩

theorem run (refines : Refines limiter ledger) {calls : List (Call Handle)} {last : Ledger Handle}
    (ran : ledger.run calls = some last) (bounded : ledger.BoundedRun calls) :
    ∃ after, limiter.run calls = some after ∧ Refines after last := by
  induction calls generalizing limiter ledger with
  | nil =>
    cases ran
    exact ⟨limiter, rfl, refines⟩
  | cons call rest ih =>
    simp only [Ledger.run, List.foldlM_cons, Option.bind_eq_bind, Option.bind_eq_some_iff] at ran
    obtain ⟨next, stepped, rested⟩ := ran
    obtain ⟨nextBounded, restBounded⟩ := bounded next stepped
    obtain ⟨middle, _, called, middleRefines⟩ := refines.call stepped nextBounded
    obtain ⟨after, afterRan, afterRefines⟩ := ih middleRefines rested restBounded
    refine ⟨after, ?_, afterRefines⟩
    simp only [UserLimiter.run, List.foldlM_cons, called, Option.map_some, Option.bind_eq_bind, Option.bind_some]
    exact afterRan

end Refines

variable [DecidableEq Handle]

/-- Along every run of the scheduler's calls whose releases match outstanding increments and
whose scopes stay below `2 ^ 32` outstanding increments, the limiter never panics, each node of its
trie counts the outstanding increments whose limit key runs through it and queues the waiters the
ledger queues there, and its rule store stands for the ledger's rules. -/
theorem trie_tracks_ledger {calls : List (Call Handle)} {ledger : Ledger Handle}
    (ran : Ledger.empty.run calls = some ledger) (bounded : Ledger.empty.BoundedRun calls) :
    ∃ limiter : UserLimiter Handle, create.run calls = some limiter ∧
      (∀ scope key, (limiter.state.usageAt scope key).toNat = ledger.usage scope key ∧
        limiter.state.waitersAt scope key = ledger.waiters scope key) ∧
      limiter.rules.view = ledger.rules := by
  obtain ⟨limiter, limiterRan, refines⟩ := refines_create.run ran bounded
  exact ⟨limiter, limiterRan, fun scope key => ⟨refines.usage scope key, refines.waiters scope key⟩, refines.view⟩

/-- A scope limited to one running entry: one entry runs, and a second waits at the scope. -/
def oneSlotCalls : List (Call Nat) :=
  [.applyRuleUpdates [.upsert (.scope .wildcard) ⟨some ⟨1, by decide⟩⟩],
    .incrementAll "orders" .none .concurrency,
    .addToWaiters 7 "orders" .none .scope]

def oneSlotLedger : Ledger Nat := (Ledger.empty.run oneSlotCalls).getD .empty

example : oneSlotLedger.usage "orders" .none = 1 ∧ oneSlotLedger.waiters "orders" .none = [7] := by decide

theorem oneSlot_tracked :
    ∃ limiter : UserLimiter Nat, create.run oneSlotCalls = some limiter ∧
      (∀ scope key, (limiter.state.usageAt scope key).toNat = oneSlotLedger.usage scope key ∧
        limiter.state.waitersAt scope key = oneSlotLedger.waiters scope key) ∧
      limiter.rules.view = oneSlotLedger.rules :=
  trie_tracks_ledger rfl (Ledger.boundedRun_of_length (by decide))

/-- On every limiter a bounded run reaches, `check_concurrency_capacity` never panics and grants
capacity exactly when each node of the path holds fewer outstanding increments than the concurrency
limit of the most exact rule of its level that matches, where that rule sets one. -/
theorem capacity_matches_rule_limits {calls : List (Call Handle)} {ledger : Ledger Handle}
    (ran : Ledger.empty.run calls = some ledger) (bounded : Ledger.empty.BoundedRun calls) :
    ∃ limiter : UserLimiter Handle, create.run calls = some limiter ∧ ∀ scope limitKey, ∃ result,
      limiter.checkConcurrencyCapacity scope limitKey = some result ∧
      (result.hasCapacity = true ↔ ∀ key ∈ limitKey.prefixes, ∀ pattern limits,
        MostExact ledger.rules key.level scope limitKey pattern → ledger.rules pattern = some limits →
          ∀ bound ∈ limits.concurrency, ledger.usage scope key < bound.val.toNat) := by
  obtain ⟨limiter, limiterRan, refines⟩ := refines_create.run ran bounded
  refine ⟨limiter, limiterRan, fun scope limitKey => ?_⟩
  obtain ⟨-, result, -, checked, -, -, capacity⟩ := refines.checkConcurrencyCapacity scope limitKey
  exact ⟨result, checked, capacity⟩

theorem oneSlot_capacity :
    ∃ limiter : UserLimiter Nat, create.run oneSlotCalls = some limiter ∧ ∀ scope limitKey, ∃ result,
      limiter.checkConcurrencyCapacity scope limitKey = some result ∧
      (result.hasCapacity = true ↔ ∀ key ∈ limitKey.prefixes, ∀ pattern limits,
        MostExact oneSlotLedger.rules key.level scope limitKey pattern → oneSlotLedger.rules pattern = some limits →
          ∀ bound ∈ limits.concurrency, oneSlotLedger.usage scope key < bound.val.toNat) :=
  capacity_matches_rule_limits rfl (Ledger.boundedRun_of_length (by decide))

/-- On every limiter a bounded run reaches, `narrowest_blocked` is none exactly when each node of the
path admits one more increment; otherwise it names the level of the deepest node that does not,
with a handle that resolves to the most exact matching rule of that level. -/
theorem narrowest_blocked_is_deepest {calls : List (Call Handle)} {ledger : Ledger Handle}
    (ran : Ledger.empty.run calls = some ledger) (bounded : Ledger.empty.BoundedRun calls) :
    ∃ limiter : UserLimiter Handle, create.run calls = some limiter ∧ ∀ scope limitKey, ∃ result,
      limiter.checkConcurrencyCapacity scope limitKey = some result ∧
      (result.narrowestBlocked = none ↔ ∀ key ∈ limitKey.prefixes, ledger.Admits scope limitKey key) ∧
      ∀ level handle, result.narrowestBlocked = some (level, handle) →
        ∃ shallower key deeper, limitKey.prefixes = shallower ++ key :: deeper ∧ key.level = level ∧
          ¬ ledger.Admits scope limitKey key ∧ (∀ deeperKey ∈ deeper, ledger.Admits scope limitKey deeperKey) ∧
          ∃ ruleHandle pattern, handle = some ruleHandle ∧ limiter.rules.rules ruleHandle = some pattern ∧
            MostExact ledger.rules level scope limitKey pattern := by
  obtain ⟨limiter, limiterRan, refines⟩ := refines_create.run ran bounded
  exact ⟨limiter, limiterRan, refines.narrowestBlocked⟩

theorem oneSlot_narrowest :
    ∃ limiter : UserLimiter Nat, create.run oneSlotCalls = some limiter ∧ ∀ scope limitKey, ∃ result,
      limiter.checkConcurrencyCapacity scope limitKey = some result ∧
      (result.narrowestBlocked = none ↔ ∀ key ∈ limitKey.prefixes, oneSlotLedger.Admits scope limitKey key) ∧
      ∀ level handle, result.narrowestBlocked = some (level, handle) →
        ∃ shallower key deeper, limitKey.prefixes = shallower ++ key :: deeper ∧ key.level = level ∧
          ¬ oneSlotLedger.Admits scope limitKey key ∧
          (∀ deeperKey ∈ deeper, oneSlotLedger.Admits scope limitKey deeperKey) ∧
          ∃ ruleHandle pattern, handle = some ruleHandle ∧ limiter.rules.rules ruleHandle = some pattern ∧
            MostExact oneSlotLedger.rules level scope limitKey pattern :=
  narrowest_blocked_is_deepest rfl (Ledger.boundedRun_of_length (by decide))

end UserLimiter

end Restate
