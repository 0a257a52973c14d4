import Mathlib
import Restate.Lib.KeyMap
import Restate.Limiter.RuleStore

/-! The user limiter of the vqueue scheduler, from
vqueues/src/scheduler/resource_manager/user_limiter.rs: a trie of usage counters and waiter lists,
scope, then level 1, then level 2, beside the rule store of the hierarchical limiter. A hash map is a
`KeyMap`, whose order of entries stands for the map's unspecified iteration order; a `VecDeque` of
handles is a list with its front first, and the handles themselves are left abstract. A scope is its
string, as `Scope` compares by value and the wildcard walk looks scopes up by `as_str`. Counters
are `u32`: `+= 1` wraps in a release build, which has no overflow checks, and `debug_assert!` is
skipped there. A failed `expect` is a panic, and returns none. -/

namespace Restate

/-- `UserLimits`: a rule's limit on concurrent invocations, none for unlimited. -/
structure UserLimits where
  concurrency : Option { limit : UInt32 // limit ≠ 0 }

/-- `RuleUpdate`, the calls `apply_rule_updates` makes on the rule store. -/
abbrev RuleUpdate := RulesCall UserLimits

namespace UserLimiter

inductive LimitKind
  | concurrency
  deriving DecidableEq, Repr

structure Usage where
  concurrency : UInt32
  deriving DecidableEq, Repr

namespace Usage

def zero : Usage := ⟨0⟩

def increment (usage : Usage) : LimitKind → Usage
  | .concurrency => ⟨usage.concurrency + 1⟩

/-- `decrement`, with `saturating_sub(1)`. -/
def decrement (usage : Usage) : LimitKind → Usage
  | .concurrency => ⟨if usage.concurrency = 0 then 0 else usage.concurrency - 1⟩

def isZero (usage : Usage) : Bool := usage.concurrency == 0

end Usage

variable {Handle : Type}

structure L2Leaf (Handle : Type) where
  value : Usage
  waiters : List Handle

structure L1Node (Handle : Type) where
  value : Usage
  waiters : List Handle
  l2 : KeyMap RestrictedValue (L2Leaf Handle)

structure ScopeNode (Handle : Type) where
  value : Usage
  waiters : List Handle
  l1 : KeyMap RestrictedValue (L1Node Handle)

structure State (Handle : Type) where
  scopes : KeyMap String (ScopeNode Handle)

def L2Leaf.empty : L2Leaf Handle := ⟨.zero, []⟩

def L1Node.empty : L1Node Handle := ⟨.zero, [], ∅⟩

def ScopeNode.empty : ScopeNode Handle := ⟨.zero, [], ∅⟩

def State.empty : State Handle := ⟨∅⟩

def L2Leaf.isUnused (leaf : L2Leaf Handle) : Bool := leaf.value.isZero && leaf.waiters.isEmpty

def L1Node.isUnused (node : L1Node Handle) : Bool :=
  node.value.isZero && node.waiters.isEmpty && node.l2.entries.isEmpty

def ScopeNode.isUnused (node : ScopeNode Handle) : Bool :=
  node.value.isZero && node.waiters.isEmpty && node.l1.entries.isEmpty

namespace ScopeNode

/-- The increments of `increment_all` below the scope's entry, each node made by `or_default` when
missing. -/
def incrementPath (scopeNode : ScopeNode Handle) (limitKey : LimitKey) (limitKind : LimitKind) : ScopeNode Handle :=
  let scopeNode := { scopeNode with value := scopeNode.value.increment limitKind }
  match limitKey with
  | .none => scopeNode
  | .l1 l1 =>
    { scopeNode with
      l1 := KeyMap.upsertWith scopeNode.l1 l1 .empty fun l1Node => { l1Node with value := l1Node.value.increment limitKind } }
  | .l2 l1 l2 =>
    { scopeNode with
      l1 := KeyMap.upsertWith scopeNode.l1 l1 .empty fun l1Node =>
        { l1Node with
          value := l1Node.value.increment limitKind
          l2 := KeyMap.upsertWith l1Node.l2 l2 .empty fun leaf => { leaf with value := leaf.value.increment limitKind } } }

end ScopeNode

/-- `increment_all`: the counters along the path, from the scope's entry made by `or_default`. -/
def State.incrementAll (state : State Handle) (scope : String) (limitKey : LimitKey) (limitKind : LimitKind) :
    State Handle :=
  { scopes := KeyMap.upsertWith state.scopes scope .empty fun scopeNode => scopeNode.incrementPath limitKey limitKind }

/-- The pruning of an L1 node's leaf in `decrement_and_wake`. -/
def L1Node.pruneL2 (l1Node : L1Node Handle) (l2 : RestrictedValue) : L1Node Handle :=
  if (l1Node.l2.lookup l2).any L2Leaf.isUnused then { l1Node with l2 := l1Node.l2.erase l2 } else l1Node

namespace ScopeNode

/-- The decrements of `decrement_and_wake`, top-down; a missing node below the scope is a
`debug_assert!`, and nothing happens to it. -/
def decrementPath (scopeNode : ScopeNode Handle) (limitKey : LimitKey) (limitKind : LimitKind) : ScopeNode Handle :=
  let scopeNode := { scopeNode with value := scopeNode.value.decrement limitKind }
  match limitKey with
  | .none => scopeNode
  | .l1 l1 =>
    { scopeNode with
      l1 := KeyMap.modify scopeNode.l1 l1 fun l1Node => { l1Node with value := l1Node.value.decrement limitKind } }
  | .l2 l1 l2 =>
    { scopeNode with
      l1 := KeyMap.modify scopeNode.l1 l1 fun l1Node =>
        { l1Node with
          value := l1Node.value.decrement limitKind
          l2 := KeyMap.modify l1Node.l2 l2 fun leaf => { leaf with value := leaf.value.decrement limitKind } } }

/-- The wake-ups of `decrement_and_wake`: the front waiter of each node on the path, deepest first. -/
def wakePath (scopeNode : ScopeNode Handle) (limitKey : LimitKey) : ScopeNode Handle × List Handle :=
  let (below, woken) : ScopeNode Handle × List Handle :=
    match limitKey with
    | .none => (scopeNode, [])
    | .l2 l1 l2 =>
      match scopeNode.l1.lookup l1 with
      | some l1Node =>
        let (l1Node, woken) : L1Node Handle × List Handle :=
          match l1Node.l2.lookup l2 with
          | some leaf => ({ l1Node with l2 := l1Node.l2.insert l2 { leaf with waiters := leaf.waiters.tail } },
              leaf.waiters.head?.toList)
          | none => (l1Node, [])
        ({ scopeNode with l1 := scopeNode.l1.insert l1 { l1Node with waiters := l1Node.waiters.tail } },
          woken ++ l1Node.waiters.head?.toList)
      | none => (scopeNode, [])
    | .l1 l1 =>
      match scopeNode.l1.lookup l1 with
      | some l1Node =>
        ({ scopeNode with l1 := scopeNode.l1.insert l1 { l1Node with waiters := l1Node.waiters.tail } },
          l1Node.waiters.head?.toList)
      | none => (scopeNode, [])
  ({ below with waiters := below.waiters.tail }, woken ++ below.waiters.head?.toList)

/-- The pruning of one L1 node, the same in both arms of `decrement_and_wake`. -/
def pruneL1 (scopeNode : ScopeNode Handle) (l1 : RestrictedValue) : ScopeNode Handle :=
  if (scopeNode.l1.lookup l1).any L1Node.isUnused then { scopeNode with l1 := scopeNode.l1.erase l1 } else scopeNode

/-- The pruning of `decrement_and_wake` below the scope, bottom-up. -/
def prunePath (scopeNode : ScopeNode Handle) (limitKey : LimitKey) : ScopeNode Handle :=
  match limitKey with
  | .none => scopeNode
  | .l1 l1 => scopeNode.pruneL1 l1
  | .l2 l1 l2 =>
    let scopeNode := { scopeNode with l1 := KeyMap.modify scopeNode.l1 l1 fun l1Node => l1Node.pruneL2 l2 }
    scopeNode.pruneL1 l1

end ScopeNode

/-- `for_each_matching_scope` and `for_each_matching`: the closure on the entry an exact component
names, or on every entry for a wildcard. -/
def forEachMatchingBy {κ ν σ : Type} [DecidableEq κ] (keyOf : RestrictedValue → κ) (map : KeyMap κ ν)
    (pat : Pattern) (f : σ → ν → σ × ν) (acc : σ) : KeyMap κ ν × σ :=
  match pat with
  | .exact val => KeyMap.modifyAccum map (keyOf val) f acc
  | .wildcard => KeyMap.mapAccum map f acc

/-- `for_each_matching_scope`, which looks an exact scope up by `as_str`. -/
def forEachMatchingScope {ν σ : Type} (map : KeyMap String ν) (pat : Pattern) (f : σ → ν → σ × ν) (acc : σ) :
    KeyMap String ν × σ :=
  forEachMatchingBy RestrictedValue.value map pat f acc

def forEachMatching {ν σ : Type} (map : KeyMap RestrictedValue ν) (pat : Pattern) (f : σ → ν → σ × ν) (acc : σ) :
    KeyMap RestrictedValue ν × σ :=
  forEachMatchingBy id map pat f acc

namespace State

variable [DecidableEq Handle]

/-- `decrement_and_wake`: nothing when the scope has no node; otherwise the decrements, the
wake-ups and the pruning along the path, and last the scope node itself when it is unused. -/
def decrementAndWake (state : State Handle) (scope : String) (limitKey : LimitKey) (limitKind : LimitKind) :
    State Handle × List Handle :=
  match state.scopes.lookup scope with
  | none => (state, [])
  | some scopeNode =>
    let (scopeNode, woken) := (scopeNode.decrementPath limitKey limitKind).wakePath limitKey
    let scopeNode := scopeNode.prunePath limitKey
    if scopeNode.isUnused then ({ scopes := state.scopes.erase scope }, woken)
    else ({ scopes := state.scopes.insert scope scopeNode }, woken)

/-- `add_to_waiters`: at the back of the list of the blocked level's node, made when missing; the
`expect`s panic when the limit key does not reach that level. -/
def addToWaiters (state : State Handle) (handle : Handle) (scope : String) (limitKey : LimitKey)
    (blockedLevel : Level) : Option (State Handle) :=
  match blockedLevel with
  | .scope =>
    some { scopes := KeyMap.upsertWith state.scopes scope .empty fun scopeNode =>
      { scopeNode with waiters := scopeNode.waiters ++ [handle] } }
  | .level1 => do
    let l1Key ← limitKey.level1
    pure { scopes := KeyMap.upsertWith state.scopes scope .empty fun scopeNode =>
      { scopeNode with
        l1 := KeyMap.upsertWith scopeNode.l1 l1Key .empty fun l1Node => { l1Node with waiters := l1Node.waiters ++ [handle] } } }
  | .level2 => do
    let l1Key ← limitKey.level1
    let l2Key ← limitKey.level2
    pure { scopes := KeyMap.upsertWith state.scopes scope .empty fun scopeNode =>
      { scopeNode with
        l1 := KeyMap.upsertWith scopeNode.l1 l1Key .empty fun l1Node =>
          { l1Node with
            l2 := KeyMap.upsertWith l1Node.l2 l2Key .empty fun leaf => { leaf with waiters := leaf.waiters ++ [handle] } } } }

/-- `remove_from_waiters`: `retain` on the list of the blocked level's node, when there is one; no
node is made or pruned. -/
def removeFromWaiters (state : State Handle) (handle : Handle) (scope : String) (limitKey : LimitKey)
    (blockedLevel : Level) : State Handle :=
  { scopes := KeyMap.modify state.scopes scope fun scopeNode =>
      match blockedLevel with
      | .scope => { scopeNode with waiters := scopeNode.waiters.filter (· != handle) }
      | .level1 =>
        match limitKey.level1 with
        | some l1Key =>
          { scopeNode with
            l1 := KeyMap.modify scopeNode.l1 l1Key fun l1Node => { l1Node with waiters := l1Node.waiters.filter (· != handle) } }
        | none => scopeNode
      | .level2 =>
        match limitKey.level1, limitKey.level2 with
        | some l1Key, some l2Key =>
          { scopeNode with
            l1 := KeyMap.modify scopeNode.l1 l1Key fun l1Node =>
              { l1Node with
                l2 := KeyMap.modify l1Node.l2 l2Key fun leaf => { leaf with waiters := leaf.waiters.filter (· != handle) } } }
        | _, _ => scopeNode }

end State

/-- The closure on a matched node in `drain_affected_waiters`: `woken.extend(node.waiters.drain(..))`. -/
def L2Leaf.drainInto (woken : List Handle) (leaf : L2Leaf Handle) : List Handle × L2Leaf Handle :=
  (woken ++ leaf.waiters, { leaf with waiters := [] })

def L1Node.drainInto (woken : List Handle) (l1Node : L1Node Handle) : List Handle × L1Node Handle :=
  (woken ++ l1Node.waiters, { l1Node with waiters := [] })

def ScopeNode.drainInto (woken : List Handle) (scopeNode : ScopeNode Handle) : List Handle × ScopeNode Handle :=
  (woken ++ scopeNode.waiters, { scopeNode with waiters := [] })

/-- The closure on a matched L1 node that walks on to its leaves. -/
def L1Node.walkL2 (l2Pat : Pattern) (f : List Handle → L2Leaf Handle → List Handle × L2Leaf Handle)
    (woken : List Handle) (l1Node : L1Node Handle) : List Handle × L1Node Handle :=
  let walked := forEachMatching l1Node.l2 l2Pat f woken
  (walked.2, { l1Node with l2 := walked.1 })

/-- The closure on a matched scope node that walks on to its L1 nodes. -/
def ScopeNode.walkL1 (l1Pat : Pattern) (f : List Handle → L1Node Handle → List Handle × L1Node Handle)
    (woken : List Handle) (scopeNode : ScopeNode Handle) : List Handle × ScopeNode Handle :=
  let walked := forEachMatching scopeNode.l1 l1Pat f woken
  (walked.2, { scopeNode with l1 := walked.1 })

/-- `drain_affected_waiters`: every node of the pattern's level that the pattern matches hands its
whole waiter list over, in the order of the walk. -/
def State.drainAffectedWaiters (state : State Handle) (pattern : RulePattern) (woken : List Handle) :
    State Handle × List Handle :=
  let walked :=
    match pattern with
    | .scope scopePat => forEachMatchingScope state.scopes scopePat ScopeNode.drainInto woken
    | .l1 scopePat l1Pat => forEachMatchingScope state.scopes scopePat (ScopeNode.walkL1 l1Pat L1Node.drainInto) woken
    | .l2 scopePat l1Pat l2Pat =>
      forEachMatchingScope state.scopes scopePat (ScopeNode.walkL1 l1Pat (L1Node.walkL2 l2Pat L2Leaf.drainInto)) woken
  ({ scopes := walked.1 }, walked.2)

structure LevelStatus where
  level : Level
  usage : UInt32
  limitValue : Option { limit : UInt32 // limit ≠ 0 }
  ruleHandle : Option Nat

def LevelStatus.hasCapacity (status : LevelStatus) : Bool :=
  (status.limitValue.map fun limit => decide (status.usage < limit.val)).getD true

/-- `CapacityResult`: a status for each level of the limit key, from the scope down. -/
structure CapacityResult where
  levels : List LevelStatus

def CapacityResult.hasCapacity (result : CapacityResult) : Bool := result.levels.all LevelStatus.hasCapacity

/-- `CapacityResult::narrowest_blocked`: the deepest level without capacity. -/
def CapacityResult.narrowestBlocked (result : CapacityResult) : Option (Level × Option Nat) :=
  (result.levels.reverse.find? fun status => !status.hasCapacity).map fun status => (status.level, status.ruleHandle)

/-- `make_level_status`: a missing node counts zero. -/
def makeLevelStatus (level : Level) (current : Option Usage) (limit : Limit UserLimits) (limitKind : LimitKind) :
    LevelStatus :=
  let usage := current.elim 0 fun usage =>
    match limitKind with
    | .concurrency => usage.concurrency
  let (limitValue, ruleHandle) :=
    match limit with
    | .undefined => (none, none)
    | .defined handle userLimits =>
      let value :=
        match limitKind with
        | .concurrency => userLimits.concurrency
      (value, some handle)
  { level, usage, limitValue, ruleHandle }

namespace State

def checkScope (state : State Handle) (limitKind : LimitKind) (scope : String) (limits : StructuredLimits UserLimits) :
    CapacityResult :=
  let current := (state.scopes.lookup scope).map (·.value)
  { levels := [makeLevelStatus .scope current (limits.limitAt .scope) limitKind] }

def checkL1 (state : State Handle) (limitKind : LimitKind) (scope : String) (l1 : RestrictedValue)
    (limits : StructuredLimits UserLimits) : CapacityResult :=
  let (scopeCurrent, l1Current) :=
    match state.scopes.lookup scope with
    | some scopeNode => (some scopeNode.value, (scopeNode.l1.lookup l1).map (·.value))
    | none => (none, none)
  { levels := [makeLevelStatus .scope scopeCurrent (limits.limitAt .scope) limitKind,
      makeLevelStatus .level1 l1Current (limits.limitAt .level1) limitKind] }

def checkL1L2 (state : State Handle) (limitKind : LimitKind) (scope : String) (l1 l2 : RestrictedValue)
    (limits : StructuredLimits UserLimits) : CapacityResult :=
  let (scopeCurrent, l1Current, l2Current) :=
    match state.scopes.lookup scope with
    | some scopeNode =>
      let l1Node := scopeNode.l1.lookup l1
      (some scopeNode.value, l1Node.map (·.value), ((l1Node.bind fun node => node.l2.lookup l2).map (·.value)))
    | none => (none, none, none)
  { levels := [makeLevelStatus .scope scopeCurrent (limits.limitAt .scope) limitKind,
      makeLevelStatus .level1 l1Current (limits.limitAt .level1) limitKind,
      makeLevelStatus .level2 l2Current (limits.limitAt .level2) limitKind] }

def checkCapacity (state : State Handle) (scope : String) (limitKey : LimitKey) (limitKind : LimitKind)
    (limits : StructuredLimits UserLimits) : CapacityResult :=
  match limitKey with
  | .none => state.checkScope limitKind scope limits
  | .l1 l1 => state.checkL1 limitKind scope l1 limits
  | .l2 l1 l2 => state.checkL1L2 limitKind scope l1 l2 limits

end State

end UserLimiter

structure UserLimiter (Handle : Type) where
  state : UserLimiter.State Handle
  rules : Rules UserLimits

namespace UserLimiter

variable {Handle : Type} [DecidableEq Handle]

def create : UserLimiter Handle := ⟨.empty, .empty⟩

/-- `check_concurrency_capacity`: the rules' limits at each level, and the counters against them;
none where the lookup's `unwrap` panics. -/
def checkConcurrencyCapacity (limiter : UserLimiter Handle) (scope : String) (limitKey : LimitKey) :
    Option CapacityResult := do
  let limits ← limiter.rules.lookup scope limitKey
  pure (limiter.state.checkCapacity scope limitKey .concurrency limits)

def incrementAll (limiter : UserLimiter Handle) (scope : String) (limitKey : LimitKey) (limitKind : LimitKind) :
    UserLimiter Handle :=
  { limiter with state := limiter.state.incrementAll scope limitKey limitKind }

def releaseConcurrency (limiter : UserLimiter Handle) (scope : String) (limitKey : LimitKey) :
    UserLimiter Handle × List Handle :=
  let released := limiter.state.decrementAndWake scope limitKey .concurrency
  ({ limiter with state := released.1 }, released.2)

def addToWaiters (limiter : UserLimiter Handle) (handle : Handle) (scope : String) (limitKey : LimitKey)
    (blockedLevel : Level) : Option (UserLimiter Handle) := do
  let state ← limiter.state.addToWaiters handle scope limitKey blockedLevel
  pure { limiter with state }

def removeFromWaiters (limiter : UserLimiter Handle) (handle : Handle) (scope : String) (limitKey : LimitKey)
    (blockedLevel : Level) : UserLimiter Handle :=
  { limiter with state := limiter.state.removeFromWaiters handle scope limitKey blockedLevel }

/-- One update of `apply_rule_updates`: the update on the rule store, then the waiters its
pattern affects, added to those collected so far. -/
def applyRuleUpdate (applied : UserLimiter Handle × List Handle) (update : RuleUpdate) :
    UserLimiter Handle × List Handle :=
  let limiter := applied.1
  let (rules, pattern) :=
    match update with
    | .upsert pattern limit => ((limiter.rules.upsertRule pattern limit).1, pattern)
    | .remove pattern => ((limiter.rules.removeRule pattern).1, pattern)
  let drained := limiter.state.drainAffectedWaiters pattern applied.2
  ({ state := drained.1, rules }, drained.2)

/-- `apply_rule_updates`: the updates in order, with the union of the waiters they affect. -/
def applyRuleUpdates (limiter : UserLimiter Handle) (updates : List RuleUpdate) : UserLimiter Handle × List Handle :=
  updates.foldl applyRuleUpdate (limiter, [])

/-- The calls the scheduler makes on its user limiter. -/
inductive Call (Handle : Type)
  | incrementAll (scope : String) (limitKey : LimitKey) (limitKind : LimitKind)
  | releaseConcurrency (scope : String) (limitKey : LimitKey)
  | addToWaiters (handle : Handle) (scope : String) (limitKey : LimitKey) (blockedLevel : Level)
  | removeFromWaiters (handle : Handle) (scope : String) (limitKey : LimitKey) (blockedLevel : Level)
  | applyRuleUpdates (updates : List RuleUpdate)

/-- A call, with the handles it wakes; none when it panics. -/
def call (limiter : UserLimiter Handle) : Call Handle → Option (UserLimiter Handle × List Handle)
  | .incrementAll scope limitKey limitKind => some (limiter.incrementAll scope limitKey limitKind, [])
  | .releaseConcurrency scope limitKey => some (limiter.releaseConcurrency scope limitKey)
  | .addToWaiters handle scope limitKey blockedLevel =>
    (limiter.addToWaiters handle scope limitKey blockedLevel).map fun limiter => (limiter, [])
  | .removeFromWaiters handle scope limitKey blockedLevel =>
    some (limiter.removeFromWaiters handle scope limitKey blockedLevel, [])
  | .applyRuleUpdates updates => some (limiter.applyRuleUpdates updates)

/-- The limiter a sequence of calls leaves; none when one of them panics. -/
def run (limiter : UserLimiter Handle) (calls : List (Call Handle)) : Option (UserLimiter Handle) :=
  calls.foldlM (fun limiter call => (limiter.call call).map Prod.fst) limiter

end UserLimiter

end Restate
