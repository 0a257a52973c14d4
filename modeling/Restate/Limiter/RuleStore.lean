import Restate.Lib.VecOps
import Restate.Limiter.Rule

/-! The rule store of the hierarchical limiter, from limiter/src/rule_store.rs. The slot map of
patterns and the secondary map of limits are functions of the handle; a handle is a number, and
the slot map hands out a new one on every insert, as `SlotMap::insert` returns a key no earlier
key equals. The rules of each level are listed in insertion order, and `remove_rule` swap-removes
from that list. A `lookup` whose rule has no limit panics on `unwrap`, and returns none here. -/

namespace Restate

/-- `Limit`: a rule's handle and limit, or nothing at this level. -/
inductive Limit (V : Type)
  | undefined
  | defined (handle : Nat) (value : V)
  deriving DecidableEq

structure StructuredLimits (V : Type) where
  scope : Limit V
  l1 : Limit V
  l2 : Limit V

def StructuredLimits.limitAt {V : Type} (limits : StructuredLimits V) : Level → Limit V
  | .scope => limits.scope
  | .level1 => limits.l1
  | .level2 => limits.l2

/-- `Rules`, with the slot map's supply of fresh handles. -/
structure Rules (V : Type) where
  rules : Nat → Option RulePattern
  limits : Nat → Option V
  scopeRules : List Nat
  l1Rules : List Nat
  l2Rules : List Nat
  nextHandle : Nat

namespace Rules

variable {V : Type}

def empty : Rules V where
  rules _ := none
  limits _ := none
  scopeRules := []
  l1Rules := []
  l2Rules := []
  nextHandle := 0

/-- The list of rules of a level, as `find_rule` and `remove_rule` pick it. -/
def levelRules (store : Rules V) : Level → List Nat
  | .scope => store.scopeRules
  | .level1 => store.l1Rules
  | .level2 => store.l2Rules

def withLevelRules (store : Rules V) (level : Level) (handles : List Nat) : Rules V :=
  match level with
  | .scope => { store with scopeRules := handles }
  | .level1 => { store with l1Rules := handles }
  | .level2 => { store with l2Rules := handles }

/-- `find_rule`: the first rule of the pattern's level with that pattern. -/
def findRule (store : Rules V) (pattern : RulePattern) : Option Nat :=
  (store.levelRules pattern.level).find? fun handle => (store.rules handle).any (· == pattern)

/-- `upsert_rule`: a rule with the pattern gets the new limit in place; otherwise a new rule joins
the list of its level. -/
def upsertRule (store : Rules V) (pattern : RulePattern) (limit : V) : Rules V × Nat :=
  match store.findRule pattern with
  | some handle => ({ store with limits := Function.update store.limits handle (some limit) }, handle)
  | none =>
    let handle := store.nextHandle
    let inserted : Rules V :=
      { store with
        rules := Function.update store.rules handle (some pattern)
        limits := Function.update store.limits handle (some limit)
        nextHandle := handle + 1 }
    (inserted.withLevelRules pattern.level (store.levelRules pattern.level ++ [handle]), handle)

/-- `remove_rule`: the rule leaves the list of its level and the slot map; the limit's `?` returns
none, after both, when the rule had no limit. -/
def removeRule (store : Rules V) (pattern : RulePattern) : Rules V × Option (Nat × V) :=
  match store.findRule pattern with
  | none => (store, none)
  | some handle =>
    let levelRules := store.levelRules pattern.level
    let levelRules :=
      match levelRules.findIdx? (· == handle) with
      | some pos => levelRules.swapRemove pos
      | none => levelRules
    let removed := { store.withLevelRules pattern.level levelRules with
      rules := Function.update store.rules handle none }
    match removed.limits handle with
    | none => (removed, none)
    | some limit => ({ removed with limits := Function.update removed.limits handle none }, some (handle, limit))

/-- `lookup_scope_rule`, `lookup_l1_rule` and `lookup_l2_rule`: among the rules of a list that
match, the last of highest rank. -/
def lookupLevelRule (store : Rules V) (handles : List Nat) (scope : String) (limitKey : LimitKey) : Option Nat :=
  ((handles.filterMap fun handle =>
      ((store.rules handle).bind fun pattern => pattern.rank scope limitKey).map fun rank => (handle, rank)).maxByKey?
    fun ranked => ranked.2.toNat).map Prod.fst

def lookupScopeRule (store : Rules V) (scope : String) : Option Nat :=
  store.lookupLevelRule store.scopeRules scope .none

def lookupL1Rule (store : Rules V) (scope : String) (limitKey : LimitKey) : Option Nat :=
  store.lookupLevelRule store.l1Rules scope limitKey

def lookupL2Rule (store : Rules V) (scope : String) (limitKey : LimitKey) : Option Nat :=
  store.lookupLevelRule store.l2Rules scope limitKey

/-- A found rule as a defined limit, with the `unwrap` of its limit. -/
def limitOf (store : Rules V) : Option Nat → Option (Limit V)
  | none => some .undefined
  | some handle => (store.limits handle).map (.defined handle)

/-- `lookup`: the scope's rule, then the rules of the levels the limit key reaches. -/
def lookup (store : Rules V) (scope : String) (limitKey : LimitKey) : Option (StructuredLimits V) := do
  let scopeLimit ← store.limitOf (store.lookupScopeRule scope)
  match limitKey with
  | .none => pure ⟨scopeLimit, .undefined, .undefined⟩
  | .l1 _ =>
    let l1Limit ← store.limitOf (store.lookupL1Rule scope limitKey)
    pure ⟨scopeLimit, l1Limit, .undefined⟩
  | .l2 _ _ =>
    let l1Limit ← store.limitOf (store.lookupL1Rule scope limitKey)
    let l2Limit ← store.limitOf (store.lookupL2Rule scope limitKey)
    pure ⟨scopeLimit, l1Limit, l2Limit⟩

def getPattern (store : Rules V) (handle : Nat) : Option RulePattern := store.rules handle

end Rules

/-- A call that changes the rule store. -/
inductive RulesCall (V : Type)
  | upsert (pattern : RulePattern) (limit : V)
  | remove (pattern : RulePattern)

namespace Rules

variable {V : Type}

def call (store : Rules V) : RulesCall V → Rules V
  | .upsert pattern limit => (store.upsertRule pattern limit).1
  | .remove pattern => (store.removeRule pattern).1

def runCalls (store : Rules V) (calls : List (RulesCall V)) : Rules V := calls.foldl call store

end Rules

end Restate
