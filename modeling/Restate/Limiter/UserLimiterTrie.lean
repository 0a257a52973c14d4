import Mathlib
import Restate.Limiter.RuleSpec
import Restate.Limiter.UserLimiter

/-! What the counter trie of the user limiter holds at each node, and what each of its operations
does to it. A node is named by its scope and the limit key that ends at it: the scope node by
`LimitKey.none`, an L1 node by `.l1`, an L2 leaf by `.l2`; an increment counts in the nodes of its
key's prefixes. Each operation is stated once on these readings, and the proofs about runs never
unfold the trie. -/

namespace Restate

/-- The limit keys of the nodes an increment of a limit key counts in, from the scope down. -/
def LimitKey.prefixes : LimitKey → List LimitKey
  | .none => [.none]
  | .l1 level1 => [.none, .l1 level1]
  | .l2 level1 level2 => [.none, .l1 level1, .l2 level1 level2]

/-- The level of the node a limit key ends at. -/
def LimitKey.level : LimitKey → Level
  | .none => .scope
  | .l1 _ => .level1
  | .l2 .. => .level2

/-- The key of a limit key's node at a level, none when the key does not reach it, as
`add_to_waiters` and `remove_from_waiters` find their node. -/
def LimitKey.atLevel (limitKey : LimitKey) : Level → Option LimitKey
  | .scope => some .none
  | .level1 => limitKey.level1.map .l1
  | .level2 => do
    let level1 ← limitKey.level1
    let level2 ← limitKey.level2
    pure (.l2 level1 level2)

@[simp] theorem LimitKey.none_mem_prefixes (limitKey : LimitKey) : LimitKey.none ∈ limitKey.prefixes := by
  cases limitKey <;> simp [prefixes]

@[simp] theorem LimitKey.mem_prefixes_self (limitKey : LimitKey) : limitKey ∈ limitKey.prefixes := by
  cases limitKey <;> simp [prefixes]

namespace UserLimiter

namespace Usage

theorem toNat_decrement (usage : Usage) :
    (usage.decrement .concurrency).concurrency.toNat = usage.concurrency.toNat - 1 := by
  unfold decrement
  by_cases zero : usage.concurrency = 0
  · simp [zero]
  · have positive : usage.concurrency.toNat ≠ 0 := fun toNatZero =>
      zero (UInt32.toNat_inj.mp (by simpa using toNatZero))
    have one_le : (1 : UInt32) ≤ usage.concurrency := by
      rw [UInt32.le_iff_toNat_le]
      simp only [UInt32.toNat_one]
      omega
    simp only [zero, if_false]
    rw [UInt32.toNat_sub_of_le _ _ one_le]
    rfl

end Usage

variable {Handle : Type}

/-- What a node of any level holds besides its children. -/
structure NodeView (Handle : Type) where
  value : Usage
  waiters : List Handle

namespace NodeView

@[simp] def empty : NodeView Handle := ⟨.zero, []⟩

@[simp] def increment (limitKind : LimitKind) (view : NodeView Handle) : NodeView Handle :=
  { view with value := view.value.increment limitKind }

@[simp] def decrement (limitKind : LimitKind) (view : NodeView Handle) : NodeView Handle :=
  { view with value := view.value.decrement limitKind }

@[simp] def popFront (view : NodeView Handle) : NodeView Handle := { view with waiters := view.waiters.tail }

@[simp] def push (handle : Handle) (view : NodeView Handle) : NodeView Handle :=
  { view with waiters := view.waiters ++ [handle] }

@[simp] def retain [DecidableEq Handle] (handle : Handle) (view : NodeView Handle) : NodeView Handle :=
  { view with waiters := view.waiters.filter (· != handle) }

@[simp] def drain (view : NodeView Handle) : NodeView Handle := { view with waiters := [] }

/-- What `decrement_and_wake` does to a node on its path before it prunes. -/
def release (limitKind : LimitKind) (view : NodeView Handle) : NodeView Handle :=
  (view.decrement limitKind).popFront

/-- A node with nothing counted and no waiters: what pruning may remove. -/
def Unused (view : NodeView Handle) : Prop := view.value.isZero = true ∧ view.waiters = []

end NodeView

/-- A node is kept as it was, or it is gone and held nothing. -/
def Pruned (before after : Option (NodeView Handle)) : Prop :=
  after = before ∨ after = none ∧ ∃ view, before = some view ∧ view.Unused

namespace Pruned

variable {before middle after : Option (NodeView Handle)}

theorem refl (node : Option (NodeView Handle)) : Pruned node node := .inl rfl

theorem trans (first : Pruned before middle) (second : Pruned middle after) : Pruned before after := by
  rcases first with rfl | ⟨rfl, view, found, unused⟩
  · exact second
  · rcases second with rfl | ⟨rfl, _, gone, _⟩
    · exact .inr ⟨rfl, view, found, unused⟩
    · cases gone

theorem usage (pruned : Pruned before after) :
    (after.map fun view => view.value.concurrency).getD 0 = (before.map fun view => view.value.concurrency).getD 0 := by
  rcases pruned with rfl | ⟨rfl, view, rfl, zero, -⟩
  · rfl
  · simp only [Usage.isZero, beq_iff_eq] at zero
    simp [zero]

theorem waiters (pruned : Pruned before after) :
    (after.map NodeView.waiters).getD [] = (before.map NodeView.waiters).getD [] := by
  rcases pruned with rfl | ⟨rfl, view, rfl, -, empty⟩
  · rfl
  · simp [empty]

end Pruned

@[simp] def L2Leaf.view (leaf : L2Leaf Handle) : NodeView Handle := ⟨leaf.value, leaf.waiters⟩

@[simp] def L1Node.view (node : L1Node Handle) : NodeView Handle := ⟨node.value, node.waiters⟩

@[simp] def ScopeNode.view (node : ScopeNode Handle) : NodeView Handle := ⟨node.value, node.waiters⟩

/-- The node a limit key ends at below a scope node. -/
def ScopeNode.nodeAt (scopeNode : ScopeNode Handle) : LimitKey → Option (NodeView Handle)
  | .none => some scopeNode.view
  | .l1 l1 => (scopeNode.l1.lookup l1).map L1Node.view
  | .l2 l1 l2 => ((scopeNode.l1.lookup l1).bind fun l1Node => l1Node.l2.lookup l2).map L2Leaf.view

namespace State

/-- The node of a scope and a limit key, when the trie has it. -/
def nodeAt (state : State Handle) (scope : String) (limitKey : LimitKey) : Option (NodeView Handle) :=
  (state.scopes.lookup scope).bind fun scopeNode => scopeNode.nodeAt limitKey

/-- The counter of a node, zero where there is none, as `make_level_status` reads it. -/
def usageAt (state : State Handle) (scope : String) (limitKey : LimitKey) : UInt32 :=
  ((state.nodeAt scope limitKey).map fun view => view.value.concurrency).getD 0

/-- The waiter list of a node, empty where there is none. -/
def waitersAt (state : State Handle) (scope : String) (limitKey : LimitKey) : List Handle :=
  ((state.nodeAt scope limitKey).map NodeView.waiters).getD []

end State

attribute [simp] L2Leaf.empty L1Node.empty

@[simp] theorem ScopeNode.value_empty : (ScopeNode.empty : ScopeNode Handle).value = .zero := rfl

@[simp] theorem ScopeNode.waiters_empty : (ScopeNode.empty : ScopeNode Handle).waiters = [] := rfl

@[simp] theorem ScopeNode.l1_empty : (ScopeNode.empty : ScopeNode Handle).l1 = ∅ := rfl

@[simp] theorem ScopeNode.nodeAt_empty (limitKey : LimitKey) :
    (ScopeNode.empty : ScopeNode Handle).nodeAt limitKey = if limitKey = .none then some .empty else none := by
  cases limitKey <;> simp [ScopeNode.nodeAt]

@[simp] theorem State.nodeAt_empty (scope : String) (limitKey : LimitKey) :
    (State.empty : State Handle).nodeAt scope limitKey = none := by
  simp [State.empty, State.nodeAt]

namespace L1Node

@[simp] theorem value_pruneL2 (l1Node : L1Node Handle) (l2 : RestrictedValue) : (l1Node.pruneL2 l2).value = l1Node.value := by
  unfold L1Node.pruneL2
  split <;> rfl

@[simp] theorem waiters_pruneL2 (l1Node : L1Node Handle) (l2 : RestrictedValue) :
    (l1Node.pruneL2 l2).waiters = l1Node.waiters := by
  unfold L1Node.pruneL2
  split <;> rfl

theorem lookup_pruneL2 (l1Node : L1Node Handle) (l2 key : RestrictedValue) :
    Pruned ((l1Node.l2.lookup key).map L2Leaf.view) (((l1Node.pruneL2 l2).l2.lookup key).map L2Leaf.view) := by
  unfold L1Node.pruneL2
  split
  · rename_i unused
    obtain ⟨leaf, found, leafUnused⟩ := (Option.any_eq_true _ _).mp unused
    by_cases same : key = l2
    · subst same
      simp only [L2Leaf.isUnused, Bool.and_eq_true, List.isEmpty_iff] at leafUnused
      exact .inr ⟨by simp, leaf.view, by simp [found], leafUnused⟩
    · simp only [AList.lookup_erase_ne same]
      exact .refl _
  · exact .refl _

end L1Node

namespace ScopeNode

theorem nodeAt_incrementPath (scopeNode : ScopeNode Handle) (limitKey key : LimitKey) (limitKind : LimitKind) :
    (scopeNode.incrementPath limitKey limitKind).nodeAt key =
      if key ∈ limitKey.prefixes then some (((scopeNode.nodeAt key).getD .empty).increment limitKind)
      else scopeNode.nodeAt key := by
  -- a node on the path is counted, made from the default when missing; off the path nothing moves
  cases limitKey with
  | none => cases key <;> simp [nodeAt, LimitKey.prefixes, incrementPath]
  | l1 target =>
    cases key with
    | none => simp [nodeAt, LimitKey.prefixes, incrementPath]
    | l1 level1 | l2 level1 _ =>
      by_cases same : level1 = target
      · subst same
        cases found : scopeNode.l1.lookup level1 <;> simp [nodeAt, LimitKey.prefixes, incrementPath, found]
      · simp [nodeAt, LimitKey.prefixes, incrementPath, same]
  | l2 target target2 =>
    cases key with
    | none => simp [nodeAt, LimitKey.prefixes, incrementPath]
    | l1 level1 =>
      by_cases same : level1 = target
      · subst same
        cases found : scopeNode.l1.lookup level1 <;> simp [nodeAt, LimitKey.prefixes, incrementPath, found]
      · simp [nodeAt, LimitKey.prefixes, incrementPath, same]
    | l2 level1 level2 =>
      by_cases same : level1 = target
      · subst same
        cases found : scopeNode.l1.lookup level1 with
        | none => by_cases same2 : level2 = target2 <;> simp [nodeAt, LimitKey.prefixes, incrementPath, found, same2]
        | some l1Node =>
          by_cases same2 : level2 = target2
          · subst same2
            cases leafFound : l1Node.l2.lookup level2 <;> simp [nodeAt, LimitKey.prefixes, incrementPath, found, leafFound]
          · simp [nodeAt, LimitKey.prefixes, incrementPath, found, same2]
      · simp [nodeAt, LimitKey.prefixes, incrementPath, same]

theorem nodeAt_decrementPath (scopeNode : ScopeNode Handle) (limitKey key : LimitKey) (limitKind : LimitKind) :
    (scopeNode.decrementPath limitKey limitKind).nodeAt key =
      if key ∈ limitKey.prefixes then (scopeNode.nodeAt key).map (NodeView.decrement limitKind)
      else scopeNode.nodeAt key := by
  -- a node on the path is decremented when it is there; a missing one is a skipped `debug_assert!`
  cases limitKey with
  | none => cases key <;> simp [nodeAt, LimitKey.prefixes, decrementPath]
  | l1 target =>
    cases key with
    | none => simp [nodeAt, LimitKey.prefixes, decrementPath]
    | l1 level1 | l2 level1 _ =>
      by_cases same : level1 = target
      · subst same
        cases found : scopeNode.l1.lookup level1 <;> simp [nodeAt, LimitKey.prefixes, decrementPath, found]
      · simp [nodeAt, LimitKey.prefixes, decrementPath, same]
  | l2 target target2 =>
    cases key with
    | none => simp [nodeAt, LimitKey.prefixes, decrementPath]
    | l1 level1 =>
      by_cases same : level1 = target
      · subst same
        cases found : scopeNode.l1.lookup level1 <;> simp [nodeAt, LimitKey.prefixes, decrementPath, found]
      · simp [nodeAt, LimitKey.prefixes, decrementPath, same]
    | l2 level1 level2 =>
      by_cases same : level1 = target
      · subst same
        cases found : scopeNode.l1.lookup level1 with
        | none => simp [nodeAt, LimitKey.prefixes, decrementPath, found]
        | some l1Node =>
          by_cases same2 : level2 = target2
          · subst same2
            cases leafFound : l1Node.l2.lookup level2 <;> simp [nodeAt, LimitKey.prefixes, decrementPath, found, leafFound]
          · simp [nodeAt, LimitKey.prefixes, decrementPath, found, same2]
      · simp [nodeAt, LimitKey.prefixes, decrementPath, same]

theorem nodeAt_wakePath (scopeNode : ScopeNode Handle) (limitKey key : LimitKey) :
    (scopeNode.wakePath limitKey).1.nodeAt key =
      if key ∈ limitKey.prefixes then (scopeNode.nodeAt key).map NodeView.popFront else scopeNode.nodeAt key := by
  -- each node of the path pops when it is there; the wake-up walks only nodes it finds
  cases limitKey with
  | none => cases key <;> simp [nodeAt, LimitKey.prefixes, wakePath]
  | l1 target =>
    cases key with
    | none => cases found : scopeNode.l1.lookup target <;> simp [nodeAt, LimitKey.prefixes, wakePath, found]
    | l1 level1 | l2 level1 _ =>
      by_cases same : level1 = target
      · subst same
        cases found : scopeNode.l1.lookup level1 <;> simp [nodeAt, LimitKey.prefixes, wakePath, found]
      · cases found : scopeNode.l1.lookup target <;> simp [nodeAt, LimitKey.prefixes, wakePath, found, same]
  | l2 target target2 =>
    cases found : scopeNode.l1.lookup target with
    | none =>
      cases key with
      | none => simp [nodeAt, LimitKey.prefixes, wakePath, found]
      | l1 level1 | l2 level1 _ =>
        by_cases same : level1 = target
        · subst same
          simp [nodeAt, LimitKey.prefixes, wakePath, found]
        · simp [nodeAt, LimitKey.prefixes, wakePath, found, same]
    | some l1Node =>
      cases leafFound : l1Node.l2.lookup target2 with
      | none =>
        cases key with
        | none => simp [nodeAt, LimitKey.prefixes, wakePath, found, leafFound]
        | l1 level1 =>
          by_cases same : level1 = target
          · subst same
            simp [nodeAt, LimitKey.prefixes, wakePath, found, leafFound]
          · simp [nodeAt, LimitKey.prefixes, wakePath, found, leafFound, same]
        | l2 level1 level2 =>
          by_cases same : level1 = target
          · subst same
            by_cases same2 : level2 = target2
            · subst same2
              simp [nodeAt, LimitKey.prefixes, wakePath, found, leafFound]
            · simp [nodeAt, LimitKey.prefixes, wakePath, found, leafFound, same2]
          · simp [nodeAt, LimitKey.prefixes, wakePath, found, leafFound, same]
      | some leaf =>
        cases key with
        | none => simp [nodeAt, LimitKey.prefixes, wakePath, found, leafFound]
        | l1 level1 =>
          by_cases same : level1 = target
          · subst same
            simp [nodeAt, LimitKey.prefixes, wakePath, found, leafFound]
          · simp [nodeAt, LimitKey.prefixes, wakePath, found, leafFound, same]
        | l2 level1 level2 =>
          by_cases same : level1 = target
          · subst same
            by_cases same2 : level2 = target2
            · subst same2
              simp [nodeAt, LimitKey.prefixes, wakePath, found, leafFound]
            · simp [nodeAt, LimitKey.prefixes, wakePath, found, leafFound, same2]
          · simp [nodeAt, LimitKey.prefixes, wakePath, found, leafFound, same]

theorem nodeAt_pruneL1 (scopeNode : ScopeNode Handle) (l1 : RestrictedValue) (key : LimitKey) :
    Pruned (scopeNode.nodeAt key) ((scopeNode.pruneL1 l1).nodeAt key) := by
  unfold pruneL1
  split
  · rename_i unused
    obtain ⟨l1Node, found, nodeUnused⟩ := (Option.any_eq_true _ _).mp unused
    simp only [L1Node.isUnused, Bool.and_eq_true, List.isEmpty_iff] at nodeUnused
    obtain ⟨⟨zero, noWaiters⟩, noLeaves⟩ := nodeUnused
    cases key with
    | none => exact .refl _
    | l1 level1 =>
      by_cases same : level1 = l1
      · subst same
        exact .inr ⟨by simp [nodeAt], l1Node.view, by simp [nodeAt, found], zero, noWaiters⟩
      · simp only [nodeAt, AList.lookup_erase_ne same]
        exact .refl _
    | l2 level1 level2 =>
      by_cases same : level1 = l1
      · subst same
        have noLeaf : l1Node.l2.lookup level2 = none := by
          simp [AList.lookup, noLeaves]
        left
        simp [nodeAt, found, noLeaf]
      · simp only [nodeAt, AList.lookup_erase_ne same]
        exact .refl _
  · exact .refl _

theorem nodeAt_prunePath (scopeNode : ScopeNode Handle) (limitKey key : LimitKey) :
    Pruned (scopeNode.nodeAt key) ((scopeNode.prunePath limitKey).nodeAt key) := by
  cases limitKey with
  | none => exact .refl _
  | l1 target => exact nodeAt_pruneL1 scopeNode target key
  | l2 target target2 =>
    refine Pruned.trans ?_ (nodeAt_pruneL1 _ target key)
    cases key with
    | none => exact .refl _
    | l1 level1 =>
      left
      by_cases same : level1 = target
      · subst same
        cases found : scopeNode.l1.lookup level1 <;> simp [nodeAt, found]
      · simp [nodeAt, same]
    | l2 level1 level2 =>
      by_cases same : level1 = target
      · subst same
        cases found : scopeNode.l1.lookup level1 with
        | none => simpa [nodeAt, found] using Pruned.refl none
        | some l1Node => simpa [nodeAt, found] using L1Node.lookup_pruneL2 l1Node target2 level2
      · left
        simp [nodeAt, same]

theorem pruned_of_isUnused {scopeNode : ScopeNode Handle} (unused : scopeNode.isUnused = true) (key : LimitKey) :
    Pruned (scopeNode.nodeAt key) none := by
  simp only [isUnused, Bool.and_eq_true, List.isEmpty_iff] at unused
  obtain ⟨⟨zero, noWaiters⟩, noL1⟩ := unused
  cases key with
  | none => exact .inr ⟨rfl, scopeNode.view, rfl, zero, noWaiters⟩
  | l1 level1 | l2 level1 _ =>
    have noNode : scopeNode.l1.lookup level1 = none := by
      simp [AList.lookup, noL1]
    left
    simp [nodeAt, noNode]

end ScopeNode

theorem lookup_forEachMatchingBy {κ ν σ : Type} [DecidableEq κ] {keyOf : RestrictedValue → κ} {name : κ → String}
    (named : ∀ val key, keyOf val = key ↔ val.value = name key) {R : ν → ν → Prop} {f : σ → ν → σ × ν}
    (related : ∀ acc value, R value (f acc value).2) (map : KeyMap κ ν) (pat : Pattern) (acc : σ) (key : κ) :
    if pat.covers (name key) then Option.Rel R (map.lookup key) ((forEachMatchingBy keyOf map pat f acc).1.lookup key)
    else (forEachMatchingBy keyOf map pat f acc).1.lookup key = map.lookup key := by
  cases pat with
  | exact val =>
    have visited := KeyMap.lookup_modifyAccum related map (keyOf val) key acc
    have covered : Pattern.covers (.exact val) (name key) = true ↔ key = keyOf val := by
      simp only [Pattern.covers, beq_iff_eq]
      exact (named val key).symm.trans eq_comm
    simp only [forEachMatchingBy]
    by_cases same : key = keyOf val
    · rw [if_pos (covered.mpr same)]
      rw [if_pos same] at visited
      exact visited
    · rw [if_neg (mt covered.mp same)]
      rw [if_neg same] at visited
      exact visited
  | wildcard => simpa [forEachMatchingBy, Pattern.covers] using KeyMap.lookup_mapAccum related map key acc

theorem lookup_forEachMatchingScope {ν σ : Type} {R : ν → ν → Prop} {f : σ → ν → σ × ν}
    (related : ∀ acc value, R value (f acc value).2) (map : KeyMap String ν) (pat : Pattern) (acc : σ) (key : String) :
    if pat.covers key then Option.Rel R (map.lookup key) ((forEachMatchingScope map pat f acc).1.lookup key)
    else (forEachMatchingScope map pat f acc).1.lookup key = map.lookup key :=
  lookup_forEachMatchingBy (fun _ _ => Iff.rfl) related map pat acc key

theorem lookup_forEachMatching {ν σ : Type} {R : ν → ν → Prop} {f : σ → ν → σ × ν}
    (related : ∀ acc value, R value (f acc value).2) (map : KeyMap RestrictedValue ν) (pat : Pattern) (acc : σ)
    (key : RestrictedValue) :
    if pat.covers key.value then Option.Rel R (map.lookup key) ((forEachMatching map pat f acc).1.lookup key)
    else (forEachMatching map pat f acc).1.lookup key = map.lookup key :=
  -- `for_each_matching` keys its map by the restricted values themselves
  have named : ∀ val key : RestrictedValue, id val = key ↔ val.value = key.value := fun val key =>
    ⟨fun same => by rw [← same]; rfl, fun same => by
      cases val
      cases key
      simp only at same
      subst same
      rfl⟩
  lookup_forEachMatchingBy named related map pat acc key

namespace L1Node

@[simp] theorem value_walkL2 (l2Pat : Pattern) (f : List Handle → L2Leaf Handle → List Handle × L2Leaf Handle)
    (acc : List Handle) (l1Node : L1Node Handle) : (l1Node.walkL2 l2Pat f acc).2.value = l1Node.value := rfl

@[simp] theorem waiters_walkL2 (l2Pat : Pattern) (f : List Handle → L2Leaf Handle → List Handle × L2Leaf Handle)
    (acc : List Handle) (l1Node : L1Node Handle) : (l1Node.walkL2 l2Pat f acc).2.waiters = l1Node.waiters := rfl

theorem lookup_walkL2 {g : L2Leaf Handle → L2Leaf Handle} {f : List Handle → L2Leaf Handle → List Handle × L2Leaf Handle}
    (graph : ∀ acc leaf, (f acc leaf).2 = g leaf) (l2Pat : Pattern) (acc : List Handle) (l1Node : L1Node Handle)
    (l2 : RestrictedValue) :
    (l1Node.walkL2 l2Pat f acc).2.l2.lookup l2 =
      if l2Pat.covers l2.value then (l1Node.l2.lookup l2).map g else l1Node.l2.lookup l2 := by
  have visited := lookup_forEachMatching (R := fun leaf image => image = g leaf) graph l1Node.l2 l2Pat acc l2
  split_ifs at visited ⊢
  · exact Option.eq_map_of_rel visited
  · exact visited

end L1Node

namespace ScopeNode

@[simp] theorem value_walkL1 (l1Pat : Pattern) (f : List Handle → L1Node Handle → List Handle × L1Node Handle)
    (acc : List Handle) (scopeNode : ScopeNode Handle) : (scopeNode.walkL1 l1Pat f acc).2.value = scopeNode.value := rfl

@[simp] theorem waiters_walkL1 (l1Pat : Pattern) (f : List Handle → L1Node Handle → List Handle × L1Node Handle)
    (acc : List Handle) (scopeNode : ScopeNode Handle) :
    (scopeNode.walkL1 l1Pat f acc).2.waiters = scopeNode.waiters := rfl

theorem lookup_walkL1 {R : L1Node Handle → L1Node Handle → Prop}
    {f : List Handle → L1Node Handle → List Handle × L1Node Handle} (related : ∀ acc node, R node (f acc node).2)
    (l1Pat : Pattern) (acc : List Handle) (scopeNode : ScopeNode Handle) (l1 : RestrictedValue) :
    if l1Pat.covers l1.value then Option.Rel R (scopeNode.l1.lookup l1) ((scopeNode.walkL1 l1Pat f acc).2.l1.lookup l1)
    else (scopeNode.walkL1 l1Pat f acc).2.l1.lookup l1 = scopeNode.l1.lookup l1 :=
  lookup_forEachMatching related scopeNode.l1 l1Pat acc l1

theorem lookup_walkL1_of_graph {g : L1Node Handle → L1Node Handle}
    {f : List Handle → L1Node Handle → List Handle × L1Node Handle} (graph : ∀ acc node, (f acc node).2 = g node)
    (l1Pat : Pattern) (acc : List Handle) (scopeNode : ScopeNode Handle) (l1 : RestrictedValue) :
    (scopeNode.walkL1 l1Pat f acc).2.l1.lookup l1 =
      if l1Pat.covers l1.value then (scopeNode.l1.lookup l1).map g else scopeNode.l1.lookup l1 := by
  have visited := lookup_walkL1 (R := fun node image => image = g node) graph l1Pat acc scopeNode l1
  split_ifs at visited ⊢
  · exact Option.eq_map_of_rel visited
  · exact visited

end ScopeNode

namespace State

theorem nodeAt_incrementAll (state : State Handle) (scope : String) (limitKey : LimitKey) (limitKind : LimitKind)
    (scope' : String) (key : LimitKey) :
    (state.incrementAll scope limitKey limitKind).nodeAt scope' key =
      if scope' = scope ∧ key ∈ limitKey.prefixes then some (((state.nodeAt scope' key).getD .empty).increment limitKind)
      else state.nodeAt scope' key := by
  by_cases same : scope' = scope
  · subst same
    cases found : state.scopes.lookup scope' with
    | none =>
      -- the scope's node is made by `or_default`, and has nothing below it but the path
      by_cases onPath : key ∈ limitKey.prefixes
      · simp [incrementAll, nodeAt, found, ScopeNode.nodeAt_incrementPath, onPath]
        split_ifs <;> simp
      · have notScope : key ≠ .none := fun isNone => onPath (isNone ▸ LimitKey.none_mem_prefixes limitKey)
        simp [incrementAll, nodeAt, found, ScopeNode.nodeAt_incrementPath, onPath, notScope]
    | some scopeNode => simp [incrementAll, nodeAt, found, ScopeNode.nodeAt_incrementPath]
  · simp [incrementAll, nodeAt, same]

theorem usageAt_incrementAll (state : State Handle) (scope : String) (limitKey : LimitKey) (scope' : String)
    (key : LimitKey) :
    (state.incrementAll scope limitKey .concurrency).usageAt scope' key =
      if scope' = scope ∧ key ∈ limitKey.prefixes then state.usageAt scope' key + 1 else state.usageAt scope' key := by
  rw [usageAt, nodeAt_incrementAll]
  split_ifs
  · cases found : state.nodeAt scope' key <;> simp [usageAt, found, Usage.increment, Usage.zero]
  · rfl

theorem waitersAt_incrementAll (state : State Handle) (scope : String) (limitKey : LimitKey) (limitKind : LimitKind)
    (scope' : String) (key : LimitKey) :
    (state.incrementAll scope limitKey limitKind).waitersAt scope' key = state.waitersAt scope' key := by
  rw [waitersAt, nodeAt_incrementAll]
  split_ifs
  · cases found : state.nodeAt scope' key <;> simp [waitersAt, found]
  · rfl

theorem nodeAt_decrementAndWake (state : State Handle) (scope : String) (limitKey : LimitKey) (limitKind : LimitKind)
    (scope' : String) (key : LimitKey) :
    Pruned (if scope' = scope ∧ key ∈ limitKey.prefixes then (state.nodeAt scope' key).map (NodeView.release limitKind)
        else state.nodeAt scope' key)
      ((state.decrementAndWake scope limitKey limitKind).1.nodeAt scope' key) := by
  unfold decrementAndWake
  cases found : state.scopes.lookup scope with
  | none =>
    -- a scope without a node has nothing below it, and nothing changes
    by_cases same : scope' = scope
    · subst same
      simpa [nodeAt, found] using Pruned.refl none
    · simpa [same] using Pruned.refl (state.nodeAt scope' key)
  | some scopeNode =>
    have released : ∀ key, ((scopeNode.decrementPath limitKey limitKind).wakePath limitKey).1.nodeAt key =
        if key ∈ limitKey.prefixes then (scopeNode.nodeAt key).map (NodeView.release limitKind)
        else scopeNode.nodeAt key := by
      intro key
      rw [ScopeNode.nodeAt_wakePath, ScopeNode.nodeAt_decrementPath]
      split_ifs
      · rw [Option.map_map]
        rfl
      · rfl
    dsimp only
    generalize (scopeNode.decrementPath limitKey limitKind).wakePath limitKey = woke at released ⊢
    obtain ⟨middle, woken⟩ := woke
    have pruned := ScopeNode.nodeAt_prunePath middle limitKey key
    rw [released key] at pruned
    by_cases same : scope' = scope
    · subst same
      by_cases unused : (middle.prunePath limitKey).isUnused
      · simpa [nodeAt, found, unused] using pruned.trans (ScopeNode.pruned_of_isUnused unused key)
      · simpa [nodeAt, found, unused] using pruned
    · by_cases unused : (middle.prunePath limitKey).isUnused <;>
        simpa [nodeAt, same, unused, AList.lookup_erase_ne same, AList.lookup_insert_ne same] using
          Pruned.refl (state.nodeAt scope' key)

theorem usageAt_decrementAndWake (state : State Handle) (scope : String) (limitKey : LimitKey) (scope' : String)
    (key : LimitKey) :
    ((state.decrementAndWake scope limitKey .concurrency).1.usageAt scope' key).toNat =
      if scope' = scope ∧ key ∈ limitKey.prefixes then (state.usageAt scope' key).toNat - 1
      else (state.usageAt scope' key).toNat := by
  rw [usageAt, (nodeAt_decrementAndWake state scope limitKey .concurrency scope' key).usage]
  split_ifs
  · cases found : state.nodeAt scope' key <;> simp [usageAt, found, NodeView.release, Usage.toNat_decrement]
  · rfl

theorem waitersAt_decrementAndWake (state : State Handle) (scope : String) (limitKey : LimitKey)
    (limitKind : LimitKind) (scope' : String) (key : LimitKey) :
    (state.decrementAndWake scope limitKey limitKind).1.waitersAt scope' key =
      if scope' = scope ∧ key ∈ limitKey.prefixes then (state.waitersAt scope' key).tail
      else state.waitersAt scope' key := by
  rw [waitersAt, (nodeAt_decrementAndWake state scope limitKey limitKind scope' key).waiters]
  split_ifs
  · cases found : state.nodeAt scope' key <;> simp [waitersAt, found, NodeView.release]
  · rfl

theorem usageAt_eq_getD (state : State Handle) (scope : String) (key : LimitKey) :
    state.usageAt scope key = ((state.nodeAt scope key).getD .empty).value.concurrency := by
  unfold usageAt
  cases state.nodeAt scope key <;> rfl

theorem waitersAt_eq_getD (state : State Handle) (scope : String) (key : LimitKey) :
    state.waitersAt scope key = ((state.nodeAt scope key).getD .empty).waiters := by
  unfold waitersAt
  cases state.nodeAt scope key <;> rfl

theorem addToWaiters_isSome (state : State Handle) (handle : Handle) (scope : String) (limitKey : LimitKey)
    (blockedLevel : Level) :
    (state.addToWaiters handle scope limitKey blockedLevel).isSome = (limitKey.atLevel blockedLevel).isSome := by
  cases blockedLevel <;> cases limitKey <;> simp [addToWaiters, LimitKey.atLevel, LimitKey.level1, LimitKey.level2]

theorem nodeAt_addToWaiters {state after : State Handle} {handle : Handle} {scope : String} {limitKey : LimitKey}
    {blockedLevel : Level} {target : LimitKey} (atLevel : limitKey.atLevel blockedLevel = some target)
    (added : state.addToWaiters handle scope limitKey blockedLevel = some after) (scope' : String) (key : LimitKey) :
    after.nodeAt scope' key =
      if scope' = scope ∧ key ∈ target.prefixes then
        some (if key = target then ((state.nodeAt scope' key).getD .empty).push handle
          else (state.nodeAt scope' key).getD .empty)
      else state.nodeAt scope' key := by
  -- off the scope nothing moves; below it, the cases follow the blocked level and the read key
  by_cases otherScope : scope' ≠ scope
  · cases blockedLevel <;> cases limitKey <;>
      simp [addToWaiters, LimitKey.level1, LimitKey.level2] at added <;>
      (subst added; simp [nodeAt, otherScope])
  simp only [ne_eq, not_not] at otherScope
  subst otherScope
  cases blockedLevel with
  | scope =>
    simp only [LimitKey.atLevel, Option.some.injEq] at atLevel
    subst atLevel
    simp only [addToWaiters, Option.some.injEq] at added
    subst added
    cases found : state.scopes.lookup scope' <;> cases key <;>
      simp [nodeAt, ScopeNode.nodeAt, LimitKey.prefixes, found]
  | level1 =>
    cases limitKey with
    | none => simp [LimitKey.atLevel, LimitKey.level1] at atLevel
    | l1 target1 | l2 target1 _ =>
      simp only [LimitKey.atLevel, LimitKey.level1, Option.map_some, Option.some.injEq] at atLevel
      subst atLevel
      simp only [addToWaiters, LimitKey.level1, Option.bind_eq_bind, Option.bind_some, Option.pure_def,
        Option.some.injEq] at added
      subst added
      cases found : state.scopes.lookup scope' with
      | none =>
        cases key with
        | none => simp [nodeAt, ScopeNode.nodeAt, LimitKey.prefixes, found]
        | l1 level1 | l2 level1 _ =>
          by_cases same : level1 = target1 <;>
            simp [nodeAt, ScopeNode.nodeAt, LimitKey.prefixes, found, same]
      | some scopeNode =>
        cases key with
        | none => simp [nodeAt, ScopeNode.nodeAt, LimitKey.prefixes, found]
        | l1 level1 | l2 level1 _ =>
          by_cases same : level1 = target1
          · subst same
            cases l1Found : scopeNode.l1.lookup level1 <;>
              simp [nodeAt, ScopeNode.nodeAt, LimitKey.prefixes, found, l1Found]
          · simp [nodeAt, ScopeNode.nodeAt, LimitKey.prefixes, found, same]
  | level2 =>
    cases limitKey with
    | none | l1 _ => simp [LimitKey.atLevel, LimitKey.level1, LimitKey.level2] at atLevel
    | l2 target1 target2 =>
      simp only [LimitKey.atLevel, LimitKey.level1, LimitKey.level2, Option.bind_eq_bind, Option.bind_some,
        Option.pure_def, Option.some.injEq] at atLevel
      subst atLevel
      simp only [addToWaiters, LimitKey.level1, LimitKey.level2, Option.bind_eq_bind, Option.bind_some,
        Option.pure_def, Option.some.injEq] at added
      subst added
      cases found : state.scopes.lookup scope' with
      | none =>
        cases key with
        | none => simp [nodeAt, ScopeNode.nodeAt, LimitKey.prefixes, found]
        | l1 level1 =>
          by_cases same : level1 = target1 <;>
            simp [nodeAt, ScopeNode.nodeAt, LimitKey.prefixes, found, same]
        | l2 level1 level2 =>
          by_cases same : level1 = target1 <;> by_cases same2 : level2 = target2 <;>
            simp [nodeAt, ScopeNode.nodeAt, LimitKey.prefixes, found, same, same2]
      | some scopeNode =>
        cases key with
        | none => simp [nodeAt, ScopeNode.nodeAt, LimitKey.prefixes, found]
        | l1 level1 =>
          by_cases same : level1 = target1
          · subst same
            cases l1Found : scopeNode.l1.lookup level1 <;>
              simp [nodeAt, ScopeNode.nodeAt, LimitKey.prefixes, found, l1Found]
          · simp [nodeAt, ScopeNode.nodeAt, LimitKey.prefixes, found, same]
        | l2 level1 level2 =>
          by_cases same : level1 = target1
          · subst same
            cases l1Found : scopeNode.l1.lookup level1 with
            | none =>
              by_cases same2 : level2 = target2 <;>
                simp [nodeAt, ScopeNode.nodeAt, LimitKey.prefixes, found, l1Found, same2]
            | some l1Node =>
              by_cases same2 : level2 = target2
              · subst same2
                cases leafFound : l1Node.l2.lookup level2 <;>
                  simp [nodeAt, ScopeNode.nodeAt, LimitKey.prefixes, found, l1Found, leafFound]
              · simp [nodeAt, ScopeNode.nodeAt, LimitKey.prefixes, found, l1Found, same2]
          · simp [nodeAt, ScopeNode.nodeAt, LimitKey.prefixes, found, same]

theorem usageAt_addToWaiters {state after : State Handle} {handle : Handle} {scope : String} {limitKey : LimitKey}
    {blockedLevel : Level} {target : LimitKey} (atLevel : limitKey.atLevel blockedLevel = some target)
    (added : state.addToWaiters handle scope limitKey blockedLevel = some after) (scope' : String) (key : LimitKey) :
    after.usageAt scope' key = state.usageAt scope' key := by
  rw [usageAt_eq_getD, usageAt_eq_getD, nodeAt_addToWaiters atLevel added]
  split_ifs <;> simp

theorem waitersAt_addToWaiters {state after : State Handle} {handle : Handle} {scope : String} {limitKey : LimitKey}
    {blockedLevel : Level} {target : LimitKey} (atLevel : limitKey.atLevel blockedLevel = some target)
    (added : state.addToWaiters handle scope limitKey blockedLevel = some after) (scope' : String) (key : LimitKey) :
    after.waitersAt scope' key =
      if scope' = scope ∧ key = target then state.waitersAt scope' key ++ [handle] else state.waitersAt scope' key := by
  rw [waitersAt_eq_getD, waitersAt_eq_getD, nodeAt_addToWaiters atLevel added]
  by_cases atTarget : scope' = scope ∧ key = target
  · obtain ⟨rfl, rfl⟩ := atTarget
    simp
  · split_ifs <;> simp_all

variable [DecidableEq Handle]

theorem nodeAt_removeFromWaiters (state : State Handle) (handle : Handle) (scope : String) (limitKey : LimitKey)
    (blockedLevel : Level) (scope' : String) (key : LimitKey) :
    (state.removeFromWaiters handle scope limitKey blockedLevel).nodeAt scope' key =
      if scope' = scope ∧ limitKey.atLevel blockedLevel = some key then (state.nodeAt scope' key).map (NodeView.retain handle)
      else state.nodeAt scope' key := by
  by_cases otherScope : scope' ≠ scope
  · simp [removeFromWaiters, nodeAt, otherScope]
  simp only [ne_eq, not_not] at otherScope
  subst otherScope
  cases found : state.scopes.lookup scope' with
  | none => simp [removeFromWaiters, nodeAt, found]
  | some scopeNode =>
    -- the cases follow the blocked level, the limit key and the read key, as `remove_from_waiters` does
    cases blockedLevel with
    | scope => cases key <;> simp [removeFromWaiters, nodeAt, ScopeNode.nodeAt, found, LimitKey.atLevel]
    | level1 =>
      cases limitKey with
      | none =>
        cases key <;> simp [removeFromWaiters, nodeAt, ScopeNode.nodeAt, found, LimitKey.atLevel, LimitKey.level1]
      | l1 target1 | l2 target1 _ =>
        cases key with
        | none => simp [removeFromWaiters, nodeAt, ScopeNode.nodeAt, found, LimitKey.atLevel, LimitKey.level1]
        | l1 level1 | l2 level1 _ =>
          by_cases same : level1 = target1
          · subst same
            cases l1Found : scopeNode.l1.lookup level1 <;>
              simp [removeFromWaiters, nodeAt, ScopeNode.nodeAt, found, l1Found, LimitKey.atLevel, LimitKey.level1]
          · simp [removeFromWaiters, nodeAt, ScopeNode.nodeAt, found, LimitKey.atLevel, LimitKey.level1, same,
              Ne.symm same]
    | level2 =>
      cases limitKey with
      | none | l1 _ =>
        cases key <;>
          simp [removeFromWaiters, nodeAt, ScopeNode.nodeAt, found, LimitKey.atLevel, LimitKey.level1, LimitKey.level2]
      | l2 target1 target2 =>
        cases key with
        | none =>
          simp [removeFromWaiters, nodeAt, ScopeNode.nodeAt, found, LimitKey.atLevel, LimitKey.level1, LimitKey.level2]
        | l1 level1 =>
          by_cases same : level1 = target1
          · subst same
            cases l1Found : scopeNode.l1.lookup level1 <;>
              simp [removeFromWaiters, nodeAt, ScopeNode.nodeAt, found, l1Found, LimitKey.atLevel, LimitKey.level1,
                LimitKey.level2]
          · simp [removeFromWaiters, nodeAt, ScopeNode.nodeAt, found, LimitKey.atLevel, LimitKey.level1,
              LimitKey.level2, same]
        | l2 level1 level2 =>
          by_cases same : level1 = target1
          · subst same
            cases l1Found : scopeNode.l1.lookup level1 with
            | none =>
              simp [removeFromWaiters, nodeAt, ScopeNode.nodeAt, found, l1Found, LimitKey.atLevel, LimitKey.level1,
                LimitKey.level2]
            | some l1Node =>
              by_cases same2 : level2 = target2
              · subst same2
                cases leafFound : l1Node.l2.lookup level2 <;>
                  simp [removeFromWaiters, nodeAt, ScopeNode.nodeAt, found, l1Found, leafFound, LimitKey.atLevel,
                    LimitKey.level1, LimitKey.level2]
              · simp [removeFromWaiters, nodeAt, ScopeNode.nodeAt, found, l1Found, LimitKey.atLevel, LimitKey.level1,
                  LimitKey.level2, same2, Ne.symm same2]
          · simp [removeFromWaiters, nodeAt, ScopeNode.nodeAt, found, LimitKey.atLevel, LimitKey.level1,
              LimitKey.level2, same, Ne.symm same]

omit [DecidableEq Handle] in
theorem nodeAt_drainAffectedWaiters (state : State Handle) (pattern : RulePattern) (woken : List Handle)
    (scope : String) (key : LimitKey) :
    (state.drainAffectedWaiters pattern woken).1.nodeAt scope key =
      if pattern.level = key.level ∧ pattern.covers scope key = true then (state.nodeAt scope key).map NodeView.drain
      else state.nodeAt scope key := by
  cases pattern with
  | scope scopePat =>
    have visited := lookup_forEachMatchingScope (R := fun scopeNode drained => drained = { scopeNode with waiters := [] })
      (f := ScopeNode.drainInto) (fun _ _ => rfl) state.scopes scopePat woken scope
    simp only [drainAffectedWaiters, nodeAt]
    split_ifs at visited with covered
    · rw [Option.eq_map_of_rel visited]
      cases found : state.scopes.lookup scope <;> cases key <;>
        simp [ScopeNode.nodeAt, RulePattern.level, LimitKey.level, RulePattern.covers, covered]
    · rw [visited]
      cases key <;> simp [RulePattern.level, LimitKey.level, RulePattern.covers, covered]
  | l1 scopePat l1Pat =>
    have visited := lookup_forEachMatchingScope
      (R := fun scopeNode walked => walked.value = scopeNode.value ∧ walked.waiters = scopeNode.waiters ∧
        ∀ l1, walked.l1.lookup l1 =
          if l1Pat.covers l1.value then (scopeNode.l1.lookup l1).map fun l1Node => { l1Node with waiters := [] }
          else scopeNode.l1.lookup l1)
      (f := ScopeNode.walkL1 l1Pat L1Node.drainInto)
      (fun acc scopeNode => ⟨rfl, rfl, ScopeNode.lookup_walkL1_of_graph (f := L1Node.drainInto)
        (g := fun l1Node => { l1Node with waiters := [] }) (fun _ _ => rfl) l1Pat acc scopeNode⟩)
      state.scopes scopePat woken scope
    simp only [drainAffectedWaiters, nodeAt]
    split_ifs at visited with covered
    · rcases Option.cases_of_rel visited with ⟨before, after⟩ | ⟨scopeNode, walked, before, after, related⟩
      · rw [before, after]
        simp
      · rw [before, after]
        obtain ⟨sameValue, sameWaiters, lookups⟩ := related
        cases key with
        | none => simp [ScopeNode.nodeAt, RulePattern.level, LimitKey.level, sameValue, sameWaiters]
        | l1 level1 =>
          by_cases l1Covered : l1Pat.covers level1.value = true <;>
            cases found : scopeNode.l1.lookup level1 <;>
              simp [ScopeNode.nodeAt, RulePattern.level, LimitKey.level, RulePattern.covers, LimitKey.level1, covered,
                lookups, found, l1Covered]
        | l2 level1 level2 =>
          by_cases l1Covered : l1Pat.covers level1.value = true <;>
            cases found : scopeNode.l1.lookup level1 <;>
              simp [ScopeNode.nodeAt, RulePattern.level, LimitKey.level, lookups, found, l1Covered]
    · rw [visited]
      cases key <;> simp [RulePattern.level, LimitKey.level, RulePattern.covers, covered]
  | l2 scopePat l1Pat l2Pat =>
    have visited := lookup_forEachMatchingScope
      (R := fun scopeNode walked => walked.value = scopeNode.value ∧ walked.waiters = scopeNode.waiters ∧
        ∀ l1, if l1Pat.covers l1.value then
          Option.Rel (fun l1Node walkedL1 => walkedL1.value = l1Node.value ∧ walkedL1.waiters = l1Node.waiters ∧
              ∀ l2, walkedL1.l2.lookup l2 =
                if l2Pat.covers l2.value then (l1Node.l2.lookup l2).map fun leaf => { leaf with waiters := [] }
                else l1Node.l2.lookup l2)
            (scopeNode.l1.lookup l1) (walked.l1.lookup l1)
        else walked.l1.lookup l1 = scopeNode.l1.lookup l1)
      (f := ScopeNode.walkL1 l1Pat (L1Node.walkL2 l2Pat L2Leaf.drainInto))
      (fun acc scopeNode => ⟨rfl, rfl, ScopeNode.lookup_walkL1
        (fun acc l1Node => ⟨rfl, rfl, L1Node.lookup_walkL2 (f := L2Leaf.drainInto)
          (g := fun leaf => { leaf with waiters := [] }) (fun _ _ => rfl) l2Pat acc l1Node⟩) l1Pat acc scopeNode⟩)
      state.scopes scopePat woken scope
    simp only [drainAffectedWaiters, nodeAt]
    split_ifs at visited with covered
    · rcases Option.cases_of_rel visited with ⟨before, after⟩ | ⟨scopeNode, walked, before, after, related⟩
      · rw [before, after]
        simp
      · rw [before, after]
        obtain ⟨sameValue, sameWaiters, lookups⟩ := related
        cases key with
        | none => simp [ScopeNode.nodeAt, RulePattern.level, LimitKey.level, sameValue, sameWaiters]
        | l1 level1 =>
          have l1Lookup := lookups level1
          split_ifs at l1Lookup with l1Covered
          · rcases Option.cases_of_rel l1Lookup with ⟨l1Before, l1After⟩ |
              ⟨l1Node, walkedL1, l1Before, l1After, sameL1Value, sameL1Waiters, -⟩
            · simp [ScopeNode.nodeAt, l1Before, l1After]
            · simp [ScopeNode.nodeAt, RulePattern.level, LimitKey.level, l1Before, l1After, sameL1Value, sameL1Waiters]
          · simp [ScopeNode.nodeAt, RulePattern.level, LimitKey.level, l1Lookup]
        | l2 level1 level2 =>
          have l1Lookup := lookups level1
          split_ifs at l1Lookup with l1Covered
          · rcases Option.cases_of_rel l1Lookup with ⟨l1Before, l1After⟩ |
              ⟨l1Node, walkedL1, l1Before, l1After, -, -, l2Lookups⟩
            · simp [ScopeNode.nodeAt, l1Before, l1After]
            · by_cases l2Covered : l2Pat.covers level2.value = true <;>
                cases leafFound : l1Node.l2.lookup level2 <;>
                  simp [ScopeNode.nodeAt, RulePattern.level, LimitKey.level, RulePattern.covers, LimitKey.level1,
                    LimitKey.level2, covered, l1Covered, l2Covered, l1Before, l1After, l2Lookups, leafFound]
          · simp [ScopeNode.nodeAt, RulePattern.level, LimitKey.level, RulePattern.covers, LimitKey.level1, l1Covered,
              l1Lookup]
    · rw [visited]
      cases key <;> simp [RulePattern.level, LimitKey.level, RulePattern.covers, covered]

theorem usageAt_removeFromWaiters (state : State Handle) (handle : Handle) (scope : String) (limitKey : LimitKey)
    (blockedLevel : Level) (scope' : String) (key : LimitKey) :
    (state.removeFromWaiters handle scope limitKey blockedLevel).usageAt scope' key = state.usageAt scope' key := by
  rw [usageAt, usageAt, nodeAt_removeFromWaiters]
  split_ifs
  · cases state.nodeAt scope' key <;> rfl
  · rfl

theorem waitersAt_removeFromWaiters (state : State Handle) (handle : Handle) (scope : String) (limitKey : LimitKey)
    (blockedLevel : Level) (scope' : String) (key : LimitKey) :
    (state.removeFromWaiters handle scope limitKey blockedLevel).waitersAt scope' key =
      if scope' = scope ∧ limitKey.atLevel blockedLevel = some key then (state.waitersAt scope' key).filter (· != handle)
      else state.waitersAt scope' key := by
  rw [waitersAt, waitersAt, nodeAt_removeFromWaiters]
  split_ifs
  · cases state.nodeAt scope' key <;> rfl
  · rfl

omit [DecidableEq Handle] in
theorem usageAt_drainAffectedWaiters (state : State Handle) (pattern : RulePattern) (woken : List Handle)
    (scope : String) (key : LimitKey) :
    (state.drainAffectedWaiters pattern woken).1.usageAt scope key = state.usageAt scope key := by
  rw [usageAt, usageAt, nodeAt_drainAffectedWaiters]
  split_ifs
  · cases state.nodeAt scope key <;> rfl
  · rfl

omit [DecidableEq Handle] in
theorem waitersAt_drainAffectedWaiters (state : State Handle) (pattern : RulePattern) (woken : List Handle)
    (scope : String) (key : LimitKey) :
    (state.drainAffectedWaiters pattern woken).1.waitersAt scope key =
      if pattern.level = key.level ∧ pattern.covers scope key = true then [] else state.waitersAt scope key := by
  rw [waitersAt, waitersAt, nodeAt_drainAffectedWaiters]
  split_ifs
  · cases state.nodeAt scope key <;> rfl
  · rfl

omit [DecidableEq Handle] in
theorem checkCapacity_levels (state : State Handle) (scope : String) (limitKey : LimitKey) (limitKind : LimitKind)
    (limits : StructuredLimits UserLimits) :
    (state.checkCapacity scope limitKey limitKind limits).levels =
      limitKey.prefixes.map fun key =>
        makeLevelStatus key.level ((state.nodeAt scope key).map NodeView.value) (limits.limitAt key.level) limitKind := by
  cases found : state.scopes.lookup scope with
  | none =>
    cases limitKey <;>
      simp [checkCapacity, checkScope, checkL1, checkL1L2, nodeAt, found, LimitKey.prefixes, LimitKey.level]
  | some scopeNode =>
    cases limitKey with
    | none => simp [checkCapacity, checkScope, nodeAt, ScopeNode.nodeAt, found, LimitKey.prefixes, LimitKey.level]
    | l1 level1 =>
      simp [checkCapacity, checkL1, nodeAt, ScopeNode.nodeAt, found, LimitKey.prefixes, LimitKey.level,
        Option.map_map, Function.comp_def]
    | l2 level1 level2 =>
      simp [checkCapacity, checkL1L2, nodeAt, ScopeNode.nodeAt, found, LimitKey.prefixes, LimitKey.level,
        Option.map_map, Function.comp_def]

end State

section LevelStatus

variable (level : Level) (current : Option Usage)

@[simp] theorem level_makeLevelStatus (limit : Limit UserLimits) :
    (makeLevelStatus level current limit .concurrency).level = level := by
  cases limit <;> rfl

@[simp] theorem ruleHandle_makeLevelStatus_defined (handle : Nat) (limits : UserLimits) :
    (makeLevelStatus level current (.defined handle limits) .concurrency).ruleHandle = some handle := rfl

@[simp] theorem hasCapacity_makeLevelStatus_undefined :
    (makeLevelStatus level current .undefined .concurrency).hasCapacity = true := rfl

theorem hasCapacity_makeLevelStatus_defined (handle : Nat) (limits : UserLimits) :
    (makeLevelStatus level current (.defined handle limits) .concurrency).hasCapacity = true ↔
      ∀ bound ∈ limits.concurrency, (current.elim 0 Usage.concurrency).toNat < bound.val.toNat := by
  cases bound : limits.concurrency <;>
    simp [makeLevelStatus, LevelStatus.hasCapacity, bound, UInt32.lt_iff_toNat_lt]

end LevelStatus

theorem CapacityResult.narrowestBlocked_eq {result : CapacityResult} {keys : List LimitKey}
    {status : LimitKey → LevelStatus} (levels : result.levels = keys.map status) :
    result.narrowestBlocked =
      (keys.reverse.find? fun key => !(status key).hasCapacity).map fun key => ((status key).level, (status key).ruleHandle) := by
  rw [narrowestBlocked, levels, ← List.map_reverse, List.find?_map, Option.map_map]
  rfl

theorem State.elim_nodeAt_value (state : State Handle) (scope : String) (key : LimitKey) :
    ((state.nodeAt scope key).map NodeView.value).elim 0 Usage.concurrency = state.usageAt scope key := by
  unfold State.usageAt
  cases state.nodeAt scope key <;> rfl

end UserLimiter

end Restate
