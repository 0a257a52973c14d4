import Mathlib

/-! Location scopes, storage states, node locations, replication properties and the nodes
configuration lookup, as `restate_types` defines them for the replication checker. -/

namespace Restate

/-- `LocationScope`, with the order of its `u8` discriminants: `Node < Zone < Region < Root`. -/
inductive LocationScope where
  | node
  | zone
  | region
  | root
  deriving DecidableEq, Repr

namespace LocationScope

def toU8 : LocationScope → Nat
  | node => 0
  | zone => 1
  | region => 2
  | root => 3

def nextSmallerScope : LocationScope → Option LocationScope
  | node => none
  | zone => some node
  | region => some zone
  | root => some region

def isSpecial : LocationScope → Bool
  | root => true
  | node => true
  | _ => false

def numScopes : Nat := 2

def scopeToIndex (scope : LocationScope) : Nat := numScopes - scope.toU8

def effectiveScopes : LocationScope → Nat
  | root => 0
  | node => numScopes
  | scope => scopeToIndex scope + 1

/-- The iteration order of a `BTreeMap` keyed by `LocationScope`. -/
def ascending : List LocationScope := [node, zone, region, root]

theorem mem_ascending (scope : LocationScope) : scope ∈ ascending := by
  cases scope <;> simp [ascending]

end LocationScope

structure PlainNodeId where
  id : Nat
  deriving DecidableEq, Repr

/-- `Display for PlainNodeId` writes `N{id}`. -/
def PlainNodeId.toString (node : PlainNodeId) : String := "N" ++ Nat.repr node.id

inductive StorageState where
  | provisioning
  | disabled
  | readOnly
  | gone
  | readWrite
  | dataLoss
  deriving DecidableEq, Repr

namespace StorageState

def canReadFrom : StorageState → Bool
  | disabled => false
  | _ => true

def isAuthoritative : StorageState → Bool
  | dataLoss => false
  | _ => true

def empty : StorageState → Bool
  | disabled => true
  | _ => false

theorem canReadFrom_of_not_empty {state : StorageState} (nonEmpty : state.empty = false) :
    state.canReadFrom = true := by
  cases state <;> simp_all [empty, canReadFrom]

end StorageState

/-- `NodeLocation`: the labels of the region and zone scopes and how many of them are set. -/
structure NodeLocation where
  labels : List String
  numDefinedScopes : Nat
  deriving DecidableEq, Repr

namespace NodeLocation

def new : NodeLocation := ⟨["", ""], 0⟩

def isEmpty (location : NodeLocation) : Bool := location.numDefinedScopes == 0

def isScopeDefined (location : NodeLocation) (scope : LocationScope) : Bool :=
  !scope.isSpecial && decide (scope.scopeToIndex < location.numDefinedScopes)

def domainString (location : NodeLocation) (scope : LocationScope)
    (nodeId : Option PlainNodeId) : String :=
  if location.isEmpty && nodeId.isNone then ""
  else
    let result := ".".intercalate
      ((location.labels.take location.numDefinedScopes).take scope.effectiveScopes)
    match scope, nodeId with
    | .node, some node => result ++ ":" ++ node.toString
    | _, _ => result

end NodeLocation

/-- `ReplicationProperty(BTreeMap<LocationScope, u8>)`, as the map's lookup. -/
structure ReplicationProperty where
  factors : LocationScope → Option Nat

namespace ReplicationProperty

/-- `num_copies`: the factor of the first key of the map. The source panics on an empty map;
here that is `none`, and `NodeSetChecker::new` then fails its own assertion as the source does. -/
def numCopies (replication : ReplicationProperty) : Option Nat :=
  LocationScope.ascending.findSome? replication.factors

def copiesAtScope (replication : ReplicationProperty) (scope : LocationScope) : Option Nat :=
  if scope = .node then replication.numCopies else replication.factors scope

end ReplicationProperty

/-- The two fields of a `NodeConfig` that the replication checker reads. -/
structure NodeConfig where
  location : NodeLocation
  storageState : StorageState

inductive MaybeNode where
  | tombstone
  | node (config : NodeConfig)

structure NodesConfiguration where
  nodes : PlainNodeId → Option MaybeNode

/-- `NodesConfigError` as a lookup by a plain node id can raise it; `GenerationMismatch` needs a
generational id and cannot arise here. -/
inductive NodesConfigError where
  | unknownNodeId (node : PlainNodeId)
  | deleted (node : PlainNodeId)

def NodesConfiguration.findNodeById (config : NodesConfiguration) (node : PlainNodeId) :
    Except NodesConfigError NodeConfig :=
  match config.nodes node with
  | none => .error (.unknownNodeId node)
  | some .tombstone => .error (.deleted node)
  | some (.node found) => .ok found

/-- `NodeSet(IndexSet<PlainNodeId>)`: an ordered set of node ids. -/
structure NodeSet where
  nodes : List PlainNodeId
  nodup : nodes.Nodup

/-- `NodeSet::insert`: adds a node, and tells whether it was not there. -/
def NodeSet.insert (set : NodeSet) (node : PlainNodeId) : NodeSet × Bool :=
  if member : node ∈ set.nodes then (set, false)
  else (⟨set.nodes ++ [node], List.nodup_append.mpr ⟨set.nodup, List.nodup_singleton node,
    fun other otherMember same sameMember equal => member (by
      rw [← List.mem_singleton.mp sameMember, ← equal]
      exact otherMember)⟩⟩, true)

def NodeSet.empty : NodeSet := ⟨[], List.nodup_nil⟩

@[simp] theorem NodeSet.mem_insert {set : NodeSet} {node other : PlainNodeId} :
    other ∈ (set.insert node).1.nodes ↔ other ∈ set.nodes ∨ other = node := by
  unfold NodeSet.insert
  split
  · next member =>
    constructor
    · exact Or.inl
    · rintro (present | rfl)
      · exact present
      · exact member
  · simp

theorem NodeSet.insert_of_mem {set : NodeSet} {node : PlainNodeId} (member : node ∈ set.nodes) :
    set.insert node = (set, false) := by
  simp [NodeSet.insert, member]

theorem NodeSet.insert_snd {set : NodeSet} {node : PlainNodeId} :
    (set.insert node).2 = true ↔ node ∉ set.nodes := by
  unfold NodeSet.insert
  split <;> simpa

end Restate
