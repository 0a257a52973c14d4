import Restate.Lib.KeyMap
import Restate.Replication.Types

/-! `NodeSetChecker` from `restate_types::replication::checker`: for every replicated scope, the
failure domains with per-attr node counters, kept up to date as nodes are tagged, and the
write-quorum and f-majority checks that read those counters. A `HashPtr` to a domain is modelled by
the domain's name, the key under which the domain is stored; hash sets of domains are lists
without duplicates, grown with `List.insert`. -/

namespace Restate

inductive FMajorityResult where
  | none
  | bestEffort
  | successWithRisk
  | success
  deriving DecidableEq, Repr

def FMajorityResult.passed : FMajorityResult → Bool
  | success => true
  | successWithRisk => true
  | _ => false

/-- `trait Merge`: `merge(&mut self, other) -> bool` as the merged value and whether it changed. -/
class Merge (α : Type) where
  merge : α → α → α × Bool

instance : Merge Bool where
  merge current other := if current ≠ other then (current || other, true) else (current, false)

@[ext] structure Count where
  numReadableNodes : Nat
  numAuthoritativeNodes : Nat
  deriving DecidableEq, Repr, Inhabited

namespace Count

def isEmpty (count : Count) : Bool := count.numReadableNodes == 0

def numNonAuthNodes (count : Count) : Nat := count.numReadableNodes - count.numAuthoritativeNodes

def increment (count : Count) (storageState : StorageState) : Count where
  numReadableNodes :=
    if storageState.canReadFrom then count.numReadableNodes + 1 else count.numReadableNodes
  numAuthoritativeNodes :=
    if storageState.isAuthoritative then count.numAuthoritativeNodes + 1
    else count.numAuthoritativeNodes

def decrement (count : Count) (storageState : StorageState) : Count :=
  if count.numReadableNodes = 0 then count
  else {
    numReadableNodes :=
      if storageState.canReadFrom then count.numReadableNodes - 1 else count.numReadableNodes
    numAuthoritativeNodes :=
      if storageState.isAuthoritative then count.numAuthoritativeNodes - 1
      else count.numAuthoritativeNodes }

end Count

structure FailureDomainState (Attr : Type) where
  numNodes : Nat
  perAttributeCounter : KeyMap Attr Count

namespace FailureDomainState

instance {Attr : Type} : Inhabited (FailureDomainState Attr) := ⟨⟨0, ∅⟩⟩

def increment {Attr : Type} (domain : FailureDomainState Attr) : FailureDomainState Attr :=
  { domain with numNodes := domain.numNodes + 1 }

def nonEmptyNodes {Attr : Type} (domain : FailureDomainState Attr) : Nat := domain.numNodes

def isEmpty {Attr : Type} (domain : FailureDomainState Attr) : Bool := domain.numNodes == 0

end FailureDomainState

structure LocationScopeState (Attr : Type) where
  failureDomains : KeyMap String (FailureDomainState Attr)
  nodeToFd : KeyMap PlainNodeId String
  replicationFactor : Nat
  replicationFds : KeyMap Attr (List String)

namespace LocationScopeState

variable {Attr : Type} [DecidableEq Attr]

def new (replication : Nat) : LocationScopeState Attr := ⟨∅, ∅, replication, ∅⟩

/-- The body of `add_node`'s loop at one scope, once the node's domain name is known. -/
def addNode (state : LocationScopeState Attr) (node : PlainNodeId) (domain : String) :
    LocationScopeState Attr :=
  let fd := (state.failureDomains.lookup domain).getD default
  { state with
    failureDomains := state.failureDomains.insert domain fd.increment
    nodeToFd := state.nodeToFd.insert node domain }

/-- The body of `rm_attr_internal`'s loop at one scope. -/
def rmAttr (state : LocationScopeState Attr) (node : PlainNodeId) (attr : Attr)
    (storageState : StorageState) : LocationScopeState Attr :=
  match state.nodeToFd.lookup node with
  | none => state
  | some domain =>
    -- `node_to_fd` points only at live domains, so this lookup is the pointer dereference
    match state.failureDomains.lookup domain with
    | none => state
    | some fd =>
      match fd.perAttributeCounter.lookup attr with
      | none => state
      | some counters =>
        let counters := counters.decrement storageState
        if counters.isEmpty then
          { state with
            failureDomains := state.failureDomains.insert domain
              { fd with perAttributeCounter := fd.perAttributeCounter.erase attr }
            replicationFds := state.replicationFds.eraseMember attr domain }
        else
          { state with
            failureDomains := state.failureDomains.insert domain
              { fd with perAttributeCounter := fd.perAttributeCounter.insert attr counters } }

/-- The body of `add_attr_internal`'s loop at one scope. -/
def addAttr (state : LocationScopeState Attr) (node : PlainNodeId) (attr : Attr)
    (storageState : StorageState) : LocationScopeState Attr :=
  match state.nodeToFd.lookup node with
  | none => state
  | some domain =>
    match state.failureDomains.lookup domain with
    | none => state
    | some fd =>
      let counters := ((fd.perAttributeCounter.lookup attr).getD default).increment storageState
      let failureDomains := state.failureDomains.insert domain
        { fd with perAttributeCounter := fd.perAttributeCounter.insert attr counters }
      -- the first node with this attribute puts the domain in the replication set
      if counters.numReadableNodes = 1 then
        { state with
          failureDomains
          replicationFds := state.replicationFds.insertMember attr domain }
      else { state with failureDomains }

/-- The inner loop of `check_write_quorum` over one replication set: `none` when the set of matches
reached the replication factor, which returns `true` early. -/
def insertMatches (replicationFactor : Nat) : List String → List String → Option (List String)
  | [], matched => some matched
  | domain :: rest, matched =>
    let matched := matched.insert domain
    if replicationFactor ≤ matched.length then none
    else insertMatches replicationFactor rest matched

def checkWriteQuorumFrom (predicate : Attr → Bool) (replicationFactor : Nat) :
    List (Σ _ : Attr, List String) → List String → Bool
  | [], _ => false
  | ⟨attr, domains⟩ :: rest, matched =>
    if predicate attr then
      match insertMatches replicationFactor domains matched with
      | none => true
      | some matched => checkWriteQuorumFrom predicate replicationFactor rest matched
    else checkWriteQuorumFrom predicate replicationFactor rest matched

def checkWriteQuorum (state : LocationScopeState Attr) (predicate : Attr → Bool) : Bool :=
  checkWriteQuorumFrom predicate state.replicationFactor state.replicationFds.entries []

/-- The loop over a domain's counters in `count_matching_domains`. -/
def matchingNodes (predicate : Attr → Bool) :
    List (Σ _ : Attr, Count) → Nat → Nat → Nat × Nat
  | [], numAuthNodes, numNonAuthNodes => (numAuthNodes, numNonAuthNodes)
  | ⟨attr, counters⟩ :: rest, numAuthNodes, numNonAuthNodes =>
    if predicate attr then
      matchingNodes predicate rest (numAuthNodes + counters.numAuthoritativeNodes)
        (numNonAuthNodes + counters.numNonAuthNodes)
    else matchingNodes predicate rest numAuthNodes numNonAuthNodes

def countMatchingDomainsFrom (predicate : Attr → Bool) :
    List (Σ _ : String, FailureDomainState Attr) → Nat → Nat → Nat × Nat
  | [], numCompletedAuthDomains, numCompletedNonAuthDomains =>
    (numCompletedAuthDomains, numCompletedNonAuthDomains)
  | ⟨_, domain⟩ :: rest, numCompletedAuthDomains, numCompletedNonAuthDomains =>
    if domain.isEmpty then
      countMatchingDomainsFrom predicate rest numCompletedAuthDomains
        (numCompletedNonAuthDomains + 1)
    else
      let (numAuthNodes, numNonAuthNodes) :=
        matchingNodes predicate domain.perAttributeCounter.entries 0 0
      if 0 < numAuthNodes ∧ domain.nonEmptyNodes ≤ numAuthNodes then
        countMatchingDomainsFrom predicate rest (numCompletedAuthDomains + 1)
          numCompletedNonAuthDomains
      else if 0 < numNonAuthNodes ∧ domain.nonEmptyNodes ≤ numNonAuthNodes then
        countMatchingDomainsFrom predicate rest numCompletedAuthDomains
          (numCompletedNonAuthDomains + 1)
      else
        countMatchingDomainsFrom predicate rest numCompletedAuthDomains
          numCompletedNonAuthDomains

/-- `(authoritative, non_authoritative)` complete domains at this scope. -/
def countMatchingDomains (state : LocationScopeState Attr) (predicate : Attr → Bool) :
    Nat × Nat :=
  countMatchingDomainsFrom predicate state.failureDomains.entries 0 0

end LocationScopeState

def LocationScope.smallerScopes : LocationScope → List LocationScope
  | root => [region, zone, node]
  | region => [zone, node]
  | zone => [node]
  | node => []

/-- The name of a node's failure domain at a scope, `none` when its location leaves the scope
undefined. -/
def domainName (scope : LocationScope) (node : PlainNodeId) (location : NodeLocation) :
    Option String :=
  if scope = .node then some node.toString
  else if location.isScopeDefined scope then some (location.domainString scope none)
  else none

structure NodeSetChecker (Attr : Type) where
  scopes : LocationScope → Option (LocationScopeState Attr)
  nodeToAttr : KeyMap PlainNodeId Attr
  nodeToStorageState : KeyMap PlainNodeId StorageState

namespace NodeSetChecker

variable {Attr : Type} [DecidableEq Attr]

def buildScopes (replication : ReplicationProperty) :
    LocationScope → Option (LocationScopeState Attr) :=
  LocationScope.root.smallerScopes.foldl (fun scopes current =>
    match replication.copiesAtScope current with
    | some factor => Function.update scopes current (some (LocationScopeState.new factor))
    | none => scopes) fun _ => none

def mapScopes (checker : NodeSetChecker Attr)
    (update : LocationScope → LocationScopeState Attr → LocationScopeState Attr) :
    NodeSetChecker Attr :=
  { checker with scopes := fun scope => (checker.scopes scope).map (update scope) }

def addNode (checker : NodeSetChecker Attr) (node : PlainNodeId) (storageState : StorageState)
    (location : NodeLocation) : NodeSetChecker Attr :=
  if storageState.empty then checker
  else
    { checker.mapScopes (fun scope state =>
        match domainName scope node location with
        | some domain => state.addNode node domain
        | none => state) with
      nodeToStorageState := checker.nodeToStorageState.insert node storageState }

def addConfiguredNode (nodesConfig : NodesConfiguration) (checker : NodeSetChecker Attr)
    (node : PlainNodeId) : NodeSetChecker Attr :=
  match nodesConfig.findNodeById node with
  | .ok config => checker.addNode node config.storageState config.location
  -- deleted nodes are implicitly disabled
  | .error (.deleted _) => checker
  -- unknown nodes count as provisioning: the nodeset may be newer than the configuration
  | .error (.unknownNodeId _) => checker.addNode node .provisioning NodeLocation.new

def new (nodeset : NodeSet) (nodesConfig : NodesConfiguration)
    (replication : ReplicationProperty) : Option (NodeSetChecker Attr) :=
  let scopes := buildScopes replication
  -- `assert!(!scopes.is_empty())`
  if LocationScope.ascending.all fun scope => (scopes scope).isNone then none
  else some (nodeset.nodes.foldl (addConfiguredNode nodesConfig)
    { scopes, nodeToAttr := ∅, nodeToStorageState := ∅ })

def storageStateOf (checker : NodeSetChecker Attr) (node : PlainNodeId) : StorageState :=
  (checker.nodeToStorageState.lookup node).getD .disabled

def rmAttrInternal (checker : NodeSetChecker Attr) (node : PlainNodeId) (attr : Attr)
    (storageState : StorageState) : NodeSetChecker Attr :=
  checker.mapScopes fun _ state => state.rmAttr node attr storageState

def addAttrInternal (checker : NodeSetChecker Attr) (node : PlainNodeId) (attr : Attr)
    (storageState : StorageState) : NodeSetChecker Attr :=
  checker.mapScopes fun _ state => state.addAttr node attr storageState

def setAttribute (checker : NodeSetChecker Attr) (node : PlainNodeId) (attr : Attr) :
    NodeSetChecker Attr :=
  let storageState := checker.storageStateOf node
  if storageState.empty then checker
  else
    let oldAttribute := checker.nodeToAttr.lookup node
    let checker := { checker with nodeToAttr := checker.nodeToAttr.insert node attr }
    match oldAttribute with
    | some oldAttribute =>
      if oldAttribute = attr then checker
      else (checker.rmAttrInternal node oldAttribute storageState).addAttrInternal node attr
        storageState
    | none => checker.addAttrInternal node attr storageState

def setAttributeOnEach (checker : NodeSetChecker Attr) (nodes : List PlainNodeId)
    (attr : Attr) : NodeSetChecker Attr :=
  nodes.foldl (fun checker node => checker.setAttribute node attr) checker

def fillWith (checker : NodeSetChecker Attr) (attr : Attr) : NodeSetChecker Attr :=
  checker.setAttributeOnEach checker.nodeToStorageState.keys attr

def fillWithDefault [Inhabited Attr] (checker : NodeSetChecker Attr) : NodeSetChecker Attr :=
  checker.fillWith default

def mergeAttribute [Merge Attr] [Inhabited Attr] (checker : NodeSetChecker Attr)
    (node : PlainNodeId) (attr : Attr) : NodeSetChecker Attr :=
  let storageState := checker.storageStateOf node
  if storageState.empty then checker
  else
    match checker.nodeToAttr.lookup node with
    | some existing =>
      let (merged, changed) := Merge.merge existing attr
      -- only set when the merge changed the value
      if changed then checker.setAttribute node merged else checker
    | none => checker.setAttribute node (Merge.merge default attr).1

def countAuthoritativeNodes (checker : NodeSetChecker Attr) : Nat :=
  checker.nodeToStorageState.entries.countP fun entry => entry.2.isAuthoritative

/-- `is_complete_set`; the source expects the node scope to be present, which `new` ensures. -/
def isCompleteSet (checker : NodeSetChecker Attr) (predicate : Attr → Bool) : Bool :=
  match checker.scopes .node with
  | some nodeScope => (nodeScope.countMatchingDomains predicate).1 == checker.countAuthoritativeNodes
  | none => false

def checkWriteQuorum (checker : NodeSetChecker Attr) (predicate : Attr → Bool) : Bool :=
  LocationScope.ascending.all fun scope =>
    match checker.scopes scope with
    | some state => state.checkWriteQuorum predicate
    | none => true

/-- The loop of `check_fmajority` over the scopes in key order: at the first scope with an
f-majority, whether it also has enough authoritative domains. -/
def fmajorityFrom (predicate : Attr → Bool) : List (LocationScopeState Attr) → Option Bool
  | [] => none
  | state :: rest =>
    let candidateDomains := state.failureDomains.entries.length
    -- `saturating_sub` is truncated subtraction
    let fMajorityNeeded := candidateDomains - state.replicationFactor + 1
    let (authDomains, nonAuthDomains) := state.countMatchingDomains predicate
    if fMajorityNeeded ≤ authDomains + nonAuthDomains then some (fMajorityNeeded ≤ authDomains)
    else fmajorityFrom predicate rest

def checkFmajority (checker : NodeSetChecker Attr) (predicate : Attr → Bool) :
    FMajorityResult :=
  match fmajorityFrom predicate (LocationScope.ascending.filterMap checker.scopes) with
  | some true => .success
  | some false => .successWithRisk
  | none => if checker.isCompleteSet predicate then .bestEffort else .none

end NodeSetChecker

/-- The calls that change a checker after `new`. -/
inductive CheckerOp (Attr : Type) where
  | setAttribute (node : PlainNodeId) (attr : Attr)
  | setAttributeOnEach (nodes : List PlainNodeId) (attr : Attr)
  | mergeAttribute (node : PlainNodeId) (attr : Attr)
  | fillWith (attr : Attr)
  | fillWithDefault

def CheckerOp.apply {Attr : Type} [DecidableEq Attr] [Merge Attr] [Inhabited Attr] :
    CheckerOp Attr → NodeSetChecker Attr → NodeSetChecker Attr
  | setAttribute node attr, checker => checker.setAttribute node attr
  | setAttributeOnEach nodes attr, checker => checker.setAttributeOnEach nodes attr
  | mergeAttribute node attr, checker => checker.mergeAttribute node attr
  | fillWith attr, checker => checker.fillWith attr
  | fillWithDefault, checker => checker.fillWithDefault

end Restate
