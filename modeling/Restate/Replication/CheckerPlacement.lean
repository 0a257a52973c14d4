import Restate.Replication.FMajoritySpec

/-! What the checks of `NodeSetChecker` decide, read off the nodeset and the nodes configuration
instead of the checker's tables. A node of the nodeset holds data when the configuration gives it
a storage state other than disabled: a node the configuration does not know is provisioning, with
no location, and a deleted node holds none. Its failure domain at a scope is the node itself at the
node scope; at the zone and region scopes it is the domain string of its location there, when the
location defines the scope. `new` and every call after it leave the checker tracking exactly these
nodes, with these storage states, in these domains (`Tracks`), and keep one scope for each scope
below the root that the replication property gives a factor. -/

namespace Restate

/-- A node of the nodeset that may hold data, with its storage state and location. -/
structure PlacedNode where
  id : PlainNodeId
  storageState : StorageState
  location : NodeLocation
  deriving DecidableEq, Repr

/-- The failure domain of a node at a scope: every node is a domain of its own at the node scope;
at the zone and region scopes the domain is named by the location, when the location defines the
scope; the root has none. -/
def NodeLocation.failureDomain (location : NodeLocation) (node : PlainNodeId) :
    LocationScope → Option String
  | .node => some node.toString
  | .root => none
  | scope => if location.isScopeDefined scope then some (location.domainString scope none) else none

def PlacedNode.domain (node : PlacedNode) (scope : LocationScope) : Option String :=
  node.location.failureDomain node.id scope

/-- How a node of the nodeset is placed: with the storage state and location of its
configuration; a node the configuration does not know is provisioning, without a location; a
deleted node, or one whose storage is disabled, holds no data. -/
def NodesConfiguration.placedNode (nodesConfig : NodesConfiguration) (node : PlainNodeId) :
    Option PlacedNode :=
  let configured : Option PlacedNode := match nodesConfig.nodes node with
    | none => some ⟨node, .provisioning, NodeLocation.new⟩
    | some .tombstone => none
    | some (.node config) => some ⟨node, config.storageState, config.location⟩
  configured.filter fun placed => !placed.storageState.empty

def NodeSet.placed (nodeset : NodeSet) (nodesConfig : NodesConfiguration) : List PlacedNode :=
  nodeset.nodes.filterMap nodesConfig.placedNode

/-- The factor of a scope below the root: the copies the property asks for there. -/
def ReplicationProperty.scopeFactor (replication : ReplicationProperty) (scope : LocationScope) :
    Option Nat :=
  if scope = .root then none else replication.copiesAtScope scope

/-- The scopes with a factor, narrowest first. -/
def ReplicationProperty.replicatedScopes (replication : ReplicationProperty) :
    List (LocationScope × Nat) :=
  LocationScope.ascending.filterMap fun scope => (replication.scopeFactor scope).map (scope, ·)

namespace Placement

variable {Attr : Type} (placed : List PlacedNode) (attrOf : PlainNodeId → Option Attr)
  (predicate : Attr → Bool)

/-- The failure domains at a scope: those of the placed nodes whose location defines it. -/
def domains (scope : LocationScope) : Finset String :=
  (placed.filterMap (·.domain scope)).toFinset

/-- The failure domains at a scope of the placed nodes whose attribute matches. -/
def matchingDomains (scope : LocationScope) : Finset String :=
  (placed.filterMap fun node =>
    if (attrOf node.id).any predicate then node.domain scope else none).toFinset

/-- Every node of the domain matches and is authoritative. -/
def isAuthComplete (scope : LocationScope) (domain : String) : Bool :=
  placed.all fun node => !(node.domain scope == some domain) ||
    ((attrOf node.id).any predicate && node.storageState.isAuthoritative)

/-- Every node of the domain matches and none is authoritative. -/
def isNonAuthComplete (scope : LocationScope) (domain : String) : Bool :=
  placed.all fun node => !(node.domain scope == some domain) ||
    ((attrOf node.id).any predicate && !node.storageState.isAuthoritative)

/-- The authoritative and the non-authoritative complete domains of a scope. -/
def completeCounts (scope : LocationScope) : Nat × Nat :=
  (((domains placed scope).filter (isAuthComplete placed attrOf predicate scope ·)).card,
    ((domains placed scope).filter (isNonAuthComplete placed attrOf predicate scope ·)).card)

/-- `D - r + 1` of the `D` domains of a scope with factor `r`, saturating. -/
def fMajorityNeeded (scope : LocationScope) (factor : Nat) : Nat :=
  (domains placed scope).card - factor + 1

/-- The complete domains of a scope reach an f-majority. -/
def ReachesFMajority (scope : LocationScope) (factor : Nat) : Prop :=
  fMajorityNeeded placed scope factor ≤
    (completeCounts placed attrOf predicate scope).1 + (completeCounts placed attrOf predicate scope).2

instance (scope : LocationScope) (factor : Nat) :
    Decidable (ReachesFMajority placed attrOf predicate scope factor) :=
  inferInstanceAs (Decidable (_ ≤ _))

/-- The answer of an f-majority check: the first replicated scope, narrowest first, whose complete
domains reach an f-majority decides, by whether its authoritative domains alone reach it; with no
such scope, the answer is best effort when every authoritative node matches. -/
def fmajority (replication : ReplicationProperty) : FMajorityResult :=
  match replication.replicatedScopes.find?
      (fun replicated => decide (ReachesFMajority placed attrOf predicate replicated.1 replicated.2)) with
  | some replicated =>
    if fMajorityNeeded placed replicated.1 replicated.2 ≤ (completeCounts placed attrOf predicate replicated.1).1
    then .success
    else .successWithRisk
  | none =>
    if placed.all fun node => !node.storageState.isAuthoritative || (attrOf node.id).any predicate
    then .bestEffort
    else .none

end Placement

theorem domainName_eq_failureDomain (scope : LocationScope) (node : PlainNodeId)
    (location : NodeLocation) : domainName scope node location = location.failureDomain node scope := by
  cases scope <;> rfl

theorem NodesConfiguration.placedNode_id {nodesConfig : NodesConfiguration} {node : PlainNodeId}
    {placed : PlacedNode} (found : nodesConfig.placedNode node = some placed) : placed.id = node := by
  unfold placedNode at found
  split at found <;> simp only [Option.filter_eq_some_iff, Option.some.injEq, reduceCtorEq,
    false_and] at found <;> rw [← found.1]

namespace NodeSetChecker

variable {Attr : Type} [DecidableEq Attr]

/-- The checker tracks the placed nodes: each with its storage state, and at every scope it
keeps, in the domain its location names there. -/
structure Tracks (placed : List PlacedNode) (checker : NodeSetChecker Attr) : Prop where
  nodup : (placed.map (·.id)).Nodup
  storage : ∀ node,
    checker.nodeToStorageState.lookup node = (placed.find? (·.id == node)).map (·.storageState)
  domains : ∀ scope state, checker.scopes scope = some state → ∀ node,
    state.nodeToFd.lookup node = (placed.find? (·.id == node)).bind (·.domain scope)

section Placing

variable {placed : List PlacedNode} {checker : NodeSetChecker Attr}

omit [DecidableEq Attr] in
theorem Tracks.addNode (tracks : checker.Tracks placed) {node : PlainNodeId}
    (fresh : node ∉ placed.map (·.id)) (storageState : StorageState) (location : NodeLocation) :
    (checker.addNode node storageState location).Tracks
      (placed ++ (if storageState.empty then [] else [(⟨node, storageState, location⟩ : PlacedNode)])) := by
  by_cases empty : storageState.empty = true
  · rw [if_pos empty, List.append_nil]
    unfold NodeSetChecker.addNode
    rwa [if_pos empty]
  rw [if_neg empty, addNode_of_not_empty checker node location empty]
  have unplaced : placed.find? (·.id == node) = none :=
    List.find?_eq_none.mpr fun other member same =>
      fresh (List.mem_map.mpr ⟨other, member, by simpa using same⟩)
  have found : ∀ other, (placed ++ [(⟨node, storageState, location⟩ : PlacedNode)]).find? (·.id == other) =
      if other = node then some ⟨node, storageState, location⟩ else placed.find? (·.id == other) := by
    intro other
    rw [List.find?_append]
    by_cases same : other = node
    · subst same
      simp [unplaced]
    · simp [same, Ne.symm same]
  refine ⟨?_, fun other => ?_, fun scope state' found' other => ?_⟩
  · rw [List.map_append, List.nodup_append]
    refine ⟨tracks.nodup, List.nodup_singleton _, fun id member id' member' same => ?_⟩
    rw [List.map_singleton, List.mem_singleton] at member'
    rw [same, member'] at member
    exact fresh member
  · rw [found]
    by_cases same : other = node
    · subst same
      simp
    · simp [same, AList.lookup_insert_ne same, tracks.storage other]
  · rw [mapScopes_scopes, Option.map_eq_some_iff] at found'
    obtain ⟨state, atScope, rfl⟩ := found'
    have before := tracks.domains scope state atScope
    rw [found, domainName_eq_failureDomain]
    cases located : location.failureDomain node scope with
    | none =>
      by_cases same : other = node
      · subst same
        simp [before, unplaced, PlacedNode.domain, located]
      · simp [same, before]
    | some domain =>
      by_cases same : other = node
      · subst same
        simp [LocationScopeState.addNode, PlacedNode.domain, located]
      · simp [LocationScopeState.addNode, same, AList.lookup_insert_ne same, before]

omit [DecidableEq Attr] in
theorem Tracks.addConfiguredNode (nodesConfig : NodesConfiguration) (tracks : checker.Tracks placed)
    {node : PlainNodeId} (fresh : node ∉ placed.map (·.id)) :
    (addConfiguredNode nodesConfig checker node).Tracks
      (placed ++ (nodesConfig.placedNode node).toList) := by
  unfold NodeSetChecker.addConfiguredNode NodesConfiguration.findNodeById
    NodesConfiguration.placedNode
  -- the three answers of the configuration, as `new` reads them
  split
  · rename_i unknown
    simp only [unknown]
    exact tracks.addNode fresh .provisioning NodeLocation.new
  · rename_i deleted
    simpa [deleted] using tracks
  · rename_i config configured
    simp only [configured]
    have added := tracks.addNode fresh config.storageState config.location
    by_cases empty : config.storageState.empty = true <;> simpa [empty, Option.filter] using added

omit [DecidableEq Attr] in
theorem Tracks.foldl_addConfiguredNode (nodesConfig : NodesConfiguration) (order : List PlainNodeId)
    (nodup : order.Nodup) (tracks : checker.Tracks placed)
    (fresh : ∀ node ∈ order, node ∉ placed.map (·.id)) :
    (order.foldl (NodeSetChecker.addConfiguredNode nodesConfig) checker).Tracks
      (placed ++ order.filterMap nodesConfig.placedNode) := by
  induction order generalizing placed checker with
  | nil => simpa using tracks
  | cons node rest ih =>
    have parts := List.nodup_cons.mp nodup
    have added := tracks.addConfiguredNode nodesConfig (fresh node List.mem_cons_self)
    have restFresh : ∀ other ∈ rest,
        other ∉ (placed ++ (nodesConfig.placedNode node).toList).map (·.id) := by
      intro other member placedOther
      rw [List.map_append, List.mem_append] at placedOther
      rcases placedOther with early | late
      · exact fresh other (List.mem_cons_of_mem node member) early
      · obtain ⟨justPlaced, inList, same⟩ := List.mem_map.mp late
        rw [Option.mem_toList] at inList
        rw [← same, NodesConfiguration.placedNode_id inList] at member
        exact parts.1 member
    have step := ih parts.2 added restFresh
    rw [List.foldl_cons]
    cases placedFirst : nodesConfig.placedNode node <;>
      simpa [placedFirst, List.filterMap_cons] using step

omit [DecidableEq Attr] in
theorem new_tracks {nodeset : NodeSet} {nodesConfig : NodesConfiguration}
    {replication : ReplicationProperty}
    (created : NodeSetChecker.new nodeset nodesConfig replication = some checker) :
    checker.Tracks (nodeset.placed nodesConfig) := by
  dsimp only [NodeSetChecker.new] at created
  split at created
  · simp at created
  · rw [Option.some.injEq] at created
    subst checker
    have empty : (⟨buildScopes replication, ∅, ∅⟩ : NodeSetChecker Attr).Tracks [] := by
      refine ⟨List.nodup_nil, fun node => rfl, fun scope state found node => ?_⟩
      obtain ⟨factor, rfl⟩ := buildScopes_empty replication scope state found
      rfl
    simpa [NodeSet.placed] using
      empty.foldl_addConfiguredNode nodesConfig nodeset.nodes nodeset.nodup (by simp)

omit [DecidableEq Attr] in
theorem Tracks.ofSameFrame {checker' : NodeSetChecker Attr} (tracks : checker.Tracks placed)
    (frame : SameFrame checker checker') : checker'.Tracks placed := by
  refine ⟨tracks.nodup, fun node => ?_, fun scope state' found' node => ?_⟩
  · rw [frame.storage]
    exact tracks.storage node
  · obtain ⟨state, found, shape⟩ := frame.scopes scope state' found'
    rw [shape.nodeToFd]
    exact tracks.domains scope state found node

end Placing

/-! The scopes and their factors. -/

omit [DecidableEq Attr] in
theorem addConfiguredNode_scopeFactors (nodesConfig : NodesConfiguration)
    (checker : NodeSetChecker Attr) (node : PlainNodeId) (scope : LocationScope) :
    ((addConfiguredNode nodesConfig checker node).scopes scope).map (·.replicationFactor) =
      (checker.scopes scope).map (·.replicationFactor) := by
  have viaAddNode : ∀ storageState location,
      ((checker.addNode node storageState location).scopes scope).map (·.replicationFactor) =
        (checker.scopes scope).map (·.replicationFactor) := by
    intro storageState location
    unfold NodeSetChecker.addNode
    split
    · rfl
    · rw [mapScopes_scopes, Option.map_map]
      congr 1
      funext state
      simp only [Function.comp_apply]
      split <;> rfl
  unfold NodeSetChecker.addConfiguredNode
  split
  · exact viaAddNode _ _
  · rfl
  · exact viaAddNode _ _

omit [DecidableEq Attr] in
theorem new_scopeFactors {nodeset : NodeSet} {nodesConfig : NodesConfiguration}
    {replication : ReplicationProperty} {checker : NodeSetChecker Attr}
    (created : NodeSetChecker.new nodeset nodesConfig replication = some checker)
    (scope : LocationScope) :
    (checker.scopes scope).map (·.replicationFactor) = replication.scopeFactor scope := by
  dsimp only [NodeSetChecker.new] at created
  split at created
  · simp at created
  · rw [Option.some.injEq] at created
    subst checker
    have added : ∀ (order : List PlainNodeId) (checker : NodeSetChecker Attr),
        ((order.foldl (addConfiguredNode nodesConfig) checker).scopes scope).map
          (·.replicationFactor) = (checker.scopes scope).map (·.replicationFactor) := by
      intro order
      induction order with
      | nil => exact fun _ => rfl
      | cons node rest ih =>
        intro checker
        rw [List.foldl_cons, ih, addConfiguredNode_scopeFactors]
    rw [added, ReplicationProperty.scopeFactor]
    show (buildScopes replication scope).map _ = _
    rw [buildScopes_eq]
    split
    · rfl
    · simp [Function.comp_def, LocationScopeState.new]

omit [DecidableEq Attr] in
theorem SameFrame.scopeFactors {checker checker' : NodeSetChecker Attr}
    (frame : SameFrame checker checker')
    (kept : ∀ scope, (checker'.scopes scope).isSome = (checker.scopes scope).isSome)
    (scope : LocationScope) :
    (checker'.scopes scope).map (·.replicationFactor) = (checker.scopes scope).map (·.replicationFactor) := by
  cases found' : checker'.scopes scope with
  | none =>
    have missing := kept scope
    rw [found'] at missing
    cases found : checker.scopes scope with
    | none => rfl
    | some state => simp [found] at missing
  | some state' =>
    obtain ⟨state, found, shape⟩ := frame.scopes scope state' found'
    rw [found, Option.map_some, Option.map_some, shape.replicationFactor]

theorem CheckerOp.run_scopeFactors [Merge Attr] [Inhabited Attr] (checker : NodeSetChecker Attr)
    (ops : List (CheckerOp Attr)) (scope : LocationScope) :
    ((ops.foldl (fun checker op => op.apply checker) checker).scopes scope).map (·.replicationFactor) =
      (checker.scopes scope).map (·.replicationFactor) := by
  induction ops generalizing checker with
  | nil => rfl
  | cons op rest ih =>
    rw [List.foldl_cons, ih]
    exact (CheckerOp.apply_sameFrame checker op).scopeFactors
      (CheckerOp.apply_scopes_isSome checker op) scope

theorem CheckerOp.run_tracks [Merge Attr] [Inhabited Attr] {nodeset : NodeSet}
    {nodesConfig : NodesConfiguration} {replication : ReplicationProperty}
    {initial : NodeSetChecker Attr}
    (created : NodeSetChecker.new nodeset nodesConfig replication = some initial)
    (ops : List (CheckerOp Attr)) :
    (ops.foldl (fun checker op => op.apply checker) initial).Tracks (nodeset.placed nodesConfig) :=
  (new_tracks created).ofSameFrame (CheckerOp.run_sameFrame initial ops)

theorem CheckerOp.run_scopeFactors_eq [Merge Attr] [Inhabited Attr] {nodeset : NodeSet}
    {nodesConfig : NodesConfiguration} {replication : ReplicationProperty}
    {initial : NodeSetChecker Attr}
    (created : NodeSetChecker.new nodeset nodesConfig replication = some initial)
    (ops : List (CheckerOp Attr)) (scope : LocationScope) :
    ((ops.foldl (fun checker op => op.apply checker) initial).scopes scope).map (·.replicationFactor) =
      replication.scopeFactor scope :=
  (CheckerOp.run_scopeFactors initial ops scope).trans (new_scopeFactors created scope)

section Factors

variable {replication : ReplicationProperty} {checker : NodeSetChecker Attr}
  (factors : ∀ scope, (checker.scopes scope).map (·.replicationFactor) = replication.scopeFactor scope)
include factors

omit [DecidableEq Attr] in
theorem mem_replicatedScopes {scope : LocationScope} {factor : Nat} :
    (scope, factor) ∈ replication.replicatedScopes ↔
      ∃ state, checker.scopes scope = some state ∧ state.replicationFactor = factor := by
  simp only [ReplicationProperty.replicatedScopes, List.mem_filterMap, Option.map_eq_some_iff,
    Prod.mk.injEq]
  constructor
  · rintro ⟨_, _, _, replicated, rfl, rfl⟩
    rw [← factors, Option.map_eq_some_iff] at replicated
    exact replicated
  · rintro ⟨state, found, rfl⟩
    refine ⟨scope, LocationScope.mem_ascending scope, state.replicationFactor, ?_, rfl, rfl⟩
    rw [← factors, found]
    rfl

omit [DecidableEq Attr] in
theorem scopes_forall₂ :
    List.Forall₂ (fun state (replicated : LocationScope × Nat) =>
        checker.scopes replicated.1 = some state ∧ state.replicationFactor = replicated.2)
      (LocationScope.ascending.filterMap checker.scopes) replication.replicatedScopes := by
  apply List.rel_filterMap _ (List.forall₂_same.mpr fun scope _ => rfl)
  rintro scope _ rfl
  show Option.Rel _ (checker.scopes scope) ((replication.scopeFactor scope).map (scope, ·))
  have factor := factors scope
  cases found : checker.scopes scope with
  | none =>
    rw [found, Option.map_none] at factor
    rw [← factor]
    exact Option.Rel.none
  | some state =>
    rw [found, Option.map_some] at factor
    rw [← factor]
    exact Option.Rel.some ⟨found, rfl⟩

end Factors

/-! The checker's tables read as the placement. -/

section Tracked

variable {placed : List PlacedNode} {checker : NodeSetChecker Attr} (tracks : checker.Tracks placed)
include tracks

omit [DecidableEq Attr] in
theorem Tracks.storageStateOf_id {node : PlacedNode} (member : node ∈ placed) :
    checker.storageStateOf node.id = node.storageState := by
  rw [storageStateOf, tracks.storage, List.find?_key_of_mem tracks.nodup member]
  rfl

omit [DecidableEq Attr] in
theorem Tracks.nodeToFd_id {scope : LocationScope} {state : LocationScopeState Attr}
    (found : checker.scopes scope = some state) {node : PlacedNode} (member : node ∈ placed) :
    state.nodeToFd.lookup node.id = node.domain scope := by
  rw [tracks.domains scope state found, List.find?_key_of_mem tracks.nodup member]
  rfl

omit [DecidableEq Attr] in
theorem Tracks.mem_nodes (node : PlainNodeId) :
    node ∈ checker.nodes ↔ ∃ placedNode ∈ placed, placedNode.id = node := by
  rw [nodes, ← AList.mem_keys, ← AList.lookup_isSome, tracks.storage, Option.isSome_map,
    List.find?_isSome]
  simp

omit [DecidableEq Attr] in
theorem Tracks.forall_nodes {holds : PlainNodeId → Prop} :
    (∀ node ∈ checker.nodes, holds node) ↔ ∀ placedNode ∈ placed, holds placedNode.id := by
  constructor
  · intro all placedNode member
    exact all _ ((tracks.mem_nodes _).mpr ⟨placedNode, member, rfl⟩)
  · intro all node member
    obtain ⟨placedNode, placedMember, rfl⟩ := (tracks.mem_nodes node).mp member
    exact all placedNode placedMember

omit [DecidableEq Attr] in
theorem Tracks.exists_nodes {holds : PlainNodeId → Prop} :
    (∃ node ∈ checker.nodes, holds node) ↔ ∃ placedNode ∈ placed, holds placedNode.id := by
  constructor
  · rintro ⟨node, member, holding⟩
    obtain ⟨placedNode, placedMember, rfl⟩ := (tracks.mem_nodes node).mp member
    exact ⟨placedNode, placedMember, holding⟩
  · rintro ⟨placedNode, member, holding⟩
    exact ⟨_, (tracks.mem_nodes _).mpr ⟨placedNode, member, rfl⟩, holding⟩

omit [DecidableEq Attr] in
theorem Tracks.matchingDomains_eq {scope : LocationScope} {state : LocationScopeState Attr}
    (found : checker.scopes scope = some state) (predicate : Attr → Bool) :
    checker.matchingDomains state predicate =
      Placement.matchingDomains placed (checker.nodeToAttr.lookup ·) predicate scope := by
  ext domain
  rw [mem_matchingDomains, tracks.exists_nodes]
  simp only [Placement.matchingDomains, List.mem_toFinset, List.mem_filterMap, Option.any_eq_true]
  apply exists_congr
  intro node
  apply and_congr_right
  intro member
  rw [tracks.nodeToFd_id found member]
  constructor
  · rintro ⟨located, attr, attrIs, matched⟩
    rw [if_pos ⟨attr, attrIs, matched⟩]
    exact located
  · intro located
    split at located
    · rename_i matching
      exact ⟨located, matching⟩
    · cases located

theorem Tracks.keys_toFinset {scope : LocationScope} {state : LocationScopeState Attr}
    (invariant : checker.ScopeInvariant state) (found : checker.scopes scope = some state) :
    state.failureDomains.keys.toFinset = Placement.domains placed scope := by
  ext domain
  simp only [List.mem_toFinset, ← AList.mem_keys, Placement.domains, List.mem_filterMap]
  have inhabited : domain ∈ state.failureDomains ↔
      ∃ node ∈ checker.nodes, state.nodeToFd.lookup node = some domain := by
    constructor
    · intro member
      obtain ⟨fd, stored⟩ := Option.isSome_iff_exists.mp (AList.lookup_isSome.mpr member)
      obtain ⟨counted, positive⟩ := invariant.numNodes domain fd stored
      rw [counted] at positive
      obtain ⟨node, nodeMember, inDomain⟩ := List.countP_pos_iff.mp positive
      exact ⟨node, nodeMember, by simpa using inDomain⟩
    · rintro ⟨node, _, located⟩
      exact (invariant.nodeToFd node domain located).2
  rw [inhabited, tracks.exists_nodes]
  exact exists_congr fun node => and_congr_right fun member => by rw [tracks.nodeToFd_id found member]

omit [DecidableEq Attr] in
theorem Tracks.all_nodes_eq {scope : LocationScope} {state : LocationScopeState Attr}
    (found : checker.scopes scope = some state)
    (test : PlainNodeId → Option String → StorageState → Bool) :
    (checker.nodes.all fun node => test node (state.nodeToFd.lookup node) (checker.storageStateOf node)) =
      placed.all fun node => test node.id (node.domain scope) node.storageState := by
  rw [Bool.eq_iff_iff, List.all_eq_true, List.all_eq_true, tracks.forall_nodes]
  exact forall₂_congr fun node member => by
    rw [tracks.nodeToFd_id found member, tracks.storageStateOf_id member]

omit [DecidableEq Attr] in
theorem Tracks.isAuthCompleteDomain_eq {scope : LocationScope} {state : LocationScopeState Attr}
    (found : checker.scopes scope = some state) (predicate : Attr → Bool) (domain : String) :
    checker.isAuthCompleteDomain state predicate domain =
      Placement.isAuthComplete placed (checker.nodeToAttr.lookup ·) predicate scope domain :=
  tracks.all_nodes_eq found fun node located storageState => !(located == some domain) ||
    ((checker.nodeToAttr.lookup node).any predicate && storageState.isAuthoritative)

omit [DecidableEq Attr] in
theorem Tracks.isNonAuthCompleteDomain_eq {scope : LocationScope}
    {state : LocationScopeState Attr} (found : checker.scopes scope = some state)
    (predicate : Attr → Bool) (domain : String) :
    checker.isNonAuthCompleteDomain state predicate domain =
      Placement.isNonAuthComplete placed (checker.nodeToAttr.lookup ·) predicate scope domain :=
  tracks.all_nodes_eq found fun node located storageState => !(located == some domain) ||
    ((checker.nodeToAttr.lookup node).any predicate && !storageState.isAuthoritative)

theorem Tracks.completeDomainCounts_eq {scope : LocationScope} {state : LocationScopeState Attr}
    (invariant : checker.ScopeInvariant state) (found : checker.scopes scope = some state)
    (predicate : Attr → Bool) :
    checker.completeDomainCounts state predicate =
      Placement.completeCounts placed (checker.nodeToAttr.lookup ·) predicate scope := by
  have counted : ∀ complete : String → Bool,
      (state.failureDomains.keys.filter complete).length =
        ((Placement.domains placed scope).filter (complete · = true)).card := by
    intro complete
    rw [← tracks.keys_toFinset invariant found, ← List.toFinset_filter,
      List.toFinset_card_of_nodup ((AList.keys_nodup _).filter _)]
  rw [completeDomainCounts, Placement.completeCounts, counted, counted]
  simp only [tracks.isAuthCompleteDomain_eq found, tracks.isNonAuthCompleteDomain_eq found]

theorem Tracks.fMajorityNeeded_eq {scope : LocationScope} {state : LocationScopeState Attr}
    (invariant : checker.ScopeInvariant state) (found : checker.scopes scope = some state) :
    fMajorityNeeded state = Placement.fMajorityNeeded placed scope state.replicationFactor := by
  rw [fMajorityNeeded, Placement.fMajorityNeeded, ← tracks.keys_toFinset invariant found,
    List.toFinset_card_of_nodup (AList.keys_nodup _), AList.keys, List.keys, List.length_map]

theorem Tracks.reachesFMajority_iff {scope : LocationScope} {state : LocationScopeState Attr}
    (invariant : checker.ScopeInvariant state) (found : checker.scopes scope = some state)
    (predicate : Attr → Bool) :
    checker.ReachesFMajority predicate state ↔
      Placement.ReachesFMajority placed (checker.nodeToAttr.lookup ·) predicate scope
        state.replicationFactor := by
  rw [ReachesFMajority, Placement.ReachesFMajority, tracks.fMajorityNeeded_eq invariant found,
    tracks.completeDomainCounts_eq invariant found]

theorem Tracks.fmajoritySpec_eq {replication : ReplicationProperty} (invariant : checker.Invariant)
    (factors : ∀ scope, (checker.scopes scope).map (·.replicationFactor) = replication.scopeFactor scope)
    (predicate : Attr → Bool) :
    checker.fmajoritySpec predicate =
      Placement.fmajority placed (checker.nodeToAttr.lookup ·) predicate replication := by
  have firsts := List.find?_rel (scopes_forall₂ factors) (p := fun state =>
      decide (checker.ReachesFMajority predicate state)) (r := fun replicated =>
      decide (Placement.ReachesFMajority placed (checker.nodeToAttr.lookup ·) predicate replicated.1
        replicated.2)) (by
    rintro state ⟨scope, factor⟩ ⟨found, rfl⟩
    rw [decide_eq_decide]
    exact tracks.reachesFMajority_iff (invariant.scopes scope state found) found predicate)
  unfold fmajoritySpec Placement.fmajority
  generalize (LocationScope.ascending.filterMap checker.scopes).find? _ = first at firsts ⊢
  generalize (ReplicationProperty.replicatedScopes replication).find? _ = first' at firsts ⊢
  cases firsts with
  | none =>
    have sameNodes : (checker.nodes.all fun node => !(checker.storageStateOf node).isAuthoritative ||
        (checker.nodeToAttr.lookup node).any predicate) =
        placed.all fun node => !node.storageState.isAuthoritative ||
          (checker.nodeToAttr.lookup node.id).any predicate := by
      rw [Bool.eq_iff_iff, List.all_eq_true, List.all_eq_true, tracks.forall_nodes]
      exact forall₂_congr fun node member => by rw [tracks.storageStateOf_id member]
    rw [sameNodes]
  | some related =>
    rename_i state replicated
    obtain ⟨found, sameFactor⟩ := related
    have scopeInvariant := invariant.scopes replicated.1 state found
    dsimp only
    rw [tracks.fMajorityNeeded_eq scopeInvariant found, tracks.completeDomainCounts_eq scopeInvariant found,
      sameFactor]

end Tracked

end NodeSetChecker

theorem write_quorum_matches_spec {Attr : Type} [DecidableEq Attr] [Merge Attr] [Inhabited Attr]
    {nodeset : NodeSet} {nodesConfig : NodesConfiguration} {replication : ReplicationProperty}
    {initial : NodeSetChecker Attr}
    (created : NodeSetChecker.new nodeset nodesConfig replication = some initial)
    (positive : ∀ scope factor, replication.factors scope = some factor → 0 < factor)
    (ops : List (CheckerOp Attr)) (predicate : Attr → Bool) :
    let checker := ops.foldl (fun checker op => op.apply checker) initial
    checker.checkWriteQuorum predicate = true ↔
      ∀ scope factor, (scope, factor) ∈ replication.replicatedScopes →
        factor ≤ (Placement.matchingDomains (nodeset.placed nodesConfig) (checker.nodeToAttr.lookup ·)
          predicate scope).card := by
  intro checker
  have invariant : checker.Invariant := CheckerOp.run_invariant (NodeSetChecker.new_invariant created) ops
  have tracks : checker.Tracks (nodeset.placed nodesConfig) := NodeSetChecker.CheckerOp.run_tracks created ops
  have factors := NodeSetChecker.CheckerOp.run_scopeFactors_eq created ops
  have factorPositive : ∀ scope state, checker.scopes scope = some state → 0 < state.replicationFactor := by
    intro scope state found
    have replicated := factors scope
    rw [found, Option.map_some, ReplicationProperty.scopeFactor] at replicated
    split at replicated
    · cases replicated
    · exact NodeSetChecker.copiesAtScope_pos positive replicated.symm
  rw [NodeSetChecker.checkWriteQuorum_iff invariant factorPositive]
  constructor
  · intro spread scope factor replicated
    obtain ⟨state, found, rfl⟩ := (NodeSetChecker.mem_replicatedScopes factors).mp replicated
    rw [← tracks.matchingDomains_eq found]
    exact spread scope state found
  · intro spread scope state found
    rw [tracks.matchingDomains_eq found]
    exact spread scope _ ((NodeSetChecker.mem_replicatedScopes factors).mpr ⟨state, found, rfl⟩)

theorem sealedChecker_write_quorum_spec :
    sealedChecker.checkWriteQuorum id = true ↔
      ∀ scope factor, (scope, factor) ∈ tightReplication.replicatedScopes →
        factor ≤ (Placement.matchingDomains (tightNodeSet.placed tightNodesConfig)
          (sealedChecker.nodeToAttr.lookup ·) id scope).card :=
  write_quorum_matches_spec (Option.some_get _).symm
    (fun scope factor found => by
      cases scope <;> simp [tightReplication] at found
      omega)
    [CheckerOp.setAttribute ⟨1⟩ true] id

/-- Two read-write nodes in zones of their own and two data-loss nodes sharing a third zone, all
in one region, replicated `{zone: 2}`. -/
def mixedZonesConfig : NodesConfiguration :=
  ⟨fun node => match node.id with
    | 1 => some (.node ⟨⟨["r", "z1"], 2⟩, .readWrite⟩)
    | 2 => some (.node ⟨⟨["r", "z2"], 2⟩, .readWrite⟩)
    | 3 | 4 => some (.node ⟨⟨["r", "z3"], 2⟩, .dataLoss⟩)
    | _ => none⟩

def mixedZonesNodeSet : NodeSet := ⟨[⟨1⟩, ⟨2⟩, ⟨3⟩, ⟨4⟩], by decide⟩

def zoneReplication : ReplicationProperty := ⟨fun scope => if scope = .zone then some 2 else none⟩

/-- Every node of the nodeset has answered. -/
def mixedZonesChecker : NodeSetChecker Bool :=
  [CheckerOp.fillWith true].foldl (fun checker op => op.apply checker)
    ((NodeSetChecker.new mixedZonesNodeSet mixedZonesConfig zoneReplication).get (by decide))

end Restate
