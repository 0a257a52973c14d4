import Mathlib
import Restate.Replication.CheckerSpec

/-! What `check_fmajority` decides. A domain is complete for a predicate when all its nodes carry a
matching attribute. `count_matching_domains` counts the complete domains whose nodes are all
authoritative and the complete domains without an authoritative node; a complete domain that mixes
the two is in neither count. The check takes the scopes narrowest first and judges only the first
one where the two counts together reach an f-majority: success when the authoritative domains
alone reach it, success with risk otherwise. When no scope reaches one, it is best effort exactly
when every authoritative node matches. The domains and storage states here are those the checker
records; `CheckerPlacement` reads them off the nodes configuration. -/

namespace Restate

theorem PlainNodeId.toString_injective : Function.Injective PlainNodeId.toString := by
  intro node node' same
  have ids : node.id = node'.id := Nat.repr_inj.mp ((String.append_right_inj "N").mp same)
  cases node
  cases node'
  exact congrArg PlainNodeId.mk ids

namespace NodeSetChecker

variable {Attr : Type} [DecidableEq Attr]

/-- Every node of the domain matches and is authoritative. -/
def isAuthCompleteDomain (checker : NodeSetChecker Attr) (state : LocationScopeState Attr)
    (predicate : Attr → Bool) (domain : String) : Bool :=
  checker.nodes.all fun node => !(state.nodeToFd.lookup node == some domain) ||
    ((checker.nodeToAttr.lookup node).any predicate && (checker.storageStateOf node).isAuthoritative)

/-- Every node of the domain matches and none is authoritative. -/
def isNonAuthCompleteDomain (checker : NodeSetChecker Attr) (state : LocationScopeState Attr)
    (predicate : Attr → Bool) (domain : String) : Bool :=
  checker.nodes.all fun node => !(state.nodeToFd.lookup node == some domain) ||
    ((checker.nodeToAttr.lookup node).any predicate && !(checker.storageStateOf node).isAuthoritative)

/-- The authoritative and the non-authoritative complete domains of a scope. -/
def completeDomainCounts (checker : NodeSetChecker Attr) (state : LocationScopeState Attr)
    (predicate : Attr → Bool) : Nat × Nat :=
  ((state.failureDomains.keys.filter (checker.isAuthCompleteDomain state predicate)).length,
    (state.failureDomains.keys.filter (checker.isNonAuthCompleteDomain state predicate)).length)

/-- `D - r + 1` of the `D` domains of a scope with replication factor `r`, saturating. -/
def fMajorityNeeded (state : LocationScopeState Attr) : Nat :=
  state.failureDomains.entries.length - state.replicationFactor + 1

/-- The complete domains the check counts at the scope reach an f-majority. -/
def ReachesFMajority (checker : NodeSetChecker Attr) (predicate : Attr → Bool)
    (state : LocationScopeState Attr) : Prop :=
  fMajorityNeeded state ≤
    (checker.completeDomainCounts state predicate).1 + (checker.completeDomainCounts state predicate).2

instance (checker : NodeSetChecker Attr) (predicate : Attr → Bool) (state : LocationScopeState Attr) :
    Decidable (checker.ReachesFMajority predicate state) :=
  inferInstanceAs (Decidable (_ ≤ _))

/-- What `check_fmajority` answers: the first scope, narrowest first, whose complete domains
reach an f-majority decides, by whether its authoritative domains alone reach it; with no such
scope, the answer is best effort when every authoritative node matches. -/
def fmajoritySpec (checker : NodeSetChecker Attr) (predicate : Attr → Bool) : FMajorityResult :=
  match (LocationScope.ascending.filterMap checker.scopes).find?
      (fun state => decide (checker.ReachesFMajority predicate state)) with
  | some state =>
    if fMajorityNeeded state ≤ (checker.completeDomainCounts state predicate).1 then .success
    else .successWithRisk
  | none =>
    if checker.nodes.all fun node =>
        !(checker.storageStateOf node).isAuthoritative || (checker.nodeToAttr.lookup node).any predicate
    then .bestEffort
    else .none

omit [DecidableEq Attr] in
theorem fmajorityFrom_eq_find (predicate : Attr → Bool) (states : List (LocationScopeState Attr)) :
    fmajorityFrom predicate states =
      (states.find? fun state => decide (fMajorityNeeded state ≤
          (state.countMatchingDomains predicate).1 + (state.countMatchingDomains predicate).2)).map
        fun state => decide (fMajorityNeeded state ≤ (state.countMatchingDomains predicate).1) := by
  induction states with
  | nil => rfl
  | cons state rest ih =>
    rcases counts : state.countMatchingDomains predicate with ⟨auth, nonAuth⟩
    rw [fmajorityFrom, List.find?_cons, ih]
    simp only [counts, fMajorityNeeded]
    by_cases reached : state.failureDomains.entries.length - state.replicationFactor + 1 ≤
        auth + nonAuth
    · simp [reached, counts]
    · simp [reached]

theorem ScopeInvariant.matchingNodes_counts {checker : NodeSetChecker Attr}
    {state : LocationScopeState Attr} (invariant : checker.ScopeInvariant state) {domain : String}
    {fd : FailureDomainState Attr} (found : state.failureDomains.lookup domain = some fd)
    (predicate : Attr → Bool) :
    LocationScopeState.matchingNodes predicate fd.perAttributeCounter.entries 0 0 =
      (checker.nodes.countP fun node => (state.nodeToFd.lookup node == some domain &&
          (checker.nodeToAttr.lookup node).any predicate) && (checker.storageStateOf node).isAuthoritative,
        checker.nodes.countP fun node => (state.nodeToFd.lookup node == some domain &&
          (checker.nodeToAttr.lookup node).any predicate) &&
            !(checker.storageStateOf node).isAuthoritative) := by
  have authSum := invariant.matching_sum found predicate (·.numAuthoritativeNodes)
    StorageState.isAuthoritative (fun attr => by
      rw [invariant.exact domain attr]
      apply List.countP_congr
      intro node _
      simp only [Bool.and_eq_true, beq_iff_eq]
      tauto)
  have nonAuthSum := invariant.matching_sum found predicate (·.numNonAuthNodes)
    (fun storageState => !storageState.isAuthoritative) (fun attr => by
      rw [invariant.exact domain attr]
      simp only [Count.numNonAuthNodes, recountAt, recount]
      rw [List.countP_sub_countP_and]
      apply List.countP_congr
      intro node _
      simp only [Bool.and_eq_true, beq_iff_eq]
      tauto)
  rw [LocationScopeState.matchingNodes_eq, authSum, nonAuthSum, Nat.zero_add, Nat.zero_add]

omit [DecidableEq Attr] in
theorem allNodesOf_iff {checker : NodeSetChecker Attr} {state : LocationScopeState Attr}
    (domain : String) (kind : PlainNodeId → Bool) :
    (checker.nodes.countP fun node => state.nodeToFd.lookup node == some domain) ≤
        (checker.nodes.countP fun node => state.nodeToFd.lookup node == some domain && kind node) ↔
      (checker.nodes.all fun node => !(state.nodeToFd.lookup node == some domain) || kind node) =
        true := by
  rw [List.countP_le_countP_and_iff, List.all_eq_true]
  apply forall₂_congr
  intro node _
  cases state.nodeToFd.lookup node == some domain <;> simp

theorem ScopeInvariant.counted_iff {checker : NodeSetChecker Attr}
    {state : LocationScopeState Attr} (invariant : checker.ScopeInvariant state) {domain : String}
    {fd : FailureDomainState Attr} (found : state.failureDomains.lookup domain = some fd)
    (predicate : Attr → Bool) :
    ((0 < (LocationScopeState.matchingNodes predicate fd.perAttributeCounter.entries 0 0).1 ∧
        fd.nonEmptyNodes ≤ (LocationScopeState.matchingNodes predicate fd.perAttributeCounter.entries 0 0).1) ↔
      checker.isAuthCompleteDomain state predicate domain = true) ∧
    ((0 < (LocationScopeState.matchingNodes predicate fd.perAttributeCounter.entries 0 0).2 ∧
        fd.nonEmptyNodes ≤ (LocationScopeState.matchingNodes predicate fd.perAttributeCounter.entries 0 0).2) ↔
      checker.isNonAuthCompleteDomain state predicate domain = true) := by
  obtain ⟨numNodes, positive⟩ := invariant.numNodes domain fd found
  rw [invariant.matchingNodes_counts found predicate, FailureDomainState.nonEmptyNodes, numNodes]
  rw [numNodes] at positive
  simp only [Bool.and_assoc]
  have counted_iff : ∀ kind : PlainNodeId → Bool,
      (0 < checker.nodes.countP (fun node => state.nodeToFd.lookup node == some domain && kind node) ∧
        (checker.nodes.countP fun node => state.nodeToFd.lookup node == some domain) ≤
          checker.nodes.countP (fun node => state.nodeToFd.lookup node == some domain && kind node)) ↔
        (checker.nodes.all fun node => !(state.nodeToFd.lookup node == some domain) || kind node) =
          true := by
    intro kind
    rw [← allNodesOf_iff]
    exact ⟨fun counted => counted.2, fun all => ⟨Nat.lt_of_lt_of_le positive all, all⟩⟩
  exact ⟨counted_iff _, counted_iff _⟩

theorem ScopeInvariant.not_auth_and_nonAuth {checker : NodeSetChecker Attr}
    {state : LocationScopeState Attr} (invariant : checker.ScopeInvariant state) {domain : String}
    {fd : FailureDomainState Attr} (found : state.failureDomains.lookup domain = some fd)
    (predicate : Attr → Bool) :
    ¬(checker.isAuthCompleteDomain state predicate domain = true ∧
      checker.isNonAuthCompleteDomain state predicate domain = true) := by
  rintro ⟨auth, nonAuth⟩
  obtain ⟨numNodes, positive⟩ := invariant.numNodes domain fd found
  rw [numNodes] at positive
  obtain ⟨node, member, located⟩ := List.countP_pos_iff.mp positive
  have isAuth := List.all_eq_true.mp auth node member
  have notAuth := List.all_eq_true.mp nonAuth node member
  simp only [located, Bool.not_true, Bool.false_or, Bool.and_eq_true] at isAuth notAuth
  simp [isAuth.2] at notAuth

theorem ScopeInvariant.countMatchingDomainsFrom_eq {checker : NodeSetChecker Attr}
    {state : LocationScopeState Attr} (invariant : checker.ScopeInvariant state)
    (predicate : Attr → Bool) (entries : List (Σ _ : String, FailureDomainState Attr))
    (stored : ∀ entry ∈ entries, state.failureDomains.lookup entry.1 = some entry.2)
    (numCompletedAuthDomains numCompletedNonAuthDomains : Nat) :
    LocationScopeState.countMatchingDomainsFrom predicate entries numCompletedAuthDomains
        numCompletedNonAuthDomains =
      (numCompletedAuthDomains +
          (entries.filter fun entry => checker.isAuthCompleteDomain state predicate entry.1).length,
        numCompletedNonAuthDomains +
          (entries.filter fun entry => checker.isNonAuthCompleteDomain state predicate entry.1).length) := by
  induction entries generalizing numCompletedAuthDomains numCompletedNonAuthDomains with
  | nil => rfl
  | cons entry rest ih =>
    obtain ⟨domain, fd⟩ := entry
    have found : state.failureDomains.lookup domain = some fd := stored _ List.mem_cons_self
    have restStored : ∀ entry ∈ rest, state.failureDomains.lookup entry.1 = some entry.2 :=
      fun entry member => stored entry (List.mem_cons_of_mem _ member)
    have nonEmpty : fd.isEmpty = false := by
      have positive := (invariant.numNodes domain fd found).2
      simp only [FailureDomainState.isEmpty, beq_eq_false_iff_ne]
      omega
    obtain ⟨authIff, nonAuthIff⟩ := invariant.counted_iff found predicate
    have exclusive := invariant.not_auth_and_nonAuth found predicate
    simp only [LocationScopeState.countMatchingDomainsFrom, nonEmpty, Bool.false_eq_true, if_false,
      List.filter_cons]
    -- the domain is counted under the heading of its completeness, if any
    by_cases auth : checker.isAuthCompleteDomain state predicate domain = true
    · have nonAuth : checker.isNonAuthCompleteDomain state predicate domain = false := by
        simpa [auth] using exclusive
      rw [if_pos (authIff.mpr auth), ih restStored]
      simp only [auth, nonAuth, if_true, List.length_cons, Bool.false_eq_true, if_false,
        Prod.mk.injEq, and_true]
      omega
    · rw [if_neg (mt authIff.mp auth)]
      by_cases nonAuth : checker.isNonAuthCompleteDomain state predicate domain = true
      · rw [if_pos (nonAuthIff.mpr nonAuth), ih restStored]
        simp only [auth, nonAuth, if_true, List.length_cons, Bool.false_eq_true, if_false,
        Prod.mk.injEq, true_and]
        omega
      · rw [if_neg (mt nonAuthIff.mp nonAuth), ih restStored]
        simp only [auth, nonAuth, Bool.false_eq_true, if_false]

theorem ScopeInvariant.countMatchingDomains_eq {checker : NodeSetChecker Attr}
    {state : LocationScopeState Attr} (invariant : checker.ScopeInvariant state)
    (predicate : Attr → Bool) :
    state.countMatchingDomains predicate = checker.completeDomainCounts state predicate := by
  rw [LocationScopeState.countMatchingDomains, invariant.countMatchingDomainsFrom_eq predicate _
    (fun entry member => AList.mem_lookup_iff.mpr member), completeDomainCounts, Nat.zero_add,
    Nat.zero_add]
  simp only [AList.keys, List.keys, List.filter_map, List.length_map]
  rfl

/-! The node scope. `new` puts every node with storage in a domain of its own at the node scope,
named after the node, and the calls after `new` keep the scope and its domains. -/

/-- At the node scope every node of the checker is in the domain named after it. -/
def NodeScoped (checker : NodeSetChecker Attr) : Prop :=
  ∃ state, checker.scopes .node = some state ∧
    ∀ node ∈ checker.nodeToStorageState, state.nodeToFd.lookup node = some node.toString

omit [DecidableEq Attr] in
theorem addNode_nodeScoped {checker : NodeSetChecker Attr} (onNodes : checker.NodeScoped)
    (node : PlainNodeId) (storageState : StorageState) (location : NodeLocation) :
    (checker.addNode node storageState location).NodeScoped := by
  obtain ⟨state, found, located⟩ := onNodes
  unfold addNode
  split
  · exact ⟨state, found, located⟩
  · refine ⟨state.addNode node node.toString, by simp [mapScopes_scopes, found, domainName], ?_⟩
    intro other member
    by_cases same : other = node
    · subst same
      simp [LocationScopeState.addNode]
    · have stored := ((AList.mem_insert _).mp member).resolve_left same
      simp [LocationScopeState.addNode, AList.lookup_insert_ne same, located other stored]

omit [DecidableEq Attr] in
theorem foldl_addConfiguredNode_nodeScoped (nodesConfig : NodesConfiguration)
    (nodes : List PlainNodeId) {checker : NodeSetChecker Attr} (onNodes : checker.NodeScoped) :
    (nodes.foldl (addConfiguredNode nodesConfig) checker).NodeScoped := by
  induction nodes generalizing checker with
  | nil => exact onNodes
  | cons node rest ih =>
    apply ih
    unfold addConfiguredNode
    split
    · exact addNode_nodeScoped onNodes _ _ _
    · exact onNodes
    · exact addNode_nodeScoped onNodes _ _ _

omit [DecidableEq Attr] in
theorem new_nodeScoped {nodeset : NodeSet} {nodesConfig : NodesConfiguration}
    {replication : ReplicationProperty} {checker : NodeSetChecker Attr}
    (created : NodeSetChecker.new nodeset nodesConfig replication = some checker) :
    checker.NodeScoped := by
  dsimp only [NodeSetChecker.new] at created
  split at created
  · simp at created
  · rename_i someScope
    rw [Option.some.injEq] at created
    subst checker
    apply foldl_addConfiguredNode_nodeScoped
    -- the node scope takes the factor of the narrowest scope of the property, and `new` asserts
    -- that one exists
    obtain ⟨factor, copies⟩ : ∃ factor, replication.copiesAtScope .node = some factor := by
      cases numCopies : replication.numCopies with
      | some factor => exact ⟨factor, numCopies⟩
      | none =>
        refine absurd (List.all_eq_true.mpr fun scope _ => ?_) someScope
        have undefined := List.findSome?_eq_none_iff.mp numCopies scope (LocationScope.mem_ascending scope)
        rw [buildScopes_eq]
        split
        · rfl
        · simp [ReplicationProperty.copiesAtScope, numCopies, undefined]
    refine ⟨LocationScopeState.new factor, ?_, fun node member => absurd member (by simp)⟩
    show buildScopes replication .node = _
    rw [buildScopes_eq, if_neg (by decide), copies]
    rfl

theorem setAttribute_scopes_isSome (checker : NodeSetChecker Attr) (node : PlainNodeId)
    (attr : Attr) (scope : LocationScope) :
    ((checker.setAttribute node attr).scopes scope).isSome = (checker.scopes scope).isSome := by
  unfold setAttribute rmAttrInternal addAttrInternal
  dsimp only
  split
  · rfl
  · split
    · split
      · rfl
      · simp [mapScopes_scopes]
    · simp [mapScopes_scopes]

theorem setAttributeOnEach_scopes_isSome (checker : NodeSetChecker Attr)
    (nodes : List PlainNodeId) (attr : Attr) (scope : LocationScope) :
    ((checker.setAttributeOnEach nodes attr).scopes scope).isSome = (checker.scopes scope).isSome := by
  induction nodes generalizing checker with
  | nil => rfl
  | cons node rest ih =>
    exact (ih (checker.setAttribute node attr)).trans (setAttribute_scopes_isSome checker node attr scope)

theorem CheckerOp.apply_scopes_isSome [Merge Attr] [Inhabited Attr] (checker : NodeSetChecker Attr)
    (op : CheckerOp Attr) (scope : LocationScope) :
    ((op.apply checker).scopes scope).isSome = (checker.scopes scope).isSome := by
  cases op with
  | setAttribute node attr => exact setAttribute_scopes_isSome checker node attr scope
  | setAttributeOnEach nodes attr => exact setAttributeOnEach_scopes_isSome checker nodes attr scope
  | mergeAttribute node attr =>
    simp only [CheckerOp.apply, mergeAttribute]
    split
    · rfl
    · split
      · split
        · exact setAttribute_scopes_isSome checker node _ scope
        · rfl
      · exact setAttribute_scopes_isSome checker node _ scope
  | fillWith attr => exact setAttributeOnEach_scopes_isSome checker _ attr scope
  | fillWithDefault => exact setAttributeOnEach_scopes_isSome checker _ default scope

theorem CheckerOp.run_nodeScoped [Merge Attr] [Inhabited Attr] {checker : NodeSetChecker Attr}
    (onNodes : checker.NodeScoped) (ops : List (CheckerOp Attr)) :
    (ops.foldl (fun checker op => op.apply checker) checker).NodeScoped := by
  induction ops generalizing checker with
  | nil => exact onNodes
  | cons op rest ih =>
    apply ih
    obtain ⟨state, found, located⟩ := onNodes
    have kept := CheckerOp.apply_scopes_isSome checker op .node
    rw [found, Option.isSome_some, Option.isSome_iff_exists] at kept
    obtain ⟨state', found'⟩ := kept
    have frame := CheckerOp.apply_sameFrame checker op
    obtain ⟨state₀, found₀, shape⟩ := frame.scopes .node state' found'
    rw [found, Option.some.injEq] at found₀
    subst found₀
    refine ⟨state', found', fun node member => ?_⟩
    rw [shape.nodeToFd]
    exact located node (frame.storage ▸ member)

theorem ScopeInvariant.nodeDomains_perm {checker : NodeSetChecker Attr}
    {state : LocationScopeState Attr} (invariant : checker.ScopeInvariant state)
    (located : ∀ node ∈ checker.nodeToStorageState, state.nodeToFd.lookup node = some node.toString)
    (predicate : Attr → Bool) :
    (state.failureDomains.keys.filter (checker.isAuthCompleteDomain state predicate)).Perm
      ((checker.nodes.filter fun node => (checker.nodeToAttr.lookup node).any predicate &&
        (checker.storageStateOf node).isAuthoritative).map PlainNodeId.toString) := by
  refine (List.perm_ext_iff_of_nodup ((AList.keys_nodup _).filter _)
    (((AList.keys_nodup _).filter _).map PlainNodeId.toString_injective)).mpr fun domain => ?_
  simp only [List.mem_filter, List.mem_map]
  constructor
  · rintro ⟨member, complete⟩
    obtain ⟨fd, found⟩ := Option.isSome_iff_exists.mp (AList.lookup_isSome.mpr (AList.mem_keys.mpr member))
    obtain ⟨numNodes, positive⟩ := invariant.numNodes domain fd found
    rw [numNodes] at positive
    obtain ⟨node, nodeMember, inDomain⟩ := List.countP_pos_iff.mp positive
    have own := located node (AList.mem_keys.mpr nodeMember)
    rw [beq_iff_eq, own, Option.some.injEq] at inDomain
    refine ⟨node, ⟨nodeMember, ?_⟩, inDomain⟩
    have matched := List.all_eq_true.mp complete node nodeMember
    simpa [own, inDomain] using matched
  · rintro ⟨node, ⟨nodeMember, matched⟩, rfl⟩
    have own := located node (AList.mem_keys.mpr nodeMember)
    refine ⟨AList.mem_keys.mp (invariant.nodeToFd node _ own).2,
      List.all_eq_true.mpr fun other otherMember => ?_⟩
    by_cases same : state.nodeToFd.lookup other = some node.toString
    · have named := (located other (AList.mem_keys.mpr otherMember)).symm.trans same
      cases PlainNodeId.toString_injective (Option.some.inj named)
      simp [matched]
    · simp [same]

theorem isCompleteSet_iff {checker : NodeSetChecker Attr} (invariant : checker.Invariant)
    (onNodes : checker.NodeScoped) (predicate : Attr → Bool) :
    checker.isCompleteSet predicate = true ↔
      (checker.nodes.all fun node => !(checker.storageStateOf node).isAuthoritative ||
        (checker.nodeToAttr.lookup node).any predicate) = true := by
  obtain ⟨state, found, located⟩ := onNodes
  have scopeInvariant := invariant.scopes .node state found
  have authoritative : checker.countAuthoritativeNodes =
      checker.nodes.countP fun node => (checker.storageStateOf node).isAuthoritative := by
    rw [countAuthoritativeNodes, nodes, AList.keys, List.keys, List.countP_map]
    apply List.countP_congr
    intro entry member
    have stored : checker.nodeToStorageState.lookup entry.1 = some entry.2 :=
      AList.mem_lookup_iff.mpr member
    rw [Function.comp_apply, storageStateOf, stored]
    rfl
  have complete : (state.countMatchingDomains predicate).1 =
      checker.nodes.countP fun node => (checker.storageStateOf node).isAuthoritative &&
        (checker.nodeToAttr.lookup node).any predicate := by
    rw [scopeInvariant.countMatchingDomains_eq, completeDomainCounts,
      (scopeInvariant.nodeDomains_perm located predicate).length_eq, List.length_map,
      ← List.countP_eq_length_filter]
    exact List.countP_congr fun node _ => by rw [Bool.and_comm]
  have fewer := List.countP_mono_left (l := checker.nodes)
    (p := fun node => (checker.storageStateOf node).isAuthoritative &&
      (checker.nodeToAttr.lookup node).any predicate)
    (q := fun node => (checker.storageStateOf node).isAuthoritative)
    fun node _ both => ((Bool.and_eq_true _ _).mp both).1
  simp only [isCompleteSet, found, beq_iff_eq]
  rw [complete, authoritative, List.all_eq_true, Nat.le_antisymm_iff, and_iff_right fewer,
    List.countP_le_countP_and_iff]
  apply forall₂_congr
  intro node _
  cases (checker.storageStateOf node).isAuthoritative <;> simp

theorem checkFmajority_eq_spec {checker : NodeSetChecker Attr} (invariant : checker.Invariant)
    (onNodes : checker.NodeScoped) (predicate : Attr → Bool) :
    checker.checkFmajority predicate = checker.fmajoritySpec predicate := by
  -- every scope the loop walks counts its complete domains exactly
  have counted : ∀ state ∈ LocationScope.ascending.filterMap checker.scopes,
      state.countMatchingDomains predicate = checker.completeDomainCounts state predicate := by
    intro state member
    obtain ⟨scope, _, found⟩ := List.mem_filterMap.mp member
    exact (invariant.scopes scope state found).countMatchingDomains_eq predicate
  have sameFirst : (LocationScope.ascending.filterMap checker.scopes).find? (fun state =>
      decide (fMajorityNeeded state ≤
        (state.countMatchingDomains predicate).1 + (state.countMatchingDomains predicate).2)) =
      (LocationScope.ascending.filterMap checker.scopes).find?
        (fun state => decide (checker.ReachesFMajority predicate state)) :=
    List.find?_congr fun state member => by rw [counted state member]; rfl
  unfold checkFmajority fmajoritySpec
  rw [fmajorityFrom_eq_find, sameFirst]
  cases first : (LocationScope.ascending.filterMap checker.scopes).find?
      (fun state => decide (checker.ReachesFMajority predicate state)) with
  | none =>
    have complete := Bool.eq_iff_iff.mpr (isCompleteSet_iff invariant onNodes predicate)
    simp only [Option.map_none, complete]
  | some state =>
    have exact := counted state (List.mem_of_find?_eq_some first)
    by_cases enough : fMajorityNeeded state ≤ (checker.completeDomainCounts state predicate).1
    · simp [exact, enough]
    · simp [exact, enough]

end NodeSetChecker

end Restate
