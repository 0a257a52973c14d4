import Mathlib
import Restate.Lib.Run
import Restate.Lib.StableSort
import Restate.Replication.ReplicationProperty
import Restate.Replication.NodeSetSelectorLoop

/-! What `select` guarantees. The first loop puts every candidate into one domain and flags the
domain of the top-priority node, and sorting leaves that node last in its domain. The first phase
takes the flagged domain first, and stops with every candidate, with as many nodes as it wants in
all, or at half the size limit; the second phase only adds writeable nodes, up to the limit. So a
selection with enough candidates fails only when it needs more copies than half the size limit:
the first phase stops there, and the second cannot add the unwriteable nodes. -/

namespace Restate

namespace CandidateNode

theorem cmp_of_top_left {node other : CandidateNode} (top : node.selectionPriority = .top) :
    node.cmp other = .gt := by
  unfold cmp
  rw [top]

theorem cmp_of_top_right {node other : CandidateNode} (top : node.selectionPriority = .top)
    (notTop : other.selectionPriority ≠ .top) : other.cmp node = .lt := by
  unfold cmp
  rw [top]
  cases priority : other.selectionPriority
  · exact absurd priority notTop
  · rfl
  · rfl

end CandidateNode

/-- A domain as the first loop leaves it: nothing picked, and flagged just when it holds a
top-priority candidate. -/
structure Domain.Fresh (domain : Domain) : Prop where
  total : domain.numTotalPicked = 0
  writeable : domain.numWriteableNodesPicked = 0
  flagged : domain.isTopPriority = true ↔ ∃ node ∈ domain.candidates, node.selectionPriority = .top

theorem Domain.fresh_new (priority : UInt64) : (Domain.new priority).Fresh :=
  ⟨rfl, rfl, by simp [Domain.new]⟩

theorem Domain.Fresh.push {domain : Domain} (fresh : domain.Fresh) (candidate : CandidateNode) :
    (domain.push candidate).Fresh := by
  refine ⟨fresh.total, fresh.writeable, ?_⟩
  by_cases top : candidate.selectionPriority = .top
  · simp only [Domain.push, top, if_true, List.mem_append, List.mem_singleton, true_iff]
    exact ⟨candidate, .inr rfl, top⟩
  · simp only [Domain.push, top, if_false, fresh.flagged, List.mem_append, List.mem_singleton]
    constructor
    · rintro ⟨node, member, isTop⟩
      exact ⟨node, .inl member, isTop⟩
    · rintro ⟨node, member | rfl, isTop⟩
      · exact ⟨node, member, isTop⟩
      · exact absurd isTop top

namespace NodeSetSelector

variable {options : NodeSetSelectorOptions} {isCandidate isWriteable : PlainNodeId → NodeConfig → Bool}
  {replication : ReplicationProperty}

@[simp] theorem nodeId_candidateOf (nodeId : PlainNodeId) (nodeConfig : NodeConfig) :
    (candidateOf options isWriteable nodeId nodeConfig).nodeId = nodeId := rfl

theorem candidateOf_top_iff {nodeId : PlainNodeId} {nodeConfig : NodeConfig} :
    (candidateOf options isWriteable nodeId nodeConfig).selectionPriority = .top ↔
      options.topPriorityNode = some nodeId := by
  by_cases top : options.topPriorityNode = some nodeId
  · simp [candidateOf, top]
  · simp only [candidateOf, top, if_false, iff_false]
    split <;> simp

/-! ### The first loop -/

/-- The candidates of some domains, one domain after another. -/
def candidatesOf (domains : List (DomainPath × Domain)) : List CandidateNode :=
  domains.flatMap fun entry => entry.2.candidates

theorem candidatesOf_pushCandidate (hashDomain : DomainPath → UInt64) (path : DomainPath)
    (candidate : CandidateNode) :
    ∀ domains, (candidatesOf (pushCandidate hashDomain path candidate domains)).Perm
      (candidatesOf domains ++ [candidate])
  | [] => by simp [candidatesOf, pushCandidate, Domain.push, Domain.new]
  | (key, domain) :: rest => by
    unfold pushCandidate
    split
    · simp only [candidatesOf, List.flatMap_cons, Domain.push, List.append_assoc]
      exact (List.perm_append_comm.append_left _)
    · simp only [candidatesOf, List.flatMap_cons, List.append_assoc] at *
      exact (candidatesOf_pushCandidate hashDomain path candidate rest).append_left _

theorem forall_pushCandidate {P : Domain → Prop} {hashDomain : DomainPath → UInt64} {path : DomainPath}
    {candidate : CandidateNode} (created : P ((Domain.new (hashDomain path)).push candidate))
    (pushed : ∀ domain, P domain → P (domain.push candidate)) :
    ∀ domains : List (DomainPath × Domain), (∀ entry ∈ domains, P entry.2) →
      ∀ entry ∈ pushCandidate hashDomain path candidate domains, P entry.2
  | [], _ => by simpa [pushCandidate] using created
  | (key, domain) :: rest, holds => by
    unfold pushCandidate
    split
    · intro entry member
      rcases List.mem_cons.mp member with rfl | inRest
      · exact pushed domain (holds (key, domain) List.mem_cons_self)
      · exact holds entry (List.mem_cons_of_mem _ inRest)
    · intro entry member
      rcases List.mem_cons.mp member with rfl | inRest
      · exact holds _ List.mem_cons_self
      · exact forall_pushCandidate created pushed rest (fun other inner => holds other (List.mem_cons_of_mem _ inner))
          entry inRest

/-- What the first loop has built from the nodes it has seen: each candidate among them in one
domain, and every domain fresh. -/
structure Collected (options : NodeSetSelectorOptions) (isCandidate isWriteable : PlainNodeId → NodeConfig → Bool)
    (seen : List (PlainNodeId × NodeConfig)) (domains : List (DomainPath × Domain)) : Prop where
  candidates : (candidatesOf domains).Perm
    ((seen.filter fun node => isCandidate node.1 node.2).map fun node => candidateOf options isWriteable node.1 node.2)
  fresh : ∀ entry ∈ domains, entry.2.Fresh

theorem domainPathOf_ok {scope : LocationScope} {nodeId : PlainNodeId} {nodeConfig : NodeConfig}
    (located : scope = .root ∨ nodeConfig.location.isScopeDefined scope = true) :
    ∃ path, domainPathOf replication scope nodeId nodeConfig = .ok path := by
  by_cases root : scope = .root
  · exact ⟨.root, by simp [domainPathOf, root]; rfl⟩
  · have defined := located.resolve_left root
    have nonEmpty : nodeConfig.location.isEmpty = false := by
      simp only [NodeLocation.isScopeDefined, Bool.and_eq_true, decide_eq_true_eq] at defined
      simp only [NodeLocation.isEmpty, beq_eq_false_iff_ne]
      omega
    exact ⟨_, by simp [domainPathOf, root, nonEmpty, defined]; rfl⟩

theorem collectNode_collected {scope : LocationScope} {seen : List (PlainNodeId × NodeConfig)}
    {domains : List (DomainPath × Domain)} {node : PlainNodeId × NodeConfig}
    (located : isCandidate node.1 node.2 = true → scope = .root ∨ node.2.location.isScopeDefined scope = true)
    (collected : Collected options isCandidate isWriteable seen domains) :
    ∃ next, collectNode replication scope isCandidate isWriteable options domains node = .ok next ∧
      Collected options isCandidate isWriteable (seen ++ [node]) next := by
  obtain ⟨nodeId, nodeConfig⟩ := node
  cases candidate : isCandidate nodeId nodeConfig
  · refine ⟨domains, by simp [collectNode, candidate]; rfl, ?_, collected.fresh⟩
    simpa [candidate] using collected.candidates
  · have path : ∃ path, domainPathOf replication scope nodeId nodeConfig = .ok path := domainPathOf_ok (located candidate)
    obtain ⟨path, found⟩ := path
    refine ⟨pushCandidate options.hashDomain path (candidateOf options isWriteable nodeId nodeConfig) domains,
      by simp [collectNode, candidate, found], ?_, ?_⟩
    · refine (candidatesOf_pushCandidate _ _ _ domains).trans ?_
      simpa [candidate] using collected.candidates.append_right _
    · exact forall_pushCandidate ((Domain.fresh_new _).push _) (fun domain fresh => fresh.push _) domains
        collected.fresh

/-- Every candidate's location is defined at the scope the selection replicates across; a
node-level property, replicated across the root, needs no location. -/
def CandidatesLocated (nodes : List (PlainNodeId × NodeConfig)) (replication : ReplicationProperty)
    (isCandidate : PlainNodeId → NodeConfig → Bool) : Prop :=
  ∀ scope minimum, replicateAcross replication = some (scope, minimum) →
    ∀ node ∈ nodes, isCandidate node.1 node.2 = true → scope = .root ∨ node.2.location.isScopeDefined scope = true

theorem collect_ok {nodes : List (PlainNodeId × NodeConfig)} {scope : LocationScope} {minimum : Nat}
    (across : replicateAcross replication = some (scope, minimum))
    (located : CandidatesLocated nodes replication isCandidate) :
    ∃ domains, nodes.foldlM (collectNode replication scope isCandidate isWriteable options) [] = .ok domains ∧
      Collected options isCandidate isWriteable nodes domains := by
  refine List.foldlM_except_ok (Collected options isCandidate isWriteable) nodes
    ⟨by simp [candidatesOf], by simp⟩ fun taken domains node isPrefix collected => ?_
  have member : node ∈ nodes := isPrefix.subset (List.mem_append_right _ (List.mem_singleton_self node))
  exact collectNode_collected (located scope minimum across node member) collected

/-! ### Sorting -/

@[simp] theorem sortCandidates_isTopPriority (domain : Domain) :
    (sortCandidates domain).isTopPriority = domain.isTopPriority := rfl

theorem sortCandidates_perm (domain : Domain) : (sortCandidates domain).candidates.Perm domain.candidates :=
  List.perm_insertionSort _ _

theorem Domain.Fresh.sortCandidates {domain : Domain} (fresh : domain.Fresh) : (sortCandidates domain).Fresh :=
  ⟨fresh.total, fresh.writeable, by simpa [(sortCandidates_perm domain).mem_iff] using fresh.flagged⟩

theorem getLast?_sortCandidates {domain : Domain} (distinct : (domain.candidates.map (·.nodeId)).Nodup)
    {top : CandidateNode} (member : top ∈ domain.candidates) (isTop : top.selectionPriority = .top)
    (onlyTop : ∀ node ∈ domain.candidates, node.selectionPriority = .top → node = top) :
    (sortCandidates domain).candidates.getLast? = some top := by
  have greatest : ∀ node ∈ domain.candidates, node ≠ top → node.cmp top ≠ .gt ∧ ¬ top.cmp node ≠ .gt := by
    intro node inDomain other
    have notTop : node.selectionPriority ≠ .top := fun nodeTop => other (onlyTop node inDomain nodeTop)
    rw [CandidateNode.cmp_of_top_right isTop notTop, CandidateNode.cmp_of_top_left isTop]
    exact ⟨by decide, by decide⟩
  have once : top ∉ domain.candidates.erase top := (distinct.of_map _).not_mem_erase
  rw [sortCandidates, List.insertionSort_eq_erase_append greatest once member]
  simp

/-! ### The sorted domains -/

/-- The candidates' node ids. -/
def candidateIds (nodes : List (PlainNodeId × NodeConfig)) (isCandidate : PlainNodeId → NodeConfig → Bool) :
    List PlainNodeId :=
  (nodes.filter fun node => isCandidate node.1 node.2).map Prod.fst

theorem candidateIds_nodup {nodes : List (PlainNodeId × NodeConfig)} (distinct : (nodes.map Prod.fst).Nodup)
    (isCandidate : PlainNodeId → NodeConfig → Bool) : (candidateIds nodes isCandidate).Nodup :=
  ((List.filter_sublist).map Prod.fst).nodup distinct

section Sorted

variable {nodes : List (PlainNodeId × NodeConfig)} {domains : List (DomainPath × Domain)}
  (collected : Collected options isCandidate isWriteable nodes domains)
include collected

theorem Collected.ids : ((candidatesOf domains).map (·.nodeId)).Perm (candidateIds nodes isCandidate) := by
  simpa [candidateIds, Function.comp_def] using collected.candidates.map (·.nodeId)

theorem Collected.remainingIds_sorted :
    (remainingIds (domains.map fun entry => sortCandidates entry.2)).Perm (candidateIds nodes isCandidate) := by
  refine List.Perm.trans ?_ collected.ids
  simp only [remainingIds, candidatesOf, List.flatMap_map, List.map_flatMap]
  exact List.Perm.flatMap_left _ fun entry _ => (sortCandidates_perm entry.2).map _

theorem Collected.fresh_sorted : ∀ domain ∈ domains.map (fun entry => sortCandidates entry.2), domain.Fresh := by
  intro domain member
  obtain ⟨entry, inDomains, rfl⟩ := List.mem_map.mp member
  exact Domain.Fresh.sortCandidates (collected.fresh entry inDomains)

theorem Collected.top_iff {node : CandidateNode} (member : node ∈ candidatesOf domains) :
    node.selectionPriority = .top ↔ options.topPriorityNode = some node.nodeId := by
  obtain ⟨seen, -, rfl⟩ := List.mem_map.mp (collected.candidates.subset member)
  exact candidateOf_top_iff

theorem Collected.flagged_last (distinct : (nodes.map Prod.fst).Nodup) :
    ∀ domain ∈ domains.map (fun entry => sortCandidates entry.2), domain.isTopPriority = true →
      ∃ node, domain.candidates.getLast? = some node ∧ options.topPriorityNode = some node.nodeId := by
  intro domain member flagged
  obtain ⟨entry, inDomains, rfl⟩ := List.mem_map.mp member
  rw [sortCandidates_isTopPriority] at flagged
  obtain ⟨top, inEntry, isTop⟩ := (collected.fresh entry inDomains).flagged.mp flagged
  have inAll : ∀ node ∈ entry.2.candidates, node ∈ candidatesOf domains :=
    fun node inner => List.mem_flatMap.mpr ⟨entry, inDomains, inner⟩
  have allDistinct : ((candidatesOf domains).map (·.nodeId)).Nodup :=
    collected.ids.nodup_iff.mpr (candidateIds_nodup distinct isCandidate)
  have entryDistinct : (entry.2.candidates.map (·.nodeId)).Nodup := by
    rw [candidatesOf, List.map_flatMap] at allDistinct
    exact (List.nodup_flatMap.mp allDistinct).1 entry inDomains
  have topId := (collected.top_iff (inAll top inEntry)).mp isTop
  have onlyTop : ∀ node ∈ entry.2.candidates, node.selectionPriority = .top → node = top := by
    intro node inner nodeTop
    have nodeId := (collected.top_iff (inAll node inner)).mp nodeTop
    rw [topId] at nodeId
    exact List.inj_on_of_nodup_map entryDistinct inner inEntry (Option.some.inj nodeId).symm
  exact ⟨top, getLast?_sortCandidates entryDistinct inEntry isTop onlyTop, topId⟩

theorem Collected.exists_flagged {top : PlainNodeId} (isTop : options.topPriorityNode = some top)
    (candidate : top ∈ candidateIds nodes isCandidate) :
    ∃ domain ∈ domains.map (fun entry => sortCandidates entry.2), domain.isTopPriority = true := by
  obtain ⟨node, inFilter, rfl⟩ := List.mem_map.mp candidate
  have made : candidateOf options isWriteable node.1 node.2 ∈ candidatesOf domains :=
    collected.candidates.symm.subset (List.mem_map_of_mem inFilter)
  obtain ⟨entry, inDomains, inEntry⟩ := List.mem_flatMap.mp made
  have flagged := (collected.fresh entry inDomains).flagged.mpr ⟨_, inEntry, candidateOf_top_iff.mpr isTop⟩
  exact ⟨sortCandidates entry.2, List.mem_map_of_mem inDomains, flagged⟩

end Sorted

/-! ### The replication property -/

theorem distinctReplicationFactors_go_eq_nil :
    ∀ {scopes : List LocationScope} {prevFactor : Nat},
      ReplicationProperty.distinctReplicationFactors.go replication scopes prevFactor = [] →
      ∀ scope ∈ scopes, ∀ factor, replication.factors scope = some factor → factor = prevFactor
  | [], _, _ => by simp
  | scope :: rest, prevFactor, empty => by
    intro other member factor found
    unfold ReplicationProperty.distinctReplicationFactors.go at empty
    cases defined : replication.factors scope with
    | none =>
      simp only [defined] at empty
      rcases List.mem_cons.mp member with rfl | inRest
      · rw [defined] at found
        cases found
      · exact distinctReplicationFactors_go_eq_nil empty other inRest factor found
    | some kept =>
      simp only [defined] at empty
      by_cases same : kept = prevFactor
      · rw [if_pos same] at empty
        rcases List.mem_cons.mp member with rfl | inRest
        · rw [defined] at found
          cases found
          exact same
        · exact distinctReplicationFactors_go_eq_nil empty other inRest factor found
      · rw [if_neg same] at empty
        cases empty

theorem distinctReplicationFactors_ne_nil (wellFormed : replication.WellFormed) :
    replication.distinctReplicationFactors ≠ [] := by
  intro empty
  obtain ⟨scope, factor, found⟩ := wellFormed.nonEmpty
  have notRoot : scope ≠ .root := fun root => by
    rw [root, wellFormed.noRoot] at found
    cases found
  have walked : scope ∈ [LocationScope.region, .zone, .node] := by
    cases scope <;> simp_all
  have zero := distinctReplicationFactors_go_eq_nil empty scope walked factor found
  have positive := (wellFormed.inRange scope factor found).1
  omega

theorem replicateAcross_isSome (wellFormed : replication.WellFormed) : (replicateAcross replication).isSome := by
  cases factors : replication.distinctReplicationFactors with
  | nil => exact absurd factors (distinctReplicationFactors_ne_nil wellFormed)
  | cons first rest =>
    simp [replicateAcross, factors]
    split
    · rfl
    · -- a wider scope than the node needs the narrowest factor, which a non-empty list has
      obtain ⟨last, found⟩ := Option.isSome_iff_exists.mp (List.getLast?_isSome.mpr (List.cons_ne_nil first rest))
      rw [found]
      rfl

theorem numCopies_bounds (wellFormed : replication.WellFormed) {numCopies : Nat}
    (copies : replication.numCopies = some numCopies) : 0 < numCopies ∧ numCopies < 256 := by
  obtain ⟨largest, found, isLargest⟩ := wellFormed.numCopies
  rw [copies, Option.some.injEq] at found
  subst found
  obtain ⟨scope, atScope⟩ := isLargest.1
  exact wellFormed.inRange scope numCopies atScope

theorem minTotalNodes_eq {targetSize numCopies : Nat} (positive : 0 < numCopies) (small : numCopies < 256) :
    minTotalNodes targetSize numCopies = max targetSize (max (2 * numCopies - 1) (numCopies + 1)) := by
  have wrapped : (numCopies * 2 + 2 ^ 32 - 1) % 2 ^ 32 = 2 * numCopies - 1 := by omega
  rw [minTotalNodes, wrapped]
  omega

/-! ### The selection -/

theorem select_eq {nodes : List (PlainNodeId × NodeConfig)} {orderAll orderWriteable : PopOrder Domain}
    {scope : LocationScope} {minimum : Nat} (across : replicateAcross replication = some (scope, minimum))
    {numCopies : Nat} (copies : replication.numCopies = some numCopies) {collected : List (DomainPath × Domain)}
    (ran : nodes.foldlM (collectNode replication scope isCandidate isWriteable options) [] = .ok collected)
    {domains : List Domain} {output : NodeSet}
    (first : chooseDomains orderAll false minimum (minTotalNodes options.targetSize numCopies)
      (collected.map fun entry => sortCandidates entry.2) NodeSet.empty = some (domains, output))
    {domains' : List Domain} {output' : NodeSet}
    (second : chooseDomains orderWriteable true minimum (minTotalNodes options.targetSize numCopies) domains output =
      some (domains', output')) :
    DomainAwareNodeSetSelector.select nodes replication isCandidate isWriteable options orderAll orderWriteable =
      some (if output'.nodes.length < numCopies then .error (.insufficientNodes output'.nodes.length numCopies)
        else .ok output') := by
  simp [DomainAwareNodeSetSelector.select, across, copies, ran, first, second]
  split <;> rfl

theorem candidatesLocated_root {nodes : List (PlainNodeId × NodeConfig)} {minimum : Nat}
    (across : replicateAcross replication = some (.root, minimum)) : CandidatesLocated nodes replication isCandidate := by
  intro scope found replicated _ _ _
  rw [across, Option.some.injEq, Prod.mk.injEq] at replicated
  exact .inl replicated.1.symm

/-- The run of `select` on located candidates: its nodeset, before the final check, holds distinct
candidates within the size limit, as many as the first phase wants, and the top-priority node
whenever that node is a candidate. -/
theorem select_nodeset (nodes : List (PlainNodeId × NodeConfig)) (replication : ReplicationProperty)
    (isCandidate isWriteable : PlainNodeId → NodeConfig → Bool) (options : NodeSetSelectorOptions)
    (orderAll orderWriteable : PopOrder Domain) {numCopies : Nat}
    (distinct : (nodes.map Prod.fst).Nodup) (wellFormed : replication.WellFormed)
    (copies : replication.numCopies = some numCopies) (located : CandidatesLocated nodes replication isCandidate)
    (lawful : orderAll.Lawful (ordDomainCmp false)) :
    ∃ output : NodeSet,
      DomainAwareNodeSetSelector.select nodes replication isCandidate isWriteable options orderAll orderWriteable =
        some (if output.nodes.length < numCopies then .error (.insufficientNodes output.nodes.length numCopies)
          else .ok output) ∧
      output.nodes ⊆ candidateIds nodes isCandidate ∧ output.nodes.length ≤ (candidateIds nodes isCandidate).length ∧
      output.nodes.length ≤ maxNodesetSize ∧
      min (candidateIds nodes isCandidate).length (min (minTotalNodes options.targetSize numCopies) (maxNodesetSize / 2)) ≤
        output.nodes.length ∧
      ∀ top, options.topPriorityNode = some top → top ∈ candidateIds nodes isCandidate → top ∈ output.nodes := by
  obtain ⟨⟨scope, minimum⟩, across⟩ := Option.isSome_iff_exists.mp (replicateAcross_isSome wellFormed)
  have collect : ∃ domains, nodes.foldlM (collectNode replication scope isCandidate isWriteable options) [] = .ok domains ∧
      Collected options isCandidate isWriteable nodes domains := collect_ok across located
  obtain ⟨collected, ran, built⟩ := collect
  have ids := candidateIds_nodup distinct isCandidate
  have positive : 0 < minTotalNodes options.targetSize numCopies :=
    Nat.lt_of_lt_of_le (Nat.succ_pos _) (Nat.le_max_left _ _)
  have fresh : ∀ domain ∈ collected.map (fun entry => sortCandidates entry.2), domain.numTotalPicked = 0 :=
    fun domain member => (built.fresh_sorted domain member).total
  obtain ⟨domains, output, first, all, large, bounded⟩ := chooseDomains_first minimum
    (minTotalNodes options.targetSize numCopies) ids lawful built.remainingIds_sorted fresh
  obtain ⟨domains', output', second, within, bounded', grown⟩ := chooseDomains_second orderWriteable true minimum
    (minTotalNodes options.targetSize numCopies) ids all.subperm bounded
  have grows : output.nodes.length ≤ output'.nodes.length := (List.subperm_of_subset output.nodup grown).length_le
  have among := (List.sublist_append_left output'.nodes (remainingIds domains')).subperm.trans within
  refine ⟨output', select_eq across copies ran first second, among.subset, among.length_le, bounded', by omega, ?_⟩
  intro top isTop candidate
  have flaggedLast : ∀ domain ∈ collected.map (fun entry => sortCandidates entry.2), domain.isTopPriority = true →
      ∃ node, domain.candidates.getLast? = some node ∧ node.nodeId = top := by
    intro domain member flagged
    obtain ⟨node, last, nodeTop⟩ := built.flagged_last distinct domain member flagged
    rw [isTop, Option.some.injEq] at nodeTop
    exact ⟨node, last, nodeTop.symm⟩
  exact grown (mem_chooseDomains_first lawful positive fresh flaggedLast (built.exists_flagged isTop candidate) first)

theorem select_returns_sized_nodeset (nodes : List (PlainNodeId × NodeConfig)) (replication : ReplicationProperty)
    (isCandidate isWriteable : PlainNodeId → NodeConfig → Bool) (options : NodeSetSelectorOptions)
    (orderAll orderWriteable : PopOrder Domain) (numCopies : Nat)
    (distinct : (nodes.map Prod.fst).Nodup) (wellFormed : replication.WellFormed)
    (copies : replication.numCopies = some numCopies) (located : CandidatesLocated nodes replication isCandidate)
    (lawful : orderAll.Lawful (ordDomainCmp false)) :
    ∃ result, DomainAwareNodeSetSelector.select nodes replication isCandidate isWriteable options orderAll orderWriteable =
        some result ∧
      (∀ error, result = .error error →
        ∃ nodesetLen, nodesetLen < numCopies ∧ error = .insufficientNodes nodesetLen numCopies) ∧
      (∀ nodeset, result = .ok nodeset →
        numCopies ≤ (candidateIds nodes isCandidate).length ∧ nodeset.nodes ⊆ candidateIds nodes isCandidate ∧
        nodeset.nodes.length ≤ maxNodesetSize ∧
        (max options.targetSize (max (2 * numCopies - 1) (numCopies + 1)) < maxNodesetSize / 2 →
          min (candidateIds nodes isCandidate).length (max options.targetSize (max (2 * numCopies - 1) (numCopies + 1))) ≤
            nodeset.nodes.length) ∧
        ∀ top, options.topPriorityNode = some top → top ∈ candidateIds nodes isCandidate → top ∈ nodeset.nodes) ∧
      (numCopies ≤ maxNodesetSize / 2 →
        ((∃ nodeset, result = .ok nodeset) ↔ numCopies ≤ (candidateIds nodes isCandidate).length)) := by
  obtain ⟨output, selected, among, atMost, bounded, large, hasTop⟩ := select_nodeset nodes replication isCandidate
    isWriteable options orderAll orderWriteable distinct wellFormed copies located lawful
  obtain ⟨positive, small⟩ := numCopies_bounds wellFormed copies
  rw [minTotalNodes_eq positive small] at large
  refine ⟨_, selected, ?_, ?_, ?_⟩
  · intro error failed
    split at failed
    · next short =>
      cases failed
      exact ⟨_, short, rfl⟩
    · cases failed
  · intro nodeset succeeded
    split at succeeded
    · cases succeeded
    · next enough =>
      cases succeeded
      exact ⟨by omega, among, bounded, fun _ => by omega, hasTop⟩
  · intro fits
    constructor
    · rintro ⟨nodeset, succeeded⟩
      split at succeeded
      · cases succeeded
      · next enough => omega
    · -- the first phase alone picks more than the copies, or every candidate
      intro enough
      have notShort : ¬ output.nodes.length < numCopies := by omega
      exact ⟨output, by rw [if_neg notShort]⟩

def twoCopies : NonZeroU8 := ⟨2, by decide, by decide⟩

/-- Three nodes at the root, node 1 the top-priority node. -/
def threeNodes : List (PlainNodeId × NodeConfig) :=
  [(⟨1⟩, ⟨NodeLocation.new, .readWrite⟩), (⟨2⟩, ⟨NodeLocation.new, .readWrite⟩), (⟨3⟩, ⟨NodeLocation.new, .readWrite⟩)]

def topNodeOne : NodeSetSelectorOptions := ⟨0, some ⟨1⟩, none, fun _ => 0, fun _ => 0⟩

theorem select_three_nodes_two_copies :
    ∃ result, DomainAwareNodeSetSelector.select threeNodes (ReplicationProperty.new twoCopies) (fun _ _ => true)
        (fun _ _ => true) topNodeOne (PopOrder.firstDominant (ordDomainCmp false))
        (PopOrder.firstDominant (ordDomainCmp true)) = some result ∧
      (∀ error, result = .error error → ∃ nodesetLen, nodesetLen < 2 ∧ error = .insufficientNodes nodesetLen 2) ∧
      (∀ nodeset, result = .ok nodeset →
        2 ≤ (candidateIds threeNodes fun _ _ => true).length ∧ nodeset.nodes ⊆ candidateIds threeNodes (fun _ _ => true) ∧
        nodeset.nodes.length ≤ maxNodesetSize ∧
        (max topNodeOne.targetSize (max (2 * 2 - 1) (2 + 1)) < maxNodesetSize / 2 →
          min (candidateIds threeNodes fun _ _ => true).length (max topNodeOne.targetSize (max (2 * 2 - 1) (2 + 1))) ≤
            nodeset.nodes.length) ∧
        ∀ top, topNodeOne.topPriorityNode = some top → top ∈ candidateIds threeNodes (fun _ _ => true) →
          top ∈ nodeset.nodes) ∧
      (2 ≤ maxNodesetSize / 2 →
        ((∃ nodeset, result = .ok nodeset) ↔ 2 ≤ (candidateIds threeNodes fun _ _ => true).length)) :=
  select_returns_sized_nodeset threeNodes (ReplicationProperty.new twoCopies) (fun _ _ => true) (fun _ _ => true)
    topNodeOne (PopOrder.firstDominant (ordDomainCmp false)) (PopOrder.firstDominant (ordDomainCmp true)) 2
    (by decide) (ReplicationProperty.new_wellFormed twoCopies) rfl (candidatesLocated_root rfl)
    (PopOrder.firstDominant_lawful _)

/-- Sixty-five candidates at the root, none of them writeable. -/
def unwriteableNodes : List (PlainNodeId × NodeConfig) :=
  (List.range 65).map fun index => (⟨index + 1⟩, ⟨NodeLocation.new, .readWrite⟩)

def sixtyFiveCopies : NonZeroU8 := ⟨65, by decide, by decide⟩

/-- With more copies than half the size limit, enough located candidates do not make the selection
succeed: the first phase stops at 64 nodes and the second adds no unwriteable node. -/
theorem select_fails_with_enough_candidates :
    (unwriteableNodes.map Prod.fst).Nodup ∧
      CandidatesLocated unwriteableNodes (ReplicationProperty.new sixtyFiveCopies) (fun _ _ => true) ∧
      (ReplicationProperty.new sixtyFiveCopies).numCopies = some 65 ∧
      65 ≤ (candidateIds unwriteableNodes fun _ _ => true).length ∧
      DomainAwareNodeSetSelector.select unwriteableNodes (ReplicationProperty.new sixtyFiveCopies) (fun _ _ => true)
          (fun _ _ => false) ⟨0, none, none, fun _ => 0, fun _ => 0⟩ (PopOrder.firstDominant (ordDomainCmp false))
          (PopOrder.firstDominant (ordDomainCmp true)) =
        some (.error (.insufficientNodes 64 65)) :=
  ⟨by decide, candidatesLocated_root rfl, rfl, by decide, rfl⟩

end NodeSetSelector

end Restate
