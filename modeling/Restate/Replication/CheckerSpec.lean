import Restate.Replication.CheckerQuorum
import Restate.Lib.ListInsert

/-! What the checks of `NodeSetChecker` decide, stated over the nodes and their attributes rather
than over the counters. At a scope, the domains of the nodes whose attribute matches a predicate
form a write quorum when they are at least as many as the replication factor, and
`check_write_quorum` decides exactly that at every scope. The domains here are those the checker
records for each node; `CheckerPlacement` reads them off the nodes' locations. -/

namespace Restate

namespace NodeSetChecker

variable {Attr : Type} [DecidableEq Attr]

/-- The failure domains, at the scope of `state`, of the nodes whose attribute matches. -/
def matchingDomains (checker : NodeSetChecker Attr) (state : LocationScopeState Attr)
    (predicate : Attr → Bool) : Finset String :=
  (checker.nodes.filterMap fun node =>
    if (checker.nodeToAttr.lookup node).any predicate then state.nodeToFd.lookup node
    else none).toFinset

omit [DecidableEq Attr] in
theorem mem_matchingDomains {checker : NodeSetChecker Attr} {state : LocationScopeState Attr}
    {predicate : Attr → Bool} {domain : String} :
    domain ∈ checker.matchingDomains state predicate ↔
      ∃ node ∈ checker.nodes, state.nodeToFd.lookup node = some domain ∧
        ∃ attr, checker.nodeToAttr.lookup node = some attr ∧ predicate attr = true := by
  simp only [matchingDomains, List.mem_toFinset, List.mem_filterMap, Option.any_eq_true]
  constructor
  · rintro ⟨node, member, found⟩
    split at found
    · rename_i matched
      obtain ⟨attr, attrIs, satisfied⟩ := matched
      exact ⟨node, member, found, attr, attrIs, satisfied⟩
    · cases found
  · rintro ⟨node, member, located, attr, attrIs, satisfied⟩
    exact ⟨node, member, by rw [if_pos ⟨attr, attrIs, satisfied⟩, located]⟩

end NodeSetChecker

namespace LocationScopeState

variable {Attr : Type} [DecidableEq Attr]

theorem insertMatches_eq {replicationFactor : Nat} :
    ∀ (domains matched : List String), matched.length < replicationFactor →
      insertMatches replicationFactor domains matched =
        if replicationFactor ≤ (domains.insertAll matched).length then none
        else some (domains.insertAll matched)
  | [], matched, below => by simp [insertMatches, Nat.not_le.mpr below]
  | domain :: rest, matched, below => by
    simp only [insertMatches, List.insertAll_cons]
    by_cases reached : replicationFactor ≤ (matched.insert domain).length
    · have grown := List.length_le_insertAll rest (matched.insert domain)
      simp [reached, Nat.le_trans reached grown]
    · rw [if_neg reached]
      exact insertMatches_eq rest _ (Nat.not_le.mp reached)

omit [DecidableEq Attr] in
theorem checkWriteQuorumFrom_eq (predicate : Attr → Bool) {replicationFactor : Nat} :
    ∀ (entries : List (Σ _ : Attr, List String)) (matched : List String),
      matched.length < replicationFactor →
      checkWriteQuorumFrom predicate replicationFactor entries matched =
        decide (replicationFactor ≤
          (((entries.filter (predicate ·.1)).flatMap (·.2)).insertAll matched).length)
  | [], matched, below => by simp [checkWriteQuorumFrom, Nat.not_le.mpr below]
  | ⟨attr, domains⟩ :: rest, matched, below => by
    by_cases satisfied : predicate attr = true
    · simp only [checkWriteQuorumFrom, satisfied, if_true, insertMatches_eq domains matched below,
        List.filter_cons, List.flatMap_cons, List.insertAll_append]
      by_cases reached : replicationFactor ≤ (domains.insertAll matched).length
      · have grown := List.length_le_insertAll
          ((rest.filter (predicate ·.1)).flatMap (·.2)) (domains.insertAll matched)
        simp [reached, Nat.le_trans reached grown]
      · simp only [reached, if_false]
        exact checkWriteQuorumFrom_eq predicate rest _ (Nat.not_le.mp reached)
    · simp only [checkWriteQuorumFrom, satisfied, List.filter_cons]
      exact checkWriteQuorumFrom_eq predicate rest matched below

end LocationScopeState

namespace NodeSetChecker

variable {Attr : Type} [DecidableEq Attr]

theorem ScopeInvariant.mem_replicationSets_iff {checker : NodeSetChecker Attr}
    {state : LocationScopeState Attr} (invariant : checker.ScopeInvariant state)
    (predicate : Attr → Bool) (domain : String) :
    domain ∈ (state.replicationFds.entries.filter (predicate ·.1)).flatMap (·.2) ↔
      domain ∈ checker.matchingDomains state predicate := by
  rw [mem_matchingDomains]
  constructor
  · simp only [List.mem_flatMap, List.mem_filter]
    rintro ⟨entry, ⟨inEntries, satisfied⟩, inEntry⟩
    exact invariant.matching_of_replicationSet predicate inEntries satisfied inEntry
  · rintro ⟨node, member, located, attr, attrIs, satisfied⟩
    have nonZero : (state.countOf domain attr).numReadableNodes ≠ 0 := by
      rw [invariant.exact]
      simp only [recountAt, recount]
      exact Nat.pos_iff_ne_zero.mp (List.countP_pos_iff.mpr ⟨node, member, by simp [located, attrIs]⟩)
    have inSet := (invariant.consistent.replicationSet attr domain).mpr nonZero
    simp only [KeyMap.members] at inSet
    cases stored : state.replicationFds.lookup attr with
    | none => simp [stored] at inSet
    | some set =>
      rw [stored, Option.getD_some] at inSet
      simp only [List.mem_flatMap, List.mem_filter]
      exact ⟨⟨attr, set⟩, ⟨AList.mem_lookup_iff.mp stored, satisfied⟩, inSet⟩

theorem ScopeInvariant.checkWriteQuorum_iff {checker : NodeSetChecker Attr}
    {state : LocationScopeState Attr} (invariant : checker.ScopeInvariant state)
    (positive : 0 < state.replicationFactor) (predicate : Attr → Bool) :
    state.checkWriteQuorum predicate = true ↔
      state.replicationFactor ≤ (checker.matchingDomains state predicate).card := by
  rw [LocationScopeState.checkWriteQuorum,
    LocationScopeState.checkWriteQuorumFrom_eq predicate _ [] positive, decide_eq_true_iff,
    List.length_insertAll_nil]
  have same : ((state.replicationFds.entries.filter (predicate ·.1)).flatMap (·.2)).toFinset =
      checker.matchingDomains state predicate := by
    ext domain
    rw [List.mem_toFinset]
    exact invariant.mem_replicationSets_iff predicate domain
  rw [same]

theorem checkWriteQuorum_iff {checker : NodeSetChecker Attr} (invariant : checker.Invariant)
    (positive : ∀ scope state, checker.scopes scope = some state → 0 < state.replicationFactor)
    (predicate : Attr → Bool) :
    checker.checkWriteQuorum predicate = true ↔
      ∀ scope state, checker.scopes scope = some state →
        state.replicationFactor ≤ (checker.matchingDomains state predicate).card := by
  rw [checkWriteQuorum, List.all_eq_true]
  constructor
  · intro quorum scope state found
    have atScope := quorum scope (LocationScope.mem_ascending scope)
    rw [found] at atScope
    exact ((invariant.scopes scope state found).checkWriteQuorum_iff
      (positive scope state found) predicate).mp atScope
  · intro spread scope _
    cases found : checker.scopes scope with
    | none => rfl
    | some state =>
      exact ((invariant.scopes scope state found).checkWriteQuorum_iff
        (positive scope state found) predicate).mpr (spread scope state found)

/-- The calls after `new` change attributes and counters only: the nodes, their storage states,
the scopes, their replication factors and their domains stay as `new` made them. -/
structure SameFrame (checker checker' : NodeSetChecker Attr) : Prop where
  storage : checker'.nodeToStorageState = checker.nodeToStorageState
  scopes : ∀ scope state', checker'.scopes scope = some state' →
    ∃ state, checker.scopes scope = some state ∧ state.SameShape state'

omit [DecidableEq Attr] in
theorem SameFrame.refl (checker : NodeSetChecker Attr) : SameFrame checker checker :=
  ⟨rfl, fun _ state found => ⟨state, found, ⟨rfl, rfl, fun _ => rfl⟩⟩⟩

omit [DecidableEq Attr] in
theorem SameFrame.trans {checker checker' checker'' : NodeSetChecker Attr}
    (first : SameFrame checker checker') (second : SameFrame checker' checker'') :
    SameFrame checker checker'' := by
  refine ⟨second.storage.trans first.storage, fun scope state'' found'' => ?_⟩
  obtain ⟨state', found', shape'⟩ := second.scopes scope state'' found''
  obtain ⟨state, found, shape⟩ := first.scopes scope state' found'
  exact ⟨state, found, shape.trans shape'⟩

omit [DecidableEq Attr] in
theorem mapScopes_sameFrame (checker : NodeSetChecker Attr)
    {update : LocationScope → LocationScopeState Attr → LocationScopeState Attr}
    (shape : ∀ scope (state : LocationScopeState Attr), state.SameShape (update scope state)) :
    SameFrame checker (checker.mapScopes update) := by
  refine ⟨rfl, fun scope state' found' => ?_⟩
  rw [mapScopes_scopes, Option.map_eq_some_iff] at found'
  obtain ⟨state, found, rfl⟩ := found'
  exact ⟨state, found, shape scope state⟩

theorem setAttribute_sameFrame (checker : NodeSetChecker Attr) (node : PlainNodeId)
    (attr : Attr) : SameFrame checker (checker.setAttribute node attr) := by
  have rm := fun (checker : NodeSetChecker Attr) storageState oldAttribute =>
    mapScopes_sameFrame checker
      (fun _ state => LocationScopeState.rmAttr_sameShape state node oldAttribute storageState)
  have add := fun (checker : NodeSetChecker Attr) storageState =>
    mapScopes_sameFrame checker
      (fun _ state => LocationScopeState.addAttr_sameShape state node attr storageState)
  have record : SameFrame checker
      { checker with nodeToAttr := checker.nodeToAttr.insert node attr } :=
    ⟨rfl, fun _ state found => ⟨state, found, ⟨rfl, rfl, fun _ => rfl⟩⟩⟩
  unfold setAttribute
  dsimp only
  split
  · exact SameFrame.refl checker
  · split
    · split
      · exact record
      · exact (record.trans (rm _ _ _)).trans (add _ _)
    · exact record.trans (add _ _)

theorem setAttributeOnEach_sameFrame (checker : NodeSetChecker Attr) (nodes : List PlainNodeId)
    (attr : Attr) : SameFrame checker (checker.setAttributeOnEach nodes attr) := by
  induction nodes generalizing checker with
  | nil => exact SameFrame.refl checker
  | cons node rest ih => exact (setAttribute_sameFrame checker node attr).trans (ih _)

theorem CheckerOp.apply_sameFrame [Merge Attr] [Inhabited Attr] (checker : NodeSetChecker Attr)
    (op : CheckerOp Attr) : SameFrame checker (op.apply checker) := by
  cases op with
  | setAttribute node attr => exact setAttribute_sameFrame checker node attr
  | setAttributeOnEach nodes attr => exact setAttributeOnEach_sameFrame checker nodes attr
  | mergeAttribute node attr =>
    simp only [CheckerOp.apply, mergeAttribute]
    split
    · exact SameFrame.refl checker
    · split
      · split
        · exact setAttribute_sameFrame checker node _
        · exact SameFrame.refl checker
      · exact setAttribute_sameFrame checker node _
  | fillWith attr => exact setAttributeOnEach_sameFrame checker _ attr
  | fillWithDefault => exact setAttributeOnEach_sameFrame checker _ default

theorem CheckerOp.run_sameFrame [Merge Attr] [Inhabited Attr] (checker : NodeSetChecker Attr)
    (ops : List (CheckerOp Attr)) :
    SameFrame checker (ops.foldl (fun checker op => op.apply checker) checker) := by
  induction ops generalizing checker with
  | nil => exact SameFrame.refl checker
  | cons op rest ih => exact (CheckerOp.apply_sameFrame checker op).trans (ih _)

theorem copiesAtScope_pos {replication : ReplicationProperty}
    (positive : ∀ scope factor, replication.factors scope = some factor → 0 < factor)
    {scope : LocationScope} {factor : Nat} (copies : replication.copiesAtScope scope = some factor) :
    0 < factor := by
  unfold ReplicationProperty.copiesAtScope at copies
  split at copies
  · obtain ⟨narrowest, _, defined⟩ := List.exists_of_findSome?_eq_some copies
    exact positive narrowest factor defined
  · exact positive scope factor copies

end NodeSetChecker

end Restate
