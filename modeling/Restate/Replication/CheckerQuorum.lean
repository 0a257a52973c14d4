import Restate.Replication.CheckerInvariant

/-! Quorum intersection for `NodeSetChecker`. A domain is complete for a predicate when every
node in it carries an attribute satisfying the predicate; `count_matching_domains` counts no more
than the complete domains, and `check_write_quorum` succeeds at a scope only with as many domains
holding a matching node as the replication factor. An f-majority for `P` then meets every write
quorum for a `Q` that no attribute satisfies together with `P`. -/

namespace Restate

namespace NodeSetChecker

variable {Attr : Type} [DecidableEq Attr]

def isCompleteDomain (checker : NodeSetChecker Attr) (state : LocationScopeState Attr)
    (predicate : Attr → Bool) (domain : String) : Bool :=
  checker.nodes.all fun node =>
    !(state.nodeToFd.lookup node == some domain) || (checker.nodeToAttr.lookup node).any predicate

def hasMatchingNode (checker : NodeSetChecker Attr) (state : LocationScopeState Attr)
    (predicate : Attr → Bool) (domain : String) : Bool :=
  checker.nodes.any fun node =>
    state.nodeToFd.lookup node == some domain && (checker.nodeToAttr.lookup node).any predicate

end NodeSetChecker

namespace LocationScopeState

variable {Attr : Type} [DecidableEq Attr]

omit [DecidableEq Attr] in
theorem matchingNodes_eq (predicate : Attr → Bool) (entries : List (Σ _ : Attr, Count))
    (numAuthNodes numNonAuthNodes : Nat) :
    matchingNodes predicate entries numAuthNodes numNonAuthNodes =
      (numAuthNodes + ((entries.filter (predicate ·.1)).map (·.2.numAuthoritativeNodes)).sum,
        numNonAuthNodes + ((entries.filter (predicate ·.1)).map (·.2.numNonAuthNodes)).sum) := by
  induction entries generalizing numAuthNodes numNonAuthNodes with
  | nil => simp [matchingNodes]
  | cons entry rest ih =>
      obtain ⟨attr, counters⟩ := entry
      by_cases matched : predicate attr = true
      · simp only [matchingNodes, matched, if_true, ih, List.filter_cons, List.map_cons,
          List.sum_cons, Prod.mk.injEq]
        omega
      · simp [matchingNodes, matched, ih]

theorem insertMatches_some {replicationFactor : Nat} :
    ∀ (domains matched result : List String), matched.Nodup →
      insertMatches replicationFactor domains matched = some result →
        result.Nodup ∧ ∀ domain ∈ result, domain ∈ domains ∨ domain ∈ matched := by
  intro domains
  induction domains with
  | nil =>
      intro matched result nodup inserted
      simp only [insertMatches, Option.some.injEq] at inserted
      subst result
      exact ⟨nodup, fun domain member => Or.inr member⟩
  | cons domain rest ih =>
      intro matched result nodup inserted
      simp only [insertMatches] at inserted
      split at inserted
      · simp at inserted
      · obtain ⟨resultNodup, within⟩ := ih _ result nodup.insert inserted
        refine ⟨resultNodup, fun other member => ?_⟩
        rcases within other member with early | later
        · exact Or.inl (List.mem_cons_of_mem domain early)
        · rcases List.mem_insert_iff.mp later with same | old
          · exact Or.inl (same ▸ List.mem_cons_self)
          · exact Or.inr old

theorem insertMatches_none {replicationFactor : Nat} :
    ∀ (domains matched : List String), matched.Nodup →
      insertMatches replicationFactor domains matched = none →
        ∃ final : List String, final.Nodup ∧ replicationFactor ≤ final.length ∧
          ∀ domain ∈ final, domain ∈ domains ∨ domain ∈ matched := by
  intro domains
  induction domains with
  | nil =>
      intro matched _ inserted
      simp [insertMatches] at inserted
  | cons domain rest ih =>
      intro matched nodup inserted
      have grown : ∀ other ∈ matched.insert domain, other ∈ domain :: rest ∨ other ∈ matched := by
        intro other member
        rcases List.mem_insert_iff.mp member with same | old
        · exact Or.inl (same ▸ List.mem_cons_self)
        · exact Or.inr old
      simp only [insertMatches] at inserted
      split at inserted
      · rename_i reached
        exact ⟨matched.insert domain, nodup.insert, reached, grown⟩
      · obtain ⟨final, finalNodup, bound, within⟩ := ih _ nodup.insert inserted
        refine ⟨final, finalNodup, bound, fun other member => ?_⟩
        rcases within other member with early | later
        · exact Or.inl (List.mem_cons_of_mem domain early)
        · exact grown other later

omit [DecidableEq Attr] in
theorem checkWriteQuorumFrom_true (predicate : Attr → Bool) (replicationFactor : Nat) :
    ∀ (entries : List (Σ _ : Attr, List String)) (matched : List String), matched.Nodup →
      checkWriteQuorumFrom predicate replicationFactor entries matched = true →
        ∃ final : List String, final.Nodup ∧ replicationFactor ≤ final.length ∧
          ∀ domain ∈ final, domain ∈ matched ∨
            ∃ entry ∈ entries, predicate entry.1 = true ∧ domain ∈ entry.2 := by
  intro entries
  induction entries with
  | nil =>
      intro matched _ checked
      simp [checkWriteQuorumFrom] at checked
  | cons entry rest ih =>
      obtain ⟨attr, domains⟩ := entry
      intro matched nodup checked
      have skip : ∀ final : List String, (∀ domain ∈ final, domain ∈ matched ∨
          ∃ entry ∈ rest, predicate entry.1 = true ∧ domain ∈ entry.2) →
          ∀ domain ∈ final, domain ∈ matched ∨ ∃ entry ∈ (⟨attr, domains⟩ :: rest : List _),
            predicate entry.1 = true ∧ domain ∈ entry.2 := by
        intro final within domain member
        rcases within domain member with old | ⟨entry, inRest, satisfied, inEntry⟩
        · exact Or.inl old
        · exact Or.inr ⟨entry, List.mem_cons_of_mem _ inRest, satisfied, inEntry⟩
      simp only [checkWriteQuorumFrom] at checked
      split at checked
      · rename_i satisfied
        split at checked
        · rename_i reached
          obtain ⟨final, finalNodup, bound, within⟩ := insertMatches_none domains matched nodup reached
          refine ⟨final, finalNodup, bound, fun domain member => ?_⟩
          rcases within domain member with fresh | old
          · exact Or.inr ⟨⟨attr, domains⟩, List.mem_cons_self, satisfied, fresh⟩
          · exact Or.inl old
        · rename_i result inserted
          obtain ⟨resultNodup, resultWithin⟩ := insertMatches_some domains matched result nodup inserted
          obtain ⟨final, finalNodup, bound, within⟩ := ih result resultNodup checked
          refine ⟨final, finalNodup, bound, fun domain member => ?_⟩
          rcases within domain member with old | later
          · rcases resultWithin domain old with fresh | older
            · exact Or.inr ⟨⟨attr, domains⟩, List.mem_cons_self, satisfied, fresh⟩
            · exact Or.inl older
          · rcases later with ⟨entry, inRest, entrySatisfied, inEntry⟩
            exact Or.inr ⟨entry, List.mem_cons_of_mem _ inRest, entrySatisfied, inEntry⟩
      · obtain ⟨final, finalNodup, bound, within⟩ := ih matched nodup checked
        exact ⟨final, finalNodup, bound, skip final within⟩

end LocationScopeState

namespace NodeSetChecker

variable {Attr : Type} [DecidableEq Attr]

theorem ScopeInvariant.matching_sum {checker : NodeSetChecker Attr}
    {state : LocationScopeState Attr} (invariant : checker.ScopeInvariant state) {domain : String}
    {fd : FailureDomainState Attr} (found : state.failureDomains.lookup domain = some fd)
    (predicate : Attr → Bool) (value : Count → Nat) (extra : StorageState → Bool)
    (valueEq : ∀ attr, value (state.countOf domain attr) = checker.nodes.countP fun node =>
      checker.nodeToAttr.lookup node == some attr &&
        (state.nodeToFd.lookup node == some domain && extra (checker.storageStateOf node))) :
    ((fd.perAttributeCounter.entries.filter (predicate ·.1)).map (value ·.2)).sum =
      checker.nodes.countP fun node =>
        (state.nodeToFd.lookup node == some domain &&
          (checker.nodeToAttr.lookup node).any predicate) && extra (checker.storageStateOf node) := by
  let matched := fd.perAttributeCounter.entries.filter (predicate ·.1)
  have nodup : (matched.map Sigma.fst).Nodup :=
    fd.perAttributeCounter.nodupKeys.sublist List.filter_sublist
  have counts : ∀ entry ∈ matched, value entry.2 = checker.nodes.countP fun node =>
      checker.nodeToAttr.lookup node == some entry.1 &&
        (state.nodeToFd.lookup node == some domain && extra (checker.storageStateOf node)) := by
    intro entry member
    have stored : fd.perAttributeCounter.lookup entry.1 = some entry.2 :=
      AList.mem_lookup_iff.mpr (List.mem_filter.mp member).1
    rw [← valueEq entry.1, LocationScopeState.countOf_of_lookup found, stored, Option.getD_some]
  rw [List.sum_map_entries _ _ _ nodup value counts]
  apply List.countP_congr
  intro node member
  simp only [Bool.and_eq_true, decide_eq_true_eq, beq_iff_eq, Option.any_eq_true]
  constructor
  · rintro ⟨⟨entry, inMatched, attrIs⟩, located, extraHolds⟩
    exact ⟨⟨located, entry.1, attrIs, (List.mem_filter.mp inMatched).2⟩, extraHolds⟩
  · rintro ⟨⟨located, attr, attrIs, satisfied⟩, extraHolds⟩
    refine ⟨?_, located, extraHolds⟩
    have present : attr ∈ fd.perAttributeCounter := by
      by_contra missing
      have zero : (state.countOf domain attr).numReadableNodes = 0 := by
        rw [LocationScopeState.countOf_of_lookup found, AList.lookup_eq_none.mpr missing]
        rfl
      rw [invariant.exact domain attr] at zero
      simp only [recountAt, recount, List.countP_eq_zero] at zero
      exact zero node member (by simp [located, attrIs])
    obtain ⟨count, stored⟩ := Option.isSome_iff_exists.mp (AList.lookup_isSome.mpr present)
    exact ⟨⟨attr, count⟩, List.mem_filter.mpr ⟨AList.mem_lookup_iff.mp stored, satisfied⟩, attrIs⟩

theorem ScopeInvariant.complete_of_counted {checker : NodeSetChecker Attr}
    {state : LocationScopeState Attr} (invariant : checker.ScopeInvariant state) {domain : String}
    {fd : FailureDomainState Attr} (found : state.failureDomains.lookup domain = some fd)
    (predicate : Attr → Bool)
    (counted : (0 < (LocationScopeState.matchingNodes predicate fd.perAttributeCounter.entries 0 0).1 ∧
        fd.nonEmptyNodes ≤ (LocationScopeState.matchingNodes predicate fd.perAttributeCounter.entries 0 0).1) ∨
      (0 < (LocationScopeState.matchingNodes predicate fd.perAttributeCounter.entries 0 0).2 ∧
        fd.nonEmptyNodes ≤ (LocationScopeState.matchingNodes predicate fd.perAttributeCounter.entries 0 0).2)) :
    checker.isCompleteDomain state predicate domain = true := by
  have authSum := invariant.matching_sum found predicate (·.numAuthoritativeNodes)
    StorageState.isAuthoritative (fun attr => by
      rw [invariant.exact domain attr]
      apply List.countP_congr
      intro node _
      simp only [Bool.and_eq_true, beq_iff_eq]
      tauto)
  have nonAuthSum := invariant.matching_sum found predicate (·.numNonAuthNodes)
    (fun storageState => !storageState.isAuthoritative) (fun attr => by
      rw [invariant.exact domain attr]
      simp only [Count.numNonAuthNodes, recountAt, recount]
      rw [List.countP_sub_countP_and]
      apply List.countP_congr
      intro node _
      simp only [Bool.and_eq_true, beq_iff_eq]
      tauto)
  have numNodes := (invariant.numNodes domain fd found).1
  have matchingLe : (checker.nodes.countP fun node => state.nodeToFd.lookup node == some domain &&
      (checker.nodeToAttr.lookup node).any predicate) ≤
      checker.nodes.countP fun node => state.nodeToFd.lookup node == some domain :=
    List.countP_mono_left fun node _ holds => by
      simp only [Bool.and_eq_true] at holds
      exact holds.1
  have authLe : (checker.nodes.countP fun node => (state.nodeToFd.lookup node == some domain &&
      (checker.nodeToAttr.lookup node).any predicate) && (checker.storageStateOf node).isAuthoritative) ≤
      checker.nodes.countP fun node => state.nodeToFd.lookup node == some domain &&
        (checker.nodeToAttr.lookup node).any predicate :=
    List.countP_mono_left fun node _ holds => by
      simp only [Bool.and_eq_true] at holds ⊢
      exact holds.1
  have nonAuthLe : (checker.nodes.countP fun node => (state.nodeToFd.lookup node == some domain &&
      (checker.nodeToAttr.lookup node).any predicate) && !(checker.storageStateOf node).isAuthoritative) ≤
      checker.nodes.countP fun node => state.nodeToFd.lookup node == some domain &&
        (checker.nodeToAttr.lookup node).any predicate :=
    List.countP_mono_left fun node _ holds => by
      simp only [Bool.and_eq_true] at holds ⊢
      exact holds.1
  have enough : (checker.nodes.countP fun node => state.nodeToFd.lookup node == some domain) ≤
      checker.nodes.countP fun node => state.nodeToFd.lookup node == some domain &&
        (checker.nodeToAttr.lookup node).any predicate := by
    rw [LocationScopeState.matchingNodes_eq] at counted
    simp only [Nat.zero_add, FailureDomainState.nonEmptyNodes] at counted
    rw [authSum, nonAuthSum, numNodes] at counted
    rcases counted with ⟨_, bound⟩ | ⟨_, bound⟩ <;> omega
  have all := List.imp_of_countP_le (fun node _ holds => by
    simp only [Bool.and_eq_true] at holds
    exact holds.1) enough
  rw [isCompleteDomain, List.all_eq_true]
  intro node member
  by_cases located : (state.nodeToFd.lookup node == some domain) = true
  · have matched := all node member located
    simp only [Bool.and_eq_true] at matched
    simp [matched.2]
  · simp [located]

theorem ScopeInvariant.countMatchingDomainsFrom_le {checker : NodeSetChecker Attr}
    {state : LocationScopeState Attr} (invariant : checker.ScopeInvariant state)
    (predicate : Attr → Bool) (entries : List (Σ _ : String, FailureDomainState Attr))
    (stored : ∀ entry ∈ entries, state.failureDomains.lookup entry.1 = some entry.2)
    (numCompletedAuthDomains numCompletedNonAuthDomains : Nat) :
    (LocationScopeState.countMatchingDomainsFrom predicate entries numCompletedAuthDomains
        numCompletedNonAuthDomains).1 +
      (LocationScopeState.countMatchingDomainsFrom predicate entries numCompletedAuthDomains
        numCompletedNonAuthDomains).2 ≤
      numCompletedAuthDomains + numCompletedNonAuthDomains +
        (entries.filter fun entry => checker.isCompleteDomain state predicate entry.1).length := by
  induction entries generalizing numCompletedAuthDomains numCompletedNonAuthDomains with
  | nil => simp [LocationScopeState.countMatchingDomainsFrom]
  | cons entry rest ih =>
      obtain ⟨domain, fd⟩ := entry
      have found : state.failureDomains.lookup domain = some fd := stored _ List.mem_cons_self
      have restStored : ∀ entry ∈ rest, state.failureDomains.lookup entry.1 = some entry.2 :=
        fun entry member => stored entry (List.mem_cons_of_mem _ member)
      have positive := (invariant.numNodes domain fd found).2
      have completeOf := invariant.complete_of_counted found predicate
      simp only [LocationScopeState.countMatchingDomainsFrom, List.filter_cons]
      by_cases empty : fd.isEmpty = true
      · have noNodes : fd.numNodes = 0 := by simpa [FailureDomainState.isEmpty] using empty
        omega
      rw [if_neg empty]
      split
      · rename_i counted
        have complete := completeOf (Or.inl counted)
        have step := ih restStored (numCompletedAuthDomains + 1) numCompletedNonAuthDomains
        simp only [complete, if_true, List.length_cons]
        omega
      · split
        · rename_i notAuth counted
          have complete := completeOf (Or.inr counted)
          have step := ih restStored numCompletedAuthDomains (numCompletedNonAuthDomains + 1)
          simp only [complete, if_true, List.length_cons]
          omega
        · have step := ih restStored numCompletedAuthDomains numCompletedNonAuthDomains
          split
          · simp only [List.length_cons]
            omega
          · omega

theorem ScopeInvariant.countMatchingDomains_le {checker : NodeSetChecker Attr}
    {state : LocationScopeState Attr} (invariant : checker.ScopeInvariant state)
    (predicate : Attr → Bool) :
    (state.countMatchingDomains predicate).1 + (state.countMatchingDomains predicate).2 ≤
      (state.failureDomains.keys.filter (checker.isCompleteDomain state predicate)).length := by
  have bound := invariant.countMatchingDomainsFrom_le predicate state.failureDomains.entries
    (fun entry member => AList.mem_lookup_iff.mpr member) 0 0
  have sameLength : (state.failureDomains.entries.filter fun entry =>
      checker.isCompleteDomain state predicate entry.1).length =
      (state.failureDomains.keys.filter (checker.isCompleteDomain state predicate)).length := by
    rw [AList.keys, List.keys, List.filter_map, List.length_map]
    rfl
  simpa [LocationScopeState.countMatchingDomains, sameLength] using bound

theorem ScopeInvariant.matching_of_replicationSet {checker : NodeSetChecker Attr}
    {state : LocationScopeState Attr} (invariant : checker.ScopeInvariant state)
    (predicate : Attr → Bool) {entry : Σ _ : Attr, List String}
    (inEntries : entry ∈ state.replicationFds.entries) (satisfied : predicate entry.1 = true)
    {domain : String} (inEntry : domain ∈ entry.2) :
    ∃ node ∈ checker.nodes, state.nodeToFd.lookup node = some domain ∧
      ∃ attr, checker.nodeToAttr.lookup node = some attr ∧ predicate attr = true := by
  have stored : state.replicationFds.lookup entry.1 = some entry.2 :=
    AList.mem_lookup_iff.mpr inEntries
  have members : state.replicationFds.members entry.1 = entry.2 := by
    simp [KeyMap.members, stored]
  have nonZero := (invariant.consistent.replicationSet entry.1 domain).mp (members ▸ inEntry)
  rw [invariant.exact] at nonZero
  simp only [recountAt, recount] at nonZero
  obtain ⟨node, member, holds⟩ := List.countP_pos_iff.mp (Nat.pos_of_ne_zero nonZero)
  simp only [Bool.and_eq_true, beq_iff_eq] at holds
  exact ⟨node, member, holds.1, entry.1, holds.2, satisfied⟩

theorem ScopeInvariant.no_write_quorum {checker : NodeSetChecker Attr}
    {state : LocationScopeState Attr} (invariant : checker.ScopeInvariant state)
    (p q : Attr → Bool) (disjoint : ∀ attr, ¬(p attr = true ∧ q attr = true))
    (fMajority : state.failureDomains.entries.length - state.replicationFactor + 1 ≤
      (state.countMatchingDomains p).1 + (state.countMatchingDomains p).2) :
    state.checkWriteQuorum q = false := by
  rw [Bool.eq_false_iff]
  intro quorum
  obtain ⟨final, finalNodup, bound, within⟩ :=
    LocationScopeState.checkWriteQuorumFrom_true q _ _ [] List.nodup_nil quorum
  have matching : ∀ domain ∈ final, ∃ node ∈ checker.nodes,
      state.nodeToFd.lookup node = some domain ∧
        ∃ attr, checker.nodeToAttr.lookup node = some attr ∧ q attr = true := by
    intro domain member
    rcases within domain member with nothing | ⟨entry, inEntries, satisfied, inEntry⟩
    · simp at nothing
    · exact invariant.matching_of_replicationSet q inEntries satisfied inEntry
  have completeNodup :
      (state.failureDomains.keys.filter (checker.isCompleteDomain state p)).Nodup :=
    state.failureDomains.keys_nodup.filter _
  have apart : ∀ domain ∈ state.failureDomains.keys.filter (checker.isCompleteDomain state p),
      domain ∉ final := by
    intro domain complete member
    obtain ⟨node, nodeMember, located, attr, attrIs, satisfiesQ⟩ := matching domain member
    have allMatch := List.all_eq_true.mp (List.mem_filter.mp complete).2 node nodeMember
    simp only [located, beq_self_eq_true, Bool.not_true, Bool.false_or, attrIs,
      Option.any_some] at allMatch
    exact disjoint attr ⟨allMatch, satisfiesQ⟩
  have finalSub : final ⊆ state.failureDomains.keys := by
    intro domain member
    obtain ⟨node, _, located, _⟩ := matching domain member
    exact AList.mem_keys.mp (invariant.nodeToFd node domain located).2
  have sameLength : state.failureDomains.keys.length = state.failureDomains.entries.length := by
    simp [AList.keys, List.keys]
  have counted := invariant.countMatchingDomains_le p
  have small : final.length < state.replicationFactor :=
    List.length_lt_of_fMajority completeNodup finalNodup apart List.filter_sublist.subset
      finalSub (by omega)
  exact absurd bound (Nat.not_le.mpr small)

omit [DecidableEq Attr] in
theorem fmajorityFrom_some {predicate : Attr → Bool} :
    ∀ {states : List (LocationScopeState Attr)} {sufficient : Bool},
      fmajorityFrom predicate states = some sufficient →
        ∃ state ∈ states, state.failureDomains.entries.length - state.replicationFactor + 1 ≤
          (state.countMatchingDomains predicate).1 + (state.countMatchingDomains predicate).2 := by
  intro states
  induction states with
  | nil => simp [fmajorityFrom]
  | cons state rest ih =>
      intro sufficient found
      simp only [fmajorityFrom] at found
      split at found
      · rename_i reached
        exact ⟨state, List.mem_cons_self, reached⟩
      · obtain ⟨other, member, reached⟩ := ih found
        exact ⟨other, List.mem_cons_of_mem state member, reached⟩

omit [DecidableEq Attr] in
theorem checkFmajority_passed {checker : NodeSetChecker Attr} {predicate : Attr → Bool}
    (passed : (checker.checkFmajority predicate).passed = true) :
    ∃ sufficient, fmajorityFrom predicate (LocationScope.ascending.filterMap checker.scopes) =
      some sufficient := by
  unfold checkFmajority at passed
  split at passed
  · exact ⟨true, by assumption⟩
  · exact ⟨false, by assumption⟩
  · split at passed <;> simp [FMajorityResult.passed] at passed

end NodeSetChecker

/-- Quorum intersection: after `new` and any sequence of attribute updates, when the nodes whose
attribute satisfies `p` pass the f-majority check, the nodes whose attribute satisfies `q` do not
form a write quorum, for every `q` that no attribute satisfies together with `p`. -/
theorem fmajority_intersects_write_quorum {Attr : Type} [DecidableEq Attr] [Merge Attr]
    [Inhabited Attr] {nodeset : NodeSet} {nodesConfig : NodesConfiguration}
    {replication : ReplicationProperty} {initial : NodeSetChecker Attr}
    (created : NodeSetChecker.new nodeset nodesConfig replication = some initial)
    (ops : List (CheckerOp Attr)) (p q : Attr → Bool)
    (disjoint : ∀ attr, ¬(p attr = true ∧ q attr = true))
    (passed : ((ops.foldl (fun checker op => op.apply checker) initial).checkFmajority p).passed = true) :
    (ops.foldl (fun checker op => op.apply checker) initial).checkWriteQuorum q = false := by
  have invariant := CheckerOp.run_invariant (NodeSetChecker.new_invariant created) ops
  obtain ⟨sufficient, found⟩ := NodeSetChecker.checkFmajority_passed passed
  obtain ⟨state, member, reached⟩ := NodeSetChecker.fmajorityFrom_some found
  obtain ⟨scope, _, stored⟩ := List.mem_filterMap.mp member
  have noQuorum := (invariant.scopes scope state stored).no_write_quorum p q disjoint reached
  rw [NodeSetChecker.checkWriteQuorum, Bool.eq_false_iff]
  intro allScopes
  have atScope := List.all_eq_true.mp allScopes scope (LocationScope.mem_ascending scope)
  simp [stored, noQuorum] at atScope

theorem sealedChecker_no_open_quorum :
    (sealedChecker.checkFmajority id).passed = true ∧
      sealedChecker.checkWriteQuorum (fun sealed => !sealed) = false :=
  ⟨by decide, fmajority_intersects_write_quorum (Option.some_get _).symm
    [CheckerOp.setAttribute ⟨1⟩ true] id (fun sealed => !sealed) (by decide) (by decide)⟩

end Restate
