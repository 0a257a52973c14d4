import Restate.Lib.ListCount
import Restate.Replication.Checker

/-! The representation invariant of `NodeSetChecker`. Every counter equals a recount of the nodes
of its domain that carry its attribute, no emptied counter stays in its map, and each replication
set holds exactly the domains whose counter for that attribute is non-zero. `new` establishes it
and every call of `set_attribute`, `merge_attribute`, `set_attribute_on_each` and `fill_with`
keeps it. -/

namespace Restate

def Count.orDefault (count : Count) : Count := if count.isEmpty then default else count

@[simp] theorem Count.default_numReadableNodes : (default : Count).numReadableNodes = 0 := rfl

@[simp] theorem Count.default_numAuthoritativeNodes :
    (default : Count).numAuthoritativeNodes = 0 := rfl

theorem Count.increment_numReadableNodes {storageState : StorageState}
    (readable : storageState.canReadFrom = true) (count : Count) :
    (count.increment storageState).numReadableNodes = count.numReadableNodes + 1 := by
  simp [Count.increment, readable]

/-- The counter a recount of `nodes` gives: the nodes of `domain` carrying `attr`, and the
authoritative ones among them. -/
def recount {Attr : Type} [DecidableEq Attr] (nodes : List PlainNodeId)
    (storageStateOf : PlainNodeId → StorageState) (attrOf : PlainNodeId → Option Attr)
    (domainOf : PlainNodeId → Option String) (domain : String) (attr : Attr) : Count where
  numReadableNodes := nodes.countP fun node => domainOf node == some domain && attrOf node == some attr
  numAuthoritativeNodes := nodes.countP fun node =>
    domainOf node == some domain && attrOf node == some attr && (storageStateOf node).isAuthoritative

section Recount

variable {Attr : Type} [DecidableEq Attr]

theorem recount_authoritative_le (nodes : List PlainNodeId)
    (storageStateOf : PlainNodeId → StorageState) (attrOf : PlainNodeId → Option Attr)
    (domainOf : PlainNodeId → Option String) (domain : String) (attr : Attr) :
    (recount nodes storageStateOf attrOf domainOf domain attr).numAuthoritativeNodes ≤
      (recount nodes storageStateOf attrOf domainOf domain attr).numReadableNodes := by
  apply List.countP_mono_left
  intro node _ holds
  simp only [Bool.and_eq_true] at holds ⊢
  exact holds.1

theorem recount_update (storageStateOf : PlainNodeId → StorageState)
    (domainOf : PlainNodeId → Option String) {nodes : List PlainNodeId} {node : PlainNodeId}
    (nodup : nodes.Nodup) (mem : node ∈ nodes)
    {attrOf attrOf' : PlainNodeId → Option Attr} (agree : ∀ other, other ≠ node → attrOf other = attrOf' other)
    (domain : String) (attr : Attr) :
    let before := recount nodes storageStateOf attrOf domainOf domain attr
    let after := recount nodes storageStateOf attrOf' domainOf domain attr
    let hit := fun attrOf : PlainNodeId → Option Attr =>
      domainOf node = some domain ∧ attrOf node = some attr
    after.numReadableNodes + (if hit attrOf then 1 else 0) =
        before.numReadableNodes + (if hit attrOf' then 1 else 0) ∧
      after.numAuthoritativeNodes +
          (if hit attrOf ∧ (storageStateOf node).isAuthoritative then 1 else 0) =
        before.numAuthoritativeNodes +
          (if hit attrOf' ∧ (storageStateOf node).isAuthoritative then 1 else 0) := by
  constructor
  · have step := List.countP_update (p := fun node =>
        domainOf node == some domain && attrOf node == some attr)
      (q := fun node => domainOf node == some domain && attrOf' node == some attr) nodup mem
      (fun other _ different => by rw [agree other different])
    simpa [recount] using step
  · have step := List.countP_update (p := fun node =>
        domainOf node == some domain && attrOf node == some attr &&
          (storageStateOf node).isAuthoritative)
      (q := fun node => domainOf node == some domain && attrOf' node == some attr &&
          (storageStateOf node).isAuthoritative) nodup mem
      (fun other _ different => by rw [agree other different])
    simpa [recount, and_assoc] using step

end Recount

namespace LocationScopeState

variable {Attr : Type} [DecidableEq Attr]

def countOf (state : LocationScopeState Attr) (domain : String) (attr : Attr) : Count :=
  match state.failureDomains.lookup domain with
  | some fd => (fd.perAttributeCounter.lookup attr).getD default
  | none => default

structure Consistent (state : LocationScopeState Attr) : Prop where
  counterNonEmpty : ∀ domain fd attr count, state.failureDomains.lookup domain = some fd →
    fd.perAttributeCounter.lookup attr = some count → count.numReadableNodes ≠ 0
  replicationSet : ∀ attr domain,
    domain ∈ state.replicationFds.members attr ↔ (state.countOf domain attr).numReadableNodes ≠ 0
  replicationNodup : ∀ attr, (state.replicationFds.members attr).Nodup
  replicationNonEmpty : state.replicationFds.NoEmptySet

structure SameShape (state state' : LocationScopeState Attr) : Prop where
  nodeToFd : state'.nodeToFd = state.nodeToFd
  replicationFactor : state'.replicationFactor = state.replicationFactor
  numNodes : ∀ domain, (state'.failureDomains.lookup domain).map (·.numNodes) =
    (state.failureDomains.lookup domain).map (·.numNodes)

theorem countOf_of_lookup {state : LocationScopeState Attr} {domain : String}
    {fd : FailureDomainState Attr} (found : state.failureDomains.lookup domain = some fd)
    (a : Attr) : state.countOf domain a = (fd.perAttributeCounter.lookup a).getD default := by
  simp [countOf, found]

theorem countOf_of_lookup_none {state : LocationScopeState Attr} {domain : String}
    (missing : state.failureDomains.lookup domain = none) (a : Attr) :
    state.countOf domain a = default := by
  simp [countOf, missing]

@[simp] theorem default_decrement_orDefault (storageState : StorageState) :
    ((default : Count).decrement storageState).orDefault = default := by
  rfl

theorem rmAttr_countOf (state : LocationScopeState Attr) (node : PlainNodeId) (attr : Attr)
    (storageState : StorageState) (d : String) (a : Attr) :
    (state.rmAttr node attr storageState).countOf d a =
      if state.nodeToFd.lookup node = some d ∧ a = attr then
        ((state.countOf d attr).decrement storageState).orDefault
      else state.countOf d a := by
  cases located : state.nodeToFd.lookup node with
  | none => simp [rmAttr, located]
  | some domain =>
      cases found : state.failureDomains.lookup domain with
      | none =>
          simp only [rmAttr, located, found, Option.some.injEq]
          by_cases hit : domain = d ∧ a = attr
          · obtain ⟨rfl, rfl⟩ := hit
            simp [countOf_of_lookup_none found]
          · rw [if_neg hit]
      | some fd =>
          cases counted : fd.perAttributeCounter.lookup attr with
          | none =>
              simp only [rmAttr, located, found, counted, Option.some.injEq]
              by_cases hit : domain = d ∧ a = attr
              · obtain ⟨rfl, rfl⟩ := hit
                simp [countOf_of_lookup found, counted]
              · rw [if_neg hit]
          | some count =>
              simp only [rmAttr, located, found, counted, Option.some.injEq]
              by_cases same : d = domain
              · subst d
                by_cases attrSame : a = attr
                · subst a
                  split <;> simp_all [countOf, Count.orDefault]
                · split <;> simp [countOf, found, attrSame]
              · split <;> simp [countOf, same, Ne.symm same]

theorem addAttr_countOf (state : LocationScopeState Attr) (node : PlainNodeId) (attr : Attr)
    (storageState : StorageState) (d : String) (a : Attr) :
    (state.addAttr node attr storageState).countOf d a =
      if state.nodeToFd.lookup node = some d ∧ d ∈ state.failureDomains ∧ a = attr then
        (state.countOf d attr).increment storageState
      else state.countOf d a := by
  cases located : state.nodeToFd.lookup node with
  | none => simp [addAttr, located]
  | some domain =>
      cases found : state.failureDomains.lookup domain with
      | none =>
          have missing : domain ∉ state.failureDomains := AList.lookup_eq_none.mp found
          simp only [addAttr, located, found, Option.some.injEq]
          by_cases same : domain = d
          · subst d
            simp [missing]
          · simp [same]
      | some fd =>
          have present : domain ∈ state.failureDomains := AList.lookup_isSome.mp (by simp [found])
          simp only [addAttr, located, found, Option.some.injEq]
          by_cases same : d = domain
          · subst d
            by_cases attrSame : a = attr
            · subst a
              split <;> simp [countOf, found, present]
            · split <;> simp [countOf, found, attrSame]
          · split <;> simp [countOf, same, Ne.symm same]

omit [DecidableEq Attr] in
theorem numNodes_insert_counter {state : LocationScopeState Attr} {domain : String}
    {fd : FailureDomainState Attr} (found : state.failureDomains.lookup domain = some fd)
    (counters : KeyMap Attr Count) (d : String) :
    ((state.failureDomains.insert domain
      { fd with perAttributeCounter := counters }).lookup d).map (·.numNodes) =
      (state.failureDomains.lookup d).map (·.numNodes) := by
  by_cases same : d = domain
  · subst d
    simp [found]
  · simp [AList.lookup_insert_ne same]

theorem rmAttr_sameShape (state : LocationScopeState Attr) (node : PlainNodeId) (attr : Attr)
    (storageState : StorageState) : SameShape state (state.rmAttr node attr storageState) := by
  cases located : state.nodeToFd.lookup node with
  | none => simp [rmAttr, located, SameShape.mk]
  | some domain =>
      cases found : state.failureDomains.lookup domain with
      | none => simp [rmAttr, located, found, SameShape.mk]
      | some fd =>
          cases counted : fd.perAttributeCounter.lookup attr with
          | none => simp [rmAttr, located, found, counted, SameShape.mk]
          | some count =>
              simp only [rmAttr, located, found, counted]
              split
              · exact ⟨rfl, rfl, numNodes_insert_counter found _⟩
              · exact ⟨rfl, rfl, numNodes_insert_counter found _⟩

theorem addAttr_sameShape (state : LocationScopeState Attr) (node : PlainNodeId) (attr : Attr)
    (storageState : StorageState) : SameShape state (state.addAttr node attr storageState) := by
  cases located : state.nodeToFd.lookup node with
  | none => simp [addAttr, located, SameShape.mk]
  | some domain =>
      cases found : state.failureDomains.lookup domain with
      | none => simp [addAttr, located, found, SameShape.mk]
      | some fd =>
          simp only [addAttr, located, found]
          split
          · exact ⟨rfl, rfl, numNodes_insert_counter found _⟩
          · exact ⟨rfl, rfl, numNodes_insert_counter found _⟩

theorem rmAttr_consistent {state : LocationScopeState Attr} (consistent : state.Consistent)
    (node : PlainNodeId) (attr : Attr) (storageState : StorageState) :
    (state.rmAttr node attr storageState).Consistent := by
  cases located : state.nodeToFd.lookup node with
  | none => simpa [rmAttr, located] using consistent
  | some domain =>
      cases found : state.failureDomains.lookup domain with
      | none => simpa [rmAttr, located, found] using consistent
      | some fd =>
          cases counted : fd.perAttributeCounter.lookup attr with
          | none => simpa [rmAttr, located, found, counted] using consistent
          | some count =>
              have current : state.countOf domain attr = count := by
                simp [countOf_of_lookup found, counted]
              have counts := rmAttr_countOf state node attr storageState
              simp only [located, Option.some.injEq] at counts
              by_cases emptied : (count.decrement storageState).isEmpty = true
              · have result : state.rmAttr node attr storageState =
                    { state with
                      failureDomains := state.failureDomains.insert domain
                        { fd with perAttributeCounter := fd.perAttributeCounter.erase attr }
                      replicationFds := state.replicationFds.eraseMember attr domain } := by
                  simp [rmAttr, located, found, counted, emptied]
                refine ⟨?_, ?_, ?_, ?_⟩
                · intro d fd' a c lookupDomain lookupCounter
                  rw [result] at lookupDomain
                  by_cases same : d = domain
                  · subst d
                    simp only [AList.lookup_insert, Option.some.injEq] at lookupDomain
                    subst fd'
                    by_cases attrSame : a = attr
                    · subst a
                      simp at lookupCounter
                    · rw [AList.lookup_erase_ne attrSame] at lookupCounter
                      exact consistent.counterNonEmpty domain fd a c found lookupCounter
                  · rw [AList.lookup_insert_ne same] at lookupDomain
                    exact consistent.counterNonEmpty d fd' a c lookupDomain lookupCounter
                · intro a d
                  rw [counts d a, result, KeyMap.members_eraseMember]
                  by_cases attrSame : a = attr
                  · subst a
                    rw [if_pos rfl, (consistent.replicationNodup attr).mem_erase_iff]
                    by_cases same : d = domain
                    · subst d
                      simp [Count.orDefault, current, emptied]
                    · simp only [same, Ne.symm same, false_and, if_false, ne_eq, not_false_eq_true,
                        true_and]
                      exact consistent.replicationSet attr d
                  · simp only [attrSame, and_false, if_false]
                    exact consistent.replicationSet a d
                · intro a
                  rw [result, KeyMap.members_eraseMember]
                  split
                  · exact (consistent.replicationNodup attr).erase domain
                  · exact consistent.replicationNodup a
                · rw [result]
                  exact KeyMap.eraseMember_noEmptySet consistent.replicationNonEmpty attr domain
              · have result : state.rmAttr node attr storageState =
                    { state with
                      failureDomains := state.failureDomains.insert domain
                        { fd with perAttributeCounter :=
                          fd.perAttributeCounter.insert attr (count.decrement storageState) } } := by
                  simp [rmAttr, located, found, counted, emptied]
                have remaining : (count.decrement storageState).numReadableNodes ≠ 0 := by
                  simpa [Count.isEmpty] using emptied
                refine ⟨?_, ?_, ?_, ?_⟩
                · intro d fd' a c lookupDomain lookupCounter
                  rw [result] at lookupDomain
                  by_cases same : d = domain
                  · subst d
                    simp only [AList.lookup_insert, Option.some.injEq] at lookupDomain
                    subst fd'
                    by_cases attrSame : a = attr
                    · subst a
                      simp only [AList.lookup_insert, Option.some.injEq] at lookupCounter
                      rw [← lookupCounter]
                      exact remaining
                    · rw [AList.lookup_insert_ne attrSame] at lookupCounter
                      exact consistent.counterNonEmpty domain fd a c found lookupCounter
                  · rw [AList.lookup_insert_ne same] at lookupDomain
                    exact consistent.counterNonEmpty d fd' a c lookupDomain lookupCounter
                · intro a d
                  rw [counts d a, result]
                  by_cases hit : domain = d ∧ a = attr
                  · obtain ⟨rfl, rfl⟩ := hit
                    have before := consistent.replicationSet a domain
                    rw [current] at before
                    simp only [and_self, if_true, current, Count.orDefault, emptied,
                      Bool.false_eq_true, if_false]
                    exact ⟨fun _ => remaining, fun _ => before.mpr
                      (consistent.counterNonEmpty domain fd a count found counted)⟩
                  · rw [if_neg hit]
                    exact consistent.replicationSet a d
                · rw [result]
                  exact consistent.replicationNodup
                · rw [result]
                  exact consistent.replicationNonEmpty

theorem addAttr_consistent {state : LocationScopeState Attr} (consistent : state.Consistent)
    (node : PlainNodeId) (attr : Attr) {storageState : StorageState}
    (readable : storageState.canReadFrom = true) :
    (state.addAttr node attr storageState).Consistent := by
  cases located : state.nodeToFd.lookup node with
  | none => simpa [addAttr, located] using consistent
  | some domain =>
      cases found : state.failureDomains.lookup domain with
      | none => simpa [addAttr, located, found] using consistent
      | some fd =>
          have present : domain ∈ state.failureDomains :=
            AList.lookup_isSome.mp (by simp [found])
          let count := (fd.perAttributeCounter.lookup attr).getD default
          have current : state.countOf domain attr = count := countOf_of_lookup found attr
          have counts := addAttr_countOf state node attr storageState
          simp only [located, Option.some.injEq] at counts
          have grown := Count.increment_numReadableNodes readable count
          let updated : FailureDomainState Attr :=
            { fd with perAttributeCounter :=
                fd.perAttributeCounter.insert attr (count.increment storageState) }
          have counterNonEmpty : ∀ d fd' a c,
              (state.failureDomains.insert domain updated).lookup d = some fd' →
                fd'.perAttributeCounter.lookup a = some c → c.numReadableNodes ≠ 0 := by
            intro d fd' a c lookupDomain lookupCounter
            by_cases same : d = domain
            · subst d
              simp only [AList.lookup_insert, Option.some.injEq] at lookupDomain
              subst fd'
              simp only [updated] at lookupCounter
              by_cases attrSame : a = attr
              · subst a
                simp only [AList.lookup_insert, Option.some.injEq] at lookupCounter
                rw [← lookupCounter, grown]
                omega
              · rw [AList.lookup_insert_ne attrSame] at lookupCounter
                exact consistent.counterNonEmpty domain fd a c found lookupCounter
            · rw [AList.lookup_insert_ne same] at lookupDomain
              exact consistent.counterNonEmpty d fd' a c lookupDomain lookupCounter
          by_cases first : (count.increment storageState).numReadableNodes = 1
          · have result : state.addAttr node attr storageState =
                { state with
                  failureDomains := state.failureDomains.insert domain updated
                  replicationFds := state.replicationFds.insertMember attr domain } := by
              simp [addAttr, located, found, first, count, updated]
            refine ⟨?_, ?_, ?_, ?_⟩
            · rw [result]
              exact counterNonEmpty
            · intro a d
              rw [counts d a, result, KeyMap.members_insertMember]
              by_cases attrSame : a = attr
              · subst a
                rw [if_pos rfl, List.mem_insert_iff]
                by_cases same : d = domain
                · subst d
                  simp [present, current, grown]
                · simp only [same, Ne.symm same, false_and, if_false, false_or]
                  exact consistent.replicationSet attr d
              · simp only [attrSame, and_false, if_false]
                exact consistent.replicationSet a d
            · intro a
              rw [result, KeyMap.members_insertMember]
              split
              · exact (consistent.replicationNodup attr).insert
              · exact consistent.replicationNodup a
            · rw [result]
              exact KeyMap.insertMember_noEmptySet consistent.replicationNonEmpty attr domain
          · have result : state.addAttr node attr storageState =
                { state with failureDomains := state.failureDomains.insert domain updated } := by
              simp [addAttr, located, found, first, count, updated]
            have already : domain ∈ state.replicationFds.members attr := by
              rw [consistent.replicationSet, current]
              omega
            refine ⟨?_, ?_, ?_, ?_⟩
            · rw [result]
              exact counterNonEmpty
            · intro a d
              rw [counts d a, result]
              by_cases hit : domain = d ∧ a = attr
              · obtain ⟨rfl, rfl⟩ := hit
                simp only [present, and_self, if_true, current, grown]
                exact ⟨fun _ => by omega, fun _ => already⟩
              · have notHit : ¬(domain = d ∧ d ∈ state.failureDomains ∧ a = attr) :=
                  fun both => hit ⟨both.1, both.2.2⟩
                rw [if_neg notHit]
                exact consistent.replicationSet a d
            · rw [result]
              exact consistent.replicationNodup
            · rw [result]
              exact consistent.replicationNonEmpty

section Exact

variable {nodes : List PlainNodeId} {storageStateOf : PlainNodeId → StorageState}
  {attrOf : PlainNodeId → Option Attr} {node : PlainNodeId} {attr : Attr}

theorem rmAttr_exact {state : LocationScopeState Attr} (nodup : nodes.Nodup) (mem : node ∈ nodes)
    (old : attrOf node = some attr) (readable : (storageStateOf node).canReadFrom = true)
    (exact : ∀ d a, state.countOf d a =
      recount nodes storageStateOf attrOf (state.nodeToFd.lookup ·) d a) (d : String) (a : Attr) :
    (state.rmAttr node attr (storageStateOf node)).countOf d a =
      recount nodes storageStateOf (Function.update attrOf node none) (state.nodeToFd.lookup ·) d a := by
  have agree : ∀ other, other ≠ node → attrOf other = Function.update attrOf node none other :=
    fun other different => (Function.update_of_ne different _ _).symm
  obtain ⟨readableStep, authStep⟩ := recount_update storageStateOf
    (state.nodeToFd.lookup ·) nodup mem agree d a
  rw [rmAttr_countOf]
  by_cases hit : state.nodeToFd.lookup node = some d ∧ a = attr
  · obtain ⟨located, rfl⟩ := hit
    rw [if_pos ⟨located, rfl⟩, exact d a]
    simp only [located, old, Function.update_self, reduceCtorEq, and_false, false_and, if_false,
      and_self, if_true, true_and, Nat.add_zero] at readableStep authStep
    have positive : (recount nodes storageStateOf attrOf (state.nodeToFd.lookup ·) d a).numReadableNodes ≠ 0 := by
      omega
    have decremented : (recount nodes storageStateOf attrOf (state.nodeToFd.lookup ·) d a).decrement
        (storageStateOf node) =
        recount nodes storageStateOf (Function.update attrOf node none) (state.nodeToFd.lookup ·) d a := by
      ext
      · simp only [Count.decrement, positive, if_false, readable, if_true]
        omega
      · simp only [Count.decrement, positive, if_false]
        split
        · rename_i authoritative
          simp only [authoritative, if_true] at authStep
          omega
        · rename_i notAuthoritative
          simp only [notAuthoritative, Bool.false_eq_true, if_false, Nat.add_zero] at authStep
          exact authStep.symm
    rw [decremented, Count.orDefault]
    split
    · rename_i emptied
      have bound := recount_authoritative_le nodes storageStateOf
        (Function.update attrOf node none) (state.nodeToFd.lookup ·) d a
      simp only [Count.isEmpty, beq_iff_eq] at emptied
      ext
      · simp [emptied]
      · simp only [Count.default_numAuthoritativeNodes]
        omega
    · rfl
  · rw [if_neg hit, exact d a]
    have missed : ¬(state.nodeToFd.lookup node = some d ∧ attrOf node = some a) := by
      rintro ⟨located, attrIs⟩
      rw [old, Option.some.injEq] at attrIs
      exact hit ⟨located, attrIs.symm⟩
    simp only [missed, false_and, if_false, Function.update_self, reduceCtorEq, and_false,
      Nat.add_zero] at readableStep authStep
    ext
    · exact readableStep.symm
    · exact authStep.symm

theorem addAttr_exact {state : LocationScopeState Attr}
    (live : ∀ d, state.nodeToFd.lookup node = some d → d ∈ state.failureDomains)
    (nodup : nodes.Nodup) (mem : node ∈ nodes) (fresh : attrOf node = none)
    (readable : (storageStateOf node).canReadFrom = true)
    (exact : ∀ d a, state.countOf d a =
      recount nodes storageStateOf attrOf (state.nodeToFd.lookup ·) d a) (d : String) (a : Attr) :
    (state.addAttr node attr (storageStateOf node)).countOf d a =
      recount nodes storageStateOf (Function.update attrOf node (some attr))
        (state.nodeToFd.lookup ·) d a := by
  have agree : ∀ other, other ≠ node → attrOf other = Function.update attrOf node (some attr) other :=
    fun other different => (Function.update_of_ne different _ _).symm
  obtain ⟨readableStep, authStep⟩ := recount_update storageStateOf
    (state.nodeToFd.lookup ·) nodup mem agree d a
  rw [addAttr_countOf]
  by_cases hit : state.nodeToFd.lookup node = some d ∧ a = attr
  · obtain ⟨located, rfl⟩ := hit
    rw [if_pos ⟨located, live d located, rfl⟩, exact d a]
    simp only [located, fresh, Function.update_self, reduceCtorEq, and_false, if_false, and_self,
      if_true, true_and, Nat.add_zero] at readableStep authStep
    ext
    · simp only [Count.increment, readable, if_true]
      omega
    · simp only [Count.increment]
      split <;> simp_all
  · have notHit : ¬(state.nodeToFd.lookup node = some d ∧ d ∈ state.failureDomains ∧ a = attr) :=
      fun ⟨located, _, attrIs⟩ => hit ⟨located, attrIs⟩
    rw [if_neg notHit, exact d a]
    have missed : ¬(state.nodeToFd.lookup node = some d ∧
        Function.update attrOf node (some attr) node = some a) := by
      rintro ⟨located, attrIs⟩
      rw [Function.update_self, Option.some.injEq] at attrIs
      exact hit ⟨located, attrIs.symm⟩
    simp only [missed, fresh, reduceCtorEq, and_false, false_and, if_false, Nat.add_zero]
      at readableStep authStep
    ext
    · exact readableStep.symm
    · exact authStep.symm

end Exact

end LocationScopeState

theorem LocationScopeState.SameShape.trans {Attr : Type} {state state' state'' : LocationScopeState Attr}
    (first : state.SameShape state') (second : state'.SameShape state'') : state.SameShape state'' :=
  ⟨second.nodeToFd.trans first.nodeToFd, second.replicationFactor.trans first.replicationFactor,
    fun domain => (second.numNodes domain).trans (first.numNodes domain)⟩

theorem LocationScopeState.SameShape.mem_failureDomains {Attr : Type}
    {state state' : LocationScopeState Attr} (shape : state.SameShape state') (domain : String) :
    domain ∈ state'.failureDomains ↔ domain ∈ state.failureDomains := by
  have same := congrArg Option.isSome (shape.numNodes domain)
  simp only [Option.isSome_map] at same
  rw [← AList.lookup_isSome, ← AList.lookup_isSome, same]

namespace NodeSetChecker

variable {Attr : Type} [DecidableEq Attr]

def nodes (checker : NodeSetChecker Attr) : List PlainNodeId := checker.nodeToStorageState.keys

def recountAt (checker : NodeSetChecker Attr) (state : LocationScopeState Attr) :
    String → Attr → Count :=
  recount checker.nodes checker.storageStateOf (checker.nodeToAttr.lookup ·) (state.nodeToFd.lookup ·)

structure ScopeInvariant (checker : NodeSetChecker Attr) (state : LocationScopeState Attr) :
    Prop where
  nodeToFd : ∀ node domain, state.nodeToFd.lookup node = some domain →
    node ∈ checker.nodeToStorageState ∧ domain ∈ state.failureDomains
  numNodes : ∀ domain fd, state.failureDomains.lookup domain = some fd →
    fd.numNodes = checker.nodes.countP (fun node => state.nodeToFd.lookup node == some domain) ∧
      0 < fd.numNodes
  consistent : state.Consistent
  exact : ∀ domain attr, state.countOf domain attr = checker.recountAt state domain attr

structure Invariant (checker : NodeSetChecker Attr) : Prop where
  nonEmpty : ∀ node storageState, checker.nodeToStorageState.lookup node = some storageState →
    storageState.empty = false
  scopes : ∀ scope state, checker.scopes scope = some state → checker.ScopeInvariant state

theorem ScopeInvariant.update {checker checker' : NodeSetChecker Attr}
    {state state' : LocationScopeState Attr} (invariant : checker.ScopeInvariant state)
    (shape : state.SameShape state') (storage : checker'.nodeToStorageState = checker.nodeToStorageState)
    (consistent : state'.Consistent)
    (exact : ∀ domain attr, state'.countOf domain attr = checker'.recountAt state' domain attr) :
    checker'.ScopeInvariant state' := by
  refine ⟨?_, ?_, consistent, exact⟩
  · intro node domain located
    rw [shape.nodeToFd] at located
    obtain ⟨stored, live⟩ := invariant.nodeToFd node domain located
    rw [storage, shape.mem_failureDomains]
    exact ⟨stored, live⟩
  · intro domain fd found
    have before := shape.numNodes domain
    rw [found] at before
    cases previous : state.failureDomains.lookup domain with
    | none => simp [previous] at before
    | some old =>
        simp only [previous, Option.map_some, Option.some.injEq] at before
        rw [nodes, storage, shape.nodeToFd, before]
        exact invariant.numNodes domain old previous

omit [DecidableEq Attr] in
theorem storageStateOf_stored {checker : NodeSetChecker Attr} {node : PlainNodeId}
    (nonEmpty : (checker.storageStateOf node).empty = false) :
    checker.nodeToStorageState.lookup node = some (checker.storageStateOf node) := by
  unfold storageStateOf at nonEmpty ⊢
  cases stored : checker.nodeToStorageState.lookup node with
  | none => simp [stored] at nonEmpty; contradiction
  | some storageState => rfl

omit [DecidableEq Attr] in
theorem mapScopes_scopes (checker : NodeSetChecker Attr)
    (update : LocationScope → LocationScopeState Attr → LocationScopeState Attr)
    (scope : LocationScope) :
    (checker.mapScopes update).scopes scope = (checker.scopes scope).map (update scope) := rfl

theorem recountAt_eq {checker checker' : NodeSetChecker Attr}
    (storage : checker'.nodeToStorageState = checker.nodeToStorageState)
    (state : LocationScopeState Attr) :
    checker'.recountAt state =
      recount checker.nodes checker.storageStateOf (checker'.nodeToAttr.lookup ·)
        (state.nodeToFd.lookup ·) := by
  have sameStorage : checker'.storageStateOf = checker.storageStateOf := by
    funext node
    simp [storageStateOf, storage]
  simp only [recountAt, nodes, storage, sameStorage]

theorem addAttr_scopeInvariant {checker checker' : NodeSetChecker Attr} {node : PlainNodeId}
    {attr : Attr} (invariant : checker.Invariant)
    (nonEmpty : (checker.storageStateOf node).empty = false)
    (storage : checker'.nodeToStorageState = checker.nodeToStorageState)
    (fresh : checker.nodeToAttr.lookup node = none)
    (recorded : (checker'.nodeToAttr.lookup ·) =
      Function.update (checker.nodeToAttr.lookup ·) node (some attr))
    {scope : LocationScope} {state : LocationScopeState Attr}
    (found : checker.scopes scope = some state) :
    checker'.ScopeInvariant (state.addAttr node attr (checker.storageStateOf node)) := by
  have scopeInvariant := invariant.scopes scope state found
  have stored := storageStateOf_stored nonEmpty
  have mem : node ∈ checker.nodes := AList.mem_keys.mp (AList.lookup_isSome.mp (by simp [stored]))
  have readable := StorageState.canReadFrom_of_not_empty nonEmpty
  apply scopeInvariant.update (state.addAttr_sameShape _ _ _) storage
    (state.addAttr_consistent scopeInvariant.consistent node attr readable)
  intro domain a
  rw [recountAt_eq storage, recorded, (state.addAttr_sameShape node attr _).nodeToFd]
  exact LocationScopeState.addAttr_exact
    (fun domain located => (scopeInvariant.nodeToFd node domain located).2)
    checker.nodeToStorageState.keys_nodup mem fresh readable scopeInvariant.exact domain a

theorem setAttribute_invariant {checker : NodeSetChecker Attr} (invariant : checker.Invariant)
    (node : PlainNodeId) (attr : Attr) : (checker.setAttribute node attr).Invariant := by
  by_cases empty : (checker.storageStateOf node).empty = true
  · simpa [setAttribute, empty] using invariant
  have nonEmpty : (checker.storageStateOf node).empty = false := by simpa using empty
  have stored := storageStateOf_stored nonEmpty
  have mem : node ∈ checker.nodes := AList.mem_keys.mp (AList.lookup_isSome.mp (by simp [stored]))
  have readable := StorageState.canReadFrom_of_not_empty nonEmpty
  have recorded := KeyMap.lookup_insert_eq_update checker.nodeToAttr node attr
  cases old : checker.nodeToAttr.lookup node with
  | none =>
      have result : checker.setAttribute node attr =
          ({ checker with nodeToAttr := checker.nodeToAttr.insert node attr }).addAttrInternal node
            attr (checker.storageStateOf node) := by
        simp [setAttribute, nonEmpty, old]
      rw [result]
      refine ⟨invariant.nonEmpty, ?_⟩
      intro scope state' found'
      rw [addAttrInternal, mapScopes_scopes, Option.map_eq_some_iff] at found'
      obtain ⟨state, found, rfl⟩ := found'
      exact addAttr_scopeInvariant invariant nonEmpty (by rfl) old recorded found
  | some oldAttr =>
      by_cases same : oldAttr = attr
      · subst oldAttr
        have result : checker.setAttribute node attr =
            { checker with nodeToAttr := checker.nodeToAttr.insert node attr } := by
          simp [setAttribute, nonEmpty, old]
        rw [result]
        refine ⟨invariant.nonEmpty, ?_⟩
        intro scope state found
        have scopeInvariant := invariant.scopes scope state found
        have unchanged : (fun other => (checker.nodeToAttr.insert node attr).lookup other) =
            (checker.nodeToAttr.lookup ·) := by
          rw [recorded, ← old]
          exact Function.update_eq_self _ _
        refine ⟨scopeInvariant.nodeToFd, scopeInvariant.numNodes, scopeInvariant.consistent, ?_⟩
        intro domain a
        rw [recountAt_eq (by rfl), unchanged]
        exact scopeInvariant.exact domain a
      · have result : checker.setAttribute node attr =
            (({ checker with nodeToAttr := checker.nodeToAttr.insert node attr }).rmAttrInternal
              node oldAttr (checker.storageStateOf node)).addAttrInternal node attr
                (checker.storageStateOf node) := by
          simp [setAttribute, nonEmpty, old, same]
        rw [result]
        refine ⟨invariant.nonEmpty, ?_⟩
        intro scope state'' found''
        simp only [addAttrInternal, rmAttrInternal, mapScopes_scopes, Option.map_map,
          Option.map_eq_some_iff, Function.comp_apply] at found''
        obtain ⟨state, found, rfl⟩ := found''
        have scopeInvariant := invariant.scopes scope state found
        let removed := state.rmAttr node oldAttr (checker.storageStateOf node)
        have removedShape : state.SameShape removed := state.rmAttr_sameShape _ _ _
        have removedExact := fun domain a => LocationScopeState.rmAttr_exact
          checker.nodeToStorageState.keys_nodup mem old readable scopeInvariant.exact domain a
        apply scopeInvariant.update (removedShape.trans (removed.addAttr_sameShape _ _ _)) (by rfl)
          (removed.addAttr_consistent (state.rmAttr_consistent scopeInvariant.consistent _ _ _)
            node attr readable)
        intro domain a
        rw [recountAt_eq (by rfl)]
        change _ = recount checker.nodes checker.storageStateOf
          (fun other => (checker.nodeToAttr.insert node attr).lookup other) _ domain a
        have cleared : Function.update (checker.nodeToAttr.lookup ·) node (some attr) =
            Function.update (Function.update (checker.nodeToAttr.lookup ·) node none) node
              (some attr) := (Function.update_idem _ _ _).symm
        rw [recorded, (removed.addAttr_sameShape node attr _).nodeToFd, cleared]
        refine LocationScopeState.addAttr_exact ?_ checker.nodeToStorageState.keys_nodup mem
          (Function.update_self _ _ _) readable ?_ domain a
        · intro domain located
          rw [removedShape.mem_failureDomains]
          exact (scopeInvariant.nodeToFd node domain (removedShape.nodeToFd ▸ located)).2
        · intro domain a
          rw [removedShape.nodeToFd]
          exact removedExact domain a

theorem setAttributeOnEach_invariant {checker : NodeSetChecker Attr}
    (invariant : checker.Invariant) (nodes : List PlainNodeId) (attr : Attr) :
    (checker.setAttributeOnEach nodes attr).Invariant := by
  induction nodes generalizing checker with
  | nil => exact invariant
  | cons node rest ih => exact ih (setAttribute_invariant invariant node attr)

theorem fillWith_invariant {checker : NodeSetChecker Attr} (invariant : checker.Invariant)
    (attr : Attr) : (checker.fillWith attr).Invariant :=
  setAttributeOnEach_invariant invariant _ attr

theorem mergeAttribute_invariant [Merge Attr] [Inhabited Attr] {checker : NodeSetChecker Attr}
    (invariant : checker.Invariant) (node : PlainNodeId) (attr : Attr) :
    (checker.mergeAttribute node attr).Invariant := by
  by_cases empty : (checker.storageStateOf node).empty = true
  · simpa [mergeAttribute, empty] using invariant
  cases existing : checker.nodeToAttr.lookup node with
  | none => simpa [mergeAttribute, empty, existing] using setAttribute_invariant invariant node _
  | some current =>
      rcases merge : Merge.merge current attr with ⟨merged, changed⟩
      cases changed
      · simpa [mergeAttribute, empty, existing, merge] using invariant
      · simpa [mergeAttribute, empty, existing, merge] using
          setAttribute_invariant invariant node merged

end NodeSetChecker

theorem CheckerOp.apply_invariant {Attr : Type} [DecidableEq Attr] [Merge Attr] [Inhabited Attr]
    {checker : NodeSetChecker Attr} (invariant : checker.Invariant) (op : CheckerOp Attr) :
    (op.apply checker).Invariant := by
  cases op with
  | setAttribute node attr => exact NodeSetChecker.setAttribute_invariant invariant node attr
  | setAttributeOnEach nodes attr =>
      exact NodeSetChecker.setAttributeOnEach_invariant invariant nodes attr
  | mergeAttribute node attr => exact NodeSetChecker.mergeAttribute_invariant invariant node attr
  | fillWith attr => exact NodeSetChecker.fillWith_invariant invariant attr
  | fillWithDefault => exact NodeSetChecker.fillWith_invariant invariant default

theorem CheckerOp.run_invariant {Attr : Type} [DecidableEq Attr] [Merge Attr] [Inhabited Attr]
    {checker : NodeSetChecker Attr} (invariant : checker.Invariant) (ops : List (CheckerOp Attr)) :
    (ops.foldl (fun checker op => op.apply checker) checker).Invariant := by
  induction ops generalizing checker with
  | nil => exact invariant
  | cons op rest ih => exact ih (CheckerOp.apply_invariant invariant op)

namespace NodeSetChecker

variable {Attr : Type} [DecidableEq Attr]

/-- What holds while `new` adds the nodes of the nodeset: no attribute, no counter and no
replication set exists yet, and the domains count their nodes. -/
structure BuildInvariant (checker : NodeSetChecker Attr) : Prop where
  noAttrs : checker.nodeToAttr = ∅
  nonEmpty : ∀ node storageState, checker.nodeToStorageState.lookup node = some storageState →
    storageState.empty = false
  nodeToFd : ∀ scope state, checker.scopes scope = some state → ∀ node domain,
    state.nodeToFd.lookup node = some domain →
      node ∈ checker.nodeToStorageState ∧ domain ∈ state.failureDomains
  numNodes : ∀ scope state, checker.scopes scope = some state → ∀ domain fd,
    state.failureDomains.lookup domain = some fd →
      fd.numNodes = checker.nodes.countP (fun node => state.nodeToFd.lookup node == some domain) ∧
        0 < fd.numNodes
  noCounters : ∀ scope state, checker.scopes scope = some state → ∀ domain fd,
    state.failureDomains.lookup domain = some fd → fd.perAttributeCounter = ∅
  noReplicationFds : ∀ scope state, checker.scopes scope = some state → state.replicationFds = ∅

theorem BuildInvariant.invariant {checker : NodeSetChecker Attr}
    (building : checker.BuildInvariant) : checker.Invariant := by
  refine ⟨building.nonEmpty, fun scope state found => ?_⟩
  have noCount : ∀ domain attr, state.countOf domain attr = default := by
    intro domain attr
    cases located : state.failureDomains.lookup domain with
    | none => exact LocationScopeState.countOf_of_lookup_none located attr
    | some fd =>
        rw [LocationScopeState.countOf_of_lookup located,
          building.noCounters scope state found domain fd located]
        simp
  have noSets := building.noReplicationFds scope state found
  refine ⟨building.nodeToFd scope state found, building.numNodes scope state found, ?_, ?_⟩
  · refine ⟨?_, ?_, ?_, ?_⟩
    · intro domain fd attr count located counted
      rw [building.noCounters scope state found domain fd located] at counted
      simp at counted
    · intro attr domain
      simp [KeyMap.members, noSets, noCount]
    · intro attr
      simp [KeyMap.members, noSets]
    · intro attr domains found
      simp [noSets] at found
  · intro domain attr
    rw [noCount]
    ext <;> simp [recountAt, recount, building.noAttrs]

omit [DecidableEq Attr] in
theorem buildScopes_eq (replication : ReplicationProperty) (scope : LocationScope) :
    (buildScopes replication scope : Option (LocationScopeState Attr)) =
      if scope = .root then none else (replication.copiesAtScope scope).map LocationScopeState.new := by
  unfold buildScopes
  simp only [LocationScope.smallerScopes, List.foldl_cons, List.foldl_nil]
  -- the fold updates the region, zone and node scopes in turn, each when it has a factor
  cases region : replication.copiesAtScope .region <;>
    cases zone : replication.copiesAtScope .zone <;>
    cases node : replication.copiesAtScope .node <;>
    cases scope <;> simp [region, zone, node]

omit [DecidableEq Attr] in
theorem buildScopes_empty (replication : ReplicationProperty) (scope : LocationScope)
    (state : LocationScopeState Attr) (found : buildScopes replication scope = some state) :
    ∃ factor, state = LocationScopeState.new factor := by
  rw [buildScopes_eq] at found
  split at found
  · cases found
  · obtain ⟨factor, _, built⟩ := Option.map_eq_some_iff.mp found
    exact ⟨factor, built.symm⟩

section AddNode

variable {state : LocationScopeState Attr} {keys : List PlainNodeId} {node : PlainNodeId}

omit [DecidableEq Attr] in
theorem addNode_numNodes (domain : String) (fresh : node ∉ keys)
    (located : ∀ node' domain', state.nodeToFd.lookup node' = some domain' →
      node' ∈ keys ∧ domain' ∈ state.failureDomains)
    (counted : ∀ domain' fd, state.failureDomains.lookup domain' = some fd →
      fd.numNodes = keys.countP (fun n => state.nodeToFd.lookup n == some domain') ∧
        0 < fd.numNodes)
    (domain' : String) (fd : FailureDomainState Attr)
    (found : (state.addNode node domain).failureDomains.lookup domain' = some fd) :
    fd.numNodes = (node :: keys).countP
        (fun n => (state.addNode node domain).nodeToFd.lookup n == some domain') ∧
      0 < fd.numNodes := by
  have others : keys.countP (fun n => (state.nodeToFd.insert node domain).lookup n == some domain') =
      keys.countP (fun n => state.nodeToFd.lookup n == some domain') := by
    apply List.countP_congr
    intro n member
    have different : n ≠ node := fun same => fresh (same ▸ member)
    rw [AList.lookup_insert_ne different]
  simp only [LocationScopeState.addNode, List.countP_cons, AList.lookup_insert, others] at found ⊢
  by_cases same : domain' = domain
  · subst domain'
    simp only [AList.lookup_insert, Option.some.injEq] at found
    subst fd
    cases previous : state.failureDomains.lookup domain with
    | none =>
        have nobody : keys.countP (fun n => state.nodeToFd.lookup n == some domain) = 0 := by
          rw [List.countP_eq_zero]
          intro n _ hit
          have live := (located n domain (by simpa using hit)).2
          exact (AList.lookup_eq_none.mp previous) live
        simp [FailureDomainState.increment, nobody]
        rfl
    | some old =>
        have oldCount := counted domain old previous
        simp [FailureDomainState.increment, oldCount.1]
  · rw [AList.lookup_insert_ne same] at found
    have oldCount := counted domain' fd found
    refine ⟨?_, oldCount.2⟩
    simp [Ne.symm same, oldCount.1]

end AddNode

omit [DecidableEq Attr] in
theorem addNode_of_not_empty (checker : NodeSetChecker Attr) (node : PlainNodeId) (location : NodeLocation)
    {storageState : StorageState} (empty : ¬storageState.empty = true) :
    checker.addNode node storageState location =
      { checker.mapScopes (fun scope state =>
          match domainName scope node location with
          | some domain => state.addNode node domain
          | none => state) with
        nodeToStorageState := checker.nodeToStorageState.insert node storageState } := by
  unfold addNode
  exact if_neg empty

omit [DecidableEq Attr] in
theorem addNode_buildInvariant {checker : NodeSetChecker Attr} (building : checker.BuildInvariant)
    (node : PlainNodeId) (fresh : node ∉ checker.nodeToStorageState)
    (storageState : StorageState) (location : NodeLocation) :
    (checker.addNode node storageState location).BuildInvariant := by
  by_cases empty : storageState.empty = true
  · simpa [addNode, empty] using building
  have result := addNode_of_not_empty checker node location empty
  have freshKey : node ∉ checker.nodes := fun member => fresh (AList.mem_keys.mpr member)
  have keys : (checker.addNode node storageState location).nodes = node :: checker.nodes := by
    rw [result, nodes, AList.keys_insert,
      List.erase_of_not_mem (show node ∉ checker.nodeToStorageState.keys from freshKey)]
    rfl
  have unlocated : ∀ scope state, checker.scopes scope = some state →
      state.nodeToFd.lookup node = none := by
    intro scope state found
    cases located : state.nodeToFd.lookup node with
    | none => rfl
    | some domain => exact absurd (building.nodeToFd scope state found node domain located).1 fresh
  refine ⟨?_, ?_, ?_, ?_, ?_, ?_⟩
  · rw [result]
    exact building.noAttrs
  · intro node' storageState' stored
    rw [result] at stored
    by_cases same : node' = node
    · subst node'
      simp only [AList.lookup_insert, Option.some.injEq] at stored
      subst storageState'
      simpa using empty
    · rw [AList.lookup_insert_ne same] at stored
      exact building.nonEmpty node' storageState' stored
  · intro scope state' found' node' domain' located'
    rw [result]
    rw [result, mapScopes_scopes, Option.map_eq_some_iff] at found'
    obtain ⟨state, found, rfl⟩ := found'
    have stored : ∀ n, n ∈ checker.nodeToStorageState →
        n ∈ checker.nodeToStorageState.insert node storageState := fun n member => by
      rw [AList.mem_insert]
      exact Or.inr member
    cases name : domainName scope node location with
    | none =>
        simp only [name] at located' ⊢
        obtain ⟨member, live⟩ := building.nodeToFd scope state found node' domain' located'
        exact ⟨stored node' member, live⟩
    | some domain =>
        simp only [name, LocationScopeState.addNode] at located' ⊢
        by_cases same : node' = node
        · subst node'
          simp only [AList.lookup_insert, Option.some.injEq] at located'
          subst domain'
          simp
        · rw [AList.lookup_insert_ne same] at located'
          obtain ⟨member, live⟩ := building.nodeToFd scope state found node' domain' located'
          refine ⟨stored node' member, ?_⟩
          rw [AList.mem_insert]
          exact Or.inr live
  · intro scope state' found'
    rw [keys]
    rw [result, mapScopes_scopes, Option.map_eq_some_iff] at found'
    obtain ⟨state, found, rfl⟩ := found'
    cases name : domainName scope node location with
    | none =>
        intro domain fd located
        have oldCount := building.numNodes scope state found domain fd located
        refine ⟨?_, oldCount.2⟩
        simp [unlocated scope state found, oldCount.1]
    | some domain =>
        exact addNode_numNodes domain freshKey
          (fun n d hit => ⟨AList.mem_keys.mp (building.nodeToFd scope state found n d hit).1,
            (building.nodeToFd scope state found n d hit).2⟩)
          (building.numNodes scope state found)
  · intro scope state' found' domain' fd' located'
    rw [result, mapScopes_scopes, Option.map_eq_some_iff] at found'
    obtain ⟨state, found, rfl⟩ := found'
    cases name : domainName scope node location with
    | none =>
        simp only [name] at located'
        exact building.noCounters scope state found domain' fd' located'
    | some domain =>
        simp only [name, LocationScopeState.addNode] at located'
        by_cases same : domain' = domain
        · subst domain'
          simp only [AList.lookup_insert, Option.some.injEq] at located'
          subst fd'
          cases previous : state.failureDomains.lookup domain with
          | none => rfl
          | some old => exact building.noCounters scope state found domain old previous
        · rw [AList.lookup_insert_ne same] at located'
          exact building.noCounters scope state found domain' fd' located'
  · intro scope state' found'
    rw [result, mapScopes_scopes, Option.map_eq_some_iff] at found'
    obtain ⟨state, found, rfl⟩ := found'
    cases name : domainName scope node location with
    | none => exact building.noReplicationFds scope state found
    | some domain => exact building.noReplicationFds scope state found

omit [DecidableEq Attr] in
theorem addConfiguredNode_mem {nodesConfig : NodesConfiguration} {checker : NodeSetChecker Attr}
    {node other : PlainNodeId}
    (member : other ∈ (addConfiguredNode nodesConfig checker node).nodeToStorageState) :
    other = node ∨ other ∈ checker.nodeToStorageState := by
  have addNodeMem : ∀ storageState location,
      other ∈ (checker.addNode node storageState location).nodeToStorageState →
        other = node ∨ other ∈ checker.nodeToStorageState := by
    intro storageState location inserted
    unfold addNode at inserted
    split at inserted
    · exact Or.inr inserted
    · exact (AList.mem_insert _).mp inserted
  unfold addConfiguredNode at member
  split at member
  · exact addNodeMem _ _ member
  · exact Or.inr member
  · exact addNodeMem _ _ member

omit [DecidableEq Attr] in
theorem addConfiguredNode_buildInvariant (nodesConfig : NodesConfiguration)
    {checker : NodeSetChecker Attr} (building : checker.BuildInvariant) (node : PlainNodeId)
    (fresh : node ∉ checker.nodeToStorageState) :
    (addConfiguredNode nodesConfig checker node).BuildInvariant := by
  unfold addConfiguredNode
  split
  · exact addNode_buildInvariant building node fresh _ _
  · exact building
  · exact addNode_buildInvariant building node fresh _ _

omit [DecidableEq Attr] in
theorem foldl_addConfiguredNode_buildInvariant (nodesConfig : NodesConfiguration)
    (order : List PlainNodeId) (nodup : order.Nodup) {checker : NodeSetChecker Attr}
    (building : checker.BuildInvariant)
    (fresh : ∀ node ∈ order, node ∉ checker.nodeToStorageState) :
    (order.foldl (addConfiguredNode nodesConfig) checker).BuildInvariant := by
  induction order generalizing checker with
  | nil => exact building
  | cons node rest ih =>
      have parts := List.nodup_cons.mp nodup
      apply ih parts.2 (addConfiguredNode_buildInvariant nodesConfig building node
        (fresh node List.mem_cons_self))
      intro other member added
      rcases addConfiguredNode_mem added with same | old
      · exact parts.1 (same ▸ member)
      · exact fresh other (List.mem_cons_of_mem node member) old

theorem new_invariant {nodeset : NodeSet} {nodesConfig : NodesConfiguration}
    {replication : ReplicationProperty} {checker : NodeSetChecker Attr}
    (created : NodeSetChecker.new nodeset nodesConfig replication = some checker) :
    checker.Invariant := by
  dsimp only [NodeSetChecker.new] at created
  split at created
  · simp at created
  · rw [Option.some.injEq] at created
    subst checker
    apply BuildInvariant.invariant
    apply foldl_addConfiguredNode_buildInvariant nodesConfig _ nodeset.nodup
    · refine ⟨rfl, ?_, ?_, ?_, ?_, ?_⟩
      · intro node storageState stored
        simp at stored
      · intro scope state found
        obtain ⟨factor, rfl⟩ := buildScopes_empty replication scope state found
        intro node domain located
        simp [LocationScopeState.new] at located
      · intro scope state found
        obtain ⟨factor, rfl⟩ := buildScopes_empty replication scope state found
        intro domain fd located
        simp [LocationScopeState.new] at located
      · intro scope state found
        obtain ⟨factor, rfl⟩ := buildScopes_empty replication scope state found
        intro domain fd located
        simp [LocationScopeState.new] at located
      · intro scope state found
        obtain ⟨factor, rfl⟩ := buildScopes_empty replication scope state found
        rfl
    · intro node _ stored
      simp at stored

end NodeSetChecker

/-- After `new` and any sequence of attribute updates, every scope's counters equal a recount of
the nodes of their domain carrying their attribute, and the scope is consistent: no emptied
counter is kept, and each replication set is exactly the set of domains with a non-zero counter
for its attribute, without duplicates, and no empty set is kept. -/
theorem nodeSetChecker_counters_exact {Attr : Type} [DecidableEq Attr] [Merge Attr]
    [Inhabited Attr] {nodeset : NodeSet} {nodesConfig : NodesConfiguration}
    {replication : ReplicationProperty} {initial : NodeSetChecker Attr}
    (created : NodeSetChecker.new nodeset nodesConfig replication = some initial)
    (ops : List (CheckerOp Attr)) (scope : LocationScope) (state : LocationScopeState Attr)
    (found : (ops.foldl (fun checker op => op.apply checker) initial).scopes scope = some state) :
    (∀ domain attr, state.countOf domain attr =
      (ops.foldl (fun checker op => op.apply checker) initial).recountAt state domain attr) ∧
      state.Consistent := by
  have invariant := CheckerOp.run_invariant (NodeSetChecker.new_invariant created) ops
  have scopeInvariant := invariant.scopes scope state found
  exact ⟨scopeInvariant.exact, scopeInvariant.consistent⟩

/-- `N1` and `N2`, read-write and without a location: the nodes of the source's
`nodeset_checker_tight` test, replicated `{node: 2}`. -/
def tightNodesConfig : NodesConfiguration :=
  ⟨fun node => if node.id = 1 ∨ node.id = 2 then some (.node ⟨NodeLocation.new, .readWrite⟩) else none⟩

def tightNodeSet : NodeSet := ⟨[⟨1⟩, ⟨2⟩], by decide⟩

def tightReplication : ReplicationProperty := ⟨fun scope => if scope = .node then some 2 else none⟩

def tightChecker : NodeSetChecker Bool :=
  (NodeSetChecker.new tightNodeSet tightNodesConfig tightReplication).get (by decide)

/-- Scenario A of the test: `N1` is sealed, `N2` has not answered. -/
def sealedChecker : NodeSetChecker Bool :=
  [CheckerOp.setAttribute ⟨1⟩ true].foldl (fun checker op => op.apply checker) tightChecker

def sealedNodeScope : LocationScopeState Bool := (sealedChecker.scopes .node).get (by decide)

theorem sealedNodeScope_counters_exact :
    (∀ domain attr, sealedNodeScope.countOf domain attr =
      sealedChecker.recountAt sealedNodeScope domain attr) ∧ sealedNodeScope.Consistent :=
  nodeSetChecker_counters_exact (Option.some_get _).symm [CheckerOp.setAttribute ⟨1⟩ true] .node
    sealedNodeScope (Option.some_get _).symm

end Restate
